import NovaNas.Base.Mentions
import NovaNas.Base.Trimming
import NovaNas.Replication.Job
import NovaNas.Scrub.Policy
import NovaNas.Zfs.Names

/-!
# What depends on a pool

Before a pool is destroyed, the report on it lists what refers to it. The survey of scrub policies
cuts their pools field its own way, and knows nothing of "*"; that of replication jobs looks for the
name behind a quote in the JSON texts of the job's two ends. So a policy for all pools is never
reported, and a job that only has a path below the pool's mount point is not either, unless
something else in its texts happens to show the name.
-/
namespace NovaNas.PoolDependents

open Mentions Replication Scrub Text

inductive Kind where
  | dataset
  | share
  | iscsiTarget
  | replicationJob
  | replicationSchedule
  | snapshotSchedule
  | scrubPolicy
  | plugin
  deriving DecidableEq, Repr

/-- The key that the deletion endpoint expects. -/
inductive Id where
  | uuid (id : Nat)
  | name (name : String)
  deriving DecidableEq, Repr

structure PoolDependent where
  kind : Kind
  id : Id
  name : String
  detail : String
  enabled : Option Bool
  blocking : Bool
  deriving DecidableEq, Repr

/-! ### Stored jobs -/

/-- The characters of dataset paths, written as they are in every JSON text. -/
def plain (c : Char) : Bool := Zfs.isAllowedComponent c || c == '/' || c == ' '

/-- How a JSON object is written: by `json.Marshal`, or by the database that stores it as `jsonb`
and gives it back with its own blanks and order of keys. -/
structure JsonStyle where
  escaping : Escaping plain
  colon : List Char
  comma : List Char
  order : List (List Char × List Char) → List (List Char × List Char)
  order_perm : ∀ fields, (order fields).Perm fields
  colon_begins : colon.head? = some ':'
  comma_begins : comma.head? = some ','
  colon_bare : '"' ∉ colon
  comma_bare : '"' ∉ comma

namespace JsonStyle

variable (style : JsonStyle)

/-- Keys and values, each with what is written behind it. -/
def members : List (List Char × List Char) → List (List Char × List Char)
  | [] => []
  | [(key, value)] => [(key, style.colon), (value, ['}'])]
  | (key, value) :: rest => (key, style.colon) :: (value, style.comma) :: members rest

def object (fields : List (List Char × List Char)) : List Char :=
  if fields = [] then ['{', '}']
  else '{' :: style.escaping.strings (style.members (style.order fields))

end JsonStyle

/-- What `json.Marshal` writes behind a backslash for a character of a string. -/
def marshalEscape (c : Char) : Option (List Char) :=
  if c = '\\' ∨ c = '"' then some [c]
  else if c = '\x08' then some ['b']
  else if c = '\x0c' then some ['f']
  else if c = '\n' then some ['n']
  else if c = '\r' then some ['r']
  else if c = '\t' then some ['t']
  else if c.toNat < 32 ∨ c = '<' ∨ c = '>' ∨ c = '&' then
    some ['u', '0', '0', Nat.digitChar (c.toNat / 16), Nat.digitChar (c.toNat % 16)]
  else if c = '\u2028' ∨ c = '\u2029' then some ['u', '2', '0', '2', Nat.digitChar (c.toNat % 16)]
  else none

def marshalChar (c : Char) : List Char :=
  match marshalEscape c with
  | some written => '\\' :: written
  | none => [c]

theorem quote_ne_digitChar : ∀ n < 16, '"' ≠ Nat.digitChar n := by decide

variable {c : Char}

theorem quote_not_mem_marshalEscape (ne : c ≠ '"') {written : List Char}
    (escaped : marshalEscape c = some written) : '"' ∉ written := by
  have low := quote_ne_digitChar (c.toNat % 16) (Nat.mod_lt _ (by decide))
  have short (w : Char) (plainly : '"' ≠ w) (same : some [w] = some written) : '"' ∉ written := by
    obtain rfl := Option.some.inj same
    simpa using plainly
  unfold marshalEscape at escaped
  split at escaped
  · exact short c ne.symm escaped
  split at escaped
  · exact short 'b' (by decide) escaped
  split at escaped
  · exact short 'f' (by decide) escaped
  split at escaped
  · exact short 'n' (by decide) escaped
  split at escaped
  · exact short 'r' (by decide) escaped
  split at escaped
  · exact short 't' (by decide) escaped
  split at escaped
  case isTrue control =>
    have high : '"' ≠ Nat.digitChar (c.toNat / 16) := by
      apply quote_ne_digitChar
      rcases control with small | rfl | rfl | rfl
      · omega
      all_goals decide
    obtain rfl := Option.some.inj escaped
    simp [low, high]
  split at escaped
  · obtain rfl := Option.some.inj escaped
    simp [low]
  · cases escaped

theorem marshalEscape_plain (easy : plain c = true) : marshalEscape c = none := by
  have ne (d : Char) (hard : plain d = false) : c ≠ d := by
    rintro rfl
    simp [hard] at easy
  have control : ∀ n < 32, Char.ofNat n = ' ' ∨ plain (Char.ofNat n) = false := by decide
  have large : ¬c.toNat < 32 := by
    intro small
    have same : Char.ofNat c.toNat = c := Char.ofNat_toNat c
    rcases same ▸ control c.toNat small with rfl | hard
    · exact absurd small (by decide)
    · simp [hard] at easy
  unfold marshalEscape
  simp only [ne '\\' (by decide), ne '"' (by decide), ne '\x08' (by decide), ne '\x0c' (by decide),
    ne '\n' (by decide), ne '\r' (by decide), ne '\t' (by decide), large, ne '<' (by decide),
    ne '>' (by decide), ne '&' (by decide), ne '\u2028' (by decide), ne '\u2029' (by decide),
    or_self, if_false]

theorem marshalChar_plain (easy : plain c = true) : marshalChar c = [c] := by
  rw [marshalChar, marshalEscape_plain easy]

theorem marshalChar_other (ne : c ≠ '"') (hard : plain c = false) :
    '"' ∉ marshalChar c ∧ ∃ first rest, marshalChar c = first :: rest ∧ plain first = false := by
  unfold marshalChar
  cases escaped : marshalEscape c with
  | none => exact ⟨by simpa using Ne.symm ne, c, [], rfl, hard⟩
  | some written =>
    have bare := quote_not_mem_marshalEscape ne escaped
    exact ⟨by simpa using bare, '\\', written, rfl, by decide⟩

def marshal : JsonStyle where
  escaping :=
    { escape := marshalChar
      quote := rfl
      same := fun _ => marshalChar_plain
      other := fun _ => marshalChar_other
      quote_not_plain := by decide
      backslash_not_plain := by decide }
  colon := [':']
  comma := [',']
  order := id
  order_perm := fun _ => .refl _
  colon_begins := rfl
  comma_begins := rfl
  colon_bare := by decide
  comma_bare := by decide

/-- The fields that are not left out for being empty, in the order of the source. -/
def fields (e : Endpoint) : List (List Char × List Char) :=
  ([("dataset", e.dataset), ("path", e.path), ("host", e.host), ("sshUser", e.sshUser),
    ("bucket", e.bucket), ("prefix", e.keyPrefix), ("endpoint", e.endpoint),
    ("region", e.region)].filter (·.2 ≠ "")).map fun (key, value) => (key.toList, value.toList)

def backendText : BackendKind → String
  | .zfs => "zfs"
  | .s3 => "s3"
  | .rsync => "rsync"
  | .other name => name

def directionText : Direction → String
  | .push => "push"
  | .pull => "pull"
  | .other name => name

/-- A row of the table of jobs. -/
structure JobRow where
  id : Nat
  name : String
  backend : String
  direction : String
  sourceJson : List Char
  destinationJson : List Char
  enabled : Bool

def jobRow (style : JsonStyle) (j : Job) : JobRow where
  id := j.id
  name := j.name
  backend := backendText j.backend
  direction := directionText j.direction
  sourceJson := style.object (fields j.source)
  destinationJson := style.object (fields j.destination)
  enabled := j.enabled

/-! ### The surveys -/

def isListSep (c : Char) : Bool := c == ',' || c == ' ' || c == '\t'

def poolsListContains (pools name : List Char) : Bool :=
  if pools = [] then false else (fieldsFunc isListSep pools).contains name

def jsonReferencesPool (b pool : List Char) : Bool :=
  if b = [] ∨ pool = [] then false
  else contains b ('"' :: (pool ++ ['"'])) || contains b ('"' :: (pool ++ ['/']))

def jobEntry (j : JobRow) : PoolDependent where
  kind := .replicationJob
  id := .uuid j.id
  name := j.name
  detail := j.backend ++ " · " ++ j.direction
  enabled := some j.enabled
  blocking := true

def policyEntry (p : ScrubPolicy) : PoolDependent where
  kind := .scrubPolicy
  id := .uuid p.id
  name := p.name
  detail := p.cron
  enabled := some p.enabled
  blocking := true

/-- A failed query is logged, and nothing is found. -/
def collectReplicationJobs (jobs : Except String (List JobRow)) (pool : List Char) :
    List PoolDependent :=
  match jobs with
  | .error _ => []
  | .ok rows =>
    (rows.filter fun j => jsonReferencesPool j.sourceJson pool ||
      jsonReferencesPool j.destinationJson pool).map jobEntry

def collectScrubPolicies (policies : Except String (List ScrubPolicy)) (pool : List Char) :
    List PoolDependent :=
  match policies with
  | .error _ => []
  | .ok rows =>
    (rows.filter fun p => poolsListContains p.pools.toList pool).map policyEntry

/-- What the other surveys found; none of it is a job or a policy. -/
structure OtherSurveys where
  datasets : List PoolDependent
  shares : List PoolDependent
  targets : List PoolDependent
  replicationSchedules : List PoolDependent
  snapshotSchedules : List PoolDependent
  plugins : List PoolDependent
  kinds : ∀ d ∈ datasets ++ shares ++ targets ++ replicationSchedules ++ snapshotSchedules ++
    plugins, d.kind ≠ .replicationJob ∧ d.kind ≠ .scrubPolicy

/-- The dependents in the answer of the handler. -/
def handle (others : OtherSurveys) (jobs : Except String (List JobRow))
    (policies : Except String (List ScrubPolicy)) (pool : List Char) : List PoolDependent :=
  others.datasets ++ others.shares ++ others.targets ++ collectReplicationJobs jobs pool ++
    others.replicationSchedules ++ others.snapshotSchedules ++ collectScrubPolicies policies pool ++
    others.plugins

/-! ### What refers to a pool -/

/-- A name that ZFS gives to pools; the blank is not allowed in those made here. -/
def PoolName (pool : List Char) : Prop :=
  ∃ first more, pool = first :: more ∧ Zfs.isAlpha first = true ∧
    ∀ c ∈ pool, Zfs.isAllowedComponent c = true ∨ c = ' '

/-- The end of the job on this host. -/
def localEnd (j : Job) : Endpoint := if j.direction = .push then j.source else j.destination

/-- A local path at or below the place where the pool is mounted by default. -/
def HasLocalPath (pool : List Char) (j : Job) : Prop :=
  Begins '/' ('/' :: pool) (localEnd j).dataset.toList ∨
    Begins '/' ('/' :: pool) (localEnd j).path.toList

/-- One end names the pool or a dataset in it. -/
def NamesDataset (pool : List Char) (j : Job) : Prop :=
  Begins '/' pool j.source.dataset.toList ∨ Begins '/' pool j.destination.dataset.toList

/-- A key or a value in the texts of the job shows the name. -/
def ShownIn (pool : List Char) (j : Job) : Prop :=
  ∃ f ∈ fields j.source ++ fields j.destination, Shows '/' pool f.1 ∨ Shows '/' pool f.2

/-- The pools field is a list, and if the name is on it, it stands there between commas, blanks and
tabs, and not beside other white space. -/
def ListsPlainly (pool pools : List Char) : Prop :=
  trimSpace pools ≠ ['*'] ∧ trimSpace pools ≠ [] ∧
    (pool ∈ (split ',' (trimSpace pools)).map trimSpace → Stands isListSep pool pools)

def Reports (report : List PoolDependent) (kind : Kind) (id : Nat) : Prop :=
  ∃ d ∈ report, d.kind = kind ∧ d.id = .uuid id

/-- The stored jobs with their key. -/
structure Jobs where
  rows : List Job
  key : (rows.map (·.id)).Nodup

/-! ### The search in the texts -/

theorem not_mark_of_isAlpha (letter : Zfs.isAlpha c = true) :
    isSpace c = false ∧ c ≠ ':' ∧ c ≠ ',' ∧ c ≠ '}' ∧ c ≠ '*' := by
  have bounds : (97 ≤ c.toNat ∧ c.toNat ≤ 122) ∨ (65 ≤ c.toNat ∧ c.toNat ≤ 90) := by
    simpa [Zfs.isAlpha, Char.le_def, UInt32.le_iff_toNat_le] using letter
  have ne (d : Char) (low : d.toNat < 65 ∨ 122 < d.toNat) : c ≠ d := by
    rintro rfl
    omega
  have value (n : UInt32) (other : n.toNat < 65 ∨ 122 < n.toNat) : c.val ≠ n := by
    intro same
    have value : c.toNat = n.toNat := congrArg UInt32.toNat same
    omega
  refine ⟨?_, ne _ (by decide), ne _ (by decide), ne _ (by decide), ne _ (by decide)⟩
  simp [isSpace, ne ' ' (by decide), value, Char.le_def, UInt32.le_iff_toNat_le]
  omega

namespace JsonStyle

variable (style : JsonStyle)

theorem exists_mem_members (P : List Char → Prop) (fields : List (List Char × List Char)) :
    (∃ p ∈ style.members fields, P p.1) ↔ ∃ f ∈ fields, P f.1 ∨ P f.2 := by
  fun_induction members style fields with
  | case1 => simp
  | case2 key value => simp
  | case3 key value rest _ ih =>
    simp only [List.exists_mem_cons_iff, ih, or_assoc]

theorem members_gap {first : Char} (letter : Zfs.isAlpha first = true)
    (fields : List (List Char × List Char)) :
    ∀ p ∈ style.members fields, '"' ∉ p.2 ∧ ∀ c ∈ p.2.head?, c ≠ first := by
  obtain ⟨-, colon, comma, brace, -⟩ := not_mark_of_isAlpha letter
  have after_key : '"' ∉ style.colon ∧ ∀ c ∈ style.colon.head?, c ≠ first := by
    simpa [style.colon_begins, style.colon_bare] using colon.symm
  have after_value : '"' ∉ style.comma ∧ ∀ c ∈ style.comma.head?, c ≠ first := by
    simpa [style.comma_begins, style.comma_bare] using comma.symm
  fun_induction members style fields with
  | case1 => simp
  | case2 key value =>
    refine List.forall_mem_cons.mpr ⟨after_key, ?_⟩
    simpa using brace.symm
  | case3 key value rest _ ih =>
    exact List.forall_mem_cons.mpr ⟨after_key, List.forall_mem_cons.mpr ⟨after_value, ih⟩⟩

end JsonStyle

variable {pool : List Char}

/-- Every name that a new pool may have is one. -/
theorem poolName_of_validatePoolName (valid : Zfs.validatePoolName pool = .ok ()) :
    PoolName pool := by
  have allowed := Zfs.validatePoolName_ok valid
  cases pool with
  | nil => cases valid
  | cons first more =>
    refine ⟨first, more, rfl, ?_, fun c member => .inl (allowed c member)⟩
    simp only [Zfs.validatePoolName] at valid
    split at valid
    · cases valid
    split at valid
    · cases valid
    split at valid
    · cases valid
    case isFalse letter => simpa using letter

theorem plain_of_poolName (named : PoolName pool) :
    ∀ c ∈ pool, plain c = true := by
  obtain ⟨first, more, rfl, -, allowed⟩ := named
  intro c member
  rcases allowed c member with ok | rfl
  · simp [plain, ok]
  · rfl

theorem jsonReferencesPool_iff {b : List Char} (some : b ≠ []) (named : pool ≠ []) :
    jsonReferencesPool b pool = true ↔ Found '/' pool b := by
  simp [jsonReferencesPool, some, named, contains_iff, Found]

/-- The search in an object finds the name where a key or a value shows it. -/
theorem jsonReferencesPool_object (style : JsonStyle) (named : PoolName pool)
    (fields : List (List Char × List Char)) :
    jsonReferencesPool (style.object fields) pool = true ↔
      ∃ f ∈ fields, Shows '/' pool f.1 ∨ Shows '/' pool f.2 := by
  have easy := plain_of_poolName named
  obtain ⟨first, more, rfl, letter, -⟩ := named
  have some : style.object fields ≠ [] := by
    unfold JsonStyle.object
    split <;> simp
  rw [jsonReferencesPool_iff some (by simp), JsonStyle.object]
  split
  case isTrue empty =>
    subst empty
    simp [Found, List.infix_cons_iff, List.cons_prefix_cons]
  case isFalse =>
    have brace : ('{' : Char) ≠ '"' := by decide
    rw [found_cons, style.escaping.found_strings easy rfl (style.members_gap letter _),
      style.exists_mem_members]
    simp [brace, (style.order_perm fields).mem_iff]

theorem poolsListContains_iff (named : pool ≠ []) (pools : List Char) :
    poolsListContains pools pool = true ↔ Stands isListSep pool pools := by
  rw [← mem_fieldsFunc named]
  by_cases empty : pools = []
  · simp [poolsListContains, empty, fieldsFunc, fieldsFuncFrom]
  · simp [poolsListContains, empty]

/-! ### The report -/

section Report

variable (others : OtherSurveys) (style : JsonStyle) {pool : List Char} (jobs : Jobs)
  (policies : Policies)

def report (pool : List Char) : List PoolDependent :=
  handle others (.ok (jobs.rows.map (jobRow style))) (.ok policies.rows) pool

variable {d : PoolDependent}

theorem kind_of_mem_jobs {jobs : Except String (List JobRow)}
    (member : d ∈ collectReplicationJobs jobs pool) : d.kind = .replicationJob := by
  cases jobs with
  | error err => cases member
  | ok rows =>
    obtain ⟨j, -, rfl⟩ := List.mem_map.mp member
    rfl

theorem kind_of_mem_policies {policies : Except String (List ScrubPolicy)}
    (member : d ∈ collectScrubPolicies policies pool) : d.kind = .scrubPolicy := by
  cases policies with
  | error err => cases member
  | ok rows =>
    obtain ⟨p, -, rfl⟩ := List.mem_map.mp member
    rfl

/-- Jobs and policies in the report come from their own surveys. -/
theorem mem_report (kind : d.kind = .replicationJob ∨ d.kind = .scrubPolicy) :
    d ∈ report others style jobs policies pool ↔
      d ∈ collectReplicationJobs (.ok (jobs.rows.map (jobRow style))) pool ∨
        d ∈ collectScrubPolicies (.ok policies.rows) pool := by
  have own := others.kinds d
  simp only [List.mem_append] at own
  simp only [report, handle, List.mem_append]
  rcases kind with kind | kind <;> simp only [kind] at own <;> tauto

/-- Where ids are keys, a row passes a filter when some row with its id does. -/
theorem exists_mem_filter_iff {α : Type} {rows : List α} {id : α → Nat}
    (key : (rows.map id).Nodup) {row : α} (stored : row ∈ rows) (hit : α → Bool) :
    (∃ r ∈ rows.filter hit, id r = id row) ↔ hit row = true := by
  constructor
  · rintro ⟨r, member, same⟩
    obtain ⟨r_stored, passes⟩ := List.mem_filter.mp member
    exact List.inj_on_of_nodup_map key r_stored stored same ▸ passes
  · intro passes
    exact ⟨row, List.mem_filter.mpr ⟨stored, passes⟩, rfl⟩

theorem reports_job_iff (named : PoolName pool) {j : Job} (stored : j ∈ jobs.rows) :
    Reports (report others style jobs policies pool) .replicationJob j.id ↔ ShownIn pool j := by
  have shown : (jsonReferencesPool (jobRow style j).sourceJson pool ||
      jsonReferencesPool (jobRow style j).destinationJson pool) = true ↔ ShownIn pool j := by
    rw [Bool.or_eq_true, jobRow, jsonReferencesPool_object style named,
      jsonReferencesPool_object style named]
    simp only [ShownIn, List.mem_append, or_and_right, exists_or]
  rw [← shown, ← exists_mem_filter_iff jobs.key stored fun j =>
    jsonReferencesPool (jobRow style j).sourceJson pool ||
      jsonReferencesPool (jobRow style j).destinationJson pool]
  constructor
  · rintro ⟨d, member, kind, id⟩
    rcases (mem_report others style jobs policies (.inl kind)).mp member with job | policy
    · simp only [collectReplicationJobs, List.filter_map, List.map_map, List.mem_map] at job
      obtain ⟨i, within, rfl⟩ := job
      exact ⟨i, within, Id.uuid.inj id⟩
    · simp [kind_of_mem_policies policy] at kind
  · rintro ⟨i, within, same⟩
    have found := List.mem_map_of_mem (f := fun i => jobEntry (jobRow style i)) within
    refine ⟨jobEntry (jobRow style i), (mem_report others style jobs policies (.inl rfl)).mpr
      (.inl ?_), rfl, congrArg Id.uuid same⟩
    simp only [collectReplicationJobs, List.filter_map, List.map_map]
    exact found

theorem reports_policy_iff (named : pool ≠ []) {p : ScrubPolicy} (stored : p ∈ policies.rows) :
    Reports (report others style jobs policies pool) .scrubPolicy p.id ↔
      Stands isListSep pool p.pools.toList := by
  rw [← poolsListContains_iff named, ← exists_mem_filter_iff policies.key stored fun p =>
    poolsListContains p.pools.toList pool]
  constructor
  · rintro ⟨d, member, kind, id⟩
    rcases (mem_report others style jobs policies (.inr kind)).mp member with job | policy
    · simp [kind_of_mem_jobs job] at kind
    · obtain ⟨q, within, rfl⟩ := List.mem_map.mp policy
      exact ⟨q, within, Id.uuid.inj id⟩
  · rintro ⟨q, within, same⟩
    exact ⟨_, (mem_report others style jobs policies (.inr rfl)).mpr
      (.inr (List.mem_map_of_mem within)), rfl, congrArg Id.uuid same⟩

/-! ### What the report misses -/

theorem mem_trimSpace {s : List Char} (member : c ∈ s) (solid : isSpace c = false) :
    c ∈ trimSpace s := by
  have kept {s : List Char} (member : c ∈ s) : c ∈ s.dropWhile isSpace := by
    rw [← List.takeWhile_append_dropWhile (p := isSpace) (l := s), List.mem_append] at member
    refine member.resolve_left fun front => ?_
    simp [List.mem_takeWhile_imp front] at solid
  rw [trimSpace, List.mem_reverse]
  exact kept (List.mem_reverse.mpr (kept member))

/-- Neither "*" nor blank text has a letter for the name to stand in. -/
theorem not_stands_of_all (named : PoolName pool) {pools : List Char}
    (all : trimSpace pools = ['*'] ∨ trimSpace pools = []) : ¬Stands isListSep pool pools := by
  obtain ⟨first, more, rfl, letter, -⟩ := named
  obtain ⟨solid, -, -, -, star⟩ := not_mark_of_isAlpha letter
  intro stands
  have member : first ∈ pools := by
    rcases stands with ⟨-, rest, rfl, -⟩ | ⟨front, c, back, rfl, -, -, rest, rfl, -⟩ <;> simp
  have within := mem_trimSpace member solid
  rcases all with all | all <;> simp [all, star] at within

/-- The expansion of the pools field has the pool. -/
def Expands {σ : Type} (env : Environment σ) (world : σ) (pool : List Char) (pools : String) :
    Prop :=
  ∃ names, (expandPools env pools world).1 = .ok names ∧ String.ofList pool ∈ names

variable {σ : Type} {env : Environment σ} {world : σ} {names : List String}

theorem expands_iff (named : pool ≠ []) (known : (env.poolNames world).1 = .ok names)
    (present : String.ofList pool ∈ names) (pools : String) :
    Expands env world pool pools ↔
      (trimSpace pools.toList = ['*'] ∨ trimSpace pools.toList = []) ∨
        pool ∈ (split ',' (trimSpace pools.toList)).map trimSpace := by
  unfold Expands expandPools
  by_cases all : trimSpace pools.toList = ['*'] ∨ trimSpace pools.toList = []
  · simp [all, known, present]
  · -- The parts that are empty are dropped, and the name is none of them.
    simp only [all, if_false, false_or, Except.ok.injEq, exists_eq_left', List.mem_map,
      List.mem_filter, decide_eq_true_eq, String.ofList_inj]
    constructor
    · rintro ⟨part, ⟨member, -⟩, rfl⟩
      exact member
    · intro member
      exact ⟨pool, ⟨member, named⟩, rfl⟩

/-- The report on a pool contains every policy that scrubs it and every job that refers to it. -/
def Complete (env : Environment σ) (world : σ) (pool : List Char) : Prop :=
  (∀ p ∈ policies.rows, Expands env world pool p.pools →
    Reports (report others style jobs policies pool) .scrubPolicy p.id) ∧
  ∀ j ∈ jobs.rows, NamesDataset pool j ∨ HasLocalPath pool j →
    Reports (report others style jobs policies pool) .replicationJob j.id

theorem policy_reported_iff (named : PoolName pool) (known : (env.poolNames world).1 = .ok names)
    (present : String.ofList pool ∈ names) {p : ScrubPolicy} (stored : p ∈ policies.rows) :
    (Expands env world pool p.pools →
      Reports (report others style jobs policies pool) .scrubPolicy p.id) ↔
        ListsPlainly pool p.pools.toList := by
  have some : pool ≠ [] := by
    obtain ⟨first, more, rfl, -⟩ := named
    simp
  rw [expands_iff some known present, reports_policy_iff others style jobs policies some stored,
    ListsPlainly]
  by_cases all : trimSpace p.pools.toList = ['*'] ∨ trimSpace p.pools.toList = []
  · have missed := not_stands_of_all named all
    rcases all with all | all <;> simp [all, missed]
  · rw [not_or] at all
    simp [all]

theorem shownIn_of_namesDataset (named : pool ≠ []) {j : Job} (names : NamesDataset pool j) :
    ShownIn pool j := by
  have field {e : Endpoint} (begins : Begins '/' pool e.dataset.toList) :
      ("dataset".toList, e.dataset.toList) ∈ fields e := by
    have some : e.dataset ≠ "" := by
      intro empty
      rcases begins with same | longer
      · exact named (by simpa [empty] using same.symm)
      · simp [empty] at longer
    simp [fields, some]
  rcases names with begins | begins
  · exact ⟨_, List.mem_append_left _ (field begins), .inr (.inl begins)⟩
  · exact ⟨_, List.mem_append_right _ (field begins), .inr (.inl begins)⟩

/-- The report misses nothing exactly where every policy has a plain list, and every job with a
local path below the pool's mount point shows the pool's name elsewhere. -/
theorem report_complete_iff (named : PoolName pool) (known : (env.poolNames world).1 = .ok names)
    (present : String.ofList pool ∈ names) :
    Complete others style jobs policies env world pool ↔
      (∀ p ∈ policies.rows, ListsPlainly pool p.pools.toList) ∧
        ∀ j ∈ jobs.rows, HasLocalPath pool j → ShownIn pool j := by
  have some : pool ≠ [] := by
    obtain ⟨first, more, rfl, -⟩ := named
    simp
  refine and_congr (forall₂_congr fun p stored => ?_) (forall₂_congr fun j stored => ?_)
  · exact policy_reported_iff others style jobs policies named known present stored
  · -- A dataset of the pool is always found; only paths are not.
    rw [reports_job_iff others style jobs policies named stored, or_imp]
    exact and_iff_right (shownIn_of_namesDataset some)

end Report

/-! ### A host with one pool -/

def tank : List Char := "tank".toList

def noOthers : OtherSurveys := ⟨[], [], [], [], [], [], by simp⟩

def tankJob (source : Endpoint) : Job where
  id := 7
  name := "offsite"
  backend := .rsync
  direction := .push
  source
  destination := { host := "backup", sshUser := "nova", path := "/srv" }
  schedule := ""
  retention := {}
  enabled := true
  secretRef := ""
  lastSnapshot := ""

def oneJob (source : Endpoint) : Jobs := ⟨[tankJob source], by simp⟩

def onePolicy (pools : String) : Policies :=
  ⟨[{ defaultPolicy 1 with pools }], by simp, by simp⟩

theorem tank_named : PoolName tank := poolName_of_validatePoolName (by decide)

def tankData : Endpoint := { dataset := "tank/data", path := "/tank/data" }

theorem tank_report_complete :
    Complete noOthers marshal (oneJob tankData) (onePolicy "data, tank") onePool () tank := by
  have known : (onePool.poolNames ()).1 = .ok ["tank"] := rfl
  refine (report_complete_iff noOthers marshal _ _ tank_named known (by decide)).mpr ⟨?_, ?_⟩
  · intro p stored
    obtain rfl := List.mem_singleton.mp stored
    refine ⟨by decide, by decide, fun _ => .inr ⟨"data,".toList, ' ', tank, by decide, rfl, ?_⟩⟩
    exact ⟨by simp [tank, isListSep], [], by simp, by simp [Ends]⟩
  · intro j stored _
    obtain rfl := List.mem_singleton.mp stored
    exact shownIn_of_namesDataset (by decide) (.inl (.inr ⟨"data".toList, by decide⟩))

/-- The policy that every host starts with scrubs the pool, and the job reads from it; the report
on the pool is empty. -/
theorem tank_dependents_missed :
    Expands onePool () tank (defaultPolicy 1).pools ∧
      HasLocalPath tank (tankJob { path := "/tank/data" }) ∧
      report noOthers marshal (oneJob { path := "/tank/data" }) (onePolicy "*") tank = [] := by
  refine ⟨⟨["tank"], by decide, by decide⟩, .inr (.inr ?_), by decide +kernel⟩
  exact ⟨"data".toList, by decide⟩

end NovaNas.PoolDependents
