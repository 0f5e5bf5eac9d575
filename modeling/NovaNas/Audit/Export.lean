import NovaNas.Audit.Listing
import NovaNas.Base.Iteration

/-!
# Exporting the audit log

The export reads pages of 500 rows and moves its own cursor row by row, so that it passes every row
that was there when it began once, whatever is added meanwhile.
-/
namespace NovaNas.Audit

open Paging

inductive Format where
  | csv
  | jsonl
  deriving DecidableEq, Repr

def parseFormat (raw : Name) : Except Rejection Format :=
  let format := Text.toLower raw
  if format = [] ∨ format = "csv".toList then .ok .csv
  else if format = "jsonl".toList then .ok .jsonl
  else badRequest "format must be csv or jsonl"

/-- What the export meets: whether its context is cancelled at each look, the table at each query
unless the query fails, and whether each write to the client fails. -/
structure Env where
  cancelled : Nat → Bool
  search : Nat → Option Table
  fails : Nat → Bool

structure Progress where
  cursor : Option (Time × Int64) := none
  written : List AuditEvent := []
  rowCount : Nat := 0
  looks : Nat := 0
  queries : Nat := 0
  writes : Nat := 0
  deriving DecidableEq, Repr

def Progress.look (s : Progress) : Progress := { s with looks := s.looks + 1 }

def Progress.ask (s : Progress) : Progress := { s with queries := s.queries + 1 }

def Progress.moveTo (s : Progress) (row : Row) : Progress :=
  { s with cursor := some (row.ts, row.id) }

/-- One write; the event reaches the client if it succeeds. -/
def Progress.write (s : Progress) (env : Env) (ev : AuditEvent) : Progress :=
  { s with
    writes := s.writes + 1
    written := if env.fails s.writes then s.written else s.written ++ [ev] }

variable (env : Env) (format : Format) (f : Filter)

/-- Errors of the CSV writer are ignored. The JSON encoder refuses times whose year has not four
digits before it writes anything. -/
def writeEvent (ev : AuditEvent) (s : Progress) : Bool × Progress :=
  match format with
  | .csv => (true, s.write env ev)
  | .jsonl =>
    if Rfc3339.Readable ev.timestamp then (!env.fails s.writes, s.write env ev) else (false, s)

/-- The rows of a page. -/
def exportRows : List Row → Progress → Progress
  | [], s => s
  | row :: rows, s =>
    if env.cancelled s.looks then s.look
    else if matchesSourceIP row f.srcCIDR then
      match writeEvent env format (rowToEvent row) s.look with
      | (true, s) => exportRows rows ({ s with rowCount := s.rowCount + 1 }.moveTo row)
      | (false, s) => s
    else exportRows rows (s.look.moveTo row)

def exportPageSize : Nat := 500

/-- A round of the loop: whether there is another, and how far it got. -/
def exportPage (s : Progress) : Bool × Progress :=
  if env.cancelled s.looks then (false, s.look)
  else
    match env.search s.queries with
    | none => (false, s.look.ask)
    | some t =>
      let rows := searchAudit t f s.cursor exportPageSize
      if rows = [] then (false, s.look.ask)
      else
        (decide (exportPageSize ≤ rows.length), exportRows env format f rows s.look.ask)

/-- The rounds, as many as the fuel allows. -/
def exportLoop (fuel : Nat) (s : Progress) : Option Progress :=
  Iteration.iterate (exportPage env format f) fuel s

inductive Answer where
  | refused (reason : Rejection)
  | streamed (progress : Progress)
  deriving DecidableEq, Repr

/-- The answer and who has an export running afterwards. -/
def exportLog (env : Env) (fuel : Nat) (locks : List Name) (actor format : Name) (q : Query) :
    Option (Answer × List Name) :=
  match parseFormat format with
  | .error reason => some (.refused reason, locks)
  | .ok format =>
    match q.filter with
    | .error reason => some (.refused reason, locks)
    | .ok f =>
      if locks.contains actor then
        some (.refused ⟨429, "rate_limited", "another export is already running for this user"⟩,
          locks)
      else
        (exportLoop env format f fuel {}).map fun s =>
          (.streamed s, (actor :: locks).filter (· ≠ actor))

/-! ### Places -/

variable {env : Env} {format : Format} {f : Filter} {t : Table} {s : Progress}
  {front back rows : List Row}

/-- The cursor after some rows. -/
def behind (cursor : Option (Time × Int64)) (rows : List Row) : Option (Time × Int64) :=
  (rows.getLast?.map fun row => (row.ts, row.id)).or cursor

theorem behind_cons (cursor : Option (Time × Int64)) (row : Row) (rows : List Row) :
    behind (some (row.ts, row.id)) rows = behind cursor (row :: rows) := by
  cases rows with
  | nil => rfl
  | cons next rows =>
    obtain ⟨last, found⟩ : ∃ last, (next :: rows).getLast? = some last :=
      ⟨_, List.getLast?_eq_some_getLast (by simp)⟩
    rw [behind, behind, List.getLast?_cons_cons, found]
    rfl

theorem behind_append (cursor : Option (Time × Int64)) (front rows : List Row) :
    behind (behind cursor front) rows = behind cursor (front ++ rows) := by
  induction front generalizing cursor with
  | nil => rfl
  | cons row front ih => rw [← behind_cons, ih, List.cons_append, ← behind_cons]

theorem after_behind (split : selected t f = front ++ back) :
    (selected t f).filter (·.after (behind none front)) = back := by
  rcases List.eq_nil_or_concat' front with rfl | ⟨init, row, rfl⟩
  · exact (List.filter_eq_self.mpr fun r _ => rfl).trans split
  · have last : behind none (init ++ [row]) = some (row.ts, row.id) := by simp [behind]
    rw [last, after_row (by simpa using split)]

theorem search_behind (split : selected t f = front ++ back) (limit : Nat) :
    searchAudit t f (behind none front) limit = back.take limit := by
  rw [searchAudit_eq, after_behind split]

/-- The rows that are still to be read. -/
def ahead (t : Table) (f : Filter) (s : Progress) : List Row :=
  (selected t f).filter (·.after s.cursor)

/-! ### A page -/

theorem writeEvent_frame (env : Env) (format : Format) (ev : AuditEvent) (s : Progress) :
    (writeEvent env format ev s).2.looks = s.looks ∧
      (writeEvent env format ev s).2.queries = s.queries ∧
      (writeEvent env format ev s).2.cursor = s.cursor := by
  cases format with
  | csv => exact ⟨rfl, rfl, rfl⟩
  | jsonl =>
    rw [writeEvent]
    split <;> exact ⟨rfl, rfl, rfl⟩

theorem exportRows_frame (env : Env) (format : Format) (f : Filter) (rows : List Row)
    (s : Progress) :
    s.looks ≤ (exportRows env format f rows s).looks ∧
      (exportRows env format f rows s).queries = s.queries := by
  induction rows generalizing s with
  | nil => exact ⟨le_rfl, rfl⟩
  | cons row rows ih =>
    rw [exportRows]
    obtain ⟨looks, queries, -⟩ := writeEvent_frame env format (rowToEvent row) s.look
    split_ifs
    · exact ⟨Nat.le_succ _, rfl⟩
    · split
      next wrote s' written =>
        rw [written] at looks queries
        obtain ⟨more, same⟩ := ih ({ s' with rowCount := s'.rowCount + 1 }.moveTo row)
        refine ⟨le_trans ?_ more, same.trans queries⟩
        exact (Nat.le_succ _).trans looks.ge
      next broke s' written =>
        rw [written] at looks queries
        exact ⟨(Nat.le_succ _).trans looks.ge, queries⟩
    · obtain ⟨more, same⟩ := ih (s.look.moveTo row)
      exact ⟨(Nat.le_succ _).trans more, same⟩

/-! ### A round -/

/-- A round goes on after a full page only. -/
theorem exportPage_goes (goes : (exportPage env format f s).1 = true) :
    env.cancelled s.looks = false ∧ ∃ t, env.search s.queries = some t ∧
      exportPageSize ≤ (searchAudit t f s.cursor exportPageSize).length ∧
      (exportPage env format f s).2 =
        exportRows env format f (searchAudit t f s.cursor exportPageSize) s.look.ask := by
  revert goes
  rw [exportPage]
  cases cancelled : env.cancelled s.looks with
  | true => exact fun goes => nomatch goes
  | false =>
    cases search : env.search s.queries with
    | none => exact fun goes => nomatch goes
    | some t =>
      simp only [Bool.false_eq_true, if_false]
      split_ifs
      · exact fun goes => nomatch goes
      · intro full
        exact ⟨trivial, t, rfl, by simpa using full, rfl⟩

theorem exportPage_of_search (runs : env.cancelled s.looks = false)
    (search : env.search s.queries = some t) :
    exportPage env format f s =
      (decide (exportPageSize ≤ (searchAudit t f s.cursor exportPageSize).length),
        exportRows env format f (searchAudit t f s.cursor exportPageSize) s.look.ask) := by
  rw [exportPage, runs, search]
  simp only [Bool.false_eq_true, if_false]
  split_ifs with none
  · rw [none]
    rfl
  · rfl

theorem exportLog_eq {q : Query} {formatText actor : Name} {locks : List Name}
    (known : parseFormat formatText = .ok format) (accepted : q.filter = .ok f)
    (free : locks.contains actor = false) (fuel : Nat) :
    exportLog env fuel locks actor formatText q = (exportLoop env format f fuel {}).map fun s =>
      (.streamed s, (actor :: locks).filter (· ≠ actor)) := by
  simp only [exportLog, known, accepted, free, Bool.false_eq_true, if_false]

/-! ### What is exported -/

/-- Rows are added that are later than all others and have larger identifiers. -/
def Grows (t t' : Table) : Prop :=
  ∃ added, t'.rows = t.rows ++ added ∧
    ∀ new ∈ added, ∀ old ∈ t.rows, old.ts < new.ts ∧ old.id.toInt < new.id.toInt

theorem Grows.trans {t t' t'' : Table} (first : Grows t t') (second : Grows t' t'') :
    Grows t t'' := by
  obtain ⟨added, rows, later⟩ := first
  obtain ⟨added', rows', later'⟩ := second
  refine ⟨added ++ added', by rw [rows', rows, List.append_assoc], fun new member old there => ?_⟩
  rcases List.mem_append.mp member with member | member
  · exact later new member old there
  · exact later' new member old (rows ▸ List.mem_append_left _ there)

theorem grows_from {tables : Nat → Table} (grows : ∀ k, Grows (tables k) (tables (k + 1)))
    (k : Nat) : Grows (tables 0) (tables k) := by
  induction k with
  | zero => exact ⟨[], by simp, by simp⟩
  | succ k ih => exact ih.trans (grows k)

theorem mem_of_selected {row : Row} (inside : row ∈ selected t f) : row ∈ t.rows :=
  List.mem_of_mem_filter ((newestFirst_perm _ _).mem_iff.mp inside)

/-- Behind a row of the table there is nothing new. -/
theorem Grows.search_eq {t t' : Table} (grows : Grows t t') {row : Row} (there : row ∈ t.rows)
    (limit : Nat) : searchAudit t' f (some (row.ts, row.id)) limit =
      searchAudit t f (some (row.ts, row.id)) limit := by
  obtain ⟨added, rows, later⟩ := grows
  have none : added.filter (fun r => f.selects r && r.after (some (row.ts, row.id))) = [] := by
    refine List.filter_eq_nil_iff.mpr fun new member => ?_
    obtain ⟨time, -⟩ := later new member row there
    simp [Row.after, time.le, time.ne']
  rw [searchAudit, searchAudit, rows, List.filter_append, none, List.append_nil]

/-- The events of the network. -/
def exported (f : Filter) (rows : List Row) : List AuditEvent :=
  (rows.map rowToEvent).filter (shown f)

theorem writeEvent_ok (writes : ∀ k, env.fails k = false) {ev : AuditEvent}
    (rendered : format = .jsonl → Rfc3339.Readable ev.timestamp) (s : Progress) :
    writeEvent env format ev s = (true, { s with
      writes := s.writes + 1
      written := s.written ++ [ev] }) := by
  cases format with
  | csv => simp [writeEvent, Progress.write, writes]
  | jsonl => simp [writeEvent, Progress.write, writes, rendered]

/-- Nothing goes wrong: every row of the page is passed and those of the network are written. -/
theorem exportRows_all (runs : ∀ k, env.cancelled k = false) (writes : ∀ k, env.fails k = false)
    (rows : List Row)
    (rendered : format = .jsonl → ∀ ev ∈ exported f rows, Rfc3339.Readable ev.timestamp)
    (s : Progress) :
    (exportRows env format f rows s).cursor = behind s.cursor rows ∧
      (exportRows env format f rows s).written = s.written ++ exported f rows := by
  induction rows generalizing s with
  | nil => exact ⟨rfl, (List.append_nil _).symm⟩
  | cons row rows ih =>
    rw [exportRows, runs, if_neg (by decide), ← behind_cons]
    split_ifs with visible
    · have first : exported f (row :: rows) = rowToEvent row :: exported f rows :=
        List.filter_cons_of_pos visible
      rw [first] at rendered ⊢
      rw [writeEvent_ok writes fun lines => rendered lines _ List.mem_cons_self]
      obtain ⟨cursor, written⟩ := ih
        (fun lines ev member => rendered lines ev (List.mem_cons_of_mem _ member)) _
      exact ⟨cursor, written.trans (List.append_assoc _ _ _)⟩
    · have first : exported f (row :: rows) = exported f rows := List.filter_cons_of_neg visible
      rw [first] at rendered ⊢
      exact ih rendered _

/-- The export has written what comes before its place. Only its first query has no place. -/
def Exported (t : Table) (f : Filter) (s : Progress) : Prop :=
  ∃ front back, selected t f = front ++ back ∧ s.cursor = behind none front ∧
    s.written = exported f front ∧ (front = [] → s.queries = 0)

theorem search_grown {tables : Nat → Table} (grows : ∀ k, Grows (tables k) (tables (k + 1)))
    (split : selected (tables 0) f = front ++ back) {k : Nat} (first : front = [] → k = 0)
    (limit : Nat) : searchAudit (tables k) f (behind none front) limit = back.take limit := by
  rw [← search_behind split]
  rcases List.eq_nil_or_concat' front with rfl | ⟨init, row, rfl⟩
  · rw [first rfl]
  · have last : behind none (init ++ [row]) = some (row.ts, row.id) := by simp [behind]
    have inside : row ∈ selected (tables 0) f := by simp [split]
    rw [last, (grows_from grows k).search_eq (mem_of_selected inside)]

variable {tables : Nat → Table}

section Exact

variable (runs : ∀ k, env.cancelled k = false)
  (answers : ∀ k, env.search k = some (tables k))
  (grows : ∀ k, Grows (tables k) (tables (k + 1))) (writes : ∀ k, env.fails k = false)
  (rendered : format = .jsonl → ∀ ev ∈ matching (tables 0) f, Rfc3339.Readable ev.timestamp)
include runs answers grows writes rendered

/-- A round writes the next page. -/
theorem exported_round (soFar : Exported (tables 0) f s) : ∃ front back,
      selected (tables 0) f = front ++ back ∧ ahead (tables 0) f s = back ∧
      ((exportPage env format f s).1 = true ↔ exportPageSize ≤ back.length) ∧
      (exportPage env format f s).2.cursor = behind none (front ++ back.take exportPageSize) ∧
      (exportPage env format f s).2.written = exported f (front ++ back.take exportPageSize) := by
  obtain ⟨front, back, split, cursor, written, first⟩ := soFar
  have page : searchAudit (tables s.queries) f s.cursor exportPageSize =
      back.take exportPageSize := by
    rw [cursor, search_grown grows split first]
  have fewer : ∀ ev ∈ exported f (back.take exportPageSize), ev ∈ matching (tables 0) f := by
    intro ev member
    have inside : back.take exportPageSize ⊆ selected (tables 0) f := fun r member =>
      split ▸ List.mem_append_right _ (List.mem_of_mem_take member)
    exact List.filter_subset _ (List.map_subset _ inside) member
  obtain ⟨moved, wrote⟩ := exportRows_all runs writes (back.take exportPageSize)
    (fun lines ev member => rendered lines ev (fewer ev member)) s.look.ask
  have before : s.look.ask.cursor = s.cursor ∧ s.look.ask.written = s.written := ⟨rfl, rfl⟩
  refine ⟨front, back, split, by rw [ahead, cursor, after_behind split], ?_⟩
  rw [exportPage_of_search (runs _) (answers _), page]
  refine ⟨by simp [List.length_take], ?_, ?_⟩
  · rw [moved, before.1, cursor, behind_append]
  · rw [wrote, before.2, written, exported, exported, exported, List.map_append,
      List.filter_append]

theorem undisturbed_export :
    ∃ s, Iteration.Ends (exportPage env format f) {} s ∧ s.written = matching (tables 0) f := by
  refine Iteration.exists_ends (Exported (tables 0) f) (·.written = matching (tables 0) f)
    (fun s => (ahead (tables 0) f s).length) (fun s soFar stops => ?_) (fun s soFar goes => ?_)
    ⟨[], selected (tables 0) f, rfl, rfl, rfl, fun _ => rfl⟩
  · obtain ⟨front, back, split, -, more, -, written⟩ :=
      exported_round runs answers grows writes rendered soFar
    -- The last page is not full, so that it has the rest of the rows.
    have short : back.length < exportPageSize := by
      by_contra long
      rw [more.mpr (Nat.le_of_not_lt long)] at stops
      cases stops
    rw [List.take_of_length_le short.le, ← split] at written
    exact written
  · obtain ⟨front, back, split, place, more, cursor, written⟩ :=
      exported_round runs answers grows writes rendered soFar
    have full := more.mp goes
    have whole : selected (tables 0) f =
        front ++ back.take exportPageSize ++ back.drop exportPageSize := by
      rw [List.append_assoc, List.take_append_drop, split]
    have pos : 0 < exportPageSize := by decide
    refine ⟨⟨_, _, whole, cursor, written, fun nil => ?_⟩, ?_⟩
    · have length := congrArg List.length nil
      simp only [List.length_append, List.length_take, List.length_nil] at length
      omega
    · rw [place, ahead, cursor, after_behind whole, List.length_drop]
      omega

end Exact

/-- With queries and writes that succeed, the export writes the events that matched when it began,
newest first, and no other, whatever is added while it runs. -/
theorem export_exact {q : Query} {formatText actor : Name} {locks : List Name}
    (known : parseFormat formatText = .ok format) (accepted : q.filter = .ok f)
    (free : locks.contains actor = false) (runs : ∀ k, env.cancelled k = false)
    (answers : ∀ k, env.search k = some (tables k))
    (grows : ∀ k, Grows (tables k) (tables (k + 1))) (writes : ∀ k, env.fails k = false)
    (rendered : format = .jsonl → ∀ ev ∈ matching (tables 0) f, Rfc3339.Readable ev.timestamp) :
    ∃ fuel s locks', exportLog env fuel locks actor formatText q = some (.streamed s, locks') ∧
      s.written = matching (tables 0) f := by
  obtain ⟨s, ⟨fuel, ends⟩, all⟩ := undisturbed_export runs answers grows writes rendered
  exact ⟨fuel, s, (actor :: locks).filter (· ≠ actor),
    by rw [exportLog_eq known accepted free, exportLoop, ends, Option.map_some], all⟩

def manyRows (n : Nat) : List Row := (List.range n).map fun i => sampleRow (Int64.ofNat i) none

theorem manyRows_nodup {n : Nat} (few : n < 2 ^ 63) : ((manyRows n).map Row.id).Nodup := by
  rw [manyRows, List.map_map]
  refine List.Nodup.map_on (fun i low j low' same => ?_) List.nodup_range
  rw [List.mem_range] at low low'
  have same := congrArg Int64.toInt (show Int64.ofNat i = Int64.ofNat j from same)
  rw [Int64.toInt_ofNat_of_lt (by omega), Int64.toInt_ofNat_of_lt (by omega)] at same
  omega

/-- More rows than a page has, and one that is added after the first query. -/
def growing (k : Nat) : Table :=
  if k = 0 then ⟨manyRows 600, manyRows_nodup (by decide)⟩
  else ⟨manyRows 601, manyRows_nodup (by decide)⟩

def quiet : Env := ⟨fun _ => false, fun k => some (growing k), fun _ => false⟩

theorem two_pages_exported : ∃ fuel s locks',
    exportLog quiet fuel [] "ann".toList "JSONL".toList {} = some (.streamed s, locks') ∧
      s.written = matching (growing 0) {} := by
  have grows (k : Nat) : Grows (growing k) (growing (k + 1)) := by
    cases k with
    | zero => exact ⟨[sampleRow 600 none], by decide +kernel, by decide +kernel⟩
    | succ k => exact ⟨[], by simp [growing], by simp⟩
  have readable : ∀ row ∈ (growing 0).rows, Rfc3339.Readable (rowToEvent row).timestamp := by
    decide +kernel
  have answers (k : Nat) : quiet.search k = some (growing k) := rfl
  refine export_exact (show parseFormat _ = .ok .jsonl by decide +kernel)
    (show Query.filter _ = .ok {} by decide +kernel) rfl (fun _ => rfl) answers grows
    (fun _ => rfl) fun _ ev member => ?_
  obtain ⟨row, inside, rfl⟩ := List.mem_map.mp (List.mem_of_mem_filter member)
  exact readable row (mem_of_selected inside)

end NovaNas.Audit
