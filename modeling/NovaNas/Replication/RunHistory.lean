import Mathlib.Data.Prod.Lex
import NovaNas.Base.Base64
import NovaNas.Base.Paging
import NovaNas.Base.Rfc3339

/-!
# The history of a replication job

The handler asks for one run more than the page has, which becomes the cursor, and leaves out the
runs that did not start before the cursor. It asks for the newest runs whatever the cursor, though,
so that the second page is made of the runs of the first one and the cursor's.
-/
namespace NovaNas.Replication.History

open Paging

abbrev UUID := List Base64.Byte

structure Run where
  id : UUID
  jobID : UUID
  /-- Nanoseconds since the zero time. -/
  startedAt : Int
  finishedAt : Option Int
  outcome : String
  bytesTransferred : Int64
  snapshot : String
  error : String
  deriving DecidableEq, Repr

def Run.key (run : Run) : Int ×ₗ UUID := toLex (run.startedAt, run.id)

/-! ### The store -/

variable (table : List Run) (jobID : UUID)

/-- The runs of a job, newest first. -/
def history : List Run :=
  newestFirst Run.key (table.filter fun run => run.jobID = jobID)

def listReplicationRuns (limit : Nat) : List Run :=
  (history table jobID).take limit

def listRuns (limit : Nat) : List Run :=
  listReplicationRuns table jobID (if limit = 0 then 50 else limit)

/-! ### The handler -/

def parseLimit (raw : List Char) (default max : Nat) : Nat :=
  if raw = [] then default
  else
    match Text.atoi raw with
    | none => default
    | some n => if n ≤ 0 then default else if n > max then max else n.toNat

def encodeRunCursor (t : Int) : List Char := Base64.encodeText (Rfc3339.format t)

def decodeRunCursor (s : List Char) : Option Int := (Base64.decodeText s).bind Rfc3339.parse

/-- The zero time, 0, skips nothing, and so does a cursor that cannot be read. -/
def skipBefore (cursor : List Char) : Int :=
  if cursor = [] then 0 else (decodeRunCursor cursor).getD 0

def runs (rawLimit cursor : List Char) : Page Run :=
  let limit := parseLimit rawLimit 50 200
  let before := skipBefore cursor
  let all := listRuns table jobID (limit + 1)
  let page := (all.filter fun run => before = 0 ∨ run.startedAt < before).take (limit + 1)
  ⟨page.take limit, ((page[limit]?).map fun run => encodeRunCursor run.startedAt).getD []⟩

/-! ### Following the cursors -/

variable {table : List Run} {jobID : UUID} {rawLimit cursor : List Char}

/-- A cursor is read as the time it was written for, or not at all. -/
theorem skipBefore_encode (t : Int) :
    skipBefore (encodeRunCursor t) = t ∨ skipBefore (encodeRunCursor t) = 0 := by
  have solid : encodeRunCursor t ≠ [] := Base64.encodeText_ne_nil (Rfc3339.format_ne_nil t)
  rw [skipBefore, if_neg solid, decodeRunCursor, encodeRunCursor,
    Base64.decodeText_encodeText (Rfc3339.format_ascii t), Option.bind_some]
  by_cases readable : Rfc3339.Readable t
  · rw [Rfc3339.parse_format readable]
    exact .inl rfl
  · rw [Rfc3339.parse_format_unreadable readable]
    exact .inr rfl

/-- Without a time to skip by, the page is the first one. -/
theorem runs_first (unskipped : skipBefore cursor = 0) : runs table jobID rawLimit cursor =
    ⟨(history table jobID).take (parseLimit rawLimit 50 200),
      (((history table jobID)[parseLimit rawLimit 50 200]?).map fun run =>
        encodeRunCursor run.startedAt).getD []⟩ := by
  simp [runs, listRuns, listReplicationRuns, unskipped, List.take_take]

/-- The runs of the job have different start times. -/
def DistinctStarts (table : List Run) (jobID : UUID) : Prop :=
  ((table.filter fun run => run.jobID = jobID).map Run.startedAt).Nodup

theorem history_perm (table : List Run) (jobID : UUID) :
    (history table jobID).Perm (table.filter fun run => run.jobID = jobID) :=
  newestFirst_perm _ _

theorem descending_history (distinct : DistinctStarts table jobID) :
    Descending Run.startedAt (history table jobID) := by
  have keys : ((table.filter fun run => run.jobID = jobID).map Run.key).Nodup := by
    refine List.Nodup.of_map (fun k => (ofLex k).1) ?_
    rw [List.map_map]
    exact distinct
  have starts : ((history table jobID).map Run.startedAt).Nodup :=
    ((history_perm table jobID).map _).nodup_iff.mpr distinct
  refine ((descending_newestFirst keys).and (List.pairwise_map.mp starts)).imp fun both => ?_
  -- The identifier decides only between runs that start at the same time.
  rcases Prod.Lex.toLex_lt_toLex.mp both.1 with earlier | ⟨same, -⟩
  · exact earlier
  · exact absurd same.symm both.2

/-- The page after the first one is empty. -/
theorem runs_second (distinct : DistinctStarts table jobID) {run : Run}
    (lookAhead : (history table jobID)[parseLimit rawLimit 50 200]? = some run)
    (skips : skipBefore cursor = run.startedAt) (nonzero : run.startedAt ≠ 0) :
    runs table jobID rawLimit cursor = ⟨[], []⟩ := by
  have descending := descending_history distinct
  have none_left : ((history table jobID).take (parseLimit rawLimit 50 200 + 1)).filter
      (fun r => run.startedAt = 0 ∨ r.startedAt < run.startedAt) = [] := by
    refine List.filter_eq_nil_iff.mpr fun r member => ?_
    rw [List.take_add_one, lookAhead] at member
    have later : run.startedAt ≤ r.startedAt := by
      rcases List.mem_append.mp member with front | same
      · have split := List.take_append_drop (parseLimit rawLimit 50 200) (history table jobID)
        have across := (List.pairwise_append.mp (split ▸ descending)).2.2
        refine (across r front run ?_).le
        exact List.mem_of_getElem? (i := 0) (by simpa using lookAhead)
      · rw [show r = run by simpa using same]
    simp [nonzero, later]
  have limited : parseLimit rawLimit 50 200 + 1 ≠ 0 := Nat.succ_ne_zero _
  simp only [runs, listRuns, listReplicationRuns, if_neg limited, skips, none_left, List.take_nil,
    List.getElem?_nil, Option.map_none, Option.getD_none]

/-- The cursors lead to all runs of the job, newest first, exactly when the first page has room for
them. -/
theorem runs_complete_iff (distinct : DistinctStarts table jobID) :
    Follows (runs table jobID rawLimit) [] (history table jobID) ↔
      (table.filter fun run => run.jobID = jobID).length ≤ parseLimit rawLimit 50 200 := by
  have first : runs table jobID rawLimit [] = _ := runs_first rfl
  rw [← (history_perm table jobID).length_eq]
  constructor
  · intro follows
    by_contra more
    obtain ⟨run, lookAhead⟩ : ∃ run, (history table jobID)[parseLimit rawLimit 50 200]? = some run :=
      ⟨_, List.getElem?_eq_getElem (by omega)⟩
    have next : (runs table jobID rawLimit []).nextCursor = encodeRunCursor run.startedAt := by
      rw [first, lookAhead]
      rfl
    have goes : encodeRunCursor run.startedAt ≠ [] :=
      Base64.encodeText_ne_nil (Rfc3339.format_ne_nil _)
    by_cases again : skipBefore (encodeRunCursor run.startedAt) = 0
    · -- The first page comes again and again.
      refine not_follows (fun c => skipBefore c = 0) (fun c unskipped => ?_) rfl follows
      rw [runs_first unskipped, ← first, next]
      exact ⟨goes, again⟩
    · have skips := (skipBefore_encode run.startedAt).resolve_right again
      have second := runs_second distinct lookAhead skips (skips ▸ again)
      obtain ⟨rest, split, follows⟩ := follows.of_more (next ▸ goes)
      rw [next] at follows
      have empty := follows.of_last (by rw [second])
      rw [second] at empty
      rw [empty, first, List.append_nil] at split
      have length := congrArg List.length split
      rw [List.length_take] at length
      omega
  · intro room
    have ends : (runs table jobID rawLimit []).nextCursor = [] := by
      rw [first, List.getElem?_eq_none (by omega)]
      rfl
    have follows := Follows.last ends
    rwa [first, List.take_of_length_le (by omega)] at follows

/-- A run of one job. -/
def sampleRun (id : Base64.Byte) (startedAt : Int) : Run :=
  ⟨[id], [7], startedAt, none, "succeeded", 0, "", ""⟩

def twoRuns : List Run :=
  [sampleRun 1 (63871286400 * Clock.second), sampleRun 2 (63871290000 * Clock.second)]

theorem distinct_twoRuns : DistinctStarts twoRuns [7] := by
  unfold DistinctStarts
  decide

theorem two_runs_on_one_page :
    Follows (runs twoRuns [7] "2".toList) [] (history twoRuns [7]) :=
  (runs_complete_iff distinct_twoRuns).mpr (by decide)

/-- With one run on a page, the older one is never listed. -/
theorem older_run_lost : DistinctStarts twoRuns [7] ∧
    history twoRuns [7] =
      [sampleRun 2 (63871290000 * Clock.second), sampleRun 1 (63871286400 * Clock.second)] ∧
    Follows (runs twoRuns [7] "1".toList) [] [sampleRun 2 (63871290000 * Clock.second)] := by
  refine ⟨distinct_twoRuns, by decide +kernel, ?_⟩
  have first : runs twoRuns [7] "1".toList [] =
      ⟨[sampleRun 2 (63871290000 * Clock.second)],
        encodeRunCursor (63871286400 * Clock.second)⟩ := by
    decide +kernel
  have second : runs twoRuns [7] "1".toList (encodeRunCursor (63871286400 * Clock.second)) =
      ⟨[], []⟩ := by
    decide +kernel
  exact .of_pages first (by decide +kernel) (.of_page second)

end NovaNas.Replication.History
