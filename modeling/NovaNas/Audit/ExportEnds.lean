import NovaNas.Audit.Export

/-!
# Exports that do not end

In the line format a row that cannot be written ends the page but not the export, and the cursor
stays before that row. If a full page of rows follows, it is read again and again.
-/
namespace NovaNas.Audit

open Paging

variable {env : Env} {format : Format} {f : Filter} {t : Table} {s : Progress}
  {front back rows : List Row}

/-! ### Disturbances -/

/-- After a context that is cancelled and stays so the export comes to an end. -/
theorem ends_of_cancelled {k : Nat} (stays : ∀ j ≥ k, env.cancelled j = true) (s : Progress) :
    ∃ s', Iteration.Ends (exportPage env format f) s s' := by
  refine Iteration.ends_of_measure (fun _ => True) (fun s => k - s.looks) ?_ trivial
  intro s _ goes
  obtain ⟨runs, t, -, -, next⟩ := exportPage_goes goes
  have more := (exportRows_frame env format f (searchAudit t f s.cursor exportPageSize)
    s.look.ask).1
  have one : s.look.ask.looks = s.looks + 1 := rfl
  have early : s.looks < k := by
    by_contra late
    rw [stays _ (Nat.le_of_not_lt late)] at runs
    cases runs
  refine ⟨trivial, ?_⟩
  rw [next]
  omega

theorem ends_of_query {k : Nat} (fails : env.search k = none) {s : Progress}
    (early : s.queries ≤ k) : ∃ s', Iteration.Ends (exportPage env format f) s s' := by
  refine Iteration.ends_of_measure (·.queries ≤ k) (fun s => k - s.queries) ?_ early
  intro s early goes
  obtain ⟨-, t, search, -, next⟩ := exportPage_goes goes
  have same := (exportRows_frame env format f (searchAudit t f s.cursor exportPageSize)
    s.look.ask).2
  have one : s.look.ask.queries = s.queries + 1 := rfl
  have other : s.queries ≠ k := by
    rintro rfl
    rw [fails] at search
    cases search
  rw [next]
  omega

/-! ### The row that cannot be written -/

/-- From the first row of the page on whose writing fails, in the line format. -/
def unwritten (env : Env) (f : Filter) : Nat → List Row → List Row
  | _, [] => []
  | writes, row :: rows =>
    if matchesSourceIP row f.srcCIDR then
      if Rfc3339.Readable row.ts ∧ env.fails writes = false then unwritten env f (writes + 1) rows
      else row :: rows
    else unwritten env f writes rows

/-- The rows at which the export stops moving on. -/
def stuck (env : Env) (f : Filter) (format : Format) (writes : Nat) (rows : List Row) : List Row :=
  match format with
  | .csv => []
  | .jsonl => unwritten env f writes rows

/-- A write that fails is followed by failing writes only. -/
def Breaks (env : Env) : Prop := ∀ j k, j ≤ k → env.fails j = true → env.fails k = true

theorem unwritten_suffix (env : Env) (f : Filter) (writes : Nat) (rows : List Row) :
    unwritten env f writes rows <:+ rows := by
  induction rows generalizing writes with
  | nil => exact List.suffix_rfl
  | cons row rows ih =>
    rw [unwritten]
    split_ifs
    · exact (ih _).trans (List.suffix_cons _ _)
    · exact List.suffix_rfl
    · exact (ih _).trans (List.suffix_cons _ _)

theorem unwritten_hidden {row : Row} (hidden : ¬matchesSourceIP row f.srcCIDR = true)
    (writes : Nat) : unwritten env f writes (row :: rows) = unwritten env f writes rows := by
  rw [unwritten, if_neg hidden]

/-- The row is where the writing fails if it is of the network and cannot be written. -/
theorem unwritten_of_failure {row : Row} {writes : Nat} (visible : matchesSourceIP row f.srcCIDR)
    (failure : ¬(Rfc3339.Readable row.ts ∧ env.fails writes = false)) :
    unwritten env f writes (row :: rows) = row :: rows := by
  rw [unwritten, if_pos visible, if_neg failure]

/-- What the writing of an event does to where the export is stuck. -/
theorem writeEvent_spec (format : Format) (breaks : Breaks env) {row : Row}
    (visible : matchesSourceIP row f.srcCIDR = true) (s : Progress) (rows : List Row) :
    match writeEvent env format (rowToEvent row) s with
    | (true, s') => stuck env f format s.writes (row :: rows) = stuck env f format s'.writes rows
    | (false, s') => stuck env f format s.writes (row :: rows) = row :: rows ∧
        stuck env f format s'.writes (row :: rows) = row :: rows := by
  cases format with
  | csv => rfl
  | jsonl =>
    have time : (rowToEvent row).timestamp = row.ts := rfl
    simp only [stuck, writeEvent, time]
    split_ifs with readable
    · cases fails : env.fails s.writes with
      | true =>
        have again := breaks _ _ (Nat.le_succ s.writes) fails
        exact ⟨unwritten_of_failure visible (by simp [fails]),
          unwritten_of_failure visible (by simp [Progress.write, again])⟩
      | false =>
        rw [unwritten, if_pos visible, if_pos ⟨readable, fails⟩]
        rfl
    · exact ⟨unwritten_of_failure visible fun written => readable written.1,
        unwritten_of_failure visible fun written => readable written.1⟩

/-- Without a cancellation a page moves the cursor to its end, or to the row that cannot be written
and again cannot be written the next time. -/
theorem exportRows_spec (format : Format) (f : Filter) (runs : ∀ k, env.cancelled k = false)
    (breaks : Breaks env) (rows : List Row) (s : Progress) : ∃ done left, rows = done ++ left ∧
      (exportRows env format f rows s).cursor = behind s.cursor done ∧
      ∀ rest, stuck env f format (exportRows env format f rows s).writes (left ++ rest) =
          stuck env f format s.writes (rows ++ rest) ∧
        (left = [] ∨ stuck env f format s.writes (rows ++ rest) = left ++ rest) := by
  induction rows generalizing s with
  | nil => exact ⟨[], [], rfl, rfl, fun _ => ⟨rfl, .inl rfl⟩⟩
  | cons row rows ih =>
    rw [exportRows, runs, if_neg (by decide)]
    -- The rest of the page from a state in which the row is done.
    have go (s' : Progress) (same : ∀ rest, stuck env f format s.writes (row :: (rows ++ rest)) =
        stuck env f format s'.writes (rows ++ rest)) : ∃ done left, row :: rows = done ++ left ∧
          (exportRows env format f rows (s'.moveTo row)).cursor = behind s.cursor done ∧
          ∀ rest, stuck env f format (exportRows env format f rows (s'.moveTo row)).writes
              (left ++ rest) = stuck env f format s.writes (row :: rows ++ rest) ∧
            (left = [] ∨ stuck env f format s.writes (row :: rows ++ rest) = left ++ rest) := by
      obtain ⟨done, left, split, cursor, onward⟩ := ih (s'.moveTo row)
      refine ⟨row :: done, left, by rw [split, List.cons_append], ?_, fun rest => ?_⟩
      · rw [cursor, ← behind_cons]
        rfl
      · rw [List.cons_append, same]
        exact onward rest
    split_ifs with visible
    · have spec (rest : List Row) := writeEvent_spec format breaks visible s.look (rows ++ rest)
      have kept := (writeEvent_frame env format (rowToEvent row) s.look).2.2
      split
      next wrote s' written =>
        simp only [written] at spec
        exact go { s' with rowCount := s'.rowCount + 1 } spec
      next broke s' written =>
        rw [written] at kept
        simp only [written] at spec
        refine ⟨[], row :: rows, rfl, kept, fun rest => ⟨?_, .inr (spec rest).1⟩⟩
        exact (spec rest).2.trans (spec rest).1.symm
    · refine go s.look fun rest => ?_
      cases format with
      | csv => rfl
      | jsonl => exact unwritten_hidden visible _

/-! ### Whether the export ends -/

/-- The export has come to a place in the rows, and what is stuck there is what is stuck in all. -/
def Underway (env : Env) (f : Filter) (format : Format) (t : Table) (s : Progress) : Prop :=
  ∃ front back, selected t f = front ++ back ∧ s.cursor = behind none front ∧
    stuck env f format s.writes back = stuck env f format 0 (selected t f)

/-- Undisturbed, a round goes on exactly if a full page is ahead. It then gets further, or is at the
row that cannot be written. -/
theorem round (runs : ∀ k, env.cancelled k = false) (answers : ∀ k, env.search k = some t)
    (breaks : Breaks env) (underway : Underway env f format t s) :
    ((exportPage env format f s).1 = true ↔ exportPageSize ≤ (ahead t f s).length) ∧
    stuck env f format 0 (selected t f) <:+ ahead t f s ∧
    Underway env f format t (exportPage env format f s).2 ∧
    (exportPageSize ≤ (ahead t f s).length →
      (ahead t f (exportPage env format f s).2).length < (ahead t f s).length ∨
      stuck env f format 0 (selected t f) = ahead t f s) := by
  obtain ⟨front, back, split, cursor, same⟩ := underway
  have place : ahead t f s = back := by rw [ahead, cursor, after_behind split]
  have page : searchAudit t f s.cursor exportPageSize = back.take exportPageSize := by
    rw [cursor, search_behind split]
  rw [exportPage_of_search (runs _) (answers _), page, place]
  obtain ⟨done, left, parts, moved, onward⟩ :=
    exportRows_spec format f runs breaks (back.take exportPageSize) s.look.ask
  have whole : selected t f = front ++ done ++ (left ++ back.drop exportPageSize) := by
    rw [split, List.append_assoc, ← List.append_assoc done, ← parts, List.take_append_drop]
  obtain ⟨kept, stops⟩ := onward (back.drop exportPageSize)
  have asked : s.look.ask.writes = s.writes := rfl
  rw [List.take_append_drop, asked] at kept stops
  have cursor' : (exportRows env format f (back.take exportPageSize) s.look.ask).cursor =
      behind none (front ++ done) := by
    rw [moved, ← behind_append, ← cursor]
    rfl
  refine ⟨?_, ?_, ⟨front ++ done, _, whole, cursor', kept.trans same⟩, fun full => ?_⟩
  · simp [List.length_take]
  · rw [← same]
    cases format with
    | csv => exact List.nil_suffix
    | jsonl => exact unwritten_suffix env f _ back
  · rw [ahead, cursor', after_behind whole]
    rcases done with _ | ⟨row, done⟩
    · -- The first row of the page cannot be written.
      right
      rcases stops with none | stops
      · rw [List.nil_append, none, List.take_eq_nil_iff] at parts
        rcases parts with zero | nil
        · cases zero
        · rw [nil] at full
          cases full
      · rw [List.nil_append] at parts
        rw [← same, stops, ← parts, List.take_append_drop]
    · left
      have length := congrArg List.length whole
      rw [split] at length
      simp only [List.length_append, List.length_cons] at length ⊢
      omega

/-- Undisturbed, the export ends exactly if less than a full page is left from the row on that
cannot be written. -/
theorem undisturbed_ends_iff (runs : ∀ k, env.cancelled k = false)
    (answers : ∀ k, env.search k = some t) (breaks : Breaks env) :
    (∃ s', Iteration.Ends (exportPage env format f) {} s') ↔
      (stuck env f format 0 (selected t f)).length < exportPageSize := by
  have start : Underway env f format t {} := ⟨[], selected t f, rfl, rfl, rfl⟩
  constructor
  · rintro ⟨s', ends⟩
    by_contra long
    refine Iteration.not_ends (Underway env f format t) (fun s underway => ?_) start ends
    obtain ⟨goes, suffix, next, -⟩ := round runs answers breaks underway
    exact ⟨goes.mpr ((Nat.le_of_not_lt long).trans suffix.length_le), next⟩
  · intro short
    refine Iteration.ends_of_measure (Underway env f format t) (fun s => (ahead t f s).length)
      (fun s underway going => ?_) start
    obtain ⟨goes, -, next, further⟩ := round runs answers breaks underway
    have full := goes.mp going
    refine ⟨next, (further full).resolve_right fun same => ?_⟩
    rw [same] at short
    omega

section Request

variable {q : Query} {formatText actor : Name} {locks : List Name}

/-- The export of a table ends and gives the lock back exactly if its context is cancelled at some
time, a query fails, the format is CSV, or less than a full page of rows is left from the first one
on that cannot be written. -/
theorem export_ends_iff (known : parseFormat formatText = .ok format)
    (accepted : q.filter = .ok f) (free : locks.contains actor = false)
    (table : ∀ k t', env.search k = some t' → t' = t)
    (stays : ∀ j k, j ≤ k → env.cancelled j = true → env.cancelled k = true)
    (breaks : Breaks env) :
    (∃ fuel answer locks', exportLog env fuel locks actor formatText q = some (answer, locks') ∧
      locks'.contains actor = false) ↔
    (∃ k, env.cancelled k = true) ∨ (∃ k, env.search k = none) ∨
      (format = .jsonl → (unwritten env f 0 (selected t f)).length < exportPageSize) := by
  have loop : (∃ fuel answer locks', exportLog env fuel locks actor formatText q =
        some (answer, locks') ∧ locks'.contains actor = false) ↔
      ∃ s', Iteration.Ends (exportPage env format f) {} s' := by
    simp only [exportLog_eq known accepted free, Option.map_eq_some_iff]
    constructor
    · rintro ⟨fuel, _, _, ⟨s', ends, -⟩, -⟩
      exact ⟨s', fuel, ends⟩
    · rintro ⟨s', fuel, ends⟩
      exact ⟨fuel, _, _, ⟨s', ends, rfl⟩, by simp⟩
  rw [loop]
  by_cases cancelled : ∃ k, env.cancelled k = true
  · obtain ⟨k, first⟩ := cancelled
    exact iff_of_true (ends_of_cancelled (fun j later => stays k j later first) {})
      (.inl ⟨k, first⟩)
  by_cases failing : ∃ k, env.search k = none
  · obtain ⟨k, fails⟩ := failing
    exact iff_of_true (ends_of_query fails (Nat.zero_le k)) (.inr (.inl ⟨k, fails⟩))
  have runs (k : Nat) : env.cancelled k = false := by
    simpa using fun first => cancelled ⟨k, first⟩
  have answers (k : Nat) : env.search k = some t := by
    cases search : env.search k with
    | none => exact absurd ⟨k, search⟩ failing
    | some t' => rw [table k t' search]
  rw [undisturbed_ends_iff runs answers breaks, or_iff_right cancelled, or_iff_right failing]
  cases format with
  | csv => simp [stuck, exportPageSize]
  | jsonl => simp [stuck]

end Request

/-! ### Writes that fail -/

/-- As many rows as a page of the export has. -/
def fullPage : Table := ⟨manyRows exportPageSize, manyRows_nodup (by decide)⟩

/-- The context stays, the queries are answered, and every write fails. -/
def deaf : Env := ⟨fun _ => false, fun _ => some fullPage, fun _ => true⟩

theorem csv_ends : ∃ fuel answer locks',
    exportLog deaf fuel [] "ann".toList "csv".toList {} = some (answer, locks') ∧
      locks'.contains "ann".toList = false :=
  (export_ends_iff (t := fullPage) (show parseFormat _ = .ok .csv by decide +kernel)
    (show Query.filter _ = .ok {} by decide +kernel) rfl
    (fun _ _ found => (Option.some.inj found).symm)
    (fun _ _ _ first => (Bool.false_ne_true first).elim)
    (fun _ _ _ _ => rfl)).mpr (.inr (.inr fun other => nomatch other))

theorem length_manyRows (n : Nat) : (manyRows n).length = n := by
  rw [manyRows, List.length_map, List.length_range]

theorem length_fullPage : (selected fullPage {}).length = exportPageSize := by
  have perm : (selected fullPage {}).Perm (fullPage.rows.filter (Filter.selects {})) :=
    newestFirst_perm _ _
  have all : fullPage.rows.filter (Filter.selects {}) = fullPage.rows :=
    List.filter_eq_self.mpr fun row _ => rfl
  rw [perm.length_eq, all, fullPage, length_manyRows]

/-- The same full page is read again and again. -/
theorem jsonl_never_ends : parseFormat "jsonl".toList = .ok .jsonl ∧
    Query.filter {} = .ok {} ∧
    ∀ fuel, exportLog deaf fuel [] "ann".toList "jsonl".toList {} = none := by
  have known : parseFormat "jsonl".toList = .ok .jsonl := by decide +kernel
  have accepted : Query.filter {} = .ok {} := by decide +kernel
  refine ⟨known, accepted, fun fuel => ?_⟩
  have whole : unwritten deaf {} 0 (selected fullPage {}) = selected fullPage {} := by
    cases selected fullPage {} with
    | nil => rfl
    | cons row rows => exact unwritten_of_failure rfl fun written => nomatch written.2
  have never : ¬∃ s', Iteration.Ends (exportPage deaf .jsonl {}) {} s' := by
    rw [undisturbed_ends_iff (t := fullPage) (fun _ => rfl) (fun _ => rfl) fun _ _ _ _ => rfl,
      stuck, whole, length_fullPage]
    exact Nat.lt_irrefl _
  rw [exportLog_eq known accepted rfl, Option.map_eq_none_iff, Option.eq_none_iff_forall_ne_some]
  exact fun s' ends => never ⟨s', fuel, ends⟩

end NovaNas.Audit
