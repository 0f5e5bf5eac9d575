import NovaNas.Audit.Log

/-!
# Listing the audit log

With a network to look for, a page reads four times as many rows as it has room for, and its cursor
is that of the last row it returns. A page that is not full ends the listing, though rows of the
network may be further down than it looked.
-/
namespace NovaNas.Audit

open Fallible (bind_ok)
open Paging

def eventCursor (ev : AuditEvent) : Name := encodeCursor ev.timestamp ev.id

def overfetch (f : Filter) : Nat := if f.srcCIDR.isSome then 4 else 1

def list (t : Table) (q : Query) (cursor : Name) : Except Rejection (Page AuditEvent) := do
  let f ← parseFilter q cursor
  let rows := searchAudit t f f.cursor (f.pageSize * overfetch f)
  let out := ((rows.filter (matchesSourceIP · f.srcCIDR)).map rowToEvent).take f.pageSize
  return ⟨out, if out.length = f.pageSize ∧ 0 < out.length then
    (out.getLast?.map eventCursor).getD [] else []⟩

/-! ### What is to be listed -/

def candidates (t : Table) (f : Filter) : List AuditEvent := (selected t f).map rowToEvent

/-- The event is of the network that is looked for. -/
def shown (f : Filter) (ev : AuditEvent) : Bool := fromNet ev.payload f.srcCIDR

def matching (t : Table) (f : Filter) : List AuditEvent := (candidates t f).filter (shown f)

/-! ### Cursors -/

/-- From 1677 to 2262 nanoseconds fit the cursor. -/
def Datable (ts : Time) : Prop := -2 ^ 63 ≤ ts - unixEpoch ∧ ts - unixEpoch < 2 ^ 63

theorem unixNano_toInt {ts : Time} (datable : Datable ts) :
    unixEpoch + (unixNano ts).toInt = ts := by
  rw [unixNano, Int64.toInt_ofInt_of_le datable.1 datable.2]
  exact add_sub_cancel unixEpoch ts

/-- Every cursor that is given out can be read, if not as the time it was written for. -/
theorem parseCursor_encodeCursor (ts : Time) (id : Int64) :
    parseCursor (encodeCursor ts id) = .ok (some (unixEpoch + (unixNano ts).toInt, id)) := by
  have ascii : ∀ c ∈ Text.itoa (unixNano ts) ++ ':' :: Text.itoa id, c.toNat < 128 := by
    intro c member
    rcases List.mem_append.mp member with nanos | rest
    · exact (Text.toNat_of_mem_itoa nanos).trans (by decide)
    · rcases List.mem_cons.mp rest with rfl | number
      · decide
      · exact (Text.toNat_of_mem_itoa number).trans (by decide)
  have noColon : ':' ∉ Text.itoa (unixNano ts) := by
    intro member
    exact absurd (Text.toNat_of_mem_itoa member) (Nat.lt_irrefl _)
  have solid : encodeCursor ts id ≠ [] := Base64.encodeText_ne_nil (by simp)
  have read : decodeCursor (encodeCursor ts id) =
      some (unixEpoch + (unixNano ts).toInt, id) := by
    rw [decodeCursor, encodeCursor, Base64.decodeText_encodeText ascii]
    simp [Text.cut_append noColon]
  rw [parseCursor, if_neg solid, read]

/-! ### Pages -/

variable {t : Table} {q : Query} {f : Filter}

/-- The place a cursor stands for; one that cannot be read has none. -/
def place (cursor : Name) : Option (Time × Int64) := ((parseCursor cursor).toOption).join

def pageBehind (t : Table) (f : Filter) (cursor : Name) : Page AuditEvent :=
  pageFrom (shown f) f.pageSize (f.pageSize * overfetch f) eventCursor
    (((selected t f).filter (·.after (place cursor))).map rowToEvent)

theorem parseLimit_pos {raw : Name} {size : Nat} (parsed : parseLimit raw = .ok size) :
    0 < size := by
  unfold parseLimit at parsed
  split_ifs at parsed
  · cases parsed
    decide
  · split at parsed
    · cases parsed
    · split_ifs at parsed <;> cases parsed
      omega

theorem pageSize_pos (accepted : q.filter = .ok f) : 0 < f.pageSize := by
  obtain ⟨outcome, -, accepted⟩ := bind_ok accepted
  obtain ⟨since, -, accepted⟩ := bind_ok accepted
  obtain ⟨until', -, accepted⟩ := bind_ok accepted
  obtain ⟨_, -, accepted⟩ := bind_ok accepted
  obtain ⟨srcCIDR, -, accepted⟩ := bind_ok accepted
  obtain ⟨size, parsed, accepted⟩ := bind_ok accepted
  cases accepted
  exact parseLimit_pos parsed

theorem parseFilter_eq (accepted : q.filter = .ok f) {cursor : Name}
    (read : (parseCursor cursor).isOk) :
    parseFilter q cursor = .ok { f with cursor := place cursor } := by
  rw [parseFilter, accepted, place]
  cases found : parseCursor cursor with
  | error _ =>
    rw [found] at read
    cases read
  | ok cursor' => rfl

theorem list_eq (accepted : q.filter = .ok f) {cursor : Name} (read : (parseCursor cursor).isOk) :
    list t q cursor = .ok (pageBehind t f cursor) := by
  have pos := pageSize_pos accepted
  have items : (((searchAudit t { f with cursor := place cursor } (place cursor)
      (f.pageSize * overfetch f)).filter (matchesSourceIP · f.srcCIDR)).map rowToEvent) =
      (((((selected t f).filter (·.after (place cursor))).map rowToEvent).take
        (f.pageSize * overfetch f)).filter (shown f)) := by
    rw [searchAudit_eq, ← List.map_take, List.filter_map]
    rfl
  rw [list, parseFilter_eq accepted read]
  change Except.ok _ = _
  dsimp only
  rw [pageBehind, pageFrom, ← items]
  congr 2
  refine if_congr (and_iff_left_of_imp fun full => ?_) rfl rfl
  rw [full]
  exact pos

theorem list_answers (accepted : q.filter = .ok f) :
    Answers (list t q) (pageBehind t f) fun cursor => (parseCursor cursor).isOk := by
  refine ⟨rfl, fun cursor read => ⟨list_eq accepted read, fun goes => ?_⟩⟩
  rcases pageFrom_cases eventCursor (pageSize_pos accepted) _ with
    ⟨front, ev, -, -, -, -, page⟩ | ⟨-, page⟩
  · rw [pageBehind, page]
    rw [eventCursor, parseCursor_encodeCursor]
    rfl
  · rw [pageBehind, page] at goes
    exact absurd rfl goes

theorem list_serves (times : ∀ r ∈ t.rows, Datable r.ts) :
    Serves (shown f) f.pageSize (f.pageSize * overfetch f) eventCursor (fun _ => true)
      (pageBehind t f) (candidates t f) where
  first := by
    have all : (selected t f).filter (·.after (place [])) = selected t f :=
      List.filter_eq_self.mpr fun r _ => rfl
    rw [pageBehind, all, candidates]
  next := by
    intro front ev back split _
    refine ⟨Base64.encodeText_ne_nil (by simp), ?_⟩
    obtain ⟨rows, rest, parts, rfl, same⟩ := List.map_eq_append_iff.mp split
    obtain ⟨r, others, rfl, rfl, rfl⟩ := List.map_eq_cons_iff.mp same
    have member : r ∈ t.rows := by
      have inside : r ∈ selected t f := by simp [parts]
      exact List.mem_of_mem_filter ((newestFirst_perm _ _).mem_iff.mp inside)
    have place : place (eventCursor (rowToEvent r)) = some (r.ts, r.id) := by
      rw [place, eventCursor, parseCursor_encodeCursor]
      exact congrArg (fun ts => some (ts, r.id)) (unixNano_toInt (times r member))
    rw [if_pos rfl, pageBehind, place, after_row parts]

theorem shown_of_none (noNet : f.srcCIDR = none) (ev : AuditEvent) : shown f ev = true := by
  rw [shown, noNet, fromNet]

/-- Let the times fit the cursors. Then the cursors lead to every event that matches the filter,
newest first, exactly when, with a network to look for, each page finds its events among those it
looks at. -/
theorem audit_complete_iff (accepted : q.filter = .ok f) (times : ∀ r ∈ t.rows, Datable r.ts) :
    Yields (list t q) (matching t f) ↔
      (f.srcCIDR ≠ none → AllNear (shown f) f.pageSize (4 * f.pageSize) (candidates t f)) := by
  have marked : Marked f.pageSize (fun _ => true) ((candidates t f).filter (shown f)) :=
    fun _ _ _ => rfl
  rw [(list_answers accepted).yields_iff, matching,
    (list_serves times).follows_iff (pageSize_pos accepted), and_iff_left marked, overfetch]
  cases net : f.srcCIDR with
  | none =>
    -- Nothing is passed over, so that every page is as good as full.
    refine iff_of_true (fun pages => ?_) fun some => absurd rfl some
    generalize afterShown (shown f) (pages * f.pageSize) (candidates t f) = rest
    have all (rows : List AuditEvent) : rows.filter (shown f) = rows :=
      List.filter_eq_self.mpr fun ev _ => shown_of_none net ev
    rw [Near, all, all, List.take_take]
    simp
  | some cidr => simp [Nat.mul_comm]

/-! ### One request from the network -/

def sampleRow (id : Int64) (payload : Option Payload) : Row :=
  ⟨id, 63871286400 * Clock.second + id.toInt, none, "POST".toList, "/pools".toList, [], payload,
    .accepted⟩

/-- A request from the network, and four later ones without an address. -/
def fiveRows : Table where
  rows := [sampleRow 1 (some (.object [("source_ip".toList, .string "10.0.0.1".toList)])),
    sampleRow 2 none, sampleRow 3 none, sampleRow 4 none, sampleRow 5 none]
  ids_nodup := by decide

def fromOneHost (limit : String) : Query :=
  { source_ip := "10.0.0.1".toList, limit := limit.toList }

def oneHost (pageSize : Nat) : Filter := { srcCIDR := some ⟨[10, 0, 0, 1], 32⟩, pageSize }

theorem datable_fiveRows : ∀ r ∈ fiveRows.rows, Datable r.ts := by
  unfold Datable
  decide +kernel

theorem two_a_page_listed :
    Yields (list fiveRows (fromOneHost "2")) (matching fiveRows (oneHost 2)) := by
  have accepted : (fromOneHost "2").filter = .ok (oneHost 2) := by decide +kernel
  refine (audit_complete_iff accepted datable_fiveRows).mpr fun _ pages => ?_
  cases pages with
  | zero =>
    unfold Near
    decide +kernel
  | succ pages =>
    have one : ((candidates fiveRows (oneHost 2)).filter (shown (oneHost 2))).length = 1 := by
      decide +kernel
    have size : (oneHost 2).pageSize = 2 := rfl
    rw [afterShown_of_few (by rw [one, size]; omega)]
    simp [Near]

/-- The first page looks at the four later rows, finds nothing and ends the listing. -/
theorem fifth_row_lost :
    (fromOneHost "1").filter = .ok (oneHost 1) ∧ (∀ r ∈ fiveRows.rows, Datable r.ts) ∧
    matching fiveRows (oneHost 1) = [rowToEvent (sampleRow 1
      (some (.object [("source_ip".toList, .string "10.0.0.1".toList)])))] ∧
    Yields (list fiveRows (fromOneHost "1")) [] := by
  have accepted : (fromOneHost "1").filter = .ok (oneHost 1) := by decide +kernel
  refine ⟨accepted, datable_fiveRows, by decide +kernel,
    (list_answers accepted).yields_iff.mpr (.of_page ?_)⟩
  decide +kernel

end NovaNas.Audit
