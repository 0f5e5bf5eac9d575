import Mathlib.Data.List.Nodup
import NovaNas.Base.Interleaving

/-!
# The mail outbox

`DrainPending` collects the positions of the pending entries, and for each of them reads the entry,
sends its message and records the outcome. The lock of the outbox is released between these steps,
so other calls append, cut the outbox back to its limit, or drain it as well in between.
-/
namespace NovaNas.Smtp

open Interleaving (run Guarded run_induction run_invariant)

structure Message where
  toAddrs : List String
  subject : String
  body : String
  headers : List (String × String)
  deriving DecidableEq, Repr

inductive OutboxStatus where
  | pending
  | sent
  | failed
  deriving DecidableEq, Repr

structure OutboxEntry where
  id : Nat
  message : Message
  status : OutboxStatus
  lastError : String
  attempts : Nat
  deriving DecidableEq, Repr

/-- How far a call of `DrainPending` is, with the number of messages it has sent. -/
inductive Drain where
  | idle
  /-- Before the next position; without any it returns. -/
  | looping (todo : List Nat) (sent : Nat)
  | sending (entry : OutboxEntry) (idx : Nat) (rest : List Nat) (sent : Nat)
  /-- The client has answered, with an error or none. -/
  | recording (idx : Nat) (err : Option String) (rest : List Nat) (sent : Nat)
  deriving DecidableEq, Repr

structure State where
  outbox : List OutboxEntry
  nextID : Nat
  drains : Nat → Drain
  /-- The entries whose message the client was given, and its answer. -/
  handed : List (Nat × Option String)

inductive Action where
  | enqueue (message : Message)
  /-- A `Send` that the client answered with an error. -/
  | sendFails (message : Message) (err : String)
  | collect (i : Nat)
  | read (i : Nat)
  | send (i : Nat) (answer : Option String)
  | record (i : Nat)
  deriving DecidableEq, Repr

/-- The outbox is cut back to its last thousand entries. -/
def outboxLimit : Nat := 1000

def State.appendOutbox (s : State) (message : Message) (status : OutboxStatus) (lastErr : String) :
    State :=
  let e : OutboxEntry := ⟨s.nextID + 1, message, status, lastErr, 0⟩
  let outbox := s.outbox ++ [e]
  { s with
    nextID := s.nextID + 1
    outbox := if outbox.length > outboxLimit then outbox.drop (outbox.length - outboxLimit)
      else outbox }

def pendingPositions (outbox : List OutboxEntry) : List Nat :=
  (List.range outbox.length).filter fun i => outbox[i]?.map (·.status) == some .pending

def OutboxEntry.outcome (e : OutboxEntry) : Option String → OutboxEntry
  | some err => { e with attempts := e.attempts + 1, status := .failed, lastError := err }
  | none => { e with attempts := e.attempts + 1, status := .sent, lastError := "" }

def State.setDrain (s : State) (i : Nat) (d : Drain) : State :=
  { s with drains := Function.update s.drains i d }

/-- An index out of range would be a panic; no step stands for it. -/
def step (s : State) : Action → Option State
  | .enqueue message => some (s.appendOutbox message .pending "")
  | .sendFails message err =>
    some { s.appendOutbox message .failed err with
      handed := s.handed ++ [(s.nextID + 1, some err)] }
  | .collect i =>
    match s.drains i with
    | .idle => some (s.setDrain i (.looping (pendingPositions s.outbox) 0))
    | _ => none
  | .read i =>
    match s.drains i with
    | .looping (idx :: rest) sent =>
      s.outbox[idx]?.map fun e => s.setDrain i (.sending e idx rest sent)
    | _ => none
  | .send i answer =>
    match s.drains i with
    | .sending e idx rest sent =>
      some { s.setDrain i (.recording idx answer rest sent) with
        handed := s.handed ++ [(e.id, answer)] }
    | _ => none
  | .record i =>
    match s.drains i with
    | .recording idx err rest sent =>
      if idx < s.outbox.length then
        some { s.setDrain i (.looping rest (if err.isNone then sent + 1 else sent)) with
          outbox := s.outbox.modify idx (·.outcome err) }
      else none
    | _ => none

/-- A manager that was just made. -/
def State.new : State := ⟨[], 0, fun _ => .idle, []⟩

/-! ### Positions and steps -/

/-- The positions that a call has not recorded yet. -/
def Drain.positions : Drain → List Nat
  | .idle => []
  | .looping todo _ => todo
  | .sending _ idx rest _ => idx :: rest
  | .recording idx _ rest _ => idx :: rest

/-- The position whose answer is about to be recorded. -/
def Drain.records : Drain → Option Nat
  | .recording idx _ _ _ => some idx
  | _ => none

theorem Drain.records_mem {d : Drain} {p : Nat} (records : d.records = some p) :
    p ∈ d.positions := by
  cases d <;> simp_all [Drain.records, Drain.positions]

theorem Drain.records_of_done {d : Drain} {p : Nat} (done : d.positions = []) :
    d.records ≠ some p := fun records => by
  have member := Drain.records_mem records
  rw [done] at member
  cases member

/-! ### Entries and answers -/

/-- What the entry says agrees with what the client was given and answered. -/
def Agrees (handed : List (Nat × Option String)) (e : OutboxEntry) : Prop :=
  (e.status = .pending → e.id ∉ handed.map (·.1)) ∧ (e.status = .sent ↔ (e.id, none) ∈ handed)

/-- A pending entry whose message the client was not given. -/
def Waiting (outbox : List OutboxEntry) (handed : List (Nat × Option String)) (p : Nat) : Prop :=
  ∃ e, outbox[p]? = some e ∧ e.status = .pending ∧ e.id ∉ handed.map (·.1)

/-- The positions of a call are still those of its entries. -/
def Drain.Sound (outbox : List OutboxEntry) (handed : List (Nat × Option String)) : Drain → Prop
  | .idle => True
  | .looping todo _ => todo.Nodup ∧ ∀ p ∈ todo, Waiting outbox handed p
  | .sending e idx rest _ => (idx :: rest).Nodup ∧ outbox[idx]? = some e ∧
      ∀ p ∈ idx :: rest, Waiting outbox handed p
  | .recording idx err rest _ => (idx :: rest).Nodup ∧
      (∃ e, outbox[idx]? = some e ∧ (e.id, err) ∈ handed) ∧ ∀ p ∈ rest, Waiting outbox handed p

structure Accounted (s : State) : Prop where
  increasing : s.outbox.Pairwise (·.id < ·.id)
  issued : ∀ e ∈ s.outbox, e.id ≤ s.nextID
  given : ∀ h ∈ s.handed, h.1 ≤ s.nextID
  once : (s.handed.map (·.1)).Nodup
  /-- Only one call has positions left. -/
  alone : ∀ i j, (s.drains i).positions ≠ [] → (s.drains j).positions ≠ [] → i = j
  sound : ∀ i, (s.drains i).Sound s.outbox s.handed
  agree : ∀ p e, s.outbox[p]? = some e → (∀ i, (s.drains i).records ≠ some p) →
    Agrees s.handed e

theorem Accounted.new : Accounted .new where
  increasing := .nil
  issued := by simp [State.new]
  given := by simp [State.new]
  once := by simp [State.new]
  alone i j left := by simp [State.new, Drain.positions] at left
  sound i := trivial
  agree p e found := by simp [State.new] at found

/-- The calls that the guard lets through: a drain begins while no other has positions left, and
a full outbox takes no entry while one has. -/
def Careful (s : State) : Action → Prop
  | .collect _ => ∀ j, (s.drains j).positions = []
  | .enqueue _ | .sendFails _ _ =>
    s.outbox.length < outboxLimit ∨ ∀ j, (s.drains j).positions = []
  | _ => True

section Steps

variable {s : State} {i p idx : Nat} {e : OutboxEntry} {d : Drain} {outbox : List OutboxEntry}
  {handed more : List (Nat × Option String)}

theorem Agrees.append (agrees : Agrees handed e) (others : e.id ∉ more.map (·.1)) :
    Agrees (handed ++ more) e := by
  have absent : (e.id, none) ∉ more := fun member => others (List.mem_map_of_mem member)
  refine ⟨fun pending => ?_, ?_⟩
  · rw [List.map_append, List.mem_append, not_or]
    exact ⟨agrees.1 pending, others⟩
  · rw [List.mem_append, or_iff_left absent]
    exact agrees.2

theorem Agrees.append_left (agrees : Agrees more e) (others : e.id ∉ handed.map (·.1)) :
    Agrees (handed ++ more) e := by
  have absent : (e.id, none) ∉ handed := fun member => others (List.mem_map_of_mem member)
  refine ⟨fun pending => ?_, ?_⟩
  · rw [List.map_append, List.mem_append, not_or]
    exact ⟨others, agrees.1 pending⟩
  · rw [List.mem_append, or_iff_right absent]
    exact agrees.2

theorem Waiting.append (waiting : Waiting outbox handed p)
    (others : ∀ e, outbox[p]? = some e → e.id ∉ more.map (·.1)) :
    Waiting outbox (handed ++ more) p := by
  obtain ⟨e, found, pending, fresh⟩ := waiting
  refine ⟨e, found, pending, ?_⟩
  rw [List.map_append, List.mem_append, not_or]
  exact ⟨fresh, others e found⟩

theorem Drain.Sound.of_done (done : d.positions = []) : d.Sound outbox handed := by
  cases d with
  | idle => trivial
  | looping todo sent =>
    obtain rfl : todo = [] := done
    simp [Drain.Sound]
  | sending e idx rest sent => cases done
  | recording idx err rest sent => cases done

theorem Drain.Sound.mono {outbox' : List OutboxEntry} (sound : d.Sound outbox handed)
    (kept : ∀ (p : Nat) (e : OutboxEntry), outbox[p]? = some e →
      outbox'[p]? = some e ∧ e.id ∉ more.map (·.1)) : d.Sound outbox' (handed ++ more) := by
  have waits {p : Nat} (waiting : Waiting outbox handed p) : Waiting outbox' (handed ++ more) p := by
    obtain ⟨e, found, facts⟩ := waiting.append fun e found => (kept p e found).2
    exact ⟨e, (kept p e found).1, facts⟩
  cases d with
  | idle => trivial
  | looping todo sent => exact ⟨sound.1, fun p member => waits (sound.2 p member)⟩
  | sending e idx rest sent =>
    exact ⟨sound.1, (kept idx e sound.2.1).1, fun p member => waits (sound.2.2 p member)⟩
  | recording idx err rest sent =>
    obtain ⟨apart, ⟨e, found, answered⟩, waiting⟩ := sound
    exact ⟨apart, ⟨e, (kept idx e found).1, List.mem_append_left _ answered⟩,
      fun p member => waits (waiting p member)⟩

section

variable (acc : Accounted s)
include acc

theorem Accounted.ids {q : Nat} {e' : OutboxEntry} (first : s.outbox[p]? = some e)
    (second : s.outbox[q]? = some e') (other : p ≠ q) : e.id ≠ e'.id := by
  obtain ⟨plt, rfl⟩ := List.getElem?_eq_some_iff.mp first
  obtain ⟨qlt, rfl⟩ := List.getElem?_eq_some_iff.mp second
  have order := List.pairwise_iff_getElem.mp acc.increasing
  rcases Nat.lt_or_gt_of_ne other with less | greater
  · exact Nat.ne_of_lt (order p q plt qlt less)
  · exact (Nat.ne_of_lt (order q p qlt plt greater)).symm

/-- Where a call has positions left, no other has. -/
theorem Accounted.working (here : s.drains i = d) (left : d.positions ≠ []) :
    d.Sound s.outbox s.handed ∧ ∀ j ≠ i, (s.drains j).positions = [] := by
  subst here
  refine ⟨acc.sound i, fun j other => ?_⟩
  by_contra also
  exact other (acc.alone j i also left)

theorem Accounted.alone_update
    (alone : d.positions ≠ [] → ∀ j, j ≠ i → (s.drains j).positions = []) (j k : Nat) :
    (Function.update s.drains i d j).positions ≠ [] →
      (Function.update s.drains i d k).positions ≠ [] → j = k := by
  simp only [Function.update_apply]
  split <;> split
  next hj hk => exact fun _ _ => hj.trans hk.symm
  next hj hk => exact fun left right => absurd (alone left k hk) right
  next hj hk => exact fun left right => absurd (alone right j hj) left
  next => exact acc.alone j k

/-- A call that moves on while the outbox stays as it is. -/
theorem Accounted.setDrain (sound : d.Sound s.outbox s.handed)
    (alone : d.positions ≠ [] → ∀ j, j ≠ i → (s.drains j).positions = [])
    (before : (s.drains i).records = none) :
    Accounted (s.setDrain i d) where
  increasing := acc.increasing
  issued := acc.issued
  given := acc.given
  once := acc.once
  alone := acc.alone_update alone
  sound j := by
    simp only [State.setDrain, Function.update_apply]
    split
    next => exact sound
    next => exact acc.sound j
  agree p e found unrecorded := by
    refine acc.agree p e found fun j => ?_
    have others := unrecorded j
    simp only [State.setDrain, Function.update_apply] at others
    split at others
    next same => simp [same, before]
    next => exact others

theorem Accounted.collect (quiet : ∀ j, (s.drains j).positions = []) :
    Accounted (s.setDrain i (.looping (pendingPositions s.outbox) 0)) := by
  have unrecorded (p j : Nat) : (s.drains j).records ≠ some p := Drain.records_of_done (quiet j)
  refine acc.setDrain ⟨List.nodup_range.filter _, fun p member => ?_⟩ (fun _ j _ => quiet j) ?_
  · obtain ⟨-, pending⟩ := List.mem_filter.mp member
    obtain ⟨e, found, status⟩ := Option.map_eq_some_iff.mp (beq_iff_eq.mp pending)
    exact ⟨e, found, status, (acc.agree p e found (unrecorded p)).1 status⟩
  · cases here : s.drains i with
    | recording idx err rest sent => exact absurd (by simp [here, Drain.records]) (unrecorded idx i)
    | _ => rfl

theorem Accounted.read {rest : List Nat} {sent : Nat}
    (here : s.drains i = .looping (idx :: rest) sent) (found : s.outbox[idx]? = some e) :
    Accounted (s.setDrain i (.sending e idx rest sent)) := by
  obtain ⟨sound, done⟩ := acc.working here (List.cons_ne_nil _ _)
  exact acc.setDrain ⟨sound.1, found, sound.2⟩ (fun _ => done) (by simp [here, Drain.records])

theorem Accounted.send {rest : List Nat} {sent : Nat} (answer : Option String)
    (here : s.drains i = .sending e idx rest sent) :
    Accounted { s.setDrain i (.recording idx answer rest sent) with
      handed := s.handed ++ [(e.id, answer)] } := by
  obtain ⟨⟨apart, found, waiting⟩, done⟩ := acc.working here (List.cons_ne_nil _ _)
  obtain ⟨own, same, pending, fresh⟩ := waiting idx (by simp)
  obtain rfl : own = e := Option.some.inj (same.symm.trans found)
  -- Entries at other positions have other ids, so the new answer is not about them.
  have others {q : Nat} {e' : OutboxEntry} (at_ : s.outbox[q]? = some e') (other : q ≠ idx) :
      e'.id ∉ [(own.id, answer)].map (·.1) := by
    simpa using acc.ids at_ found other
  refine ⟨acc.increasing, acc.issued, ?_, ?_, acc.alone_update fun _ => done,
    fun j => ?_, fun q e' at_ unrecorded => ?_⟩
  · intro h member
    rcases List.mem_append.mp member with old | new
    · exact acc.given h old
    · obtain rfl := List.mem_singleton.mp new
      exact acc.issued own (List.mem_of_getElem? found)
  · rw [List.map_append, List.nodup_append]
    refine ⟨acc.once, by simp, ?_⟩
    rintro x old y new rfl
    obtain rfl : x = own.id := by simpa using new
    exact fresh old
  · simp only [State.setDrain, Function.update_apply]
    split
    next =>
      refine ⟨apart, ⟨own, found, by simp⟩, fun q member => ?_⟩
      have other : q ≠ idx := fun equal => (List.nodup_cons.mp apart).1 (equal ▸ member)
      exact (waiting q (List.mem_cons_of_mem _ member)).append fun e' at_ => others at_ other
    next other => exact .of_done (done j other)
  · have other : q ≠ idx := by
      rintro rfl
      exact unrecorded i (by simp [State.setDrain, Drain.records])
    refine Agrees.append (acc.agree q e' at_ fun j records => ?_) (others at_ other)
    by_cases same : j = i
    · simp [same, here, Drain.records] at records
    · exact Drain.records_of_done (done j same) records

end

theorem OutboxEntry.outcome_id (e : OutboxEntry) (err : Option String) :
    (e.outcome err).id = e.id := by
  cases err <;> rfl

theorem OutboxEntry.outcome_pending (e : OutboxEntry) (err : Option String) :
    (e.outcome err).status ≠ .pending := by
  cases err <;> simp [OutboxEntry.outcome]

theorem OutboxEntry.outcome_sent (e : OutboxEntry) (err : Option String) :
    (e.outcome err).status = .sent ↔ err = none := by
  cases err <;> simp [OutboxEntry.outcome]

theorem Accounted.record (acc : Accounted s) {rest : List Nat} {sent count : Nat}
    {err : Option String} (here : s.drains i = .recording idx err rest sent) :
    Accounted { s.setDrain i (.looping rest count) with
      outbox := s.outbox.modify idx (·.outcome err) } := by
  obtain ⟨⟨apart, ⟨own, found, answered⟩, waiting⟩, done⟩ :=
    acc.working here (List.cons_ne_nil _ _)
  have elsewhere {q : Nat} (other : q ≠ idx) :
      (s.outbox.modify idx (·.outcome err))[q]? = s.outbox[q]? := by
    simp [Ne.symm other]
  have ids : (s.outbox.modify idx (·.outcome err)).map (·.id) = s.outbox.map (·.id) := by
    refine List.ext_getElem? fun q => ?_
    rw [List.getElem?_map, List.getElem?_map, List.getElem?_modify]
    cases s.outbox[q]? with
    | none => rfl
    | some e =>
      by_cases here : idx = q <;> simp [here, OutboxEntry.outcome_id]
  refine ⟨?_, ?_, acc.given, acc.once, acc.alone_update fun _ => done,
    fun j => ?_, fun q e' at_ unrecorded => ?_⟩
  · have order := List.pairwise_map.mpr acc.increasing
    rw [← ids] at order
    exact List.pairwise_map.mp order
  · intro e member
    have inside := List.mem_map_of_mem (f := (·.id)) member
    rw [ids] at inside
    obtain ⟨old, member, same⟩ := List.mem_map.mp inside
    exact same ▸ acc.issued old member
  · simp only [State.setDrain, Function.update_apply]
    split
    next =>
      refine ⟨(List.nodup_cons.mp apart).2, fun q member => ?_⟩
      have other : q ≠ idx := fun equal => (List.nodup_cons.mp apart).1 (equal ▸ member)
      obtain ⟨e, at_, facts⟩ := waiting q member
      exact ⟨e, (elsewhere other).trans at_, facts⟩
    next other => exact .of_done (done j other)
  · by_cases same : q = idx
    · -- The answer that is recorded is the only one for this entry.
      subst same
      obtain rfl : own.outcome err = e' := by simpa [found] using at_
      have unique (other : Option String) (also : (own.id, other) ∈ s.handed) : other = err :=
        (Prod.mk.inj (List.inj_on_of_nodup_map acc.once also answered rfl)).2
      refine ⟨fun pending => absurd pending (own.outcome_pending err), ?_⟩
      rw [own.outcome_sent, own.outcome_id]
      exact ⟨fun accepted => accepted ▸ answered, fun also => (unique none also).symm⟩
    · rw [elsewhere same] at at_
      refine acc.agree q e' at_ fun j records => ?_
      by_cases own : j = i
      · simp [own, here, Drain.records, Ne.symm same] at records
      · exact Drain.records_of_done (done j own) records

/-- What an append does to an outbox below its limit, and to any outbox. -/
theorem appendOutbox_outbox (s : State) (message : Message) (status : OutboxStatus)
    (lastErr : String) :
    let e : OutboxEntry := ⟨s.nextID + 1, message, status, lastErr, 0⟩
    (s.appendOutbox message status lastErr).outbox.Sublist (s.outbox ++ [e]) ∧
      (s.outbox.length < outboxLimit →
        (s.appendOutbox message status lastErr).outbox = s.outbox ++ [e]) := by
  intro e
  simp only [State.appendOutbox]
  split
  next full =>
    refine ⟨List.drop_sublist _ _, fun room => ?_⟩
    simp only [List.length_append, List.length_singleton] at full
    omega
  next => exact ⟨.refl _, fun _ => rfl⟩

/-- An entry joins with an answer of its own or none, and agrees with it. -/
theorem Accounted.append (acc : Accounted s) (message : Message) (status : OutboxStatus)
    (lastErr : String)
    (careful : s.outbox.length < outboxLimit ∨ ∀ j, (s.drains j).positions = [])
    (own : ∀ h ∈ more, h.1 = s.nextID + 1) (once : (more.map (·.1)).Nodup)
    (agrees : Agrees more ⟨s.nextID + 1, message, status, lastErr, 0⟩) :
    Accounted { s.appendOutbox message status lastErr with handed := s.handed ++ more } := by
  obtain ⟨sub, whole⟩ := appendOutbox_outbox s message status lastErr
  let e : OutboxEntry := ⟨s.nextID + 1, message, status, lastErr, 0⟩
  -- The new id is greater than all that were issued.
  have new {id : Nat} (le : id ≤ s.nextID) : id ∉ more.map (·.1) := by
    intro member
    obtain ⟨h, inside, rfl⟩ := List.mem_map.mp member
    have id := own h inside
    omega
  have fresh : ∀ h ∈ s.handed, h.1 ≠ s.nextID + 1 := fun h member => by
    have le := acc.given h member
    omega
  have known (e' : OutboxEntry) (member : e' ∈ s.outbox ++ [e]) :
      e' ∈ s.outbox ∧ e'.id ≤ s.nextID ∨ e' = e := by
    rcases List.mem_append.mp member with old | new
    · exact .inl ⟨old, acc.issued e' old⟩
    · exact .inr (List.mem_singleton.mp new)
  have mine : Agrees (s.handed ++ more) e := agrees.append_left fun member => by
    obtain ⟨h, inside, same⟩ := List.mem_map.mp member
    exact fresh h inside same
  refine ⟨?_, fun e' member => ?_, fun h member => ?_, ?_, acc.alone, fun j => ?_,
    fun q e' at_ unrecorded => ?_⟩
  · refine List.Pairwise.sublist sub (List.pairwise_append.mpr ⟨acc.increasing, by simp, ?_⟩)
    intro old member new last
    obtain rfl := List.mem_singleton.mp last
    exact Nat.lt_succ_of_le (acc.issued old member)
  · rcases known e' (sub.subset member) with ⟨-, le⟩ | rfl
    · exact Nat.le_succ_of_le le
    · exact Nat.le_refl _
  · rcases List.mem_append.mp member with old | new
    · exact Nat.le_succ_of_le (acc.given h old)
    · exact Nat.le_of_eq (own h new)
  · rw [List.map_append, List.nodup_append]
    refine ⟨acc.once, once, ?_⟩
    rintro x old y fresh rfl
    obtain ⟨h, member, rfl⟩ := List.mem_map.mp old
    exact new (acc.given h member) fresh
  · -- Either the positions are kept, or no call has any.
    rcases careful with room | quiet
    · refine (acc.sound j).mono fun p e' found =>
        ⟨?_, new (acc.issued e' (List.mem_of_getElem? found))⟩
      rw [whole room, List.getElem?_append_left (List.getElem?_eq_some_iff.mp found).1]
      exact found
    · exact .of_done (quiet j)
  · rcases known e' (sub.subset (List.mem_of_getElem? at_)) with ⟨old, le⟩ | rfl
    · refine Agrees.append ?_ (new le)
      rcases careful with room | quiet
      · -- An older entry stands where it stood.
        refine acc.agree q e' ?_ unrecorded
        rw [whole room, List.getElem?_append] at at_
        split at at_
        next => exact at_
        next =>
          have last := List.mem_of_getElem? at_
          obtain rfl := List.mem_singleton.mp last
          exact absurd le (Nat.not_succ_le_self _)
      · obtain ⟨p, found⟩ := List.mem_iff_getElem?.mp old
        exact acc.agree p e' found fun j => Drain.records_of_done (quiet j)
    · exact mine

end Steps

/-! ### Whole runs -/

theorem step_accounted {s t : State} {a : Action} (acc : Accounted s) (careful : Careful s a)
    (took : step s a = some t) : Accounted t := by
  cases a with
  | enqueue message =>
    cases took
    have joined := acc.append message .pending "" careful (by simp) (by simp)
      (show Agrees [] _ by simp [Agrees])
    rwa [List.append_nil] at joined
  | sendFails message err =>
    cases took
    exact acc.append message .failed err careful (by simp) (by simp) (by simp [Agrees])
  | collect i =>
    rw [step] at took
    split at took <;> cases took
    exact acc.collect careful
  | read i =>
    rw [step] at took
    split at took
    next here =>
      obtain ⟨e, found, rfl⟩ := Option.map_eq_some_iff.mp took
      exact acc.read here found
    next => cases took
  | send i answer =>
    rw [step] at took
    split at took <;> cases took
    next here => exact acc.send answer here
  | record i =>
    rw [step] at took
    split at took
    next here =>
      obtain ⟨-, ⟨⟩⟩ := Option.ite_none_right_eq_some.mp took
      exact acc.record here
    next => cases took

/-- In every run in which drains do not overlap and a full outbox takes no entry while one is under
way, the client is given the message of every entry at most once; and whenever no answer waits to
be recorded, exactly those entries are marked sent whose own message the client accepted. -/
theorem careful_outbox_exact {t : State} {actions : List Action}
    (careful : Guarded step Careful .new actions) (ran : run step .new actions = some t) :
    (∀ id, (t.handed.map (·.1)).count id ≤ 1) ∧
      ((∀ i, (t.drains i).records = none) →
        ∀ e ∈ t.outbox, e.status = .sent ↔ (e.id, none) ∈ t.handed) := by
  have acc : Accounted t := run_induction Accounted
    (fun _ _ _ acc careful took => step_accounted acc careful took) .new careful ran
  refine ⟨fun id => List.nodup_iff_count_le_one.mp acc.once id, fun recorded e member => ?_⟩
  obtain ⟨p, found⟩ := List.mem_iff_getElem?.mp member
  exact (acc.agree p e found fun i => by simp [recorded i]).2

def mail : Message := ⟨["root@localhost"], "disk", "sda is failing", []⟩

/-- A message that is enqueued during the drain of another, and a second drain after it. -/
def drainTwice : List Action :=
  [.enqueue mail, .collect 0, .read 0, .enqueue mail, .send 0 none, .record 0, .collect 1]

theorem drainTwice_exact :
    Guarded step Careful .new drainTwice ∧ ∃ t, run step .new drainTwice = some t ∧
      t.outbox.map (fun e => (e.id, e.status)) = [(1, .sent), (2, .pending)] ∧
      (∀ id, (t.handed.map (·.1)).count id ≤ 1) ∧
      ((∀ i, (t.drains i).records = none) →
        ∀ e ∈ t.outbox, e.status = .sent ↔ (e.id, none) ∈ t.handed) := by
  have careful : Guarded step Careful .new drainTwice := by
    refine ⟨.inl (by decide), ?_⟩
    rintro _ ⟨⟩
    refine ⟨fun j => rfl, ?_⟩
    rintro _ ⟨⟩
    refine ⟨trivial, ?_⟩
    rintro _ ⟨⟩
    refine ⟨.inl (by decide), ?_⟩
    rintro _ ⟨⟩
    refine ⟨trivial, ?_⟩
    rintro _ ⟨⟩
    refine ⟨trivial, ?_⟩
    rintro _ ⟨⟩
    refine ⟨fun j => ?_, fun _ _ => trivial⟩
    -- The first drain has returned, and no other has begun.
    by_cases first : j = 0
    · subst first
      rfl
    · simp [State.setDrain, State.appendOutbox, State.new, first, Drain.positions]
  exact ⟨careful, _, rfl, rfl, careful_outbox_exact careful rfl⟩

/-- Two drains collect the same position: the client is given the message twice. -/
theorem overlapping_drains_send_twice :
    ∃ t, run step .new [.enqueue mail, .collect 0, .collect 1, .read 0, .send 0 none, .read 1,
        .record 0, .send 1 none, .record 1] = some t ∧
      t.handed = [(1, none), (1, none)] :=
  ⟨_, rfl, rfl⟩

end NovaNas.Smtp
