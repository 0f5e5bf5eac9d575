import NovaNas.Base.Interleaving

/-!
# Trust keys

`DownloadAndVerify` hands the key of a marketplace to the verifier through a file. All the calls for
one marketplace share the file, and no lock keeps another call from writing it between a call's own
write and its verification.
-/
namespace NovaNas.Plugins.TrustKeys

open Interleaving (run Guarded run_induction run_cons run_append)

variable {κ β : Type}

/-- How far a call is: the key that it read, and from the download on the tarball with its
signature. -/
inductive Stage (κ β : Type) where
  | idle
  | fetching (key : κ)
  | downloaded (key : κ) (blob : β)
  /-- The file is open and empty. -/
  | writing (key : κ) (blob : β)
  | written (key : κ) (blob : β)
  | returned (result : Option β)
  deriving DecidableEq

structure State (κ β : Type) where
  /-- The trust key of the marketplace's row. -/
  stored : κ
  /-- The contents of the key file; nothing if it is missing or empty. -/
  file : Option κ
  calls : Nat → Stage κ β

/-- The steps of a call. -/
inductive Move (β : Type) where
  | readRow
  | download (blob : β)
  | truncate
  | write
  | verify
  /-- A read, the download or a write fails. -/
  | fail
  deriving DecidableEq

inductive Action (κ β : Type) where
  | updateTrustKey (key : κ)
  | call (i : Nat) (move : Move β)
  deriving DecidableEq

section Steps

variable (verifies : κ → β → Bool)

/-- The verifier reads the file again, whoever wrote it. -/
def verdict (file : Option κ) (blob : β) : Option β :=
  file.bind fun key => if verifies key blob then some blob else none

/-- What a step makes of the call's stage and of the file. -/
def advance (stored : κ) (file : Option κ) : Move β → Stage κ β → Option (Stage κ β × Option κ)
  | .readRow, .idle => some (.fetching stored, file)
  | .download blob, .fetching key => some (.downloaded key blob, file)
  | .truncate, .downloaded key blob => some (.writing key blob, none)
  | .write, .writing key blob => some (.written key blob, some key)
  | .verify, .written _ blob => some (.returned (verdict verifies file blob), file)
  | .fail, .returned _ => none
  | .fail, _ => some (.returned none, file)
  | _, _ => none

def step (s : State κ β) : Action κ β → Option (State κ β)
  | .updateTrustKey key => some { s with stored := key }
  | .call i move => (advance verifies s.stored s.file move (s.calls i)).map fun (stage, file) =>
      ⟨s.stored, file, Function.update s.calls i stage⟩

end Steps

/-- The key that a call is about to write. -/
def Stage.writes : Stage κ β → Option κ
  | .writing key _ => some key
  | _ => none

/-- The key that a call wrote and is about to verify with. -/
def Stage.wrote : Stage κ β → Option κ
  | .written key _ => some key
  | _ => none

/-- No call writes another key than the stored one while a call that read the stored one stands
between its own write and its verification. -/
def Undisturbed (s : State κ β) : Action κ β → Prop
  | .call j .write => ∀ key i, (s.calls j).writes = some key → (s.calls i).wrote = some s.stored →
      key = s.stored
  | _ => True

/-! ### Calls after the change -/

variable {verifies : κ → β → Bool} {s s' t : State κ β} {a : Action κ β} {i : Nat} {key : κ}
  {file file' : Option κ} {stage stage' : Stage κ β} {move : Move β}

/-- Where a call can be that reads the key, and what it can have returned. -/
inductive Current (verifies : κ → β → Bool) (key : κ) (file : Option κ) : Stage κ β → Prop where
  | idle : Current verifies key file .idle
  | fetching : Current verifies key file (.fetching key)
  | downloaded (blob : β) : Current verifies key file (.downloaded key blob)
  | writing (blob : β) : Current verifies key file (.writing key blob)
  | written (blob : β) (own : ∀ other, file = some other → other = key) :
    Current verifies key file (.written key blob)
  | failed : Current verifies key file (.returned none)
  | verified (blob : β) (valid : verifies key blob = true) :
    Current verifies key file (.returned (some blob))

/-- Another call's write matters only to a call that has written. -/
theorem Current.of_file (current : Current verifies key file stage)
    (own : stage.wrote = some key → ∀ other, file' = some other → other = key) :
    Current verifies key file' stage := by
  cases current with
  | idle => exact .idle
  | fetching => exact .fetching
  | downloaded blob => exact .downloaded blob
  | writing blob => exact .writing blob
  | written blob _ => exact .written blob (own rfl)
  | failed => exact .failed
  | verified blob valid => exact .verified blob valid

theorem verdict_current {blob : β} (own : ∀ other, file = some other → other = key) :
    Current verifies key file' (.returned (verdict verifies file blob)) := by
  cases file with
  | none => exact .failed
  | some other =>
    obtain rfl := own other rfl
    cases valid : verifies other blob with
    | false => simpa [verdict, valid] using Current.failed
    | true => simpa [verdict, valid] using Current.verified blob valid

theorem advance_current (current : Current verifies key file stage)
    (advanced : advance verifies key file move stage = some (stage', file')) :
    Current verifies key file' stage' := by
  cases current with
  | idle =>
    cases move <;> cases advanced
    · exact .fetching
    · exact .failed
  | fetching =>
    cases move <;> cases advanced
    · exact .downloaded _
    · exact .failed
  | downloaded blob =>
    cases move <;> cases advanced
    · exact .writing blob
    · exact .failed
  | writing blob =>
    cases move <;> cases advanced
    · exact .written blob fun other same => (Option.some.inj same).symm
    · exact .failed
  | written blob own =>
    cases move <;> cases advanced
    · exact verdict_current own
    · exact .failed
  | failed => cases move <;> cases advanced
  | verified blob valid => cases move <;> cases advanced

/-- A step leaves the file, empties it or writes the call's key. -/
theorem advance_file {stored : κ}
    (advanced : advance verifies stored file move stage = some (stage', file')) :
    file' = file ∨ file' = none ∨ ∃ k, move = .write ∧ stage.writes = some k ∧ file' = some k := by
  cases move <;> cases stage <;> cases advanced
  case write.writing k blob => exact .inr (.inr ⟨k, rfl, rfl, rfl⟩)
  case truncate.downloaded => exact .inr (.inl rfl)
  all_goals exact .inl rfl

structure Inv (verifies : κ → β → Bool) (key : κ) (i : Nat) (s : State κ β) : Prop where
  stored : s.stored = key
  current : Current verifies key s.file (s.calls i)

theorem Inv.step (inv : Inv verifies key i s) (undisturbed : Undisturbed s a)
    (unchanged : ∀ new, a ≠ .updateTrustKey new) (took : step verifies s a = some s') :
    Inv verifies key i s' := by
  cases a with
  | updateTrustKey new => exact absurd rfl (unchanged new)
  | call j move =>
    obtain ⟨⟨stage, file⟩, advanced, rfl⟩ := Option.map_eq_some_iff.mp took
    refine ⟨inv.stored, ?_⟩
    by_cases own : i = j
    · subst own
      simp only [Function.update_self]
      exact advance_current inv.current (inv.stored ▸ advanced)
    · simp only [Function.update_of_ne own]
      rcases advance_file advanced with rfl | rfl | ⟨k, rfl, writes, rfl⟩
      · exact inv.current
      · exact inv.current.of_file fun _ other same => by cases same
      · refine inv.current.of_file fun wrote other same => ?_
        obtain rfl := Option.some.inj same
        rw [← inv.stored]
        exact undisturbed k i writes (inv.stored.symm ▸ wrote)

/-! ### Runs -/

/-- Before a call reads the row it is idle. -/
theorem idle_before {rest : List (Action κ β)}
    (ran : run (step verifies) s (.call i .readRow :: rest) = some t) : s.calls i = .idle := by
  obtain ⟨s', took, -⟩ := run_cons ran
  obtain ⟨⟨stage, file⟩, advanced, -⟩ := Option.map_eq_some_iff.mp took
  cases at_ : s.calls i with
  | idle => rfl
  | _ => simp [at_, advance] at advanced

/-- From the change on the key is the stored one, and nobody changes it. -/
theorem stored_unchanged {actions : List (Action κ β)}
    (ran : run (step verifies) s actions = some t)
    (last : ∀ a ∈ actions, ∀ new, a ≠ .updateTrustKey new) : t.stored = s.stored := by
  have free : Guarded (step verifies) (fun _ _ => True) s actions :=
    Interleaving.guarded_true s actions
  have kept := free.within last
  refine run_induction (fun m => m.stored = s.stored) ?_ rfl kept ran
  rintro m a m' same ⟨-, unchanged⟩ took
  cases a with
  | updateTrustKey new => exact absurd rfl (unchanged new)
  | call j move =>
    obtain ⟨_, -, rfl⟩ := Option.map_eq_some_iff.mp took
    exact same

/-- Where the trust key becomes `key` and stays so, a call that begins afterwards returns only what
verifies under it. -/
theorem rotated_key_takes_effect (verifies : κ → β → Bool) (s t : State κ β)
    (before after : List (Action κ β)) (key : κ) (i : Nat) (blob : β)
    (ran : run (step verifies) s (before ++ .updateTrustKey key :: after) = some t)
    (last : ∀ new, .updateTrustKey new ∉ after) (later : .call i .readRow ∈ after)
    (undisturbed : Guarded (step verifies) Undisturbed s (before ++ .updateTrustKey key :: after))
    (returned : t.calls i = .returned (some blob)) : verifies key blob = true := by
  obtain ⟨m, reached, rest⟩ := run_append ran
  obtain ⟨m₁, took, rest⟩ := run_cons rest
  have calm := (undisturbed.after reached).2 m₁ took
  obtain rfl : { m with stored := key } = m₁ := Option.some.inj took
  have unchanged : ∀ a ∈ after, ∀ new, a ≠ .updateTrustKey new := by
    rintro a member new rfl
    exact last new member
  -- up to its beginning the call is idle, from there on its stage is an invariant
  obtain ⟨front, back, rfl⟩ := List.append_of_mem later
  obtain ⟨m₂, reached₂, rest₂⟩ := run_append rest
  have stored : m₂.stored = key :=
    stored_unchanged reached₂ fun a member => unchanged a (List.mem_append_left _ member)
  have begins : Inv verifies key i m₂ := ⟨stored, idle_before rest₂ ▸ .idle⟩
  have guarded := (calm.after reached₂).within fun a member =>
    unchanged a (List.mem_append_right front member)
  have final : Inv verifies key i t := by
    refine run_induction (Inv verifies key i) ?_ begins guarded rest₂
    rintro m a m' inv ⟨undisturbed, unchanged⟩ took
    exact inv.step undisturbed unchanged took
  have current := final.current
  rw [returned] at current
  cases current with
  | verified _ valid => exact valid

/-! ### A late write -/

/-- Keys are numbers, and a tarball is known by the key that signed it. -/
def signedBy (key blob : Nat) : Bool := key == blob

def firstKey : State Nat Nat := ⟨1, none, fun _ => .idle⟩

/-- A call that read the first key writes it before one that read the second key writes that. -/
def overtaken : List (Action Nat Nat) :=
  [.call 1 .readRow, .call 1 (.download 2), .call 0 (.download 1), .call 0 .truncate,
    .call 0 .write, .call 1 .truncate, .call 1 .write, .call 1 .verify]

theorem overtaken_verifies_under_two : ∃ t,
    run (step signedBy) firstKey ([.call 0 .readRow] ++ .updateTrustKey 2 :: overtaken) = some t ∧
      t.calls 1 = .returned (some 2) ∧ signedBy 2 2 = true := by
  refine ⟨_, rfl, rfl, ?_⟩
  refine rotated_key_takes_effect signedBy firstKey _ [.call 0 .readRow] overtaken 2 1 2 rfl
    (by simp [overtaken]) (by simp [overtaken]) ?_ rfl
  refine .cons trivial rfl (.cons trivial rfl (.cons trivial rfl (.cons trivial rfl
    (.cons trivial rfl (.cons trivial rfl (.cons ?_ rfl (.cons trivial rfl
      (.cons ?_ rfl (.cons trivial rfl trivial)))))))))
  · rintro key (_ | _ | i) _ wrote <;> cases wrote
  · rintro key i writes -
    exact (Option.some.inj writes).symm

/-- A call that read the first key writes it between the write and the verification of one that read
the second key, which then returns what the first key signed. -/
theorem late_write_revives_key : ∃ t,
    run (step signedBy) firstKey ([.call 0 .readRow] ++ .updateTrustKey 2 ::
      [.call 1 .readRow, .call 1 (.download 1), .call 1 .truncate, .call 1 .write,
        .call 0 (.download 1), .call 0 .truncate, .call 0 .write, .call 1 .verify]) = some t ∧
      t.calls 1 = .returned (some 1) ∧ signedBy 2 1 = false :=
  ⟨_, rfl, rfl, rfl⟩

end NovaNas.Plugins.TrustKeys
