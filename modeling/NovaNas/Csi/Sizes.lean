import NovaNas.Base.Interleaving
import NovaNas.Csi.Jobs

/-!
# The sizes of volumes

Volumes are created and expanded by calls that may be cut short, so that a job can end long after
the call that asked for it. An expansion sets the size it is asked for without a look at the size
the volume has. Sizes then only grow as long as no expansion asks for less than the volume has or
is about to get.
-/
namespace NovaNas.Csi

open Program
open Zfs (Name)

variable {host : Host} {w w' : World} {full : Name}

/-! ### What is still to be done -/

/-- The commands of all jobs under way. -/
def World.pending (w : World) : List Command :=
  (w.jobs.filter fun job => !job.state.isTerminal).flatMap (·.rest)

theorem World.mem_pending {c : Command} :
    c ∈ w.pending ↔ ∃ job ∈ w.jobs, job.state.isTerminal = false ∧ c ∈ job.rest := by
  simp [World.pending, List.mem_flatMap, and_assoc]

theorem pending_accept (w : World) {job : Job} (queued : job.state = .queued) :
    (w.accept job).pending = w.pending ++ job.rest := by
  simp [World.pending, World.accept, queued, JobState.isTerminal]

theorem mem_pending_update {id : Nat} {job job' : Job} {effect : Option Command} {c : Command}
    (found : w.jobs[id]? = some job) (moves : job.Moves job' effect)
    (member : c ∈ (w.update id job').pending) : c ∈ w.pending := by
  obtain ⟨other, present, live, within⟩ := World.mem_pending.mp member
  rcases List.mem_or_eq_of_mem_set present with old | rfl
  · exact World.mem_pending.mpr ⟨other, old, live, within⟩
  · exact World.mem_pending.mpr
      ⟨job, List.mem_of_getElem? found, moves.live, moves.rest_subset within⟩

/-- A worker runs a command that was to be run, or changes nothing but its job. -/
theorem Work.cases (work : Work w w') : w'.pending ⊆ w.pending ∧
    (w'.storage = w.storage ∧ w'.resizes = w.resizes ∨
      ∃ c ∈ w.pending, c.run w.storage = some w'.storage ∧
        w'.resizes = w.resizes ++ c.resizes w.storage) := by
  cases work with
  | quiet found moves => exact ⟨fun c => mem_pending_update found moves, .inl ⟨rfl, rfl⟩⟩
  | effective found moves ran =>
    refine ⟨fun c => mem_pending_update (w := w.ran _ _) found moves, .inr ⟨_, ?_, ran, rfl⟩⟩
    exact World.mem_pending.mpr ⟨_, List.mem_of_getElem? found, moves.live, moves.effect_mem⟩

/-! ### What a command does to the sizes -/

section Commands

variable {s s' : Storage} {c : Command} {b : Backing}

@[simp] theorem resize_name (b : Backing) (property : SizeProperty) (bytes : Int) :
    (b.resize property bytes).name = b.name := by
  cases property <;> rfl

theorem size_resize (b : Backing) (property other : SizeProperty) (bytes : Int) :
    (b.resize property bytes).size other = if other = property then bytes else b.size other := by
  cases property <;> cases other <;> rfl

theorem find_name (found : s.find full = some b) : b.name = full := by
  simpa using List.find?_some found

theorem find_resize (s : Storage) (target : Name) (property : SizeProperty) (bytes : Int) :
    (s.resize target property bytes).find full =
      (s.find full).map fun b => if b.name = target then b.resize property bytes else b := by
  simp only [Storage.find, Storage.resize, List.find?_map]
  congr 2
  funext b
  simp only [Function.comp_apply]
  split <;> simp

/-- What a command may do to the datasets. -/
inductive Touches (s : Storage) (c : Command) (s' : Storage) : Prop where
  | nothing (same : s'.datasets = s.datasets)
  | creates (b : Backing) (command : c = .create b) (absent : s.find b.name = none)
      (same : s'.datasets = s.datasets ++ [b])
  | resizes (target : Name) (property : SizeProperty) (bytes : Int)
      (command : c = .set target (.size property bytes)) (same : s' = s.resize target property bytes)
  | destroys (target : Name) (recursive : Bool) (command : c = .destroy target recursive)

theorem touches_of_run (ran : c.run s = some s') : Touches s c s' := by
  cases c with
  | require passed =>
    simp only [Command.run, Option.ite_none_right_eq_some, Option.some.injEq] at ran
    exact .nothing (by rw [ran.2])
  | create b =>
    simp only [Command.run, Option.ite_none_left_eq_some, Option.some.injEq, Bool.or_eq_true,
      not_or] at ran
    obtain ⟨⟨⟨⟨absent, -⟩, -⟩, -⟩, rfl⟩ := ran
    exact .creates b rfl (by simpa using absent) rfl
  | set target setting =>
    cases setting with
    | size property bytes =>
      simp only [Command.run, Option.ite_none_left_eq_some, Option.some.injEq] at ran
      exact .resizes target property bytes rfl ran.2.symm
    | compression | recordsize | volblocksize =>
      simp only [Command.run, Option.ite_none_left_eq_some, Option.some.injEq] at ran
      exact .nothing (by rw [ran.2])
  | destroy target recursive => exact .destroys target recursive rfl
  | snapshot dataset short recursive =>
    simp only [Command.run, Option.ite_none_left_eq_some, Option.some.injEq] at ran
    exact .nothing (by rw [← ran.2])
  | destroySnapshot target =>
    simp only [Command.run, Option.ite_none_right_eq_some, Option.some.injEq] at ran
    exact .nothing (by rw [← ran.2])
  | addExport share =>
    simp only [Command.run, Option.ite_none_left_eq_some, Option.some.injEq] at ran
    exact .nothing (by rw [← ran.2])
  | dropExport share =>
    simp only [Command.run, Option.some.injEq] at ran
    exact .nothing (by rw [← ran])
  | dropSambaShare share =>
    simp only [Command.run, Option.some.injEq] at ran
    exact .nothing (by rw [← ran])

/-- A command that destroys nothing leaves every dataset the sizes that it does not set. -/
theorem Touches.size (touches : Touches s c s')
    (spares : ∀ target recursive, c ≠ .destroy target recursive) (found : s.find full = some b) :
    ∃ b', s'.find full = some b' ∧ ∀ property, b'.size property = b.size property ∨
      ∃ bytes, c = .set full (.size property bytes) ∧ b'.size property = bytes := by
  cases touches with
  | nothing same => exact ⟨b, by rwa [Storage.find, same], fun _ => .inl rfl⟩
  | creates new command absent same =>
    refine ⟨b, ?_, fun _ => .inl rfl⟩
    rw [Storage.find, same, List.find?_append]
    simp [show s.datasets.find? _ = some b from found]
  | resizes target property bytes command same =>
    subst same
    refine ⟨_, (find_resize s target property bytes).trans (congrArg _ found), fun other => ?_⟩
    dsimp only
    by_cases own : b.name = target
    · rw [if_pos own, size_resize]
      by_cases set : other = property
      · rw [if_pos set]
        exact .inr ⟨bytes, by rw [command, set, ← own, find_name found], rfl⟩
      · exact .inl (if_neg set)
    · rw [if_neg own]
      exact .inl rfl
  | destroys target recursive command => exact absurd command (spares target recursive)

/-- A dataset that is new is one that the command creates. -/
theorem Touches.new (touches : Touches s c s')
    (spares : ∀ target recursive, c ≠ .destroy target recursive) (absent : s.find full = none)
    (found : s'.find full = some b) : c = .create b := by
  cases touches with
  | nothing same =>
    rw [Storage.find, same] at found
    cases absent.symm.trans found
  | creates new command _ same =>
    rw [Storage.find, same, List.find?_append, show s.datasets.find? _ = none from absent,
      Option.none_or, List.find?_singleton, Option.ite_none_right_eq_some] at found
    rw [command, Option.some.inj found.2]
  | resizes target property bytes command same =>
    subst same
    rw [find_resize, absent] at found
    cases found
  | destroys target recursive command => exact absurd command (spares target recursive)

theorem mem_resizes {r : Resize} (member : r ∈ c.resizes s) : ∃ property b,
    c = .set r.dataset (.size property r.after) ∧ s.find r.dataset = some b ∧
      r.before = b.size property := by
  unfold Command.resizes at member
  split at member
  next target property bytes =>
    obtain ⟨b, found, rfl⟩ := Option.map_eq_some_iff.mp (Option.mem_toList.mp member)
    exact ⟨property, b, rfl, found, rfl⟩
  next => cases member

end Commands

/-! ### Sizes that grow -/

/-- The sizes of the start have grown, and no job under way will make one smaller. -/
structure Growing (start : Storage) (w : World) : Prop where
  /-- Jobs that set the same size agree on it. -/
  sets : ∀ full property bytes, .set full (.size property bytes) ∈ w.pending →
    (∃ b, w.storage.find full = some b ∧ b.size property ≤ bytes) ∧
      ∀ other, .set full (.size property other) ∈ w.pending → other = bytes
  spares : ∀ full recursive, .destroy full recursive ∉ w.pending
  grew : ∀ r ∈ w.resizes, r.before ≤ r.after
  kept : ∀ full b, start.find full = some b →
    ∃ b', w.storage.find full = some b' ∧ ∀ property, b.size property ≤ b'.size property

section Growing

variable {start : Storage}

/-- What grows from an earlier start grows from here. -/
theorem Growing.rebase (growing : Growing start w) : Growing w.storage w :=
  ⟨growing.sets, growing.spares, growing.grew,
    fun _ b found => ⟨b, found, fun _ => Int.le_refl _⟩⟩

theorem Growing.ran {c : Command} (growing : Growing start w) (fewer : w'.pending ⊆ w.pending)
    (member : c ∈ w.pending) (ran : c.run w.storage = some w'.storage)
    (logged : w'.resizes = w.resizes ++ c.resizes w.storage) : Growing start w' := by
  have touches := touches_of_run ran
  have harmless : ∀ target recursive, c ≠ .destroy target recursive := by
    rintro target recursive rfl
    exact growing.spares target recursive member
  constructor
  · intro full property bytes waits
    obtain ⟨⟨b, found, small⟩, agree⟩ := growing.sets full property bytes (fewer waits)
    refine ⟨?_, fun other also => agree other (fewer also)⟩
    obtain ⟨b', found', sizes⟩ := touches.size harmless found
    refine ⟨b', found', ?_⟩
    rcases sizes property with same | ⟨set, rfl, same⟩
    · exact same ▸ small
    · exact Int.le_of_eq (same.trans (agree set member))
  · exact fun full recursive waits => growing.spares full recursive (fewer waits)
  · intro r recorded
    rw [logged, List.mem_append] at recorded
    rcases recorded with old | new
    · exact growing.grew r old
    · obtain ⟨property, b, rfl, found, before⟩ := mem_resizes new
      obtain ⟨⟨b', found', small⟩, -⟩ := growing.sets _ _ _ member
      cases found.symm.trans found'
      exact before ▸ small
  · intro full b initial
    obtain ⟨b₁, found, grown⟩ := growing.kept full b initial
    obtain ⟨b', found', sizes⟩ := touches.size harmless found
    refine ⟨b', found', fun property => ?_⟩
    have before := grown property
    rcases sizes property with same | ⟨bytes, rfl, same⟩
    · omega
    · obtain ⟨⟨b₂, found₂, small⟩, -⟩ := growing.sets full property bytes member
      cases found.symm.trans found₂
      omega

theorem Growing.works (growing : Growing start w) (works : Works w w') : Growing start w' := by
  induction works with
  | refl => exact growing
  | tail _ work ih =>
    obtain ⟨fewer, ⟨storage, resizes⟩ | ⟨c, member, ran, logged⟩⟩ := work.cases
    · constructor
      · intro full property bytes waits
        obtain ⟨found, agree⟩ := ih.sets full property bytes (fewer waits)
        exact ⟨storage ▸ found, fun other also => agree other (fewer also)⟩
      · exact fun full recursive waits => ih.spares full recursive (fewer waits)
      · exact resizes ▸ ih.grew
      · exact storage ▸ ih.kept
    · exact ih.ran fewer member ran logged

/-- New jobs that set no size and destroy nothing. -/
theorem Growing.accept {job : Job} (growing : Growing start w) (queued : job.state = .queued)
    (harmless : ∀ c ∈ job.rest, (∀ full property bytes, c ≠ .set full (.size property bytes)) ∧
      ∀ full recursive, c ≠ .destroy full recursive) : Growing start (w.accept job) := by
  have old {c : Command} (waits : c ∈ (w.accept job).pending) (new : c ∉ job.rest) :
      c ∈ w.pending := by
    rw [pending_accept w queued, List.mem_append] at waits
    exact waits.resolve_right new
  constructor
  · intro full property bytes waits
    obtain ⟨found, agree⟩ := growing.sets full property bytes
      (old waits fun new => (harmless _ new).1 _ _ _ rfl)
    exact ⟨found, fun other also => agree other (old also fun new => (harmless _ new).1 _ _ _ rfl)⟩
  · intro full recursive waits
    exact growing.spares full recursive (old waits fun new => (harmless _ new).2 _ _ rfl)
  · exact growing.grew
  · exact growing.kept

/-- The size that an expansion to the requested capacity sets. -/
def asked (requested : Int) : SizeProperty → Int
  | .volsize => requested
  | .quota | .refquota => roundUp requested oneMiB

/-- The dataset has no size above the one asked for and gets none from a job under way, and what
jobs under way set is what is asked for. -/
structure Admits (requested : Int) (full : Name) (w : World) : Prop where
  now : ∀ b, w.storage.find full = some b → ∀ property, b.size property ≤ asked requested property
  planned : ∀ b, .create b ∈ w.pending → b.name = full →
    ∀ property, b.size property ≤ asked requested property
  awaited : ∀ property bytes, .set full (.size property bytes) ∈ w.pending →
    bytes = asked requested property

variable {requested : Int}

theorem Admits.work (admits : Admits requested full w)
    (spares : ∀ full recursive, .destroy full recursive ∉ w.pending) (work : Work w w') :
    Admits requested full w' := by
  obtain ⟨fewer, outcome⟩ := work.cases
  refine ⟨?_, fun b waits => admits.planned b (fewer waits),
    fun property bytes waits => admits.awaited property bytes (fewer waits)⟩
  rcases outcome with ⟨storage, -⟩ | ⟨c, member, ran, -⟩
  · exact storage ▸ admits.now
  have touches := touches_of_run ran
  have harmless : ∀ target recursive, c ≠ .destroy target recursive := by
    rintro target recursive rfl
    exact spares target recursive member
  intro b' found' property
  cases found : w.storage.find full with
  | none =>
    have new := touches.new harmless found found'
    exact admits.planned b' (new ▸ member) (find_name found') property
  | some b =>
    obtain ⟨b₁, found₁, sizes⟩ := touches.size harmless found
    cases found'.symm.trans found₁
    rcases sizes property with same | ⟨bytes, rfl, same⟩
    · exact same ▸ admits.now b found property
    · exact Int.le_of_eq (same.trans (admits.awaited property bytes member))

theorem Admits.works (admits : Admits requested full w) (growing : Growing start w)
    (works : Works w w') : Admits requested full w' := by
  induction works with
  | refl => exact admits
  | tail before work ih => exact ih.work (growing.works before).spares work

theorem expansion_asks {type : DatasetType} {capacity : Int} {settings : List Setting}
    (expands : expansion type requested = some (capacity, settings)) :
    ∀ setting ∈ settings, ∃ property, setting = .size property (asked requested property) := by
  cases type with
  | filesystem =>
    cases expands
    intro setting member
    simp only [List.mem_cons, List.not_mem_nil, or_false] at member
    rcases member with rfl | rfl
    · exact ⟨.quota, rfl⟩
    · exact ⟨.refquota, rfl⟩
  | volume =>
    cases expands
    intro setting member
    rw [List.mem_singleton.mp member]
    exact ⟨.volsize, rfl⟩
  | other name => cases expands

/-- A new job that sets the sizes asked for. -/
theorem Growing.expand {job : Job} {b : Backing} (growing : Growing start w)
    (admits : Admits requested full w) (found : w.storage.find full = some b)
    (queued : job.state = .queued)
    (asks : ∀ c ∈ job.rest, ∃ property, c = .set full (.size property (asked requested property))) :
    Growing start (w.accept job) := by
  have waits {c : Command} (member : c ∈ (w.accept job).pending) :
      c ∈ w.pending ∨ ∃ property, c = .set full (.size property (asked requested property)) := by
    rw [pending_accept w queued, List.mem_append] at member
    exact member.imp id (asks c)
  -- All that sets a size of this dataset, old or new, agrees with what is asked for.
  have agreed {property : SizeProperty} {bytes : Int}
      (member : .set full (.size property bytes) ∈ (w.accept job).pending) :
      bytes = asked requested property := by
    rcases waits member with old | ⟨_, same⟩
    · exact admits.awaited property bytes old
    · cases same
      rfl
  constructor
  · intro target property bytes member
    by_cases own : target = full
    · subst own
      refine ⟨⟨b, found, ?_⟩, fun other also => (agreed also).trans (agreed member).symm⟩
      exact agreed member ▸ admits.now b found property
    · have old {bytes : Int}
          (member : .set target (.size property bytes) ∈ (w.accept job).pending) :
          .set target (.size property bytes) ∈ w.pending := by
        rcases waits member with old | ⟨_, same⟩
        · exact old
        · cases same
          exact absurd rfl own
      obtain ⟨present, agree⟩ := growing.sets target property bytes (old member)
      exact ⟨present, fun other also => agree other (old also)⟩
  · intro target recursive member
    rcases waits member with old | ⟨_, same⟩
    · exact growing.spares target recursive old
    · cases same
  · exact growing.grew
  · exact growing.kept

/-! ### Calls -/

variable {cfg : Config} {polls : Nat}

/-- Creating a volume sets no size of a dataset that is there. -/
theorem Growing.createVolume {req : CreateVolumeRequest} {r : Except Status Volume}
    (growing : Growing start w)
    (ends : Ends (Responds host True) (cfg.createVolume polls req) w r w') : Growing start w' := by
  rcases createVolume_cases cfg req with ⟨status, fails⟩ | ⟨pool, full, capacity, nfs⟩ |
    ⟨kind, parent, capacity, -, backing⟩
  · rw [fails] at ends
    exact ends.2 ▸ growing
  · rw [nfs, Config.createNFSVolume] at ends
    split at ends
    · exact ends.2 ▸ growing
    obtain ⟨a, m, asked, rest⟩ := ends_lift_bind.mp ends
    obtain ⟨works, other⟩ := getProtocolShare_ends asked
    cases a with
    | ok => exact rest.2 ▸ growing.works works
    | error err =>
      simp only [other err rfl, Bool.false_eq_true, if_false] at rest
      exact rest.2 ▸ growing.works works
  · rw [backing, createBacking] at ends
    obtain ⟨a, m, asked, rest⟩ := ends_lift_bind.mp ends
    have growing := growing.works (getDataset_works asked)
    cases a with
    | ok ds =>
      dsimp only at rest
      split_ifs at rest <;> exact rest.2 ▸ growing
    | error err =>
      dsimp only at rest
      split at rest
      · obtain ⟨_, performed⟩ := rest.of_bind_pure
        rcases perform_ends (createDataset_submits _) performed with works |
          ⟨m', job, works, planned, later⟩
        · exact growing.works works
        · refine Growing.works ?_ later
          apply (growing.works works).accept (Request.plan_queued planned).1
          simp only [Request.plan] at planned
          split at planned
          · cases planned
            simp [Job.queue]
          · cases planned
      · exact rest.2 ▸ growing

theorem Growing.controllerExpandVolume {req : ExpandVolumeRequest}
    {r : Except Status ExpandVolumeResponse} (growing : Growing start w)
    (admits : Admits (requestedCapacity req.capacityRange) req.volumeId w)
    (ends : Ends (Responds host True) (controllerExpandVolume polls req) w r w') :
    Growing start w' := by
  rw [Csi.controllerExpandVolume] at ends
  cases parsed : parseVolumeID req.volumeId with
  | error err =>
    rw [parsed] at ends
    exact ends.2 ▸ growing
  | ok id =>
    simp only [parsed, Except.mapError, liftExcept_ok_bind] at ends
    rw [← parseVolumeID_full parsed] at admits
    obtain ⟨a, m, looked, rest⟩ := ends_lift_bind.mp ends
    have works := getDataset_works looked
    have admits := admits.works growing works
    have growing := growing.works works
    cases a with
    | error err =>
      dsimp only at rest
      split at rest <;> exact rest.2 ▸ growing
    | ok ds =>
      obtain ⟨-, -, b, found, rfl⟩ := getDataset_ok looked
      dsimp only at rest
      split at rest
      · exact rest.2 ▸ growing
      next capacity settings expands =>
      obtain ⟨_, performed⟩ := rest.of_bind_pure
      rcases perform_ends (setDatasetProps_submits id.full settings) performed with works |
        ⟨m', job, works, planned, later⟩
      · exact growing.works works
      · refine Growing.works ?_ later
        obtain ⟨b', found', -⟩ := (growing.rebase.works works).kept id.full b found
        apply (growing.works works).expand (admits.works growing works) found'
          (Request.plan_queued planned).1
        simp only [Request.plan] at planned
        split at planned
        · cases planned
          intro c member
          obtain ⟨setting, set, rfl⟩ := List.mem_map.mp member
          obtain ⟨property, rfl⟩ := expansion_asks expands setting set
          exact ⟨property, rfl⟩
        · cases planned

end Growing

/-! ### Sequences of calls -/

inductive SizeAction where
  | createVolume (polls : Nat) (req : CreateVolumeRequest)
  | expandVolume (polls : Nat) (req : ExpandVolumeRequest)
  /-- Time passes, and the workers go on. -/
  | pause
  deriving DecidableEq, Repr

/-- Requests and answers may be lost on the way. -/
def SizeAction.Step (host : Host) (cfg : Config) (w : World) (action : SizeAction) (w' : World) :
    Prop :=
  match action with
  | .createVolume polls req =>
    ∃ r, Ends (Responds host True) (cfg.createVolume polls req) w r w'
  | .expandVolume polls req =>
    ∃ r, Ends (Responds host True) (controllerExpandVolume polls req) w r w'
  | .pause => Works w w'

/-- An expansion asks for no less than the volume has or is about to get, and for the same as the
expansions of the volume that are under way. -/
def SizeAction.Expanding (w : World) : SizeAction → Prop
  | .expandVolume _ req => Admits (requestedCapacity req.capacityRange) req.volumeId w
  | _ => True

/-- No size was ever set to less than it was, and no dataset has less than at the start. -/
def NeverShrinks (start : Storage) (w : World) : Prop :=
  (∀ r ∈ w.resizes, r.before ≤ r.after) ∧
    ∀ full b, start.find full = some b →
      ∃ b', w.storage.find full = some b' ∧ ∀ property, b.size property ≤ b'.size property

theorem Growing.step {start : Storage} {cfg : Config} {action : SizeAction}
    (growing : Growing start w) (expanding : action.Expanding w)
    (step : action.Step host cfg w w') : Growing start w' := by
  cases action with
  | createVolume polls req =>
    obtain ⟨r, ends⟩ := step
    exact growing.createVolume ends
  | expandVolume polls req =>
    obtain ⟨r, ends⟩ := step
    exact growing.controllerExpandVolume expanding ends
  | pause => exact growing.works step

/-- Volumes do not shrink in any sequence of calls whose expansions all expand. -/
theorem volumes_never_shrink {cfg : Config} {actions : List SizeAction} (settled : w.Settled)
    (fresh : w.resizes = [])
    (trace : Interleaving.Trace
      (fun w action w' => action.Expanding w ∧ action.Step host cfg w w') w actions w') :
    NeverShrinks w.storage w' := by
  have initial : Growing w.storage w := by
    have idle : w.pending = [] := by
      rw [World.pending, List.flatMap_eq_nil_iff]
      intro job member
      obtain ⟨present, live⟩ := List.mem_filter.mp member
      simp [settled job present] at live
    constructor
    · simp [idle]
    · simp [idle]
    · simp [fresh]
    · exact fun _ b found => ⟨b, found, fun _ => Int.le_refl _⟩
  have growing := trace.invariant (Growing w.storage)
    (fun _ _ _ growing step => growing.step step.1 step.2) initial
  exact ⟨growing.grew, growing.kept⟩

/-- The world after the action when the workers are prompt and nothing is lost. -/
def SizeAction.promptly (host : Host) (cfg : Config) (w : World) : SizeAction → World
  | .createVolume polls req => ((cfg.createVolume polls req).run.exec (prompt host) w).2
  | .expandVolume polls req => ((controllerExpandVolume polls req).run.exec (prompt host) w).2
  | .pause => w

theorem step_promptly (host : Host) (cfg : Config) (w : World) (action : SizeAction) :
    action.Step host cfg w (action.promptly host cfg w) := by
  cases action with
  | createVolume polls req => exact ⟨_, run_exec (prompt_responds host True) _ w⟩
  | expandVolume polls req => exact ⟨_, run_exec (prompt_responds host True) _ w⟩
  | pause => exact .refl

/-- A volume is created with a size and then expanded to another. -/
def resizing (access : AccessType) (first second : Option CapacityRange) : List SizeAction :=
  [.createVolume 1 (claim access first), .expandVolume 1 ⟨claimed, second, none⟩]

theorem volumes_never_shrink_claim : ∃ w', Interleaving.Trace
    (fun w action w' => action.Expanding w ∧ action.Step plainHost {} w w') (stocked [] [])
    (resizing .mount none (some ⟨2 ^ 31, 0⟩)) w' ∧ NeverShrinks (stocked [] []).storage w' ∧
      w'.resizes = [⟨claimed, .quota, 2 ^ 30, 2 ^ 31⟩, ⟨claimed, .refquota, 2 ^ 30, 2 ^ 31⟩] := by
  have created : SizeAction.promptly plainHost {} (stocked [] [])
      (.createVolume 1 (claim .mount none)) = {
        storage := {
          datasets := [⟨claimed, .filesystem, '/' :: claimed, 0, 2 ^ 30, 2 ^ 30⟩]
          snapshots := []
          exports := []
          sambaShares := [] }
        jobs := [⟨[], false, false, .succeeded⟩]
        resizes := [] } := by decide +kernel
  have trace : Interleaving.Trace
      (fun w action w' => action.Expanding w ∧ action.Step plainHost {} w w') (stocked [] [])
      (resizing .mount none (some ⟨2 ^ 31, 0⟩))
      ((resizing .mount none (some ⟨2 ^ 31, 0⟩)).foldl (SizeAction.promptly plainHost {})
        (stocked [] [])) := by
    refine .cons ⟨trivial, step_promptly _ _ _ _⟩ (.cons ⟨?_, step_promptly _ _ _ _⟩ (.nil _))
    rw [created]
    constructor
    · intro b found property
      obtain rfl : _ = b := Option.some.inj found
      cases property <;> decide +kernel
    · simp [World.pending, JobState.isTerminal]
    · simp [World.pending, JobState.isTerminal]
  exact ⟨_, trace, volumes_never_shrink (stocked_settled [] []) rfl trace, by decide +kernel⟩

/-- Two gibibytes and then an expansion without a range, which sets one. -/
theorem volume_shrinks :
    (∃ w', Interleaving.Trace (fun w action w' => action.Step plainHost {} w w') (stocked [] [])
      (resizing .mount (some ⟨2 ^ 31, 0⟩) none) w' ∧
      ⟨claimed, .quota, 2 ^ 31, 2 ^ 30⟩ ∈ w'.resizes) ∧
    ∃ w', Interleaving.Trace (fun w action w' => action.Step plainHost {} w w') (stocked [] [])
      (resizing .block (some ⟨2 ^ 31, 0⟩) none) w' ∧
      ⟨claimed, .volsize, 2 ^ 31, 2 ^ 30⟩ ∈ w'.resizes := by
  constructor
  · refine ⟨_, .cons (step_promptly _ _ _ _) (.cons (step_promptly _ _ _ _) (.nil _)), ?_⟩
    decide +kernel
  · refine ⟨_, .cons (step_promptly _ _ _ _) (.cons (step_promptly _ _ _ _) (.nil _)), ?_⟩
    decide +kernel

end NovaNas.Csi
