import Mathlib.Logic.Function.Iterate
import NovaNas.Csi.Server

/-!
# Requests and their jobs

What a call of the driver has seen when it returns without an error: its request was accepted and
its job has succeeded. Where no other job is under way, the job has then done all its commands,
one after the other.
-/
namespace NovaNas.Csi

open Program
open Zfs (Name)

/-! ### Calls -/

section Calls

variable {host : Host} {lossy : Prop} {w w' : World} {polls id : Nat}
  {submission : Api ApiError Nat} {request : Request} {submitted waited : ApiError → Message}

theorem ends_send {σ : Type} {responds : Responses σ Answer} {s s' : σ} {q : Call}
    {r : Except ApiError (Reply q)} :
    Ends responds (send q) s r s' ↔ responds s q r s' := by
  rw [send, ends_request_bind]
  constructor
  · rintro ⟨a, m, answered, rest⟩
    cases a with
    | ok reply =>
      obtain ⟨rfl, rfl⟩ := rest
      exact answered
    | error err =>
      obtain ⟨rfl, rfl⟩ := rest
      exact answered
  · intro answered
    cases r with
    | ok reply => exact ⟨.ok reply, s', answered, rfl, rfl⟩
    | error err => exact ⟨.error err, s', answered, rfl, rfl⟩

/-- An answer that is no error is the server's. -/
theorem Responds.served {q : Call} {reply : Reply q}
    (responds : Responds host lossy w q (.ok reply) w') :
    ∃ m, Works w m ∧ (.ok reply, w') = serve host m q := by
  obtain ⟨m, works, served | ⟨-, ⟨err, same, -⟩, -⟩⟩ := responds
  · exact ⟨m, works, served⟩
  · cases same

def Call.reads : Call → Bool
  | .submit _ => false
  | _ => true

theorem serve_world {q : Call} (reads : q.reads = true) (w : World) : (serve host w q).2 = w := by
  cases q with
  | submit request => cases reads
  | getDataset full =>
    simp only [serve]
    split <;> rfl
  | getProtocolShare name pool dataset =>
    simp only [serve]
    split_ifs <;> rfl
  | getJob id =>
    simp only [serve]
    split <;> rfl

/-- A request that only reads leaves all changes to the workers. -/
theorem Responds.works {q : Call} {a : Answer q} (reads : q.reads = true)
    (responds : Responds host lossy w q a w') : Works w w' := by
  obtain ⟨m, works, served | ⟨-, -, same | same⟩⟩ := responds
  · rw [show w' = (serve host m q).2 from congrArg Prod.snd served, serve_world reads]
    exact works
  · rw [same]
    exact works
  · rw [same, serve_world reads]
    exact works

/-- While the client polls, only the workers change anything. -/
theorem waitJob_works {r : Except ApiError Unit}
    (ends : Ends (Responds host lossy) (waitJob polls id) w r w') : Works w w' := by
  induction polls generalizing w with
  | zero =>
    obtain ⟨-, rfl⟩ := ends
    exact .refl
  | succ polls ih =>
    rw [waitJob] at ends
    rcases ends_bind.mp ends with ⟨state, m, polled, rest⟩ | ⟨err, -, polled⟩
    · have first := (ends_send.mp polled).works rfl
      split at rest
      · split at rest
        · obtain ⟨-, rfl⟩ := rest
          exact first
        · obtain ⟨-, rfl⟩ := rest
          exact first
      · exact first.trans (ih rest)
    · exact (ends_send.mp polled).works rfl

/-- The client stops waiting without an error only when it has seen the job succeed. -/
theorem waitJob_ok (ends : Ends (Responds host lossy) (waitJob polls id) w (.ok ()) w') :
    ∃ job, w'.jobs[id]? = some job ∧ job.state = .succeeded := by
  induction polls generalizing w with
  | zero =>
    obtain ⟨same, -⟩ := ends
    cases same
  | succ polls ih =>
    rw [waitJob, ends_bind_ok] at ends
    obtain ⟨state, m, polled, rest⟩ := ends
    split at rest
    next terminal =>
      split at rest
      · obtain ⟨same, -⟩ := rest
        cases same
      next succeeded =>
        obtain ⟨-, rfl⟩ := rest
        obtain ⟨m, -, served⟩ := (ends_send.mp polled).served
        simp only [serve] at served
        split at served
        next job found =>
          obtain ⟨same, rfl⟩ := Prod.mk.inj served
          cases same
          exact ⟨job, found, not_not.mp succeeded⟩
        next =>
          obtain ⟨same, -⟩ := Prod.mk.inj served
          cases same
    next => exact ih rest

/-- The client library sends the request or refuses to. -/
def Submits (submission : Api ApiError Nat) (request : Request) : Prop :=
  submission = throw .refused ∨ submission = send (.submit request)

theorem Submits.ok (submits : Submits submission request)
    (ends : Ends (Responds host lossy) submission w (.ok id) w') :
    ∃ m job, Works w m ∧ request.plan = .ok job ∧ id = m.jobs.length ∧ w' = m.accept job := by
  rcases submits with rfl | rfl
  · obtain ⟨same, -⟩ := ends
    cases same
  · obtain ⟨m, works, served⟩ := (ends_send.mp ends).served
    simp only [serve] at served
    split at served
    next => cases (Prod.mk.inj served).1
    next job planned =>
      obtain ⟨same, rfl⟩ := Prod.mk.inj served
      cases same
      exact ⟨m, job, works, planned, rfl, rfl⟩

/-- No request for a job is answered with a status of 404. -/
theorem Submits.error (submits : Submits submission request) {err : ApiError}
    (ends : Ends (Responds host lossy) submission w (.error err) w') : isNotFound err = false := by
  rcases submits with rfl | rfl
  · obtain ⟨same, -⟩ := ends
    cases same
    rfl
  · obtain ⟨m, -, served | ⟨-, ⟨err', same, other⟩, -⟩⟩ := ends_send.mp ends
    · simp only [serve] at served
      split at served
      next refusal planned =>
        cases (Prod.mk.inj served).1
        revert planned
        cases request <;> simp only [Request.plan] <;> split_ifs <;> rintro ⟨⟩ <;> rfl
      next =>
        cases (Prod.mk.inj served).1
    · cases same
      exact other

theorem createDataset_submits (spec : CreateDatasetSpec) :
    Submits (createDataset spec) (.createDataset spec) := by
  rw [createDataset]
  split
  · exact .inl rfl
  split
  · exact .inl rfl
  · exact .inr rfl

theorem destroyDataset_submits (full : Name) (recursive : Bool) :
    Submits (destroyDataset full recursive) (.destroyDataset full recursive) := by
  rw [destroyDataset]
  split
  · exact .inl rfl
  · exact .inr rfl

theorem setDatasetProps_submits (full : Name) (settings : List Setting) :
    Submits (setDatasetProps full settings) (.setDatasetProps full settings) := by
  rw [setDatasetProps]
  split
  · exact .inl rfl
  split
  · exact .inl rfl
  · exact .inr rfl

theorem createSnapshot_submits (dataset short : Name) (recursive : Bool) :
    Submits (createSnapshot dataset short recursive) (.createSnapshot dataset short recursive) := by
  rw [createSnapshot]
  split
  · exact .inl rfl
  · exact .inr rfl

theorem destroySnapshot_submits (full : Name) :
    Submits (destroySnapshot full) (.destroySnapshot full) := by
  rw [destroySnapshot]
  split
  · exact .inl rfl
  · exact .inr rfl

theorem deleteProtocolShare_submits (name pool dataset : Name) :
    Submits (deleteProtocolShare name pool dataset) (.deleteProtocolShare name pool dataset) := by
  rw [deleteProtocolShare]
  split
  · exact .inl rfl
  split
  · exact .inl rfl
  · exact .inr rfl

variable (submits : Submits submission request)
include submits

/-- A request adds its job or nothing, whatever the client gets to know of it. -/
theorem Submits.ends {r : Except ApiError Nat}
    (ends : Ends (Responds host lossy) submission w r w') :
    ∃ m, Works w m ∧ (w' = m ∨ ∃ job, request.plan = .ok job ∧ w' = m.accept job) := by
  rcases submits with rfl | rfl
  · exact ⟨w, .refl, .inl ends.2⟩
  obtain ⟨m, works, served | ⟨-, -, same | same⟩⟩ := ends_send.mp ends
  · refine ⟨m, works, ?_⟩
    rw [show w' = (serve host m (.submit request)).2 from congrArg Prod.snd served]
    cases planned : request.plan with
    | error err => simp [serve, planned]
    | ok job => simp [serve, planned]
  · exact ⟨m, works, .inl same⟩
  · refine ⟨m, works, ?_⟩
    rw [same]
    cases planned : request.plan with
    | error err => simp [serve, planned]
    | ok job => simp [serve, planned]

theorem perform_ends {r : Except Status Unit}
    (ends : Ends (Responds host lossy) (perform submitted waited polls submission) w r w') :
    Works w w' ∨ ∃ m job, Works w m ∧ request.plan = .ok job ∧ Works (m.accept job) w' := by
  rw [perform] at ends
  rcases ends_bind.mp ends with ⟨id, m, accepted, ended⟩ | ⟨status, -, refused⟩
  · obtain ⟨_, -, accepted⟩ := ends_mapError.mp accepted
    obtain ⟨_, -, ended⟩ := ends_mapError.mp ended
    have later := waitJob_works ended
    obtain ⟨start, works, rfl | ⟨job, planned, rfl⟩⟩ := submits.ends accepted
    · exact .inl (works.trans later)
    · exact .inr ⟨start, job, works, planned, later⟩
  · obtain ⟨_, -, refused⟩ := ends_mapError.mp refused
    obtain ⟨start, works, rfl | ⟨job, planned, rfl⟩⟩ := submits.ends refused
    · exact .inl works
    · exact .inr ⟨start, job, works, planned, .refl⟩

/-- The request was accepted, and its job has succeeded. -/
structure Completed (request : Request) (w w' : World) : Prop where
  intro ::
  job : ∃ m job done, Works w m ∧ request.plan = .ok job ∧ Works (m.accept job) w' ∧
    w'.jobs[m.jobs.length]? = some done ∧ done.state = .succeeded

theorem Submits.completed {m : World}
    (accepted : Ends (Responds host lossy) submission w (.ok id) m)
    (ended : Ends (Responds host lossy) (waitJob polls id) m (.ok ()) w') :
    Completed request w w' := by
  obtain ⟨start, job, works, planned, rfl, rfl⟩ := submits.ok accepted
  obtain ⟨done, found, succeeded⟩ := waitJob_ok ended
  exact ⟨start, job, done, works, planned, waitJob_works ended, found, succeeded⟩

theorem perform_ok
    (ends : Ends (Responds host lossy) (perform submitted waited polls submission) w (.ok ()) w') :
    Completed request w w' := by
  rw [perform, ends_bind_ok] at ends
  obtain ⟨job, m, accepted, ended⟩ := ends
  exact submits.completed (ends_mapError_ok.mp accepted) (ends_mapError_ok.mp ended)

/-- The status that would make a removal a success without a job never comes. -/
theorem remove_ok
    (ends : Ends (Responds host lossy) (remove submitted waited polls submission) w (.ok ()) w') :
    Completed request w w' := by
  rw [remove, ends_lift_bind] at ends
  obtain ⟨a, m, answered, rest⟩ := ends
  cases a with
  | ok job => exact submits.completed answered (ends_mapError_ok.mp rest)
  | error err =>
    have other := submits.error answered
    simp only [other, Bool.false_eq_true, if_false] at rest
    obtain ⟨same, -⟩ := rest
    cases same

end Calls

/-! ### Lookups -/

/-- The dataset as the adapter shows it to the driver. -/
def Backing.seen (b : Backing) : Dataset := ⟨b.type, b.mountpoint, 0, 0⟩

section Lookups

variable {host : Host} {lossy : Prop} {w w' : World} {full name pool dataset : Name}

theorem getDataset_ok {ds : Dataset}
    (ends : Ends (Responds host lossy) (getDataset full) w (.ok ds) w') :
    Works w w' ∧ full ≠ [] ∧ ∃ b, w'.storage.find full = some b ∧ ds = b.seen := by
  rw [getDataset] at ends
  split at ends
  · cases ends.1
  next named =>
    obtain ⟨detail, m, answered, same, rfl⟩ := ends_bind_ok.mp ends
    obtain ⟨m, works, served⟩ := (ends_send.mp answered).served
    cases found : m.storage.find full with
    | none =>
      simp only [serve, found] at served
      cases (Prod.mk.inj served).1
    | some b =>
      simp only [serve, found] at served
      obtain ⟨shown, rfl⟩ := Prod.mk.inj served
      cases shown
      cases same
      exact ⟨works, named, b, found, rfl⟩

theorem getDataset_works {r : Except ApiError Dataset}
    (ends : Ends (Responds host lossy) (getDataset full) w r w') : Works w w' := by
  rw [getDataset] at ends
  split at ends
  · rw [ends.2]
  · rcases ends_bind.mp ends with ⟨detail, m, answered, -, rfl⟩ | ⟨err, -, answered⟩
    · exact (ends_send.mp answered).works rfl
    · exact (ends_send.mp answered).works rfl

/-- No lookup of a share is answered with a status of 404. -/
theorem getProtocolShare_ends {r : Except ApiError Unit}
    (ends : Ends (Responds host lossy) (getProtocolShare name pool dataset) w r w') :
    Works w w' ∧ ∀ err, r = .error err → isNotFound err = false := by
  rw [getProtocolShare] at ends
  split at ends
  · obtain ⟨rfl, rfl⟩ := ends
    exact ⟨.refl, by rintro _ ⟨⟩; rfl⟩
  split at ends
  · obtain ⟨rfl, rfl⟩ := ends
    exact ⟨.refl, by rintro _ ⟨⟩; rfl⟩
  refine ⟨(ends_send.mp ends).works rfl, ?_⟩
  rintro err rfl
  obtain ⟨m, -, served | ⟨-, ⟨err', same, other⟩, -⟩⟩ := ends_send.mp ends
  · simp only [serve] at served
    split_ifs at served <;> cases (Prod.mk.inj served).1 <;> rfl
  · cases same
    exact other

end Lookups

/-! ### Jobs that run alone -/

/-- No job is under way. -/
def World.Settled (w : World) : Prop := ∀ job ∈ w.jobs, job.state.isTerminal = true

section Alone

variable {w w' : World} {id : Nat} {start : Storage} {commands : List Command}

variable {job job' : Job} {effect : Option Command}

theorem Job.Moves.live (moves : job.Moves job' effect) : job.state.isTerminal = false := by
  cases moves with
  | starts queued => simp [queued, JobState.isTerminal]
  | runs running => simp [running, JobState.isTerminal]
  | passesOver running => simp [running, JobState.isTerminal]
  | fails running => simp [running, JobState.isTerminal]
  | ends running => simp [running, JobState.isTerminal]
  | dropped live => exact live

theorem Job.Moves.effect_mem {c : Command} (moves : job.Moves job' (some c)) : c ∈ job.rest := by
  cases moves with
  | runs running left => simp [left]
  | passesOver running left goesOn may =>
    simp only [reduceCtorEq, Option.some.injEq, false_or] at may
    simp [may, left]
  | fails running left may =>
    simp only [reduceCtorEq, Option.some.injEq, false_or] at may
    simp [may, left]
  | dropped live dropped may =>
    simp only [reduceCtorEq, false_or] at may
    exact List.mem_of_mem_head? may.symm

theorem Job.Moves.rest_subset (moves : job.Moves job' effect) : job'.rest ⊆ job.rest := by
  cases moves with
  | starts | fails | ends | dropped => exact List.Subset.refl _
  | runs running left => simp [left]
  | passesOver running left => simp [left]

theorem Work.live (work : Work w w') : ∃ job ∈ w.jobs, job.state.isTerminal = false := by
  cases work with
  | quiet found moves => exact ⟨_, List.mem_of_getElem? found, moves.live⟩
  | effective found moves => exact ⟨_, List.mem_of_getElem? found, moves.live⟩

theorem World.Settled.works (settled : w.Settled) (works : Works w w') : w' = w := by
  induction works with
  | refl => rfl
  | tail _ work ih =>
    subst ih
    obtain ⟨job, member, live⟩ := work.live
    rw [settled job member] at live
    cases live

theorem runAll_append {s m s' : Storage} {done more : List Command} (ran : runAll s done = some m)
    (rest : runAll m more = some s') : runAll s (done ++ more) = some s' := by
  induction done generalizing s with
  | nil =>
    cases ran
    exact rest
  | cons c done ih =>
    obtain ⟨s₁, first, later⟩ := Option.bind_eq_some_iff.mp ran
    simp [runAll, first, ih later]

@[simp] theorem runAll_single (s : Storage) (c : Command) : runAll s [c] = c.run s := by
  cases ran : c.run s <;> simp [runAll, ran]

/-- Unless something has failed, the storage is what the commands so far have made of it. -/
structure Job.OnCourse (job : Job) (start : Storage) (commands : List Command) (now : Storage) :
    Prop where
  finished : job.state = .succeeded → job.broken = false ∧ job.rest = []
  progress : job.broken = false → job.state.isTerminal = false ∨ job.state = .succeeded →
    ∃ done, commands = done ++ job.rest ∧ runAll start done = some now

theorem Job.OnCourse.moves {now after : Storage} (course : job.OnCourse start commands now)
    (moves : job.Moves job' effect)
    (ran : effect = none ∧ after = now ∨ ∃ c, effect = some c ∧ c.run now = some after) :
    job'.OnCourse start commands after := by
  have ahead (whole : job.broken = false) := course.progress whole (.inl moves.live)
  cases moves with
  | starts queued =>
    obtain ⟨-, rfl⟩ | ⟨c, ⟨⟩, -⟩ := ran
    exact ⟨nofun, fun whole _ => ahead whole⟩
  | @runs c rest running left =>
    obtain ⟨⟨⟩, -⟩ | ⟨_, ⟨⟩, ran⟩ := ran
    constructor
    · simp [running]
    · intro whole _
      obtain ⟨done, all, so⟩ := ahead whole
      refine ⟨done ++ [c], by simp [all, left], runAll_append so ?_⟩
      simp [runAll, ran]
  | passesOver running => exact ⟨by simp [running], nofun⟩
  | fails => exact ⟨nofun, by simp [JobState.isTerminal]⟩
  | ends running left =>
    obtain ⟨-, rfl⟩ | ⟨c, ⟨⟩, -⟩ := ran
    constructor
    · cases whole : job.broken <;> simp [left]
    · exact fun whole _ => ahead whole
  | dropped live dropped =>
    constructor
    · rcases dropped with rfl | rfl <;> nofun
    · rcases dropped with rfl | rfl <;> simp [JobState.isTerminal]

/-- Only the job with the given number may be under way. -/
structure Alone (start : Storage) (commands : List Command) (id : Nat) (w : World) : Prop where
  others : ∀ i job, w.jobs[i]? = some job → i ≠ id → job.state.isTerminal = true
  own : ∀ job, w.jobs[id]? = some job → job.OnCourse start commands w.storage

theorem Alone.update {i : Nat} {after : World} (alone : Alone start commands id w)
    (found : w.jobs[i]? = some job) (live : job.state.isTerminal = false)
    (jobs : after.jobs = w.jobs.set i job')
    (course : job.OnCourse start commands w.storage → job'.OnCourse start commands after.storage) :
    Alone start commands id after := by
  -- Only a job that is under way moves, so it is the one.
  obtain rfl : i = id := by
    by_contra other
    rw [alone.others i job found other] at live
    cases live
  constructor
  · intro k other at_ ne
    rw [jobs, List.getElem?_set_ne (Ne.symm ne)] at at_
    exact alone.others k other at_ ne
  · intro own at_
    rw [jobs, List.getElem?_set_self' , found] at at_
    cases at_
    exact course (alone.own job found)

theorem Alone.work (alone : Alone start commands id w) (work : Work w w') :
    Alone start commands id w' := by
  cases work with
  | quiet found moves =>
    exact alone.update found moves.live rfl fun course => course.moves moves (.inl ⟨rfl, rfl⟩)
  | effective found moves ran =>
    exact alone.update found moves.live rfl fun course => course.moves moves (.inr ⟨_, rfl, ran⟩)

theorem Alone.works (alone : Alone start commands id w) (works : Works w w') :
    Alone start commands id w' := by
  induction works with
  | refl => exact alone
  | tail _ work ih => exact ih.work work

theorem Request.plan_queued {request : Request} (planned : request.plan = .ok job) :
    job.state = .queued ∧ job.broken = false := by
  revert planned
  cases request <;> simp only [Request.plan] <;> split_ifs <;> rintro ⟨⟩ <;> exact ⟨rfl, rfl⟩

/-- A request to a settled world whose job has succeeded has done all its commands. -/
theorem World.Settled.completed {request : Request} (settled : w.Settled)
    (completed : Completed request w w') : ∃ job, request.plan = .ok job ∧ w'.Settled ∧
      runAll w.storage job.rest = some w'.storage := by
  obtain ⟨m, job, ended, works, planned, later, found, succeeded⟩ := completed
  obtain rfl := settled.works works
  obtain ⟨queued, whole⟩ := Request.plan_queued planned
  have initial : Alone m.storage job.rest m.jobs.length (m.accept job) := by
    constructor
    · intro i other at_ ne
      rw [World.accept, List.getElem?_append] at at_
      split at at_
      · exact settled other (List.mem_of_getElem? at_)
      · rw [List.getElem?_singleton] at at_
        split at at_ <;> [omega; cases at_]
    · intro own at_
      rw [World.accept, List.getElem?_concat_length] at at_
      cases at_
      exact ⟨by simp [queued], fun _ _ => ⟨[], rfl, rfl⟩⟩
  have alone := initial.works later
  have course := alone.own ended found
  obtain ⟨unbroken, nothing⟩ := course.finished succeeded
  obtain ⟨all, same, ran⟩ := course.progress unbroken (.inr succeeded)
  rw [nothing, List.append_nil] at same
  refine ⟨job, planned, ?_, same ▸ ran⟩
  intro other member
  obtain ⟨i, at_⟩ := List.mem_iff_getElem?.mp member
  by_cases own : i = m.jobs.length
  · subst own
    rw [found] at at_
    cases at_
    simp [succeeded, JobState.isTerminal]
  · exact alone.others i other at_ own

end Alone

/-! ### A prompt worker -/

/-- The step of a worker that takes the first job under way, all of whose commands work that can. -/
def World.turn (w : World) : World :=
  match w.jobs.findIdx? fun job => !job.state.isTerminal with
  | none => w
  | some id =>
    match w.jobs[id]? with
    | none => w
    | some job =>
      match job.state, job.rest with
      | .queued, _ => w.update id { job with state := .running }
      | .running, [] => w.update id { job with state := if job.broken then .failed else .succeeded }
      | .running, c :: rest =>
        match c.run w.storage with
        | some after => (w.ran c after).update id { job with rest }
        | none => w.update id { job with state := .failed }
      | _, _ => w

theorem World.turn_works (w : World) : Works w w.turn := by
  rw [World.turn]
  split
  · exact .refl
  split
  · exact .refl
  next found =>
  split
  next queued => exact .single (.quiet found (.starts queued))
  next running left => exact .single (.quiet found (.ends running left))
  next running left =>
    split
    next ran => exact .single (.effective found (.runs running left) ran)
    next => exact .single (.quiet found (.fails running left (.inl rfl)))
  next => exact .refl

/-- The answers when the worker is through with its jobs before each request. -/
def prompt (host : Host) (w : World) (q : Call) : Answer q × World :=
  serve host (World.turn^[8] w) q

theorem prompt_responds (host : Host) (lossy : Prop) (w : World) (q : Call) :
    Responds host lossy w q (prompt host w q).1 (prompt host w q).2 := by
  have works (n : Nat) : Works w (World.turn^[n] w) := by
    induction n with
    | zero => exact .refl
    | succ n ih =>
      rw [Function.iterate_succ_apply']
      exact ih.trans (World.turn_works _)
  exact ⟨_, works 8, .inl rfl⟩

/-! ### One claim -/

/-- A host without complaints. -/
def plainHost : Host where
  rejects _ := false
  aclReadable _ := true

def claimed : Name := "tank/csi/pvc-1".toList

/-- A volume of one gibibyte unless the range says otherwise. -/
def claim (access : AccessType) (range : Option CapacityRange) : CreateVolumeRequest where
  name := "pvc-1".toList
  capabilities := [some access]
  parameters := { pool := "tank".toList }
  capacityRange := range

/-- The given datasets and snapshots, and nothing else so far. -/
def stocked (datasets : List Backing) (snapshots : List Name) : World where
  storage := { datasets, snapshots, exports := [], sambaShares := [] }
  jobs := []
  resizes := []

theorem stocked_settled (datasets : List Backing) (snapshots : List Name) :
    (stocked datasets snapshots).Settled := by
  simp [World.Settled, stocked]

end NovaNas.Csi
