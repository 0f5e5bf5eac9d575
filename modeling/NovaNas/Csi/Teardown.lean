import NovaNas.Csi.Retries

/-!
# Deleting volumes with a share

Whether a volume has a share is not in its identifier. It is looked up, and any error of the lookup
is taken for the answer that there is none. The dataset is then destroyed alone, and the export
of the share stays.
-/
namespace NovaNas.Csi

open Program
open Zfs (Name)

/-! ### Requests that fail -/

/-- The error with which each request of a call fails, if it does. -/
abbrev Faults := Nat → Option ApiError

/-- What the request is for is not there. -/
def Missing (s : Storage) : Call → Prop
  | .getProtocolShare name pool dataset =>
    s.find (pool ++ '/' :: dataset) = none ∨ name ∉ s.exports
  | .submit (.deleteProtocolShare name pool dataset) =>
    s.find (pool ++ '/' :: dataset) = none ∧ name ∉ s.exports
  | .submit (.destroyDataset full _) => s.find full = none
  | _ => True

/-- The answers while requests fail. A request is not answered with a status of 404 unless what it
is for is missing; with another error it may have had its effect. -/
def Faulty (host : Host) (faults : Faults) : Responses (World × Nat) Answer := fun s q a s' =>
  s'.2 = s.2 + 1 ∧ ∃ m, Works s.1 m ∧
    match faults s.2 with
    | none => (a, s'.1) = serve host m q
    | some err => a = .error err ∧
        if isNotFound err then Missing m.storage q ∧ s'.1 = m
        else s'.1 = m ∨ s'.1 = (serve host m q).2

variable {host : Host} {faults : Faults} {s s' : World × Nat} {w w' : World} {n : Nat}

/-- An answer that is no error is the server's. -/
theorem Faulty.served {q : Call} {reply : Reply q} (answered : Faulty host faults s q (.ok reply) s') :
    Responds host False s.1 q (.ok reply) s'.1 := by
  obtain ⟨-, m, works, answered⟩ := answered
  split at answered
  · exact ⟨m, works, .inl answered⟩
  · cases answered.1

theorem waitJob_faulty {polls id : Nat}
    (ends : Ends (Faulty host faults) (waitJob polls id) s (.ok ()) s') :
    Ends (Responds host False) (waitJob polls id) s.1 (.ok ()) s'.1 := by
  induction polls generalizing s with
  | zero => cases ends.1
  | succ polls ih =>
    rw [waitJob, ends_bind_ok] at ends ⊢
    obtain ⟨state, m, polled, rest⟩ := ends
    refine ⟨state, m.1, ends_send.mpr (ends_send.mp polled).served, ?_⟩
    split at rest
    · split at rest
      · cases rest.1
      · rw [if_pos ‹_›, if_neg ‹_›]
        exact ⟨rfl, congrArg Prod.fst rest.2⟩
    · rw [if_neg ‹_›]
      exact ih rest

/-- A removal has succeeded with its job, or there was nothing to remove. -/
theorem remove_faulty {submitted waited : ApiError → Message} {polls : Nat}
    {submission : Api ApiError Nat} {request : Request} (submits : Submits submission request)
    (settled : s.1.Settled)
    (ends : Ends (Faulty host faults) (remove submitted waited polls submission) s (.ok ()) s') :
    Missing s.1.storage (.submit request) ∧ s'.1 = s.1 ∨ Completed request s.1 s'.1 := by
  rw [remove, ends_lift_bind] at ends
  obtain ⟨a, m, answered, rest⟩ := ends
  cases a with
  | ok job =>
    right
    have waited := waitJob_faulty (ends_mapError_ok.mp rest)
    refine submits.completed ?_ waited
    rcases submits with rfl | rfl
    · cases answered.1
    · exact ends_send.mpr (ends_send.mp answered).served
  | error err =>
    left
    dsimp only at rest
    split at rest
    next notFound =>
      obtain ⟨-, rfl⟩ := rest
      rcases submits with rfl | rfl
      · cases answered.1
        cases notFound
      obtain ⟨-, m, works, answered⟩ := ends_send.mp answered
      obtain rfl := settled.works works
      split at answered
      next =>
        have served : Ends (Responds host False) (send (.submit request)) s.1 (.error err) _ :=
          ends_send.mpr ⟨s.1, .refl, .inl answered⟩
        rw [Submits.error (.inr rfl) served] at notFound
        cases notFound
      next err' fault =>
        cases answered.1
        rw [if_pos notFound] at answered
        exact answered.2
    · cases rest.1

/-! ### Names -/

theorem join_cons_cons (sep : Char) (first second : Name) (rest : List Name) :
    Text.join sep (first :: second :: rest) = first ++ sep :: Text.join sep (second :: rest) := rfl

/-- A volume has a pool, a name and a dataset below the pool. -/
theorem parseVolumeID_parts {volumeId : Name} {id : VolumeID}
    (parsed : parseVolumeID volumeId = .ok id) :
    id.pool ≠ [] ∧ id.leaf ≠ [] ∧ datasetSubpath id.pool id.full ≠ [] := by
  have whole := Text.join_split '/' volumeId
  rw [parseVolumeID] at parsed
  split at parsed
  · cases parsed
  dsimp only at parsed
  generalize Text.split '/' volumeId = parts at parsed whole
  split_ifs at parsed with few blank
  cases parsed
  obtain ⟨first, second, rest, rfl⟩ : ∃ first second rest, parts = first :: second :: rest := by
    rcases parts with _ | ⟨first, _ | ⟨second, rest⟩⟩
    · simp at few
    · simp at few
    · exact ⟨first, second, rest, rfl⟩
  have solid : ∀ part ∈ first :: second :: rest, part ≠ [] := by
    rintro part member rfl
    exact blank (List.contains_iff_mem.mpr member)
  refine ⟨solid first (by simp), solid _ ?_, ?_⟩
  · have some : first :: second :: rest ≠ [] := by simp
    rw [List.getLastD_eq_getLast?, List.getLast?_eq_some_getLast some]
    exact List.getLast_mem some
  · have inside : (first ++ ['/']).isPrefixOf (Text.join '/' (first :: second :: rest)) = true := by
      rw [List.isPrefixOf_iff_prefix, join_cons_cons]
      exact ⟨Text.join '/' (second :: rest), by simp⟩
    have more : Text.join '/' (second :: rest) ≠ [] := by
      have named : second ≠ [] := solid second (by simp)
      cases rest with
      | nil => exact named
      | cons third rest => simp [join_cons_cons]
    rw [List.headD_cons, ← whole, datasetSubpath, if_pos inside, join_cons_cons]
    simpa using more

/-! ### Deleting a volume -/

variable {volumeId : Name} {id : VolumeID} {polls : Nat}

/-- What the server answers to the lookup of a share. -/
theorem serve_lookup {name pool dataset : Name} (pooled : pool ≠ []) (below : dataset ≠ [])
    (w : World) : serve host w (.getProtocolShare name pool dataset) =
      (if validateName name = .ok () ∧ (w.storage.find (pool ++ '/' :: dataset)).isSome ∧
          host.aclReadable (pool ++ '/' :: dataset) = true then .ok () else .error hostError, w) := by
  simp only [serve]
  rw [if_neg (by simp [pooled, below])]
  split_ifs <;> simp_all

/-- The lookup of a share finds it unless it fails or the server cannot answer it. -/
theorem lookup_answer {name pool dataset : Name} {a : Except ApiError Unit} (settled : s.1.Settled)
    (named : name ≠ []) (pooled : pool ≠ []) (below : dataset ≠ [])
    (ends : Ends (Faulty host faults) (getProtocolShare name pool dataset) s a s') :
    s'.1 = s.1 ∧ (a = .ok () ↔ faults s.2 = none ∧ validateName name = .ok () ∧
      (s.1.storage.find (pool ++ '/' :: dataset)).isSome ∧
      host.aclReadable (pool ++ '/' :: dataset) = true) := by
  rw [getProtocolShare, if_neg named, if_neg (by simp [pooled, below])] at ends
  obtain ⟨-, m, works, answered⟩ := ends_send.mp ends
  obtain rfl := settled.works works
  rw [serve_lookup pooled below] at answered
  cases fault : faults s.2 with
  | some err =>
    simp only [fault] at answered
    obtain ⟨rfl, effect⟩ := answered
    refine ⟨?_, by simp⟩
    split at effect
    · exact effect.2
    · exact effect.elim id id
  | none =>
    simp only [fault] at answered
    have reply : a = _ := congrArg Prod.fst answered
    have after : s'.1 = _ := congrArg Prod.snd answered
    refine ⟨after, ?_⟩
    rw [reply]
    simp

theorem destroy_exports {before after : Storage} {full : Name} {recursive : Bool}
    (ran : (Command.destroy full recursive).run before = some after) :
    after.exports = before.exports := by
  simp only [Command.run, Option.ite_none_left_eq_some] at ran
  cases ran.2
  rfl

/-- A share's job has removed its export and its dataset. -/
theorem Completed.unshared {name pool dataset : Name} (settled : w.Settled) (pooled : pool ≠ [])
    (completed : Completed (.deleteProtocolShare name pool dataset) w w') :
    name ∉ w'.storage.exports ∧ w'.storage.find (pool ++ '/' :: dataset) = none := by
  obtain ⟨job, planned, -, ran⟩ := settled.completed completed
  simp only [Request.plan] at planned
  split at planned
  · cases planned
  split at planned
  · cases planned
    obtain ⟨s₁, dropped, ran⟩ := Option.bind_eq_some_iff.mp ran
    cases dropped
    obtain ⟨s₂, dropped, ran⟩ := Option.bind_eq_some_iff.mp ran
    cases dropped
    have ran := (runAll_single _ _).symm.trans ran
    refine ⟨?_, (destroy_run ran).2⟩
    rw [destroy_exports ran]
    simp
  · cases planned
    simp [Job.queue, Command.run] at ran

theorem Completed.destroyed_alone {full : Name} (settled : w.Settled)
    (completed : Completed (.destroyDataset full false) w w') :
    w'.storage.exports = w.storage.exports ∧ w'.storage.find full = none := by
  obtain ⟨job, planned, -, ran⟩ := settled.completed completed
  simp only [Request.plan] at planned
  split at planned
  · cases planned
    rw [Job.queue, runAll_single] at ran
    exact ⟨destroy_exports ran, (destroy_run ran).2⟩
  · cases planned

/-- When a volume has been deleted, its export and its dataset are gone exactly if there was no
export, or the share was found: the lookup did not fail and the server could answer it. -/
theorem teardown_complete_iff (parsed : parseVolumeID volumeId = .ok id) (settled : w.Settled)
    (ends : Ends (Faulty host faults) (deleteVolume polls volumeId) (w, 0) (.ok ()) s') :
    (id.leaf ∉ s'.1.storage.exports ∧ s'.1.storage.find volumeId = none) ↔
      id.leaf ∉ w.storage.exports ∨
        faults 0 = none ∧ validateName id.leaf = .ok () ∧ (w.storage.find volumeId).isSome ∧
          host.aclReadable volumeId = true := by
  obtain ⟨pooled, named, below⟩ := parseVolumeID_parts parsed
  obtain rfl := parseVolumeID_full parsed
  have full := datasetSubpath_append below
  rw [deleteVolume] at ends
  simp only [parsed, Except.mapError, liftExcept_ok_bind, if_neg below] at ends
  obtain ⟨a, m, asked, rest⟩ := ends_lift_bind.mp ends
  obtain ⟨same, found⟩ := lookup_answer settled named pooled below asked
  rw [full] at found
  rw [← found]
  obtain ⟨w₁, n⟩ := m
  obtain rfl : w₁ = w := same
  cases a with
  | ok =>
    refine iff_of_true ?_ (.inr rfl)
    rcases remove_faulty (deleteProtocolShare_submits _ _ _) settled rest with ⟨missing, -⟩ | completed
    · have present := (found.mp rfl).2.2.1
      rw [← full, missing.1] at present
      cases present
    · have unshared := completed.unshared settled pooled
      rwa [full] at unshared
  | error err =>
    have gone : s'.1.storage.exports = w₁.storage.exports ∧ s'.1.storage.find id.full = none := by
      rcases remove_faulty (destroyDataset_submits _ _) settled rest with ⟨missing, same⟩ | completed
      · exact ⟨by rw [same], by rw [same]; exact missing⟩
      · exact completed.destroyed_alone settled
    rw [gone.1]
    simp [gone.2]

/-! ### A lookup that fails -/

/-- A prompt worker, and requests that fail before they get to the server. -/
def failing (host : Host) (faults : Faults) (s : World × Nat) (q : Call) : Answer q × World × Nat :=
  match faults s.2 with
  | none => ((prompt host s.1 q).1, (prompt host s.1 q).2, s.2 + 1)
  | some err => (.error err, s.1, s.2 + 1)

theorem failing_responds (host : Host) (faults : Faults)
    (truthful : ∀ k err, faults k = some err → isNotFound err = false) (s : World × Nat) (q : Call) :
    Faulty host faults s q (failing host faults s q).1 (failing host faults s q).2 := by
  cases fault : faults s.2 with
  | none =>
    obtain ⟨m, works, served | ⟨⟨⟩, -⟩⟩ := prompt_responds host False s.1 q
    simp only [Faulty, failing, fault]
    exact ⟨trivial, m, works, served⟩
  | some err =>
    simp only [Faulty, failing, fault, truthful _ _ fault]
    exact ⟨trivial, s.1, .refl, trivial, .inl rfl⟩

/-- A volume with a share, and nothing else. -/
def shared : World where
  storage := {
    datasets := [⟨claimed, .filesystem, '/' :: claimed, 0, 2 ^ 30, 0⟩]
    snapshots := []
    exports := ["pvc-1".toList]
    sambaShares := [] }
  jobs := []
  resizes := []

theorem shared_settled : shared.Settled := by simp [World.Settled, shared]

def claimedID : VolumeID := ⟨claimed, "tank".toList, "tank/csi".toList, "pvc-1".toList⟩

theorem parse_claimed : parseVolumeID claimed = .ok claimedID := by decide +kernel

theorem teardown_of_share : ∃ s', Ends (Faulty plainHost fun _ => none) (deleteVolume 1 claimed)
    (shared, 0) (.ok ()) s' ∧
      claimedID.leaf ∉ s'.1.storage.exports ∧ s'.1.storage.find claimed = none := by
  have ends := run_exec (failing_responds plainHost (fun _ => none) (by simp))
    (deleteVolume 1 claimed).run (shared, 0)
  have ok : ((deleteVolume 1 claimed).run.exec (failing plainHost fun _ => none)
      (shared, 0)).1 = .ok () := by decide +kernel
  rw [ok] at ends
  exact ⟨_, ends, (teardown_complete_iff parse_claimed shared_settled ends).mpr
    (.inr (by decide +kernel))⟩

/-- The first request gets no answer. -/
def firstLost : Faults := fun k => if k = 0 then some .transport else none

theorem firstLost_truthful (k : Nat) (err : ApiError) (fault : firstLost k = some err) :
    isNotFound err = false := by
  rw [firstLost] at fault
  split at fault
  · cases fault
    rfl
  · cases fault

/-- The lookup fails and all other requests work: the dataset goes, the export stays. -/
theorem export_left_behind : ∃ s', Ends (Faulty plainHost firstLost) (deleteVolume 1 claimed)
    (shared, 0) (.ok ()) s' ∧
      claimedID.leaf ∈ s'.1.storage.exports ∧ s'.1.storage.find claimed = none := by
  have ends := run_exec (failing_responds plainHost firstLost firstLost_truthful)
    (deleteVolume 1 claimed).run (shared, 0)
  have ok : ((deleteVolume 1 claimed).run.exec (failing plainHost firstLost) (shared, 0)).1 =
      .ok () := by decide +kernel
  rw [ok] at ends
  exact ⟨_, ends, by decide +kernel, by decide +kernel⟩

end NovaNas.Csi
