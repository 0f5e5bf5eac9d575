import NovaNas.Csi.Retries

/-!
# The capacity of a volume

The capacity that is reported is the one that was asked for, rounded up to whole mebibytes for a
filesystem. A new dataset gets that size. One that is there already is taken for the volume whatever
its size, since the adapter does not show the driver any sizes.
-/
namespace NovaNas.Csi

open Program
open Zfs (Name)

/-! ### Sizes -/

/-- The size that `zfs` gives a volume for the size it is asked for. It makes whole blocks, and how
large they are is a matter of the dataset. -/
abbrev Blocks := Name → Int → Int

/-- The size of the dataset that the mode of the volume is about. -/
def Backing.capacity (blocks : Blocks) (b : Backing) : VolumeKind → Int
  | .block => blocks b.name b.volsize
  | .filesystem | .nfs => b.quota

def required (range : Option CapacityRange) : Int := (range.map (·.requiredBytes)).getD 0

def limit (range : Option CapacityRange) : Int := (range.map (·.limitBytes)).getD 0

/-- The capacity of a request. -/
def capacityOf (kind : VolumeKind) (range : Option CapacityRange) : Int :=
  if kind = .block then requestedCapacity range else roundUp (requestedCapacity range) oneMiB

def Config.volumeName (cfg : Config) (req : CreateVolumeRequest) : Name :=
  encodeVolumeID (firstNonEmpty req.parameters.parent
    (cfg.defaultParentOf (firstNonEmpty req.parameters.pool cfg.defaultPool))) req.name

/-! ### Ranges -/

/-- Both are numbers of 63 bits. -/
structure Bounded (range : Option CapacityRange) : Prop where
  required_nonneg : 0 ≤ required range
  required_lt : required range < 2 ^ 63
  limit_nonneg : 0 ≤ limit range
  limit_lt : limit range < 2 ^ 63

/-- A capacity is in the range; a limit of zero is none. -/
def InRange (range : Option CapacityRange) (capacity : Int) : Prop :=
  required range ≤ capacity ∧ (0 < limit range → capacity ≤ limit range)

/-- The range has room for the sizes of the mode: for any size in block mode, and for a whole number
of mebibytes in filesystem mode, which is the limit itself if only that is given. -/
def HasRoom (kind : VolumeKind) (range : Option CapacityRange) : Prop :=
  if kind = .block then limit range = 0 ∨ required range ≤ limit range
  else if required range = 0 then oneMiB ∣ limit range
  else ∃ n, required range ≤ n * oneMiB ∧ n * oneMiB < 2 ^ 63 ∧
    (limit range = 0 ∨ n * oneMiB ≤ limit range)

theorem requestedCapacity_eq (range : Option CapacityRange) :
    requestedCapacity range =
      if 0 < required range then required range
      else if 0 < limit range then limit range else defaultCapacityBytes := by
  cases range <;> rfl

/-- Rounding up is what it says, unless it leaves the 63 bits. -/
theorem roundUp_eq {n : Int} (nonneg : 0 ≤ n) (lt : n < 2 ^ 63) :
    roundUp n oneMiB =
      if n ≤ 2 ^ 63 - oneMiB then (n + oneMiB - 1) / oneMiB * oneMiB else -2 ^ 63 := by
  have size : oneMiB = 1048576 := rfl
  rw [roundUp, if_neg (by decide), Int.tmod_eq_emod_of_nonneg nonneg,
    Int.tdiv_eq_ediv_of_nonneg nonneg, size]
  split_ifs with whole fits
  · omega
  · omega
  · rw [Int.bmod_def]
    split_ifs <;> omega
  · rw [Int.bmod_def]
    split_ifs <;> omega

theorem capacityOf_filesystem {kind : VolumeKind} (other : kind ≠ .block)
    (range : Option CapacityRange) :
    capacityOf kind range = roundUp (requestedCapacity range) oneMiB := if_neg other

/-- The capacity is in the range exactly if the range has room. -/
theorem inRange_capacityOf {kind : VolumeKind} {range : Option CapacityRange}
    (bounded : Bounded range) : InRange range (capacityOf kind range) ↔ HasRoom kind range := by
  obtain ⟨low, high, low', high'⟩ := bounded
  have size : oneMiB = 1048576 := rfl
  have default : defaultCapacityBytes = 1073741824 := rfl
  have asked := requestedCapacity_eq range
  rw [InRange, HasRoom]
  by_cases block : kind = .block
  · rw [if_pos block, capacityOf, if_pos block, asked]
    split_ifs <;> omega
  rw [if_neg block, capacityOf_filesystem block]
  have rounded : roundUp (requestedCapacity range) oneMiB =
      if requestedCapacity range ≤ 2 ^ 63 - oneMiB then
        (requestedCapacity range + oneMiB - 1) / oneMiB * oneMiB else -2 ^ 63 := by
    refine roundUp_eq ?_ ?_ <;> rw [asked] <;> split_ifs <;> omega
  rw [rounded, size]
  by_cases none : required range = 0
  · -- Only the limit counts, if there is one.
    rw [if_pos none]
    rw [if_neg (by omega)] at asked
    by_cases given : 0 < limit range
    · rw [if_pos given] at asked
      rw [asked]
      split_ifs <;> omega
    · rw [if_neg given] at asked
      rw [asked]
      split_ifs <;> omega
  · rw [if_neg none]
    rw [if_pos (by omega)] at asked
    rw [asked]
    constructor
    · rintro ⟨enough, within⟩
      refine ⟨(required range + 1048576 - 1) / 1048576, ?_⟩
      split at enough <;> split at within <;> omega
    · rintro ⟨n, enough, fits, within⟩
      split <;> omega

/-! ### Creating volumes -/

section Create

variable {host : Host} {lossy : Prop} {cfg : Config} {polls : Nat} {req : CreateVolumeRequest}
  {kind : VolumeKind} {v : Volume} {w w' : World} {blocks : Blocks}

/-- A request in block or filesystem mode that has succeeded. -/
theorem createVolume_backing (mode : classify req.capabilities req.parameters = .ok kind)
    (bare : kind ≠ .nfs)
    (ends : Ends (Responds host lossy) (cfg.createVolume polls req) w (.ok v) w') : ∃ parent,
      cfg.volumeName req = encodeVolumeID parent req.name ∧
      Ends (Responds host lossy) (createBacking polls kind parent req.name (cfg.volumeName req)
        (capacityOf kind req.capacityRange) req.parameters) w (.ok v) w' := by
  rw [Config.createVolume] at ends
  split at ends
  · cases ends.1
  simp only [mode, liftExcept_ok_bind] at ends
  split at ends
  · cases ends.1
  exact ⟨_, rfl, ends⟩

/-- The dataset of a volume is the one that was there, or is new and has the capacity. -/
theorem createBacking_dataset {parent leaf full : Name} {capacity : Int} {parameters : Parameters}
    (blocks : Blocks) (bare : kind ≠ .nfs) (settled : w.Settled)
    (encoded : full = encodeVolumeID parent leaf) (ends : Ends (Responds host lossy)
      (createBacking polls kind parent leaf full capacity parameters) w (.ok v) w') :
    v = buildVolume full capacity kind parameters ∧
    ∃ b, w'.storage.find full = some b ∧ (w.storage.find full = some b ∨
      w.storage.find full = none ∧
        b.capacity blocks kind = if kind = .block then blocks full capacity else capacity) := by
  rw [createBacking, ends_lift_bind] at ends
  obtain ⟨a, m, asked, rest⟩ := ends
  obtain rfl := settled.works (getDataset_works asked)
  cases a with
  | ok ds =>
    obtain ⟨-, -, b, found, rfl⟩ := getDataset_ok asked
    dsimp only at rest
    split_ifs at rest
    · cases rest.1
    · cases rest.1
    · obtain ⟨same, rfl⟩ := rest
      cases same
      exact ⟨rfl, b, found, .inl found⟩
  | error err =>
    dsimp only at rest
    split at rest
    · obtain ⟨⟨⟩, m', performed, same, rfl⟩ := ends_bind_ok.mp rest
      cases same
      obtain ⟨-, named, absent, found⟩ := created_dataset settled encoded performed
      refine ⟨rfl, _, found, .inr ⟨absent, ?_⟩⟩
      cases kind with
      | block => rw [if_pos rfl, ← named]; rfl
      | filesystem => rfl
      | nfs => exact absurd rfl bare
    · cases rest.1

/-- The volume has the capacity that is reported, and that is in the range. -/
def Truthful (blocks : Blocks) (kind : VolumeKind) (range : Option CapacityRange) (full : Name)
    (v : Volume) (w : World) : Prop :=
  (∃ b, w.storage.find full = some b ∧ v.capacityBytes = b.capacity blocks kind) ∧
    InRange range v.capacityBytes

/-- The dataset has the capacity that is asked for, if it is there already. If it is not, `zfs` can
make a volume of just that capacity. -/
def Prepared (blocks : Blocks) (kind : VolumeKind) (range : Option CapacityRange) (full : Name)
    (w : World) : Prop :=
  match w.storage.find full with
  | some b => b.capacity blocks kind = capacityOf kind range
  | none => kind = .block → blocks full (requestedCapacity range) = requestedCapacity range

/-- When a request in block or filesystem mode succeeds, the capacity is reported truly exactly if
the range has room and the dataset, if it is there, has that capacity. -/
theorem capacity_true_iff (mode : classify req.capabilities req.parameters = .ok kind)
    (bare : kind ≠ .nfs) (bounded : Bounded req.capacityRange) (settled : w.Settled)
    (ends : Ends (Responds host lossy) (cfg.createVolume polls req) w (.ok v) w') :
    Truthful blocks kind req.capacityRange (cfg.volumeName req) v w' ↔
      HasRoom kind req.capacityRange ∧
        Prepared blocks kind req.capacityRange (cfg.volumeName req) w := by
  obtain ⟨parent, encoded, ends⟩ := createVolume_backing mode bare ends
  obtain ⟨rfl, b, found, before⟩ := createBacking_dataset blocks bare settled encoded ends
  have reported : Truthful blocks kind req.capacityRange (cfg.volumeName req)
      (buildVolume (cfg.volumeName req) (capacityOf kind req.capacityRange) kind req.parameters)
        w' ↔ capacityOf kind req.capacityRange = b.capacity blocks kind ∧
          InRange req.capacityRange (capacityOf kind req.capacityRange) := by
    simp [Truthful, found, buildVolume]
  rw [reported, inRange_capacityOf bounded, and_comm, Prepared]
  refine and_congr_right fun _ => ?_
  rcases before with there | ⟨absent, new⟩
  · rw [there]
    exact eq_comm
  · rw [absent, new]
    by_cases block : kind = .block
    · simp [capacityOf, block, eq_comm]
    · simp [block]

end Create

/-! ### A claim for a volume that is there -/

/-- What `zfs` is asked for is what it makes. -/
def exactly : Blocks := fun _ bytes => bytes

def smallVolume : Backing := ⟨claimed, .filesystem, '/' :: claimed, 0, 2 ^ 30, 2 ^ 30⟩

def twoGiB : CapacityRange := ⟨2 ^ 31, 2 ^ 31⟩

theorem bounded_twoGiB : Bounded (some twoGiB) := by
  constructor <;> decide

/-- The run in which the workers are prompt and nothing is lost. -/
theorem ends_of_exec {w w' : World} {v : Volume}
    (runs : (Config.createVolume {} 1 (claim .mount (some twoGiB))).run.exec (prompt plainHost) w =
      (.ok v, w')) :
    Ends (Responds plainHost False) (Config.createVolume {} 1 (claim .mount (some twoGiB))) w
      (.ok v) w' := by
  have ends := run_exec (prompt_responds plainHost False)
    (Config.createVolume {} 1 (claim .mount (some twoGiB))).run w
  rwa [runs] at ends

theorem new_volume_truthful : ∃ v w', Ends (Responds plainHost False)
    (Config.createVolume {} 1 (claim .mount (some twoGiB))) (stocked [] []) (.ok v) w' ∧
      Truthful exactly .filesystem (some twoGiB) claimed v w' := by
  have ends : Ends (Responds plainHost False)
      (Config.createVolume {} 1 (claim .mount (some twoGiB))) (stocked [] [])
      (.ok (buildVolume claimed (2 ^ 31) .filesystem { pool := "tank".toList }))
      { stocked [⟨claimed, .filesystem, '/' :: claimed, 0, 2 ^ 31, 2 ^ 31⟩] [] with
        jobs := [⟨[], false, false, .succeeded⟩] } := ends_of_exec (by decide +kernel)
  have mode : classify (claim .mount (some twoGiB)).capabilities
      (claim .mount (some twoGiB)).parameters = .ok .filesystem := by decide +kernel
  refine ⟨_, _, ends, (capacity_true_iff mode (by decide) bounded_twoGiB (stocked_settled [] [])
    ends).mpr ⟨?_, ?_⟩⟩
  · exact ⟨2 ^ 11, by decide, by decide, .inr (by decide)⟩
  · exact fun block => nomatch block

/-- Two gibibytes are asked for and reported, and the volume has one. -/
theorem existing_volume_misreported : ∃ v, Ends (Responds plainHost False)
    (Config.createVolume {} 1 (claim .mount (some twoGiB))) (stocked [smallVolume] []) (.ok v)
      (stocked [smallVolume] []) ∧
    v.capacityBytes = 2 ^ 31 ∧ smallVolume.capacity exactly .filesystem = 2 ^ 30 ∧
    ¬Truthful exactly .filesystem (some twoGiB) claimed v (stocked [smallVolume] []) := by
  refine ⟨buildVolume claimed (2 ^ 31) .filesystem { pool := "tank".toList },
    ends_of_exec (by decide +kernel), rfl, rfl, ?_⟩
  rintro ⟨⟨b, found, same⟩, -⟩
  obtain rfl : smallVolume = b := Option.some.inj found
  exact absurd same (by decide)

end NovaNas.Csi
