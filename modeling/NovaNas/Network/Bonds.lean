import NovaNas.Network.Configs

/-!
# Bonds that are applied again

A bond has a file for its device, one for its network and one for each member. Applying the bond
writes all of them and removes none, so a member that is no longer listed keeps its file and stays
enslaved.
-/
namespace NovaNas.Network

open Files (Directory)

inductive BondPart where
  | netdev
  | network
  | member (who : Name)

def Manager.partFile (m : Manager) (bond : Name) : BondPart → Name
  | .netdev => m.netdevFile bond
  | .network => m.networkFile bond
  | .member who => m.memberNetworkFile bond who

/-- What the bond has in the file. -/
def Bond.text (b : Bond) : BondPart → Option Name
  | .netdev => some (renderBondNetdev b)
  | .network => some (renderBondNetwork b)
  | .member who => if who ∈ b.members then some (renderBondMemberNetwork b.name who) else none

/-- The call writes files. -/
def Bond.Written (b : Bond) : Prop := validateBond b = .ok () ∧ b.dryRun = false

def Manager.applyBonds (m : Manager) (bs : List Bond) (dir : Dir) : Dir :=
  bs.foldl (fun dir b => (m.applyBond b dir).2) dir

theorem nothing_named (n : Name) : n ∈ ([] : List Name) ↔ (none : Option Name) ≠ none := by simp

def noFiles : Dir := ⟨[], fun _ => none, List.nodup_nil, nothing_named⟩

variable {m : Manager} {b : Bond} {dir : Dir}

theorem applyBond_written (written : b.Written) :
    (m.applyBond b dir).2 = dir.writeAll (m.files (.bond b)) := by
  obtain ⟨valid, real⟩ := written
  simp [Manager.applyBond, Manager.apply, Config.validate, Config.dryRun, valid, real]

theorem applyBond_unwritten (unwritten : ¬b.Written) : (m.applyBond b dir).2 = dir := by
  cases valid : validateBond b with
  | error err => simp [Manager.applyBond, Manager.apply, Config.validate, valid]
  | ok =>
    have dry : b.dryRun = true := by simpa [Bond.Written, valid] using unwritten
    simp [Manager.applyBond, Manager.apply, Config.validate, Config.dryRun, valid, dry]

theorem read_writeAll_bond (valid : validateBond b = .ok ()) (part : BondPart) :
    (dir.writeAll (m.files (.bond b))).read (m.partFile b.name part) =
      (b.text part).or (dir.read (m.partFile b.name part)) := by
  have written {f text : Name} (listed : (f, text) ∈ m.files (.bond b)) :
      (dir.writeAll (m.files (.bond b))).read f = some text :=
    Directory.read_writeAll_of_mem (files_nodup (c := .bond b) valid) listed
  cases part with
  | netdev => exact written List.mem_cons_self
  | network => exact written (.tail _ List.mem_cons_self)
  | member who =>
    by_cases listed : who ∈ b.members
    · simp only [Bond.text, if_pos listed, Option.some_or]
      refine written (List.mem_append_right _ (Sorting.mem_sortBy.mpr ?_))
      exact List.mem_map.mpr ⟨who, listed, rfl⟩
    · simp only [Bond.text, if_neg listed, Option.none_or]
      refine Directory.read_writeAll_of_not_mem fun file member same => ?_
      rw [Manager.files, List.mem_append, Sorting.mem_sortBy, List.mem_map] at member
      rcases member with own | ⟨other, member, rfl⟩
      · simp only [List.mem_cons, List.not_mem_nil, or_false] at own
        rcases own with rfl | rfl
        · exact networkFile_ne_netdevFile _ _ ((memberNetworkFile_eq m _ _).symm.trans same.symm)
        · exact memberNetworkFile_ne_networkFile _ _ same.symm
      · exact listed (memberNetworkFile_inj same ▸ member)

/-- A file of the bond is there if it was, or if a call has written it. -/
theorem applyBonds_isSome {bs : List Bond} {bond : Name} (named : ∀ b ∈ bs, b.name = bond)
    (part : BondPart) : ((m.applyBonds bs dir).read (m.partFile bond part)).isSome = true ↔
      (dir.read (m.partFile bond part)).isSome = true ∨
        ∃ b ∈ bs, b.Written ∧ (b.text part).isSome = true := by
  induction bs generalizing dir with
  | nil => simp [Manager.applyBonds]
  | cons b bs ih =>
    obtain ⟨rfl, later⟩ := List.forall_mem_cons.mp named
    have unfolded : m.applyBonds (b :: bs) dir = m.applyBonds bs (m.applyBond b dir).2 := rfl
    rw [unfolded, ih later]
    by_cases written : b.Written
    · rw [applyBond_written written, read_writeAll_bond written.1, Option.isSome_or]
      simp [written, or_assoc, or_left_comm]
    · simp [applyBond_unwritten written, written]

/-- After any calls for its name, applying a bond gives the files that it has in an empty directory
exactly if every member that was ever written is still listed, and the call is not a dry run after
one that was not. -/
theorem bond_converges_iff {bs : List Bond} (valid : validateBond b = .ok ())
    (named : ∀ earlier ∈ bs, earlier.name = b.name)
    (fresh : ∀ part, dir.read (m.partFile b.name part) = none) :
    (∀ part, (m.applyBond b (m.applyBonds bs dir)).2.read (m.partFile b.name part) =
      (m.applyBond b noFiles).2.read (m.partFile b.name part)) ↔
    ∀ earlier ∈ bs, earlier.Written → b.dryRun = false ∧ earlier.members ⊆ b.members := by
  have there := @applyBonds_isSome m dir bs b.name named
  simp only [fresh, Option.isSome_none, Bool.false_eq_true, false_or] at there
  cases dry : b.dryRun with
  | true =>
    have unwritten : ¬b.Written := fun written => by simp [written.2] at dry
    simp only [applyBond_unwritten unwritten, Bool.true_eq_false, false_and, imp_false]
    constructor
    · intro same earlier listed written
      have found := (there .netdev).mpr ⟨earlier, listed, written, rfl⟩
      simp [same .netdev, noFiles] at found
    · intro none part
      refine Option.not_isSome_iff_eq_none.mp fun found => ?_
      obtain ⟨earlier, listed, written, -⟩ := (there part).mp found
      exact none earlier listed written
  | false =>
    have written : b.Written := ⟨valid, dry⟩
    simp only [applyBond_written written, read_writeAll_bond valid, true_and]
    constructor
    · intro same earlier listed wrote who member
      have found := (there (.member who)).mpr ⟨earlier, listed, wrote, by simp [Bond.text, member]⟩
      have same := same (.member who)
      by_contra gone
      simp only [Bond.text, if_neg gone, Option.none_or] at same
      simp [same, noFiles] at found
    · intro kept part
      cases own : b.text part with
      | some text => simp
      | none =>
        -- Only a member's file can be one that the bond does not write.
        obtain ⟨who, rfl⟩ : ∃ who, part = .member who := by
          cases part with
          | netdev => cases own
          | network => cases own
          | member who => exact ⟨who, rfl⟩
        have gone : who ∉ b.members := fun member => by simp [Bond.text, member] at own
        refine Option.not_isSome_iff_eq_none.mp fun found => ?_
        obtain ⟨earlier, listed, wrote, text⟩ := (there _).mp (by simpa using found)
        have member : who ∈ earlier.members := by
          by_contra absent
          simp [Bond.text, absent] at text
        exact gone (kept earlier listed wrote member)

def bondOf (members : List String) : Bond where
  name := "bond0".toList
  mode := "802.3ad".toList
  members := members.map String.toList

/-- A bond that gets a second member. -/
theorem widened_bond_converges :
    (fun part => (Manager.applyBond {} (bondOf ["eth1", "eth2"])
      (Manager.applyBonds {} [bondOf ["eth1"]] noFiles)).2.read
        (Manager.partFile {} "bond0".toList part)) =
    fun part => (Manager.applyBond {} (bondOf ["eth1", "eth2"]) noFiles).2.read
      (Manager.partFile {} "bond0".toList part) := by
  have valid : validateBond (bondOf ["eth1", "eth2"]) = .ok () := by decide
  apply funext
  refine (bond_converges_iff valid (by simp [bondOf]) fun part => rfl).mpr ?_
  intro earlier listed written
  obtain rfl := List.mem_singleton.mp listed
  simp [bondOf]

/-- A bond that loses a member keeps the member's file. -/
theorem dropped_member_stays :
    validateBond (bondOf ["eth1"]) = .ok () ∧
    ((Manager.applyBond {} (bondOf ["eth1"]) (Manager.applyBonds {} [bondOf ["eth1", "eth2"]]
      noFiles)).2.read (Manager.memberNetworkFile {} "bond0".toList "eth2".toList)).isSome = true ∧
    (Manager.applyBond {} (bondOf ["eth1"]) noFiles).2.read
      (Manager.memberNetworkFile {} "bond0".toList "eth2".toList) = none := by
  decide

end NovaNas.Network
