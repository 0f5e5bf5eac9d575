import NovaNas.Network.Manager

/-!
# The files of configurations

The files of the manager lie in one directory and are told apart by their names. A configuration
has no file twice.
-/
namespace NovaNas.Network

open Fallible (bind_ok)

variable {m : Manager} {x y : Name} {c : Config}

/-! ### Suffixes -/

theorem network_ne_netdev (x y : Name) : x ++ networkSuffix ≠ y ++ netdevSuffix := by
  intro same
  have last := congrArg List.getLast? same
  rw [List.getLast?_append, List.getLast?_append] at last
  have letters : some 'k' = some 'v' := last
  exact absurd letters (by decide)

theorem networkFile_inj (same : m.networkFile x = m.networkFile y) : x = y :=
  List.append_cancel_left (List.append_cancel_right same)

theorem networkFile_ne_netdevFile (x y : Name) : m.networkFile x ≠ m.netdevFile y :=
  network_ne_netdev _ _

theorem parentFile_eq (m : Manager) (x : Name) :
    m.parentFile x = m.networkFile (x ++ parentSuffix) := by
  simp [Manager.parentFile, Manager.networkFile]

theorem memberNetworkFile_eq (m : Manager) (x member : Name) :
    m.memberNetworkFile x member = m.networkFile (x ++ memberInfix ++ member) := by
  simp [Manager.memberNetworkFile, Manager.networkFile]

/-! ### The files of a configuration -/

theorem validateMembers_nodup {seen members : List Name} {i : Nat}
    (valid : validateMembers seen i members = .ok ()) (distinct : seen.Nodup) :
    (seen ++ members).Nodup := by
  induction members generalizing seen i with
  | nil => simpa using distinct
  | cons who members ih =>
    rw [validateMembers] at valid
    obtain ⟨_, -, valid⟩ := bind_ok valid
    obtain ⟨_, fresh, valid⟩ := bind_ok valid
    have new : who ∉ seen := by simpa using Fallible.failIf_ok fresh
    have longer : (seen ++ [who]).Nodup := by
      refine List.nodup_append.mpr ⟨distinct, List.nodup_singleton _, ?_⟩
      rintro a there b last rfl
      exact new (List.mem_singleton.mp last ▸ there)
    simpa using ih valid longer

theorem members_nodup {b : Bond} (valid : validateBond b = .ok ()) : b.members.Nodup := by
  rw [validateBond] at valid
  obtain ⟨_, -, valid⟩ := bind_ok valid
  obtain ⟨_, -, valid⟩ := bind_ok valid
  obtain ⟨_, -, valid⟩ := bind_ok valid
  obtain ⟨_, members, -⟩ := bind_ok valid
  simpa using validateMembers_nodup members List.nodup_nil

theorem parentFile_ne_networkFile (x : Name) : m.parentFile x ≠ m.networkFile x := by
  rw [parentFile_eq]
  intro same
  have longer := congrArg List.length (networkFile_inj same)
  have seven : parentSuffix.length = 7 := rfl
  rw [List.length_append, seven] at longer
  omega

theorem memberNetworkFile_ne_networkFile (x who : Name) :
    m.memberNetworkFile x who ≠ m.networkFile x := by
  rw [memberNetworkFile_eq]
  intro same
  have longer := congrArg List.length (networkFile_inj same)
  have eight : memberInfix.length = 8 := rfl
  rw [List.length_append, List.length_append, eight] at longer
  omega

theorem memberNetworkFile_inj {who who' : Name}
    (same : m.memberNetworkFile x who = m.memberNetworkFile x who') : who = who' := by
  rw [memberNetworkFile_eq, memberNetworkFile_eq] at same
  exact List.append_cancel_left (networkFile_inj same)

/-- No file is written twice. -/
theorem files_nodup (valid : c.validate = .ok ()) : ((m.files c).map Prod.fst).Nodup := by
  cases c with
  | interface c => exact List.nodup_singleton _
  | vlan v =>
    have first : m.netdevFile v.name ≠ m.parentFile v.name := by
      rw [parentFile_eq]
      exact (networkFile_ne_netdevFile _ _).symm
    have second : m.netdevFile v.name ≠ m.networkFile v.name := (networkFile_ne_netdevFile _ _).symm
    simp [Manager.files, first, second, parentFile_ne_networkFile]
  | bond b =>
    have members := members_nodup valid
    rw [Manager.files, List.map_append]
    refine List.nodup_append.mpr ⟨?_, ?_, ?_⟩
    · simp [(networkFile_ne_netdevFile (m := m) b.name b.name).symm]
    · rw [((Sorting.sortBy_perm _ _).map Prod.fst).nodup_iff, List.map_map]
      exact members.map fun _ _ same => memberNetworkFile_inj same
    · intro f own g other
      simp only [List.mem_map, Sorting.mem_sortBy] at other
      obtain ⟨_, ⟨who, -, rfl⟩, rfl⟩ := other
      simp only [List.map_cons, List.map_nil, List.mem_cons, List.not_mem_nil, or_false] at own
      rcases own with rfl | rfl
      · rw [memberNetworkFile_eq]
        exact (networkFile_ne_netdevFile _ _).symm
      · exact (memberNetworkFile_ne_networkFile _ _).symm

end NovaNas.Network
