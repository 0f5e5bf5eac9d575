import NovaNas.Krb5.Convergence

/-!
# Whose principal a name is

A principal of a user is put together from the username, a tenant and the realm with `/` and `@`
between them, and recognised later by its shape. Neither step restricts the parts: a user may be
called like a service, and a tenant or a username may hold a `/` of its own. What the sync creates
belongs to one user and is recognised as that user's exactly where no such names meet.
-/
namespace NovaNas.Krb5

open Program Sorting

/-! ### Separators -/

section Separators

variable {c : Char} {p q r s u v : Name}

/-- What comes in front of the first separator can be read off. -/
theorem separated_starts_iff (plain : c ∉ q) (clear : c ∉ u) :
    q ++ c :: r <+: u ++ c :: s ↔ q = u ∧ r <+: s := by
  induction q generalizing u with
  | nil =>
    cases u with
    | nil => simp
    | cons d u =>
      have other : c ≠ d := fun same => clear (same ▸ List.mem_cons_self)
      simp [other]
  | cons d q ih =>
    cases u with
    | nil =>
      have other : d ≠ c := fun same => plain (same ▸ List.mem_cons_self)
      simp [other]
    | cons e u =>
      have rest := ih (u := u) (fun inside => plain (.tail _ inside))
        (fun inside => clear (.tail _ inside))
      simp only [List.cons_append, List.cons_prefix_cons, rest, List.cons.injEq, and_assoc]

/-- Words without the separator cannot reach past it. -/
theorem starts_before_iff (plain : c ∉ p) : p <+: u ++ c :: s ↔ p <+: u := by
  induction p generalizing u with
  | nil => simp
  | cons d p ih =>
    cases u with
    | nil =>
      have other : d ≠ c := fun same => plain (same ▸ List.mem_cons_self)
      simp [other]
    | cons e u =>
      simp only [List.cons_append, List.cons_prefix_cons,
        ih (u := u) fun inside => plain (.tail _ inside)]

/-- Two names that are joined with a separator and meet are equal in their first part, or the
longer first part goes on with a separator and the other name has the rest of it. -/
theorem joined_meet (same : u ++ c :: r = v ++ c :: s) :
    u = v ∨ (∃ rest, v = u ++ c :: rest ∧ r = rest ++ c :: s) ∨
      ∃ rest, u = v ++ c :: rest ∧ s = rest ++ c :: r := by
  rcases List.append_eq_append_iff.mp same with ⟨more, longer, rest⟩ | ⟨more, longer, rest⟩
  · cases more with
    | nil => exact .inl (by rw [longer, List.append_nil])
    | cons d more =>
      rw [List.cons_append, List.cons.injEq] at rest
      obtain ⟨rfl, rest⟩ := rest
      exact .inr (.inl ⟨more, longer, rest⟩)
  · cases more with
    | nil => exact .inl (by rw [longer, List.append_nil])
    | cons d more =>
      rw [List.cons_append, List.cons.injEq] at rest
      obtain ⟨rfl, rest⟩ := rest
      exact .inr (.inr ⟨more, longer, rest⟩)

end Separators

/-! ### What is recognised as the principal of a user -/

section Recognised

variable {realm username t name l : Name}

theorem isServicePrincipal_iff :
    isServicePrincipal name = true ↔ ∃ p ∈ servicePrefixes, p <+: name := by
  simp only [isServicePrincipal, List.any_eq_true, Bool.or_eq_true, decide_eq_true_eq,
    List.isPrefixOf_iff_prefix]
  constructor
  · rintro ⟨p, service, rfl | starts⟩
    · exact ⟨_, service, List.prefix_rfl⟩
    · exact ⟨p, service, starts⟩
  · rintro ⟨p, service, starts⟩
    exact ⟨p, service, .inr starts⟩

theorem pattern_iff : principalUserPattern realm (l ++ '@' :: realm) = true ↔
    (∀ p ∈ servicePrefixes, ¬ p <+: l ++ '@' :: realm) ∧ l ≠ [] ∧ l.count '/' ≤ 1 := by
  have suffix : ('@' :: realm).isSuffixOf (l ++ '@' :: realm) = true :=
    List.isSuffixOf_iff_suffix.mpr (List.suffix_append _ _)
  have before : (l ++ '@' :: realm).take ((l ++ '@' :: realm).length - ('@' :: realm).length) = l := by
    rw [List.length_append, Nat.add_sub_cancel, List.take_left]
  simp only [principalUserPattern, suffix, before]
  cases service : isServicePrincipal (l ++ '@' :: realm) with
  | true =>
    obtain ⟨p, member, starts⟩ := isServicePrincipal_iff.mp service
    simp only [if_true, Bool.false_eq_true, false_iff]
    exact fun both => both.1 p member starts
  | false =>
    have none : ∀ p ∈ servicePrefixes, ¬ p <+: l ++ '@' :: realm := by
      intro p member starts
      rw [isServicePrincipal_iff.mpr ⟨p, member, starts⟩] at service
      cases service
    simp only [Bool.false_eq_true, if_false, Bool.not_true]
    constructor
    · intro shaped
      split at shaped
      · cases shaped
      next named => exact ⟨none, named, of_decide_eq_true shaped⟩
    · rintro ⟨-, named, few⟩
      rw [if_neg named]
      exact decide_eq_true few

/-- The name of a user that has no tenants. -/
def TamePlatform (username : Name) : Prop :=
  username.count '/' ≤ 1 ∧ ∀ p ∈ servicePrefixes, ¬ p <+: username

theorem pattern_platform_iff (named : username ≠ []) :
    principalUserPattern realm (username ++ '@' :: realm) = true ↔ TamePlatform username := by
  have clear : ∀ p ∈ servicePrefixes, '@' ∉ p := by decide
  have before : (∀ p ∈ servicePrefixes, ¬ p <+: username ++ '@' :: realm) ↔
      ∀ p ∈ servicePrefixes, ¬ p <+: username :=
    forall₂_congr fun p member => not_congr (starts_before_iff (clear p member))
  rw [pattern_iff, before, TamePlatform]
  constructor
  · rintro ⟨none, -, few⟩
    exact ⟨few, none⟩
  · rintro ⟨few, none⟩
    exact ⟨none, named, few⟩

def serviceNames : List Name :=
  ["krbtgt".toList, "kadmin".toList, "nfs".toList, "host".toList]

/-- The name of a user and one of their tenants. -/
def TameTenant (username t : Name) : Prop :=
  '/' ∉ username ∧ '/' ∉ t ∧ username ∉ serviceNames ∧ ¬ (username = ['K'] ∧ ['M'] <+: t)

theorem service_tenant_iff (plain : '/' ∉ username) :
    (∃ p ∈ servicePrefixes, p <+: username ++ '/' :: (t ++ '@' :: realm)) ↔
      username ∈ serviceNames ∨ (username = ['K'] ∧ ['M'] <+: t) := by
  have whole : ∀ q : Name, '/' ∉ q →
      (q ++ ['/'] <+: username ++ '/' :: (t ++ '@' :: realm) ↔ username = q) := by
    intro q clear
    rw [separated_starts_iff clear plain]
    simp [eq_comm]
  have master : ['K', '/', 'M'] <+: username ++ '/' :: (t ++ '@' :: realm) ↔
      username = ['K'] ∧ ['M'] <+: t := by
    rw [show ['K', '/', 'M'] = ['K'] ++ '/' :: ['M'] from rfl,
      separated_starts_iff (by decide) plain, starts_before_iff (by decide)]
    simp [eq_comm]
  have krbtgt := whole "krbtgt".toList (by decide)
  have kadmin := whole "kadmin".toList (by decide)
  have nfs := whole "nfs".toList (by decide)
  have host := whole "host".toList (by decide)
  simp only [servicePrefixes, serviceNames, List.mem_cons, List.not_mem_nil, or_false,
    exists_eq_or_imp, exists_eq_left]
  rw [show "krbtgt/".toList = "krbtgt".toList ++ ['/'] from rfl, krbtgt,
    show "kadmin/".toList = "kadmin".toList ++ ['/'] from rfl, kadmin,
    show "nfs/".toList = "nfs".toList ++ ['/'] from rfl, nfs,
    show "host/".toList = "host".toList ++ ['/'] from rfl, host,
    show "K/M".toList = ['K', '/', 'M'] from rfl, master]
  simp only [or_assoc]

theorem pattern_tenant_iff :
    principalUserPattern realm (username ++ '/' :: (t ++ '@' :: realm)) = true ↔
      TameTenant username t := by
  rw [show username ++ '/' :: (t ++ '@' :: realm) = (username ++ '/' :: t) ++ '@' :: realm by simp,
    pattern_iff]
  have slashes : (username ++ '/' :: t).count '/' ≤ 1 ↔ '/' ∉ username ∧ '/' ∉ t := by
    rw [List.count_append, List.count_cons_self, ← List.count_eq_zero, ← List.count_eq_zero]
    omega
  have shape : (username ++ '/' :: t) ++ '@' :: realm = username ++ '/' :: (t ++ '@' :: realm) := by
    simp
  rw [slashes, shape]
  constructor
  · rintro ⟨none, -, plain, clear⟩
    refine ⟨plain, clear, ?_, ?_⟩
    · intro service
      obtain ⟨p, member, starts⟩ := (service_tenant_iff plain).mpr (.inl service)
      exact none p member starts
    · intro master
      obtain ⟨p, member, starts⟩ := (service_tenant_iff plain).mpr (.inr master)
      exact none p member starts
  · rintro ⟨plain, clear, service, master⟩
    refine ⟨fun p member starts => ?_, by simp, plain, clear⟩
    rcases (service_tenant_iff plain).mp ⟨p, member, starts⟩ with named | key
    · exact service named
    · exact master key

end Recognised

/-! ### What is expected of a user -/

namespace KeycloakUser

variable (u : KeycloakUser)

/-- Users that are to have principals at all. -/
def Active : Prop := u.enabled = true ∧ Text.trimSpace u.username ≠ []

theorem Active.named {u : KeycloakUser} (active : u.Active) : u.username ≠ [] := by
  intro empty
  apply active.2
  rw [empty]
  rfl

def tenantNames : List Name := (u.tenants.map Text.trimSpace).filter (· ≠ [])

def Platform : Prop := u.tenants = [] ∧ u.platformNFSEnabled = true

end KeycloakUser

theorem mem_expected {realm n : Name} {u : KeycloakUser} : n ∈ expectedPrincipals realm u ↔
    u.Active ∧ ((u.Platform ∧ n = u.username ++ '@' :: realm) ∨
      ∃ t ∈ u.tenantNames, n = u.username ++ '/' :: (t ++ '@' :: realm)) := by
  unfold expectedPrincipals KeycloakUser.Active KeycloakUser.Platform KeycloakUser.tenantNames
  by_cases active : u.enabled = true ∧ Text.trimSpace u.username ≠ []
  · obtain ⟨enabled, named⟩ := active
    by_cases none : u.tenants = []
    · cases platform : u.platformNFSEnabled with
      | true => simp [enabled, named, none]
      | false => simp [enabled, named, none]
    · simp only [enabled, named, none, Bool.not_true, decide_false, Bool.or_false,
        Bool.false_eq_true, if_false, mem_sortNames, List.mem_dedup, List.mem_map, ne_eq,
        not_false_eq_true, and_self, true_and, false_and, false_or]
      constructor
      · rintro ⟨t, member, rfl⟩
        exact ⟨t, member, rfl⟩
      · rintro ⟨t, member, rfl⟩
        exact ⟨t, member, rfl⟩
  · rw [if_pos]
    · simp [active]
    · rw [Bool.or_eq_true, Bool.not_eq_true', decide_eq_true_eq]
      by_contra neither
      obtain ⟨enabled, named⟩ := not_or.mp neither
      exact active ⟨Bool.not_eq_false _ ▸ enabled, named⟩

namespace KeycloakUser

/-- The username of `v` begins with the one of `u` and a `/`, and goes on to name what `u` is to
have for a tenant. -/
def Overlaps (u v : KeycloakUser) : Prop :=
  u.Active ∧ v.Active ∧ ∃ rest, v.username = u.username ++ '/' :: rest ∧
    ((v.Platform ∧ rest ∈ u.tenantNames) ∨ ∃ s ∈ v.tenantNames, rest ++ '/' :: s ∈ u.tenantNames)

/-- The names the user is to have, as far as the KDC accepts them, look like names of a user. -/
def Tame (realm : Name) (u : KeycloakUser) : Prop :=
  u.Active →
    (u.Platform → validatePrincipalName (u.username ++ '@' :: realm) = .ok () →
      TamePlatform u.username) ∧
    ∀ t ∈ u.tenantNames, validatePrincipalName (u.username ++ '/' :: (t ++ '@' :: realm)) = .ok () →
      TameTenant u.username t

end KeycloakUser

section Expected

variable {realm n : Name} {u v : KeycloakUser}

theorem tame_iff : u.Tame realm ↔ ∀ n ∈ expectedPrincipals realm u,
    validatePrincipalName n = .ok () → principalUserPattern realm n = true := by
  constructor
  · intro tame n expected valid
    obtain ⟨active, ⟨platform, rfl⟩ | ⟨t, member, rfl⟩⟩ := mem_expected.mp expected
    · exact (pattern_platform_iff active.named).mpr ((tame active).1 platform valid)
    · exact pattern_tenant_iff.mpr ((tame active).2 t member valid)
  · intro all active
    constructor
    · intro platform valid
      exact (pattern_platform_iff active.named).mp
        (all _ (mem_expected.mpr ⟨active, .inl ⟨platform, rfl⟩⟩) valid)
    · intro t member valid
      exact pattern_tenant_iff.mp
        (all _ (mem_expected.mpr ⟨active, .inr ⟨t, member, rfl⟩⟩) valid)

theorem expected_of_overlap (realm : Name) (overlap : u.Overlaps v) :
    ∃ n, n ∈ expectedPrincipals realm u ∧ n ∈ expectedPrincipals realm v := by
  obtain ⟨first, second, rest, longer, ⟨platform, member⟩ | ⟨s, held, member⟩⟩ := overlap
  · refine ⟨u.username ++ '/' :: (rest ++ '@' :: realm),
      mem_expected.mpr ⟨first, .inr ⟨rest, member, rfl⟩⟩,
      mem_expected.mpr ⟨second, .inl ⟨platform, ?_⟩⟩⟩
    rw [longer]
    simp
  · refine ⟨u.username ++ '/' :: ((rest ++ '/' :: s) ++ '@' :: realm),
      mem_expected.mpr ⟨first, .inr ⟨_, member, rfl⟩⟩,
      mem_expected.mpr ⟨second, .inr ⟨s, held, ?_⟩⟩⟩
    rw [longer]
    simp

/-- Two users are expected to have one principal exactly if one's name goes on where the other's
ends. -/
theorem shared_iff (distinct : u.username ≠ v.username) :
    (∃ n, n ∈ expectedPrincipals realm u ∧ n ∈ expectedPrincipals realm v) ↔
      u.Overlaps v ∨ v.Overlaps u := by
  constructor
  · rintro ⟨n, left, right⟩
    obtain ⟨first, left⟩ := mem_expected.mp left
    obtain ⟨second, right⟩ := mem_expected.mp right
    -- The realm stands at the end of all of them, so it is the parts in front of it that meet.
    rcases left with ⟨platform, rfl⟩ | ⟨t, member, rfl⟩
    · rcases right with ⟨other, same⟩ | ⟨s, held, same⟩
      · exact absurd (List.append_cancel_right same) distinct
      · rw [← List.cons_append, ← List.append_assoc] at same
        exact .inr ⟨second, first, s, List.append_cancel_right same, .inl ⟨platform, held⟩⟩
    · rcases right with ⟨other, same⟩ | ⟨s, held, same⟩
      · rw [← List.cons_append, ← List.append_assoc] at same
        exact .inl ⟨first, second, t, (List.append_cancel_right same).symm, .inl ⟨other, member⟩⟩
      · rw [← List.cons_append, ← List.append_assoc, ← List.cons_append, ← List.append_assoc] at same
        rcases joined_meet (List.append_cancel_right same) with equal | ⟨rest, longer, split⟩ |
          ⟨rest, longer, split⟩
        · exact absurd equal distinct
        · exact .inl ⟨first, second, rest, longer, .inr ⟨s, held, split ▸ member⟩⟩
        · exact .inr ⟨second, first, rest, longer, .inr ⟨t, member, split ▸ held⟩⟩
  · rintro (overlap | overlap)
    · exact expected_of_overlap realm overlap
    · obtain ⟨n, left, right⟩ := expected_of_overlap realm overlap
      exact ⟨n, right, left⟩

end Expected

/-! ### What a pass creates -/

def accepted (name : Name) : Bool :=
  match validatePrincipalName name with
  | .ok () => true
  | .error _ => false

theorem accepted_iff {name : Name} :
    accepted name = true ↔ validatePrincipalName name = .ok () := by
  unfold accepted
  split
  next valid => simp [valid]
  next err invalid => simp [invalid]

section Created

variable {realm n : Name} {pages : Nat} {w w' : World}

/-- Only names the KDC accepts are reported as created. -/
theorem applyEach_done {accepts : Name → Bool} {names done : List Name} {errors : Nat}
    (run : (applyEach .create names).Run (Service.Faulty (serve accepts)) w (done, errors) w') :
    ∀ n ∈ done, n ∈ names ∧ accepts n = true := by
  induction names generalizing w w' done errors with
  | nil =>
    obtain ⟨⟨⟩, -⟩ := run
    nofun
  | cons name rest ih =>
    rw [applyEach, perform_bind] at run
    obtain ⟨a, w₁, answered, run⟩ := run
    obtain ⟨⟨later, failed⟩, w₂, others, last⟩ := run_bind.mp run
    have known := ih others
    cases a with
    | error err =>
      obtain ⟨⟨⟩, -⟩ := last
      exact fun n member => ⟨.tail _ (known n member).1, (known n member).2⟩
    | ok reply =>
      obtain ⟨⟨⟩, -⟩ := last
      refine List.forall_mem_cons.mpr ⟨⟨List.mem_cons_self, ?_⟩,
        fun n member => ⟨.tail _ (known n member).1, (known n member).2⟩⟩
      -- A call that worked has been served, and the KDC serves no name it does not accept.
      rcases answered with served | ⟨⟨err, failed⟩, -⟩
      · by_contra refused
        rw [serve_refused w (.create name) (Bool.not_eq_true _ ▸ refused)] at served
        cases congrArg Prod.fst served
      · cases failed

theorem created_expected {accepts : Name → Bool} {r : Result}
    (ends : Ends (Service.Faulty (serve accepts)) (reconcileOnce realm pages) w (.ok r) w') :
    ∀ n ∈ r.created, accepts n = true ∧ ∃ u ∈ w.users, n ∈ expectedPrincipals realm u := by
  obtain ⟨users, w₁, listed, rest⟩ := ends_bind_ok.mp ends
  obtain ⟨kdcList, w₂, asked, rest⟩ := ends_bind_ok.mp rest
  obtain ⟨⟨created, createErrors⟩, w₃, creating, rest⟩ := ends_lift_bind.mp rest
  obtain ⟨⟨deleted, deleteErrors⟩, w₄, deleting, same, -⟩ := ends_lift_bind.mp rest
  cases same
  intro n member
  obtain ⟨new, accepted⟩ := applyEach_done creating n member
  refine ⟨accepted, mem_desired.mp ?_⟩
  rw [← show users = w.users from listUsersFrom_ok listed]
  exact (mem_createNames.mp new).1

/-- In an empty KDC a pass creates whatever is expected of the users and accepted. -/
theorem creates_expected (realm : Name) (accepts : Name → Bool) (users : List KeycloakUser) :
    ∃ pages r w', Ends (Service.Healthy (serve accepts)) (reconcileOnce realm pages) ⟨users, []⟩
      (.ok r) w' ∧ r.created = (createNames (desired realm users) []).filter accepts := by
  have listed : Ends (Service.Healthy (serve accepts)) (listUsers (users.length + 1)) ⟨users, []⟩
      (.ok users) ⟨users, []⟩ :=
    listUsersFrom_ends _ (Nat.zero_le _) (by simp only [pageSize]; omega)
  have asked : Ends (Service.Healthy (serve accepts))
      (consult SyncCall.listPrincipals SyncError.listPrincipals) ⟨users, []⟩ (.ok []) ⟨users, []⟩ :=
    ends_consult.mpr ⟨.ok _, rfl, rfl⟩
  have creating := create_run (w := ⟨users, []⟩) accepts (createNames_nodup realm users [])
    (fun _ _ => nofun)
  exact ⟨_, _, _, ends_bind_ok.mpr ⟨_, _, listed, ends_bind_ok.mpr ⟨_, _, asked,
    ends_lift_bind.mpr ⟨_, _, creating, ends_lift_bind.mpr ⟨([], 0), _, ⟨rfl, rfl⟩, rfl, rfl⟩⟩⟩⟩,
    rfl⟩

end Created

/-- What a pass creates is recognised as the principal of a user, and belongs to one. -/
structure Apart (realm : Name) (users : List KeycloakUser) : Prop where
  recognised : ∀ have_ pages r w', Ends (Service.Faulty (serve accepted)) (reconcileOnce realm pages)
    ⟨users, have_⟩ (.ok r) w' → ∀ n ∈ r.created, principalUserPattern realm n = true
  single : ∀ u ∈ users, ∀ v ∈ users, u ≠ v →
    ∀ n, ¬ (n ∈ expectedPrincipals realm u ∧ n ∈ expectedPrincipals realm v)

theorem recognised_iff (realm : Name) (users : List KeycloakUser) :
    (∀ have_ pages r w', Ends (Service.Faulty (serve accepted)) (reconcileOnce realm pages)
      ⟨users, have_⟩ (.ok r) w' → ∀ n ∈ r.created, principalUserPattern realm n = true) ↔
    ∀ u ∈ users, u.Tame realm := by
  constructor
  · intro recognised u member
    refine tame_iff.mpr fun n expected valid => ?_
    obtain ⟨pages, r, w', ends, created⟩ := creates_expected realm accepted users
    refine recognised [] pages r w' (ends.mono Service.healthy_faulty) n ?_
    rw [created, List.mem_filter, mem_createNames]
    exact ⟨⟨mem_desired.mpr ⟨u, member, expected⟩, List.not_mem_nil⟩, accepted_iff.mpr valid⟩
  · intro tame have_ pages r w' ends n created
    obtain ⟨valid, u, member, expected⟩ := created_expected ends n created
    exact tame_iff.mp (tame u member) n expected (accepted_iff.mp valid)

theorem principals_apart_iff (realm : Name) (users : List KeycloakUser)
    (distinct : (users.map (·.username)).Nodup) :
    Apart realm users ↔
      (∀ u ∈ users, u.Tame realm) ∧ ∀ u ∈ users, ∀ v ∈ users, ¬ u.Overlaps v := by
  have named : ∀ u ∈ users, ∀ v ∈ users, u ≠ v → u.username ≠ v.username :=
    fun u member v other different same =>
      different (List.inj_on_of_nodup_map distinct member other same)
  constructor
  · rintro ⟨recognised, single⟩
    refine ⟨(recognised_iff realm users).mp recognised, fun u member v other overlap => ?_⟩
    have different : u ≠ v := by
      rintro rfl
      obtain ⟨-, -, rest, longer, -⟩ := overlap
      have lengths := congrArg List.length longer
      rw [List.length_append, List.length_cons] at lengths
      omega
    obtain ⟨n, both⟩ := expected_of_overlap realm overlap
    exact single u member v other different n both
  · rintro ⟨tame, clear⟩
    refine ⟨(recognised_iff realm users).mpr tame, fun u member v other different n both => ?_⟩
    rcases (shared_iff (named u member v other different)).mp ⟨n, both⟩ with overlap | overlap
    · exact clear u member v other overlap
    · exact clear v other u member overlap

/-! ### Names that meet -/

def tenantUser (username tenant : Name) : KeycloakUser where
  id := username
  username := username
  enabled := true
  tenants := [tenant]
  platformNFS := []

def platformUser (username : Name) : KeycloakUser where
  id := username
  username := username
  enabled := true
  tenants := []
  platformNFS := ["true".toList]

theorem principals_apart_alice_bob :
    (["alice".toList, "bob".toList].Nodup) ∧ Apart "NOVANAS.LOCAL".toList
      [tenantUser "alice".toList "acme".toList, platformUser "bob".toList] := by
  refine ⟨by decide, (principals_apart_iff _ _ (by decide)).mpr ⟨?_, ?_⟩⟩
  · refine List.forall_mem_cons.mpr ⟨fun _ => ⟨?_, ?_⟩, List.forall_mem_singleton.mpr fun _ => ⟨?_, ?_⟩⟩
    · rintro ⟨tenantless, -⟩
      cases tenantless
    · have tenants : (tenantUser "alice".toList "acme".toList).tenantNames = ["acme".toList] := by
        decide +kernel
      rw [tenants, List.forall_mem_singleton]
      exact fun _ => ⟨by decide, by decide, by decide, by decide⟩
    · exact fun _ _ => ⟨by decide, by decide⟩
    · nofun
  · have plain : ∀ v ∈ [tenantUser "alice".toList "acme".toList, platformUser "bob".toList],
        '/' ∉ v.username := by decide
    rintro u - v member ⟨-, -, rest, longer, -⟩
    exact plain v member (longer ▸ List.mem_append_right _ List.mem_cons_self)

/-- A user that is called like a service is given the name of a service, which stays when the user
goes; and one name may be expected of two users. -/
theorem service_and_shared_names :
    (∃ pages r w', Ends (Service.Faulty (serve accepted)) (reconcileOnce "NOVANAS.LOCAL".toList pages)
      ⟨[tenantUser "nfs".toList "host1".toList], []⟩ (.ok r) w' ∧
      "nfs/host1@NOVANAS.LOCAL".toList ∈ r.created ∧
      principalUserPattern "NOVANAS.LOCAL".toList "nfs/host1@NOVANAS.LOCAL".toList = false) ∧
    ("alice".toList ≠ "alice/acme".toList ∧
      "alice/acme@NOVANAS.LOCAL".toList ∈ expectedPrincipals "NOVANAS.LOCAL".toList
        (tenantUser "alice".toList "acme".toList) ∧
      "alice/acme@NOVANAS.LOCAL".toList ∈ expectedPrincipals "NOVANAS.LOCAL".toList
        (platformUser "alice/acme".toList)) := by
  refine ⟨?_, by decide, by decide +kernel, by decide +kernel⟩
  obtain ⟨pages, r, w', ends, created⟩ := creates_expected "NOVANAS.LOCAL".toList accepted
    [tenantUser "nfs".toList "host1".toList]
  refine ⟨pages, r, w', ends.mono Service.healthy_faulty, ?_, by decide +kernel⟩
  rw [created]
  decide +kernel

end NovaNas.Krb5
