import NovaNas.Krb5.Sync

/-!
# What a pass makes of the principals

A pass adds what the users are to have and takes away what looks like the principal of a user and
belongs to none. What it leaves is what the next pass wants to find. However many of its calls
fail, it never takes away a service principal or one that a user is to have.
-/
namespace NovaNas.Krb5

open Program Sorting

variable {n : Name}

theorem mem_desired {realm : Name} {users : List KeycloakUser} :
    n ∈ desired realm users ↔ ∃ u ∈ users, n ∈ expectedPrincipals realm u := by
  rw [desired, List.mem_dedup, List.mem_flatMap]

theorem mem_createNames {wanted have_ : List Name} :
    n ∈ createNames wanted have_ ↔ n ∈ wanted ∧ n ∉ have_ := by
  simp [createNames, mem_sortNames]

theorem createNames_nodup (realm : Name) (users : List KeycloakUser) (have_ : List Name) :
    (createNames (desired realm users) have_).Nodup :=
  nodup_sortNames.mpr ((List.nodup_dedup _).filter _)

theorem mem_deleteCandidates {realm : Name} {wanted have_ : List Name} :
    n ∈ deleteCandidates realm wanted have_ ↔
      n ∈ have_ ∧ principalUserPattern realm n = true ∧ n ∉ wanted := by
  simp [deleteCandidates, mem_sortNames]

theorem pattern_of_service {realm : Name} (service : isServicePrincipal n = true) :
    principalUserPattern realm n = false := by
  rw [principalUserPattern, if_pos service]

/-! ### Changes -/

theorem mem_apply {principals : List Name} {c : Change} (there : n ∈ principals)
    (spared : c ≠ .delete n) : n ∈ c.apply principals := by
  cases c with
  | create name =>
    rw [Change.apply]
    split
    · exact there
    · exact List.mem_append_left _ there
  | delete name =>
    refine List.mem_filter.mpr ⟨there, ?_⟩
    simp only [ne_eq, decide_not, Bool.not_eq_true', decide_eq_false_iff_not]
    exact fun same => spared (congrArg Change.delete same.symm)

/-- What the calls may do to the principals, whoever answers them. -/
structure KdcSound (responds : Responses World SyncAnswer) : Prop where
  page : ∀ {w first max a w'}, responds w (.page first max) a w' → w'.principals = w.principals
  list : ∀ {w a w'}, responds w .listPrincipals a w' → w'.principals = w.principals ∧
    ∀ names, a = .ok names → ∀ n, n ∈ names ↔ n ∈ w.principals
  change : ∀ {w c a w'}, responds w (.change c) a w' →
    w'.principals = w.principals ∨ w'.principals = c.apply w.principals

section Sound

variable {responds : Responses World SyncAnswer} {w w' : World} {realm n : Name} {pages first : Nat}
  {make : Name → Change} {names : List Name}

/-- Changes that do not delete a principal leave it. -/
theorem KdcSound.applyEach {r : List Name × Nat} (sound : KdcSound responds)
    (run : (Krb5.applyEach make names).Run responds w r w') (spared : ∀ m ∈ names, make m ≠ .delete n)
    (there : n ∈ w.principals) : n ∈ w'.principals := by
  induction names generalizing w r with
  | nil =>
    obtain ⟨-, rfl⟩ := run
    exact there
  | cons name rest ih =>
    rw [Krb5.applyEach, perform_bind] at run
    obtain ⟨a, w₁, answered, run⟩ := run
    obtain ⟨⟨done, errors⟩, w₂, later, last⟩ := run_bind.mp run
    obtain ⟨first, others⟩ := List.forall_mem_cons.mp spared
    have between : n ∈ w₁.principals := by
      rcases sound.change answered with same | same
      · exact same ▸ there
      · exact same ▸ mem_apply there first
    obtain rfl : w' = w₂ := by
      cases a with
      | ok => exact last.2
      | error err => exact last.2
    exact ih later others between

theorem KdcSound.listUsersFrom {r : Except SyncError (List KeycloakUser)}
    (sound : KdcSound responds) (ends : Ends responds (Krb5.listUsersFrom pages first) w r w') :
    w'.principals = w.principals := by
  induction pages generalizing first w r with
  | zero =>
    obtain ⟨-, rfl⟩ := ends
    rfl
  | succ pages ih =>
    rw [Krb5.listUsersFrom] at ends
    rcases ends_bind.mp ends with ⟨page, w₁, asked, rest⟩ | ⟨err, -, asked⟩
    · obtain ⟨a, -, answered⟩ := ends_consult.mp asked
      rw [← sound.page answered]
      split at rest
      · obtain ⟨-, rfl⟩ := rest
        rfl
      · obtain ⟨o, later⟩ := rest.of_bind_pure
        exact ih later
    · obtain ⟨a, -, answered⟩ := ends_consult.mp asked
      exact sound.page answered

/-- A principal stays if it does not look like one of a user, or if a user of the list the pass
works with is to have it. -/
theorem reconcile_spares {r : Except SyncError Result} (sound : KdcSound responds)
    (ends : Ends responds (reconcileOnce realm pages) w r w') (there : n ∈ w.principals)
    (safe : ∀ users w₁, Ends responds (listUsers pages) w (.ok users) w₁ →
      principalUserPattern realm n = false ∨ ∃ u ∈ users, n ∈ expectedPrincipals realm u) :
    n ∈ w'.principals := by
  rcases ends_bind.mp ends with ⟨users, w₁, listed, rest⟩ | ⟨err, -, listed⟩
  swap
  · exact sound.listUsersFrom listed ▸ there
  have there₁ : n ∈ w₁.principals := sound.listUsersFrom listed ▸ there
  rcases ends_bind.mp rest with ⟨kdcList, w₂, asked, rest⟩ | ⟨err, -, asked⟩
  swap
  · obtain ⟨a, -, answered⟩ := ends_consult.mp asked
    exact (sound.list answered).1 ▸ there₁
  obtain ⟨a, -, answered⟩ := ends_consult.mp asked
  have there₂ : n ∈ w₂.principals := (sound.list answered).1 ▸ there₁
  obtain ⟨⟨created, createErrors⟩, w₃, creating, rest⟩ := ends_lift_bind.mp rest
  have there₃ := sound.applyEach creating (fun _ _ => nofun) there₂
  obtain ⟨⟨deleted, deleteErrors⟩, w₄, deleting, -, rfl⟩ := ends_lift_bind.mp rest
  refine sound.applyEach deleting ?_ there₃
  rintro m candidate ⟨⟩
  obtain ⟨-, pattern, unwanted⟩ := mem_deleteCandidates.mp candidate
  rcases safe users w₁ listed with plain | wanted
  · rw [plain] at pattern
    cases pattern
  · exact unwanted (mem_desired.mpr wanted)

end Sound

/-! ### A KDC of its own -/

section Served

variable {w w' : World} {realm n : Name} {pages first : Nat}

theorem serve_principals (accepts : Name → Bool) (w : World) (q : SyncCall) :
    (serve accepts w q).2.principals = w.principals ∨
    ∃ c, q = .change c ∧ (serve accepts w q).2.principals = c.apply w.principals := by
  cases q with
  | page first max => exact .inl rfl
  | listPrincipals => exact .inl rfl
  | change c =>
    simp only [serve]
    split
    · exact .inl rfl
    · cases c with
      | create name =>
        dsimp only
        split
        · exact .inl rfl
        · exact .inr ⟨_, rfl, rfl⟩
      | delete name => exact .inr ⟨_, rfl, rfl⟩

theorem serve_refused {accepts : Name → Bool} (w : World) (c : Change)
    (refused : accepts c.name = false) :
    serve accepts w (.change c) = (.error ⟨"principal name is not valid".toList⟩, w) := by
  simp only [serve, refused, Bool.not_false, if_true]

theorem faulty_sound (accepts : Name → Bool) : KdcSound (Service.Faulty (serve accepts)) where
  page := by
    intro w first max a w' answered
    rcases answered.after with rfl | rfl <;> rfl
  list := by
    intro w a w' answered
    refine ⟨?_, ?_⟩
    · rcases answered.after with rfl | rfl <;> rfl
    · rintro names rfl n
      rcases answered with served | ⟨⟨err, failed⟩, -⟩
      · cases served
        rfl
      · cases failed
  change := by
    intro w c a w' answered
    rcases answered.after with rfl | rfl
    · exact .inl rfl
    · rcases serve_principals accepts w (.change c) with same | ⟨c', ⟨⟩, same⟩
      · exact .inl same
      · exact .inr same

/-- While nobody changes the users, the pages make up the list. -/
theorem listUsersFrom_ok {accepts : Name → Bool} {users : List KeycloakUser}
    (ends : Ends (Service.Faulty (serve accepts)) (listUsersFrom pages first) w (.ok users) w') :
    users = w.users.drop first := by
  induction pages generalizing first w w' users with
  | zero => cases ends.1
  | succ pages ih =>
    rw [listUsersFrom] at ends
    obtain ⟨page, w₁, asked, rest⟩ := ends_bind_ok.mp ends
    have served := consult_ok asked
    obtain ⟨rfl, rfl⟩ : (w.users.drop first).take pageSize = page ∧ w = w₁ := by
      cases served
      exact ⟨rfl, rfl⟩
    split at rest
    next short =>
      obtain ⟨same, -⟩ := rest
      cases same
      rw [List.length_take] at short
      exact List.take_of_length_le (by omega)
    next full =>
      obtain ⟨others, w₂, later, same, -⟩ := ends_bind_ok.mp rest
      cases same
      have whole : ((w.users.drop first).take pageSize).length = pageSize := by
        have most := List.length_take_le pageSize (w.users.drop first)
        omega
      rw [ih later, whole, ← List.drop_drop, List.take_append_drop]

/-- Enough pages reach the end of the list. -/
theorem listUsersFrom_ends (accepts : Name → Bool) (inside : first ≤ w.users.length)
    (enough : w.users.length < first + pageSize * pages) :
    Ends (Service.Healthy (serve accepts)) (listUsersFrom pages first) w
      (.ok (w.users.drop first)) w := by
  induction pages generalizing first with
  | zero => omega
  | succ pages ih =>
    rw [listUsersFrom]
    have asked : Ends (Service.Healthy (serve accepts))
        (consult (SyncCall.page first pageSize) SyncError.listUsers) w
        (.ok ((w.users.drop first).take pageSize)) w := ends_consult.mpr ⟨.ok _, rfl, rfl⟩
    refine ends_bind_ok.mpr ⟨_, w, asked, ?_⟩
    split
    next short =>
      rw [List.length_take] at short
      refine ⟨?_, rfl⟩
      rw [List.take_of_length_le (by omega)]
    next full =>
      have whole : ((w.users.drop first).take pageSize).length = pageSize := by
        have most := List.length_take_le pageSize (w.users.drop first)
        omega
      have more : first + pageSize ≤ w.users.length := by
        rw [List.length_take, List.length_drop] at whole
        omega
      rw [whole]
      have rest := ih more (by rw [Nat.mul_succ] at enough; omega)
      refine ends_bind_ok.mpr ⟨_, w, rest, ?_, rfl⟩
      rw [← List.drop_drop, List.take_append_drop]

/-- New names are created, as far as they are accepted. -/
theorem create_run {names : List Name} (accepts : Name → Bool) (nodup : names.Nodup)
    (fresh : ∀ n ∈ names, n ∉ w.principals) :
    (applyEach .create names).Run (Service.Healthy (serve accepts)) w
      (names.filter accepts, (names.filter fun n => !accepts n).length)
      { w with principals := w.principals ++ names.filter accepts } := by
  induction names generalizing w with
  | nil => exact ⟨rfl, by rw [List.filter_nil, List.append_nil]⟩
  | cons name rest ih =>
    obtain ⟨new, nodup⟩ := List.nodup_cons.mp nodup
    obtain ⟨absent, fresh⟩ := List.forall_mem_cons.mp fresh
    rw [applyEach, perform_bind]
    cases accepted : accepts name with
    | false =>
      have served := serve_refused w (.create name) accepted
      refine ⟨_, _, served.symm, run_bind.mpr ⟨_, _, ih nodup fresh, ?_, ?_⟩⟩
      · simp [accepted]
      · simp [accepted]
    | true =>
      have served : serve accepts w (.change (.create name)) =
          (.ok (), { w with principals := w.principals ++ [name] }) := by
        simp [serve, Change.name, Change.apply, accepted, absent]
      refine ⟨_, _, served.symm, run_bind.mpr ⟨_, _, ih nodup ?_, ?_, ?_⟩⟩
      · intro n member there
        rcases List.mem_append.mp there with old | last
        · exact fresh n member old
        · exact new (List.mem_singleton.mp last ▸ member)
      · simp [accepted]
      · simp [accepted]

theorem delete_run (names : List Name) :
    (applyEach .delete names).Run (Service.Healthy (serve fun _ => true)) w (names, 0)
      { w with principals := w.principals.filter fun n => !names.contains n } := by
  induction names generalizing w with
  | nil => exact ⟨rfl, by simp⟩
  | cons name rest ih =>
    have served : serve (fun _ => true) w (.change (.delete name)) =
        (.ok (), { w with principals := w.principals.filter (· ≠ name) }) := rfl
    rw [applyEach, perform_bind]
    refine ⟨.ok (), _, served.symm, run_bind.mpr ⟨(rest, 0), _, ih, rfl, ?_⟩⟩
    simp only [List.filter_filter, World.mk.injEq, true_and]
    apply List.filter_congr
    intro n _
    simp [Bool.and_comm]

end Served

/-! ### A pass in which every call works -/

section Pass

variable (realm : Name) (w : World)

/-- The principals a pass leaves. -/
def reconciled : World :=
  let wanted := desired realm w.users
  { w with
    principals := (w.principals ++ createNames wanted w.principals).filter
      fun n => !(deleteCandidates realm wanted w.principals).contains n }

def passResult : Result where
  usersConsidered := w.users.length
  principalsDesired := (desired realm w.users).length
  principalsInKDC := w.principals.length
  created := createNames (desired realm w.users) w.principals
  deleted := deleteCandidates realm (desired realm w.users) w.principals
  createErrors := 0
  deleteErrors := 0

theorem reconcile_ends {pages : Nat} (enough : w.users.length < pageSize * pages) :
    Ends (Service.Healthy (serve fun _ => true)) (reconcileOnce realm pages) w
      (.ok (passResult realm w)) (reconciled realm w) := by
  have listed : Ends (Service.Healthy (serve fun _ => true)) (listUsers pages) w (.ok w.users) w :=
    listUsersFrom_ends _ (Nat.zero_le _) (by omega)
  have asked : Ends (Service.Healthy (serve fun _ => true))
      (consult SyncCall.listPrincipals SyncError.listPrincipals) w (.ok w.principals) w :=
    ends_consult.mpr ⟨.ok _, rfl, rfl⟩
  have nodup := createNames_nodup realm w.users w.principals
  refine ends_bind_ok.mpr ⟨_, w, listed, ends_bind_ok.mpr ⟨_, w, asked, ?_⟩⟩
  have creating := create_run (fun _ => true) nodup fun n member => (mem_createNames.mp member).2
  simp only [List.filter_true, Bool.not_true, List.filter_false, List.length_nil] at creating
  exact ends_lift_bind.mpr ⟨_, _, creating, ends_lift_bind.mpr ⟨_, _, delete_run _, rfl, rfl⟩⟩

variable {realm w}

theorem mem_reconciled : n ∈ (reconciled realm w).principals ↔
    (n ∈ w.principals ∧ ¬(principalUserPattern realm n = true ∧ n ∉ desired realm w.users)) ∨
      n ∈ desired realm w.users := by
  rw [reconciled, List.mem_filter, List.mem_append]
  simp only [Bool.not_eq_true', List.contains_eq_mem, decide_eq_false_iff_not,
    mem_deleteCandidates, mem_createNames]
  by_cases wanted : n ∈ desired realm w.users
  · by_cases there : n ∈ w.principals
    · simp [wanted, there]
    · simp [wanted, there]
  · by_cases there : n ∈ w.principals
    · simp [wanted, there]
    · simp [wanted, there]

theorem settled_of_mem_reconciled (there : n ∈ (reconciled realm w).principals) :
    ¬(principalUserPattern realm n = true ∧ n ∉ desired realm w.users) := by
  rcases mem_reconciled.mp there with ⟨-, settled⟩ | wanted
  · exact settled
  · exact fun both => both.2 wanted

/-- What a pass leaves asks for no change. -/
theorem passResult_reconciled :
    (passResult realm (reconciled realm w)).created = [] ∧
      (passResult realm (reconciled realm w)).deleted = [] := by
  constructor
  · rw [List.eq_nil_iff_forall_not_mem]
    intro n member
    obtain ⟨wanted, absent⟩ := mem_createNames.mp member
    exact absent (mem_reconciled.mpr (.inr wanted))
  · rw [List.eq_nil_iff_forall_not_mem]
    intro n member
    obtain ⟨there, pattern, unwanted⟩ := mem_deleteCandidates.mp member
    exact settled_of_mem_reconciled there ⟨pattern, unwanted⟩

end Pass

/-- A pass in which nothing fails leaves exactly the principals that it should, and the next one has
nothing to do. No pass, whatever fails, deletes a service principal or that of an enabled user. -/
theorem sync_converges (realm : Name) (w : World) :
    (∀ pages, w.users.length < pageSize * pages → ∃ r w',
      Ends (Service.Healthy (serve fun _ => true)) (reconcileOnce realm pages) w (.ok r) w' ∧
      r.createErrors = 0 ∧ r.deleteErrors = 0 ∧ w'.users = w.users ∧
      (∀ n, n ∈ w'.principals ↔
        (n ∈ w.principals ∧ ¬(principalUserPattern realm n = true ∧
          ∀ u ∈ w.users, n ∉ expectedPrincipals realm u)) ∨
        ∃ u ∈ w.users, n ∈ expectedPrincipals realm u) ∧
      ∃ r' w'', Ends (Service.Healthy (serve fun _ => true)) (reconcileOnce realm pages) w'
        (.ok r') w'' ∧ r'.created = [] ∧ r'.deleted = [] ∧ r'.createErrors = 0 ∧
        r'.deleteErrors = 0 ∧ ∀ n, n ∈ w''.principals ↔ n ∈ w'.principals) ∧
    ∀ accepts pages r w',
      Ends (Service.Faulty (serve accepts)) (reconcileOnce realm pages) w r w' →
      ∀ n ∈ w.principals, (isServicePrincipal n = true ∨
        ∃ u ∈ w.users, u.enabled = true ∧ n ∈ expectedPrincipals realm u) → n ∈ w'.principals := by
  constructor
  · intro pages enough
    refine ⟨_, _, reconcile_ends realm w enough, rfl, rfl, rfl, ?_, _, _,
      reconcile_ends realm (reconciled realm w) enough, passResult_reconciled.1,
      passResult_reconciled.2, rfl, rfl, ?_⟩
    · intro n
      rw [mem_reconciled, mem_desired]
      simp
    · intro n
      rw [mem_reconciled]
      constructor
      · rintro (⟨there, -⟩ | wanted)
        · exact there
        · exact mem_reconciled.mpr (.inr wanted)
      · intro there
        have settled := settled_of_mem_reconciled there
        exact .inl ⟨there, settled⟩
  · intro accepts pages r w' ends n there safe
    refine reconcile_spares (faulty_sound accepts) ends there ?_
    intro users w₁ listed
    rcases safe with service | ⟨u, member, -, expected⟩
    · exact .inl (pattern_of_service service)
    · refine .inr ⟨u, ?_, expected⟩
      rw [listUsersFrom_ok listed]
      exact member

end NovaNas.Krb5
