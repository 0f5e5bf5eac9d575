import NovaNas.Krb5.Convergence

/-!
# Pages of a list that changes

The users are fetched in pages by their positions, and others create and delete users between two
requests. A user that is there all the time is missed if one in front of the position the fetch
has reached is deleted: the users behind it move up by one. Creations only make a user appear
twice.
-/
namespace NovaNas.Krb5

open Program

section Changes

variable (u : KeycloakUser) (allowed : Nat → Prop)

/-- Somebody else creates a user or deletes one; `allowed` says at which positions users may be
deleted. -/
inductive UserChange : List KeycloakUser → List KeycloakUser → Prop
  | created (front : List KeycloakUser) (v : KeycloakUser) (back : List KeycloakUser) :
      UserChange (front ++ back) (front ++ v :: back)
  | deleted (front : List KeycloakUser) (v : KeycloakUser) (back : List KeycloakUser)
      (other : v ≠ u) (here : allowed front.length) :
      UserChange (front ++ v :: back) (front ++ back)

end Changes

/-- A list of users in the order in which Keycloak shows them. -/
abbrev Ordered (order : KeycloakUser → KeycloakUser → Prop) (users : List KeycloakUser) : Prop :=
  users.Pairwise order

/-- What may have become of the users, except for `u`, when a call is answered. When it is a page
from `first` on, users may have been deleted at the positions that `allowed first` names. What
becomes of them after the last page is left open. -/
def UsersMay (order : KeycloakUser → KeycloakUser → Prop) (u : KeycloakUser)
    (allowed : Nat → Nat → Prop) (users users' : List KeycloakUser) : SyncCall → Prop
  | .page first _ =>
    Relation.ReflTransGen (UserChange u (allowed first)) users users' ∧ Ordered order users'
  | .listPrincipals | .change _ => True

/-- Others change the users in front of every call. The KDC is used by nobody else. -/
def Crowd (order : KeycloakUser → KeycloakUser → Prop) (u : KeycloakUser)
    (allowed : Nat → Nat → Prop) (accepts : Name → Bool) : Responses World SyncAnswer :=
  fun w q a w' => ∃ users, UsersMay order u allowed w.users users q ∧
    Service.Faulty (serve accepts) { w with users } q a w'

section Crowd

variable {order : KeycloakUser → KeycloakUser → Prop} {u : KeycloakUser}
  {allowed : Nat → Nat → Prop} {accepts : Name → Bool} {first : Nat}
  {users users' : List KeycloakUser}

theorem mem_drop_created {front back : List KeycloakUser} {v : KeycloakUser}
    (there : u ∈ (front ++ back).drop first) : u ∈ (front ++ v :: back).drop first := by
  rw [List.drop_append, List.mem_append] at there ⊢
  refine there.imp_right fun later => ?_
  revert later
  cases first - front.length with
  | zero => exact List.mem_cons_of_mem v
  | succ n => exact fun later => List.drop_subset_drop_left back (Nat.le_succ n) later

theorem mem_drop_deleted {front back : List KeycloakUser} {v : KeycloakUser} (other : v ≠ u)
    (late : first ≤ front.length) (there : u ∈ (front ++ v :: back).drop first) :
    u ∈ (front ++ back).drop first := by
  rw [List.drop_append_of_le_length late, List.mem_append] at there ⊢
  refine there.imp_right fun later => ?_
  exact (List.mem_cons.mp later).resolve_left other.symm

/-- Deletions behind the position leave the user behind it. -/
theorem UserChange.mem_drop (change : UserChange u (first ≤ ·) users users')
    (there : u ∈ users.drop first) : u ∈ users'.drop first := by
  cases change with
  | created front v back => exact mem_drop_created there
  | deleted front v back other here => exact mem_drop_deleted other here there

theorem UserChange.mem_drop_all
    (changes : Relation.ReflTransGen (UserChange u (first ≤ ·)) users users')
    (there : u ∈ users.drop first) : u ∈ users'.drop first := by
  induction changes with
  | refl => exact there
  | tail _ change ih => exact change.mem_drop ih

theorem crowd_sound : KdcSound (Crowd order u allowed accepts) where
  page := by
    rintro w first max a w' ⟨users, -, answered⟩
    have kept := (faulty_sound accepts).page answered
    exact kept
  list := by
    rintro w a w' ⟨users, -, answered⟩
    have kept := (faulty_sound accepts).list answered
    exact kept
  change := by
    rintro w c a w' ⟨users, -, answered⟩
    have kept := (faulty_sound accepts).change answered
    exact kept

/-- A user that stands behind the position is fetched. -/
theorem listUsersFrom_mem {pages : Nat} {w w' : World} {fetched : List KeycloakUser}
    (ends : Ends (Crowd order u (· ≤ ·) accepts) (listUsersFrom pages first) w (.ok fetched) w')
    (there : u ∈ w.users.drop first) : u ∈ fetched := by
  induction pages generalizing first w fetched w' with
  | zero => cases ends.1
  | succ pages ih =>
    rw [listUsersFrom] at ends
    obtain ⟨page, w₁, asked, rest⟩ := ends_bind_ok.mp ends
    obtain ⟨a, same, now, ⟨changes, -⟩, answered⟩ := ends_consult.mp asked
    have there' : u ∈ now.drop first := UserChange.mem_drop_all changes there
    -- The page shows the list as it is now.
    obtain ⟨rfl, rfl⟩ : (now.drop first).take pageSize = page ∧ { w with users := now } = w₁ := by
      rcases answered with served | ⟨⟨err, rfl⟩, -⟩
      · cases served
        cases same
        exact ⟨rfl, rfl⟩
      · cases same
    split at rest
    next short =>
      obtain ⟨same, -⟩ := rest
      cases same
      rw [List.length_take] at short
      rwa [List.take_of_length_le (by omega)]
    next full =>
      obtain ⟨others, w₂, later, same, -⟩ := ends_bind_ok.mp rest
      cases same
      have whole : ((now.drop first).take pageSize).length = pageSize := by
        have most := List.length_take_le pageSize (now.drop first)
        omega
      rw [← List.take_append_drop pageSize (now.drop first), List.mem_append] at there'
      rw [whole] at later
      refine List.mem_append.mpr (there'.imp_right fun behind => ih later ?_)
      rwa [List.drop_drop] at behind

end Crowd

/-- A user that is there all the time keeps its principals, if nobody deletes a user in front of
the position that the fetch has reached. -/
theorem live_users_keep_principals {order : KeycloakUser → KeycloakUser → Prop} {u : KeycloakUser}
    {accepts : Name → Bool} {realm n : Name} {pages : Nat} {w w' : World}
    {r : Except SyncError Result}
    (ends : Ends (Crowd order u (fun first position => first ≤ position) accepts)
      (reconcileOnce realm pages) w r w')
    (there : u ∈ w.users) (expected : n ∈ expectedPrincipals realm u) (has : n ∈ w.principals) :
    n ∈ w'.principals := by
  refine reconcile_spares crowd_sound ends has ?_
  intro users w₁ listed
  exact .inr ⟨u, listUsersFrom_mem listed there, expected⟩

/-! ### A deletion between two pages -/

/-- The users are others when the second page is asked for. -/
def shifted (after : List KeycloakUser) (w : World) : SyncCall → World
  | .page 100 _ => { w with users := after }
  | _ => w

def shifting (after : List KeycloakUser) (w : World) (q : SyncCall) : SyncAnswer q × World :=
  serve (fun _ => true) (shifted after w q) q

theorem serve_users {accepts : Name → Bool} (w : World) (q : SyncCall) :
    (serve accepts w q).2.users = w.users := by
  cases q with
  | page | listPrincipals => rfl
  | change c => cases c <;> simp only [serve] <;> (repeat' split) <;> rfl

theorem ends_shifting {order : KeycloakUser → KeycloakUser → Prop} {u : KeycloakUser}
    (allowed : Nat → Nat → Prop) {before after : List KeycloakUser}
    (deleted : UserChange u (allowed 100) before after) (ordered : Ordered order before)
    (ordered' : Ordered order after) (op : OnSync α) (principals : List Name) :
    Ends (Crowd order u allowed fun _ => true) op ⟨before, principals⟩
      (op.run.exec (shifting after) ⟨before, principals⟩).1
      (op.run.exec (shifting after) ⟨before, principals⟩).2 := by
  refine run_exec_of (fun w => w.users = before ∨ w.users = after) ?_ op.run (.inl rfl)
  intro w q now
  rw [shifting, serve_users]
  unfold shifted
  split
  · refine ⟨⟨after, ⟨?_, ordered'⟩, .inl rfl⟩, .inr rfl⟩
    rcases now with same | same <;> rw [same]
    exact .single deleted
  · refine ⟨⟨w.users, ?_, .inl rfl⟩, now⟩
    cases q with
    | page => exact ⟨.refl, by rcases now with same | same <;> rwa [same]⟩
    | listPrincipals | change => trivial

def localRealm : Name := "NOVANAS.LOCAL".toList

/-- A user without principals. -/
def filler (i : Nat) : KeycloakUser := ⟨Text.padded 3 i, Text.padded 3 i, true, [], []⟩

def fillers : List KeycloakUser := (List.range 100).map filler

def zed : KeycloakUser := ⟨"zed".toList, "zed".toList, true, [], ["true".toList]⟩

def zoe : KeycloakUser := ⟨"zoe".toList, "zoe".toList, true, [], []⟩

def zedPrincipal : Name := "zed@NOVANAS.LOCAL".toList

def byUsername (a b : KeycloakUser) : Prop := a.username ≤ b.username

instance : DecidableRel byUsername := fun a b =>
  inferInstanceAs (Decidable (a.username ≤ b.username))

theorem ordered_of_chain {users : List KeycloakUser} (chain : users.IsChain byUsername) :
    Ordered byUsername users :=
  have : IsTrans KeycloakUser byUsername := ⟨fun _ _ _ => le_trans⟩
  List.isChain_iff_pairwise.mp chain

/-- The last user is deleted after the first page. -/
theorem live_users_keep_principals_zed : ∃ r w',
    Ends (Crowd byUsername zed (fun first position => first ≤ position) fun _ => true)
      (reconcileOnce localRealm 2) ⟨fillers ++ [zed, zoe], [zedPrincipal]⟩ r w' ∧
    w'.users = fillers ++ [zed] ∧ zedPrincipal ∈ w'.principals := by
  have deleted : UserChange zed (100 ≤ ·) (fillers ++ [zed, zoe]) (fillers ++ [zed]) := by
    have here : UserChange zed (100 ≤ ·) ((fillers ++ [zed]) ++ zoe :: [])
        ((fillers ++ [zed]) ++ []) :=
      .deleted _ zoe [] (by decide) (by decide)
    rwa [List.append_assoc, List.append_nil] at here
  have ends := ends_shifting (fun first position => first ≤ position) deleted
    (ordered_of_chain (by decide +kernel)) (ordered_of_chain (by decide +kernel))
    (reconcileOnce localRealm 2) [zedPrincipal]
  exact ⟨_, _, ends, by decide +kernel, live_users_keep_principals ends (by decide +kernel)
    (by decide +kernel) List.mem_cons_self⟩

/-- The first user is deleted after the first page, and the last one moves to a position that is
not asked for. -/
theorem missed_user_loses_principal :
    Ends (Crowd byUsername zed (fun _ _ => True) fun _ => true) (reconcileOnce localRealm 2)
      ⟨fillers ++ [zed], [zedPrincipal]⟩ (.ok ⟨100, 0, 1, [], [zedPrincipal], 0, 0⟩)
      ⟨fillers.tail ++ [zed], []⟩ ∧
    zedPrincipal ∈ expectedPrincipals localRealm zed := by
  have deleted : UserChange zed (fun _ => True) (fillers ++ [zed]) (fillers.tail ++ [zed]) :=
    .deleted [] (filler 0) (fillers.tail ++ [zed]) (by decide) trivial
  have result : (reconcileOnce localRealm 2).run.exec (shifting (fillers.tail ++ [zed]))
      ⟨fillers ++ [zed], [zedPrincipal]⟩ =
      (.ok ⟨100, 0, 1, [], [zedPrincipal], 0, 0⟩, ⟨fillers.tail ++ [zed], []⟩) := by
    decide +kernel
  have ends := ends_shifting (fun _ _ => True) deleted
    (ordered_of_chain (by decide +kernel)) (ordered_of_chain (by decide +kernel))
    (reconcileOnce localRealm 2) [zedPrincipal]
  rw [result] at ends
  exact ⟨ends, by decide +kernel⟩

end NovaNas.Krb5
