import Mathlib.Data.List.MinMax
import NovaNas.Base.Lines
import NovaNas.Plugins.World

/-!
# The routes of a plugin

A request to a plugin goes to the longest of its routes whose path the request path begins with, and
the route decides which token goes along. The test is one of texts: `/buckets` also takes what is
asked of `/buckets-admin`. It is right where every route that fits by its letters alone gives way to
a longer one that does contain the request.
-/
namespace NovaNas.Plugins

/-! ### The loop -/

/-- `rp.prefix == "" || strings.HasPrefix(rest, rp.prefix)` -/
def MountedRoute.fits (rest : List Char) (rp : MountedRoute) : Bool :=
  rp.path.toList = [] || rp.path.toList.isPrefixOf rest

/-- `len(rp.prefix)` -/
def MountedRoute.length (rp : MountedRoute) : Nat := Text.byteLength rp.path.toList

/-- One turn of the loop. -/
def better (rest : List Char) (found : Option MountedRoute) (rp : MountedRoute) :
    Option MountedRoute :=
  if rp.fits rest then
    match found with
    | none => some rp
    | some best => if rp.length > best.length then some rp else some best
  else found

def matchRoute (rest : List Char) (routes : List MountedRoute) : Option MountedRoute :=
  routes.foldl (better rest) none

/-! ### The handler -/

inductive Reply where
  | notMounted
  | noRoute
  | serviceTokenUnavailable
  | serviceTokenFailed
  /-- The request is handed to the reverse proxy of the route's upstream, under a path and with an
  Authorization header. The proxy puts the path of the upstream in front once more. -/
  | forwarded (route : MountedRoute) (authorization : Option String) (path : List Char)
  deriving DecidableEq, Repr

/-- What the router is wired with: the token minter, if there is one, and the path of an upstream
URL. -/
structure Wiring where
  mint : Option (String → Except String String)
  upstreamPath : String → String

/-- The Authorization header that goes to the upstream. -/
def authorize (wiring : Wiring) (plugin : String) (authorization : Option String) :
    AuthMode → Except Reply (Option String)
  | .serviceToken =>
    match wiring.mint with
    | none => .error .serviceTokenUnavailable
    | some mint =>
      match mint plugin with
      | .error _ => .error .serviceTokenFailed
      | .ok token => .ok (some ("Bearer " ++ token))
  | _ => .ok authorization

/-- What happens to a request once its route is chosen. -/
def deliver (wiring : Wiring) (plugin : String) (authorization : Option String) (rest : List Char) :
    Option MountedRoute → Reply
  | none => .noRoute
  | some route =>
    match authorize wiring plugin authorization route.auth with
    | .error reply => reply
    | .ok header =>
      .forwarded route header ((trimSlashes (wiring.upstreamPath route.upstream)).toList ++ rest)

/-- The path with a slash in front. -/
def slashed (rest : List Char) : List Char := if ['/'].isPrefixOf rest then rest else '/' :: rest

def serveProxy (wiring : Wiring) (w : World) (plugin : String) (authorization : Option String)
    (rest : List Char) : Reply :=
  match w.mounts plugin with
  | none => .notMounted
  | some routes =>
    deliver wiring plugin authorization (slashed rest) (matchRoute (slashed rest) routes)

/-! ### Subtrees -/

/-- The request path is the path of the route or lies below it. -/
def MountedRoute.Covers (rp : MountedRoute) (rest : List Char) : Prop :=
  rp.path.toList = rest ∨ rp.path.toList ++ ['/'] <+: rest

instance (rp : MountedRoute) (rest : List Char) : Decidable (rp.Covers rest) :=
  inferInstanceAs (Decidable (_ ∨ _))

/-- The first of the longest routes that contain the request path. -/
def nearest (rest : List Char) (routes : List MountedRoute) : Option MountedRoute :=
  (routes.filter fun rp => rp.Covers rest).argmax MountedRoute.length

/-- Every route that only shares its letters with the request path gives way to a longer one that
contains it. -/
def GivesWay (rest : List Char) (routes : List MountedRoute) : Prop :=
  ∀ rp ∈ routes, rp.path.toList <+: rest → ¬rp.Covers rest →
    ∃ other ∈ routes, other.Covers rest ∧ rp.path.toList <+: other.path.toList

section Selection

variable {rest : List Char} {routes : List MountedRoute} {rp other : MountedRoute}

theorem fits_iff : rp.fits rest = true ↔ rp.path.toList <+: rest := by
  rw [MountedRoute.fits, Bool.or_eq_true, decide_eq_true_iff, List.isPrefixOf_iff_prefix]
  constructor
  · rintro (bare | starts)
    · rw [bare]
      exact List.nil_prefix
    · exact starts
  · exact .inr

theorem MountedRoute.Covers.starts (covers : rp.Covers rest) : rp.path.toList <+: rest := by
  rcases covers with same | below
  · exact same ▸ List.prefix_refl _
  · exact (List.prefix_append ..).trans below

theorem matchRoute_eq : matchRoute rest routes =
    (routes.filter fun rp => rp.fits rest).argmax MountedRoute.length := by
  rw [matchRoute, List.argmax, List.foldl_filter]
  congr 1
  funext found rp
  cases found <;> rfl

/-- Of two paths that begin the same text the longer one begins with the shorter one. -/
theorem prefix_of_length_le (one : rp.path.toList <+: rest) (two : other.path.toList <+: rest)
    (shorter : rp.length ≤ other.length) : rp.path.toList <+: other.path.toList := by
  rcases List.prefix_or_prefix_of_prefix one two with starts | ⟨more, same⟩
  · exact starts
  · -- Only nothing has no bytes.
    have none_ : more = [] := by
      by_contra some_
      obtain ⟨c, more', rfl⟩ := List.exists_cons_of_ne_nil some_
      have size := Char.utf8Size_pos c
      simp only [MountedRoute.length, Text.byteLength, ← same, List.map_append, List.sum_append,
        List.map_cons, List.sum_cons] at shorter
      omega
    exact ⟨[], by rw [← same, none_, List.append_nil, List.append_nil]⟩

/-- The longest of some, if it is among fewer, is the longest of these. -/
theorem argmax_filter_of_argmax_filter {α : Type} {f : α → Nat} {p q : α → Bool}
    (fewer : ∀ a, q a = true → p a = true) {l : List α} {m : α}
    (longest : (l.filter p).argmax f = some m) (among : q m = true) :
    (l.filter q).argmax f = some m := by
  induction l with
  | nil => cases longest
  | cons a l ih =>
    by_cases first : p a = true
    · rw [List.filter_cons_of_pos first, List.argmax_cons] at longest
      cases best : (l.filter p).argmax f with
      | none =>
        obtain rfl : a = m := by simpa [best] using longest
        have none_ : l.filter q = [] := by
          refine List.eq_nil_iff_forall_not_mem.mpr fun b member => ?_
          obtain ⟨listed, kept⟩ := List.mem_filter.mp member
          have more : b ∈ l.filter p := List.mem_filter.mpr ⟨listed, fewer b kept⟩
          rw [List.argmax_eq_none.mp best] at more
          cases more
        rw [List.filter_cons_of_pos among, none_, List.argmax_singleton]
      | some c =>
        simp only [best] at longest
        split at longest
        next longer =>
          obtain rfl := Option.some.inj longest
          by_cases kept : q a = true
          · rw [List.filter_cons_of_pos kept, List.argmax_cons, ih best]
            exact if_pos longer
          · rw [List.filter_cons_of_neg kept, ih best]
        next shorter =>
          obtain rfl := Option.some.inj longest
          rw [List.filter_cons_of_pos among, List.argmax_cons]
          cases rival : (l.filter q).argmax f with
          | none => rfl
          | some d =>
            have listed := List.mem_filter.mp (List.argmax_mem rival)
            have bound : f d ≤ f c := List.le_of_mem_argmax
              (List.mem_filter.mpr ⟨listed.1, fewer d listed.2⟩) best
            exact if_neg fun longer => shorter (longer.trans_le bound)
    · rw [List.filter_cons_of_neg first] at longest
      rw [List.filter_cons_of_neg fun kept => first (fewer a kept)]
      exact ih longest

theorem matchRoute_eq_nearest (givesWay : GivesWay rest routes) :
    matchRoute rest routes = nearest rest routes := by
  have fewer (rp : MountedRoute) (covers : decide (rp.Covers rest) = true) :
      rp.fits rest = true := fits_iff.mpr (of_decide_eq_true covers).starts
  rw [matchRoute_eq, nearest]
  cases longest : (routes.filter fun rp => rp.fits rest).argmax MountedRoute.length with
  | none =>
    refine (List.argmax_eq_none.mpr (List.filter_eq_nil_iff.mpr fun rp listed covers => ?_)).symm
    exact List.filter_eq_nil_iff.mp (List.argmax_eq_none.mp longest) rp listed (fewer rp covers)
  | some rp =>
    obtain ⟨listed, fits⟩ := List.mem_filter.mp (List.argmax_mem longest)
    refine (argmax_filter_of_argmax_filter fewer longest (decide_eq_true ?_)).symm
    by_contra outside
    -- A longer route contains the request, so this one was not the longest that fits.
    obtain ⟨other, listed', covers, starts⟩ := givesWay rp listed (fits_iff.mp fits) outside
    have shorter : other.length ≤ rp.length :=
      List.le_of_mem_argmax (List.mem_filter.mpr ⟨listed', fits_iff.mpr covers.starts⟩) longest
    have same := prefix_of_length_le covers.starts (fits_iff.mp fits) shorter
    refine outside ?_
    rwa [MountedRoute.Covers, starts.eq_of_length_le same.length_le]

theorem givesWay_of_matchRoute_eq (chosen : matchRoute rest routes = nearest rest routes) :
    GivesWay rest routes := by
  intro rp listed starts outside
  rw [matchRoute_eq] at chosen
  have fits : rp ∈ routes.filter fun rp => rp.fits rest :=
    List.mem_filter.mpr ⟨listed, fits_iff.mpr starts⟩
  cases longest : (routes.filter fun rp => rp.fits rest).argmax MountedRoute.length with
  | none =>
    rw [List.argmax_eq_none.mp longest] at fits
    cases fits
  | some other =>
    obtain ⟨listed', covers⟩ := List.mem_filter.mp (List.argmax_mem (chosen.symm.trans longest))
    have inside := of_decide_eq_true covers
    exact ⟨other, listed', inside,
      prefix_of_length_le starts inside.starts (List.le_of_mem_argmax fits longest)⟩

end Selection

/-- A minter that always has a token. -/
def minting : Wiring := ⟨some fun plugin => .ok ("token-of-" ++ plugin), fun _ => ""⟩

theorem deliver_injective {plugin : String} {authorization : Option String} {rest : List Char}
    {one two : Option MountedRoute} (same : deliver minting plugin authorization rest one =
      deliver minting plugin authorization rest two) : one = two := by
  have forwards (route : MountedRoute) : ∃ header path,
      deliver minting plugin authorization rest (some route) = .forwarded route header path := by
    have granted : ∃ header, authorize minting plugin authorization route.auth = .ok header := by
      cases route.auth <;> exact ⟨_, rfl⟩
    obtain ⟨header, granted⟩ := granted
    exact ⟨header, _, by rw [deliver, granted]⟩
  cases one with
  | none =>
    cases two with
    | none => rfl
    | some route =>
      obtain ⟨_, _, forwarded⟩ := forwards route
      cases same.trans forwarded
  | some route =>
    obtain ⟨_, _, forwarded⟩ := forwards route
    cases two with
    | none => cases forwarded.symm.trans same
    | some route' =>
      obtain ⟨_, _, forwarded'⟩ := forwards route'
      cases (forwarded.symm.trans same).trans forwarded'
      rfl

/-- Every request to a mounted plugin is delivered to the longest route that contains its path, or
answered with `no_route` where none does, just where each route that shares no more than its letters
with the path gives way to a longer one. -/
theorem requests_reach_routes_iff (w : World) (plugin : String) (routes : List APIRoute)
    (isMounted : w.mounts plugin = some (mounted routes)) (rest : List Char) :
    (∀ wiring authorization, serveProxy wiring w plugin authorization rest =
      deliver wiring plugin authorization (slashed rest)
        (nearest (slashed rest) (mounted routes))) ↔
      GivesWay (slashed rest) (mounted routes) := by
  constructor
  · intro reaches
    have delivered := reaches minting none
    rw [serveProxy, isMounted] at delivered
    exact givesWay_of_matchRoute_eq (deliver_injective delivered)
  · intro givesWay wiring authorization
    rw [serveProxy, isMounted]
    exact congrArg (deliver wiring plugin authorization (slashed rest))
      (matchRoute_eq_nearest givesWay)

/-- One route, whose upstream gets the token of the plugin. -/
def bucketRoutes : List APIRoute := [⟨"/buckets/", "http://127.0.0.1:9000", [], .serviceToken⟩]

def bucketWorld : World := World.empty.setMount "rustfs" (some (mounted bucketRoutes))

theorem bucketWorld_mounted : bucketWorld.mounts "rustfs" = some (mounted bucketRoutes) := by
  simp [bucketWorld, World.setMount]

theorem bucket_request_reaches_route :
    serveProxy minting bucketWorld "rustfs" none "buckets/abc".toList =
      deliver minting "rustfs" none "/buckets/abc".toList
        (nearest "/buckets/abc".toList (mounted bucketRoutes)) := by
  refine (requests_reach_routes_iff bucketWorld "rustfs" bucketRoutes bucketWorld_mounted
    "buckets/abc".toList).mpr ?_ minting none
  intro rp listed starts outside
  obtain rfl := List.mem_singleton.mp listed
  exact absurd (.inr (by decide)) outside

/-- A request outside of the only route is forwarded, with the token of the plugin. -/
theorem neighbour_gets_token :
    nearest "/buckets-admin/users".toList (mounted bucketRoutes) = none ∧
    serveProxy minting bucketWorld "rustfs" (some "Bearer caller")
        "/buckets-admin/users".toList =
      .forwarded ⟨"/buckets", .serviceToken, [], "http://127.0.0.1:9000"⟩
        (some "Bearer token-of-rustfs")
        "/buckets-admin/users".toList := by
  constructor
  · decide
  · rw [serveProxy, bucketWorld_mounted]
    decide

end NovaNas.Plugins
