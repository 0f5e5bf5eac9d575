import NovaNas.Jobs.Queue
import NovaNas.Scheduler.MissedFires

/-!
# Scrub policies

A tick fires every enabled policy whose cron expression was hit since its last fire, unless the
last fire is less than seven days ago. The default policy has a weekly cron expression and is
meant to scrub once a month; the gap of seven days lets every Sunday through. It keeps to one
tick a month only where no tick comes seven days or more after the last fire in the same month.
-/
namespace NovaNas.Scrub

open Clock Interleaving Scheduler Text

structure ScrubPolicy where
  id : Nat
  name : String
  pools : String
  cron : String
  priority : String
  enabled : Bool
  builtin : Bool
  lastFiredAt : Option Int
  lastError : Option String
  deriving DecidableEq, Repr

def defaultPolicyName : String := "monthly-all-pools"

def defaultCron : String := "0 2 * * 0"

def defaultPriority : String := "medium"

/-- The least time between two fires of a policy. -/
def minFireGap : Int := 7 * 24 * Clock.hour

inductive ScrubAction where
  | start
  | stop
  deriving DecidableEq, Repr

structure PoolScrubPayload where
  name : String
  action : ScrubAction
  deriving DecidableEq, Repr

inductive Query where
  | listEnabledScrubPolicies
  | getScrubPolicyByName (name : String)
  | createScrubPolicy (name : String)
  | markScrubPolicyFired (id : Nat)
  deriving DecidableEq, Repr

/-- Database, pools and queue as the manager sees them. -/
structure Environment (σ : Type) where
  /-- The error a query ends with, if any; finding no row is not among them. -/
  query : Query → σ → Option String × σ
  order : {α : Type} → σ → List α → List α
  order_perm : ∀ {α : Type} (w : σ) (rows : List α), (order w rows).Perm rows
  poolNames : σ → Except String (List String) × σ
  isScrubInProgress : String → σ → Except String Bool × σ
  dispatch : Jobs.DispatchInput PoolScrubPayload → σ → Option Jobs.DispatchError × σ

/-- The table with its keys. -/
structure Policies where
  rows : List ScrubPolicy
  key : (rows.map (·.id)).Nodup
  names : (rows.map (·.name)).Nodup

structure State (σ : Type) where
  world : σ
  policies : Policies
  /-- What the tick under way has dispatched: policies and pools. -/
  dispatched : List (Nat × String)
  /-- The ticks so far with what they dispatched, the latest first. -/
  ticks : List (Int × List (Nat × String))

variable {σ : Type} (env : Environment σ)

def State.ask (q : Query) (st : State σ) : Option String × State σ :=
  ((env.query q st.world).1, { st with world := (env.query q st.world).2 })

/-! ### The table -/

def Policies.mark (policies : Policies) (id : Nat) (now : Int) (err : Option String) : Policies where
  rows := policies.rows.map fun p =>
    if p.id = id then { p with lastFiredAt := some now, lastError := err } else p
  key := by
    rw [List.map_map]
    convert policies.key using 2
    funext p
    simp only [Function.comp]
    split <;> rfl
  names := by
    rw [List.map_map]
    convert policies.names using 2
    funext p
    simp only [Function.comp]
    split <;> rfl

/-- An id no row has. -/
def Policies.freshId (policies : Policies) : Nat := (policies.rows.map (·.id)).foldr max 0 + 1

variable {p : ScrubPolicy}

theorem Policies.lt_freshId (policies : Policies) (row : p ∈ policies.rows) :
    p.id < policies.freshId := by
  have le : ∀ ids : List Nat, ∀ i ∈ ids, i ≤ ids.foldr max 0 := by
    intro ids
    induction ids with
    | nil => simp
    | cons j rest ih => simpa using fun i member => .inr (ih i member)
  exact Nat.lt_succ_of_le (le _ _ (List.mem_map_of_mem row))

def Policies.insert (policies : Policies) (p : ScrubPolicy) (id : p.id = policies.freshId)
    (name : p.name ∉ policies.rows.map (·.name)) : Policies where
  rows := p :: policies.rows
  key := by
    refine List.nodup_cons.mpr ⟨fun taken => ?_, policies.key⟩
    obtain ⟨q, row, same⟩ := List.mem_map.mp taken
    exact absurd (same.trans id) (policies.lt_freshId row).ne
  names := List.nodup_cons.mpr ⟨name, policies.names⟩

/-! ### Installing the default -/

def defaultPolicy (id : Nat) : ScrubPolicy where
  id
  name := defaultPolicyName
  pools := "*"
  cron := defaultCron
  priority := defaultPriority
  enabled := true
  builtin := true
  lastFiredAt := none
  lastError := none

def ensureDefaultPolicy (st : State σ) : Except String ScrubPolicy × State σ :=
  match st.ask env (.getScrubPolicyByName defaultPolicyName) with
  | (some err, st) => (.error ("get default policy: " ++ err), st)
  | (none, st) =>
    match st.policies.rows.find? (·.name == defaultPolicyName) with
    | some existing => (.ok existing, st)
    | none =>
      match st.ask env (.createScrubPolicy defaultPolicyName) with
      | (some err, st) => (.error ("create default policy: " ++ err), st)
      | (none, st) =>
        -- The table has UNIQUE(name).
        if name : (defaultPolicy st.policies.freshId).name ∈ st.policies.rows.map (·.name) then
          (.error "create default policy: duplicate key value violates unique constraint", st)
        else
          let p := defaultPolicy st.policies.freshId
          (.ok p, { st with policies := st.policies.insert p rfl name })

/-! ### Firing -/

def markFired (id : Nat) (now : Int) (err : Option String) (st : State σ) : State σ :=
  match st.ask env (.markScrubPolicyFired id) with
  | (some _, st) => st
  | (none, st) => { st with policies := st.policies.mark id now err }

/-- "*" stands for all pools there are; any other text is a list. -/
def expandPools (spec : String) (world : σ) : Except String (List String) × σ :=
  let trimmed := trimSpace spec.toList
  if trimmed = ['*'] ∨ trimmed = [] then env.poolNames world
  else
    (.ok (((Text.split ',' trimmed).map trimSpace).filter (· ≠ []) |>.map String.ofList), world)

def scrubInput (p : ScrubPolicy) (name : String) : Jobs.DispatchInput PoolScrubPayload where
  kind := .poolScrub
  target := name
  payload := ⟨name, .start⟩
  command := "zpool scrub " ++ name
  requestID := "scrubpolicy:" ++ p.name
  uniqueKey := "pool:" ++ name ++ ":scrub"

/-- What becomes of a pool. -/
inductive Outcome where
  | unknown
  | scrubbing
  | duplicate
  | failed (err : String)
  | accepted
  deriving DecidableEq, Repr

def Outcome.error : Outcome → Option String
  | .failed err => some err
  | _ => none

/-- One round of the loop over the pools: one whose state is unknown or that is being scrubbed is
passed over. -/
def visit (p : ScrubPolicy) (name : String) (world : σ) : Outcome × σ :=
  match env.isScrubInProgress name world with
  | (.error _, world) => (.unknown, world)
  | (.ok true, world) => (.scrubbing, world)
  | (.ok false, world) =>
    match env.dispatch (scrubInput p name) world with
    | (some (.duplicate _), world) => (.duplicate, world)
    | (some (.other err), world) => (.failed err.message, world)
    | (none, world) => (.accepted, world)

/-- The pools one after the other: whether any was dispatched, and the first error. -/
def firePools (p : ScrubPolicy) :
    List String → Bool → Option String → State σ → (Bool × Option String) × State σ
  | [], firedAny, firstErr, st => ((firedAny, firstErr), st)
  | name :: rest, firedAny, firstErr, st =>
    let round := visit env p name st.world
    firePools p rest (firedAny || round.1 = .accepted) (firstErr.or round.1.error)
      { st with
        world := round.2
        dispatched :=
          if round.1 = .accepted then st.dispatched ++ [(p.id, name)] else st.dispatched }

/-- Why firing a policy failed; the tick only logs it. -/
inductive FireError where
  | parseCron (cron : String) (err : CronError)
  | expandPools (spec err : String)
  | dispatch (err : String)

/-- `.error st` stands for a check that never ends, as in the scheduler. -/
def firePolicy (loc : Location) (fuel : Nat) (now : Int) (p : ScrubPolicy) (st : State σ) :
    Except (State σ) (Option FireError × State σ) :=
  match parseCron p.cron with
  | .error err => .ok (some (.parseCron p.cron err), st)
  | .ok expr =>
    let prev := p.lastFiredAt.getD 0
    match expr.shouldFireBetween loc fuel prev now with
    | none => .error st
    | some false => .ok (none, st)
    | some true =>
      if prev ≠ 0 ∧ now - prev < minFireGap then .ok (none, st)
      else
        match expandPools env p.pools st.world with
        | (.error err, world) => .ok (some (.expandPools p.pools err), { st with world })
        -- Nothing to scrub counts as a fire.
        | (.ok [], world) => .ok (none, markFired env p.id now none { st with world })
        | (.ok pools, world) =>
          let ((firedAny, firstErr), st) := firePools env p pools false none { st with world }
          let st :=
            if firedAny ∨ firstErr = none then markFired env p.id now firstErr st else st
          .ok (firstErr.map .dispatch, st)

def firePolicies (loc : Location) (fuel : Nat) (now : Int) :
    List ScrubPolicy → State σ → Except (State σ) (State σ)
  | [], st => .ok st
  | p :: rest, st => do
    let (_, st) ← firePolicy env loc fuel now p st
    firePolicies loc fuel now rest st

/-- `SELECT * FROM scrub_policies WHERE enabled = true` -/
def Policies.enabled (policies : Policies) : List ScrubPolicy := policies.rows.filter (·.enabled)

def tick (loc : Location) (fuel : Nat) (now : Int) (st : State σ) : Except (State σ) (State σ) := do
  match st.ask env .listEnabledScrubPolicies with
  | (some _, st) => pure { st with ticks := (now, []) :: st.ticks }
  | (none, st) =>
    let st ← firePolicies env loc fuel now (env.order st.world st.policies.enabled)
      { st with dispatched := [] }
    pure { st with ticks := (now, st.dispatched) :: st.ticks }

/-! ### What firing does to one policy -/

/-- The policy's row. -/
def Policies.find (policies : Policies) (id : Nat) : Option ScrubPolicy :=
  policies.rows.find? (·.id == id)

theorem Policies.find_mark (policies : Policies) (id other : Nat) (now : Int)
    (err : Option String) : (policies.mark other now err).find id = (policies.find id).map fun p =>
      if p.id = other then { p with lastFiredAt := some now, lastError := err } else p := by
  simp only [Policies.find, Policies.mark, List.find?_map]
  congr 1
  refine congrArg (List.find? · _) (funext fun p => ?_)
  by_cases same : p.id = other <;> simp [same]

theorem Policies.find_id {policies : Policies} {id : Nat} (found : policies.find id = some p) :
    p.id = id := by
  simpa using List.find?_some found

theorem Policies.find_of_mem {policies : Policies} (row : p ∈ policies.rows) :
    policies.find p.id = some p := by
  cases found : policies.find p.id with
  | none => simpa using List.find?_eq_none.mp found p row
  | some q =>
    refine congrArg some ?_
    exact List.inj_on_of_nodup_map policies.key (List.mem_of_find?_eq_some found) row
      (Policies.find_id found)

/-- The mark of a fire is stored. -/
def MarksSucceed : Prop := ∀ id w, (env.query (.markScrubPolicyFired id) w).1 = none

/-- The gap since the last fire is long enough; the zero time reads as "never fired". -/
def ScrubPolicy.Ready (p : ScrubPolicy) (now : Int) : Prop :=
  ∀ f, p.lastFiredAt = some f → f = 0 ∨ minFireGap ≤ now - f

variable {env}

theorem markFired_spec (marks : MarksSucceed env) (id : Nat) (now : Int) (err : Option String)
    (st : State σ) : (markFired env id now err st).policies = st.policies.mark id now err ∧
      (markFired env id now err st).dispatched = st.dispatched ∧
      (markFired env id now err st).ticks = st.ticks := by
  simp [markFired, State.ask, marks id st.world]

/-- Of the pools some are dispatched, for this policy. -/
theorem firePools_spec (env : Environment σ) (p : ScrubPolicy) (pools : List String) (firedAny : Bool)
    (firstErr : Option String) (st : State σ) :
    let fired := firePools env p pools firedAny firstErr st
    fired.2.policies = st.policies ∧ fired.2.ticks = st.ticks ∧
      (firedAny = true → fired.1.1 = true) ∧
      ∃ names, fired.2.dispatched = st.dispatched ++ names.map (p.id, ·) ∧
        (names ≠ [] → fired.1.1 = true) := by
  induction pools generalizing firedAny firstErr st with
  | nil => exact ⟨rfl, rfl, id, [], by simp [firePools]⟩
  | cons name rest ih =>
    rw [firePools]
    obtain ⟨policies, ticks, kept, names, added, fired⟩ := ih
      (firedAny || decide ((visit env p name st.world).1 = .accepted)) _ _
    refine ⟨policies, ticks, fun already => kept (by simp [already]), ?_⟩
    by_cases accepted : (visit env p name st.world).1 = .accepted
    · exact ⟨name :: names, added.trans (by simp [accepted]), fun _ => kept (by simp [accepted])⟩
    · exact ⟨names, added.trans (by simp [accepted]), fired⟩

/-- The turn of a policy in a tick: it is left alone, or it is ready and gets marked. -/
structure Turn (p : ScrubPolicy) (now : Int) (st st' : State σ) : Prop where
  ticks : st'.ticks = st.ticks
  effect : ∃ names, st'.dispatched = st.dispatched ++ names.map (p.id, ·) ∧
    ((st'.policies = st.policies ∧ names = []) ∨
      (p.Ready now ∧ ∃ err, st'.policies = st.policies.mark p.id now err))

theorem Turn.alone {now : Int} {st st' : State σ} (ticks : st'.ticks = st.ticks)
    (dispatched : st'.dispatched = st.dispatched) (policies : st'.policies = st.policies) :
    Turn p now st st' :=
  ⟨ticks, [], by simpa using dispatched, .inl ⟨policies, rfl⟩⟩

/-- The policy is due, and its turn comes to the pools. -/
structure Comes (env : Environment σ) (loc : Location) (fuel : Nat) (now : Int) (p : ScrubPolicy)
    (st : State σ)
    (pools : List String) (world : σ) : Prop where
  due : ∃ expr, parseCron p.cron = .ok expr ∧
    expr.shouldFireBetween loc fuel (p.lastFiredAt.getD 0) now = some true
  ready : ¬(p.lastFiredAt.getD 0 ≠ 0 ∧ now - p.lastFiredAt.getD 0 < minFireGap)
  expands : expandPools env p.pools st.world = (.ok pools, world)

/-- Firing stops before the pools, or goes through them and marks the policy if any was dispatched
or there was no error. -/
theorem firePolicy_cases {loc : Location} {fuel : Nat} {now : Int} {st st' : State σ}
    {err : Option FireError} (fired : firePolicy env loc fuel now p st = .ok (err, st')) :
    ((∀ pools world, ¬Comes env loc fuel now p st pools world) ∧
      ∃ world, st' = { st with world } ∧
        (world = st.world ∨ ∃ err, expandPools env p.pools st.world = (.error err, world))) ∨
    ∃ pools world, Comes env loc fuel now p st pools world ∧
      let loop := firePools env p pools false none { st with world }
      st' = if loop.1.1 ∨ loop.1.2 = none then markFired env p.id now loop.1.2 loop.2
        else loop.2 := by
  simp only [firePolicy] at fired
  split at fired
  next err unread =>
    cases fired
    refine .inl ⟨fun pools world comes => ?_, st.world, rfl, .inl rfl⟩
    obtain ⟨expr, read, -⟩ := comes.due
    cases unread.symm.trans read
  next expr read =>
    -- The expression is the one that the policy is due by.
    have only {pools : List String} {world : σ} (comes : Comes env loc fuel now p st pools world) :
        expr.shouldFireBetween loc fuel (p.lastFiredAt.getD 0) now = some true := by
      obtain ⟨other, again, due⟩ := comes.due
      cases read.symm.trans again
      exact due
    split at fired
    · cases fired
    next idle =>
      cases fired
      exact .inl ⟨fun pools world comes => by simp [only comes] at idle, st.world, rfl, .inl rfl⟩
    next due =>
      split at fired
      next close =>
        cases fired
        exact .inl ⟨fun pools world comes => comes.ready close, st.world, rfl, .inl rfl⟩
      next ready =>
        split at fired
        next err world expands =>
          cases fired
          refine .inl ⟨fun pools world' comes => ?_, world, rfl, .inr ⟨err, expands⟩⟩
          cases expands.symm.trans comes.expands
        next world expands =>
          cases fired
          exact .inr ⟨[], world, ⟨⟨expr, read, due⟩, ready, expands⟩, rfl⟩
        next pools world _ expands =>
          cases fired
          exact .inr ⟨pools, world, ⟨⟨expr, read, due⟩, ready, expands⟩, rfl⟩

theorem firePolicy_spec (marks : MarksSucceed env) {loc : Location} {fuel : Nat} {now : Int}
    {st st' : State σ} {err : Option FireError}
    (fired : firePolicy env loc fuel now p st = .ok (err, st')) : Turn p now st st' := by
  rcases firePolicy_cases fired with ⟨-, world, rfl, -⟩ | ⟨pools, world, comes, after⟩
  · exact .alone rfl rfl rfl
  have ready : p.Ready now := by
    intro f last
    have close := comes.ready
    rw [last, Option.getD_some] at close
    by_contra neither
    obtain ⟨set, short⟩ := not_or.mp neither
    exact close ⟨set, not_le.mp short⟩
  obtain ⟨policies, ticks, -, names, added, any⟩ :=
    firePools_spec env p pools false none { st with world }
  generalize firePools env p pools false none { st with world } = loop at *
  subst after
  split
  · obtain ⟨marked, same, kept⟩ := markFired_spec marks p.id now loop.1.2 loop.2
    refine ⟨kept.trans ticks, names, same.trans added, .inr ⟨ready, loop.1.2, ?_⟩⟩
    rw [marked, policies]
  next unfired =>
    -- Without a dispatch nothing is marked, so the policy stays due.
    have none : names = [] := by
      by_contra some
      exact unfired (.inl (any some))
    exact .alone ticks (by simpa [none] using added) policies

/-- Nothing is dispatched or written for the policy `id`. -/
structure Spares (id : Nat) (st st' : State σ) : Prop where
  ticks : st'.ticks = st.ticks
  find : st'.policies.find id = st.policies.find id
  dispatched : ∃ added, st'.dispatched = st.dispatched ++ added ∧ ∀ entry ∈ added, entry.1 ≠ id

theorem Turn.spares {now : Int} {st st' : State σ} (turn : Turn p now st st') {id : Nat}
    (other : p.id ≠ id) : Spares id st st' := by
  obtain ⟨ticks, names, added, effect⟩ := turn
  refine ⟨ticks, ?_, _, added, by simp [other]⟩
  obtain ⟨same, -⟩ | ⟨-, err, marked⟩ := effect
  · rw [same]
  · rw [marked, Policies.find_mark]
    cases found : st.policies.find id with
    | none => rfl
    | some q => simp [Policies.find_id found, Ne.symm other]

theorem Spares.trans {id : Nat} {a b c : State σ} (one : Spares id a b) (two : Spares id b c) :
    Spares id a c := by
  obtain ⟨first, firstAdded, firstSpares⟩ := one.dispatched
  obtain ⟨second, secondAdded, secondSpares⟩ := two.dispatched
  refine ⟨two.ticks.trans one.ticks, two.find.trans one.find, first ++ second, ?_, ?_⟩
  · rw [secondAdded, firstAdded, List.append_assoc]
  · simpa only [List.forall_mem_append] using ⟨firstSpares, secondSpares⟩

section Passes

variable (marks : MarksSucceed env) {loc : Location} {fuel : Nat} {now : Int} {id : Nat}
include marks

theorem firePolicies_cons {rest : List ScrubPolicy} {st st' : State σ}
    (fired : firePolicies env loc fuel now (p :: rest) st = .ok st') :
    ∃ mid, Turn p now st mid ∧ firePolicies env loc fuel now rest mid = .ok st' := by
  simp only [firePolicies] at fired
  cases turned : firePolicy env loc fuel now p st with
  | error hung =>
    rw [turned] at fired
    cases fired
  | ok result =>
    rw [turned] at fired
    exact ⟨result.2, firePolicy_spec marks turned, fired⟩

theorem firePolicies_spares {listed : List ScrubPolicy} {st st' : State σ}
    (others : ∀ p ∈ listed, p.id ≠ id) (fired : firePolicies env loc fuel now listed st = .ok st') :
    Spares id st st' := by
  induction listed generalizing st with
  | nil =>
    cases fired
    exact ⟨rfl, rfl, [], by simp⟩
  | cons p rest ih =>
    obtain ⟨first, others⟩ := List.forall_mem_cons.mp others
    obtain ⟨mid, turn, later⟩ := firePolicies_cons marks fired
    exact (turn.spares first).trans (ih others later)

/-- What a pass does to the policy `id`: nothing, or it fires with the gap respected. -/
theorem firePolicies_spec {listed : List ScrubPolicy} {st st' : State σ}
    (rows : ∀ p ∈ listed, p.id = id → st.policies.find id = some p)
    (once : (listed.map (·.id)).Nodup)
    (fired : firePolicies env loc fuel now listed st = .ok st') :
    Spares id st st' ∨ (st'.ticks = st.ticks ∧ ∃ p err, st.policies.find id = some p ∧
      p.Ready now ∧
      st'.policies.find id = some { p with lastFiredAt := some now, lastError := err }) := by
  induction listed generalizing st with
  | nil =>
    cases fired
    exact .inl ⟨rfl, rfl, [], by simp⟩
  | cons p rest ih =>
    obtain ⟨own, rows⟩ := List.forall_mem_cons.mp rows
    obtain ⟨fresh, once⟩ := List.nodup_cons.mp once
    obtain ⟨mid, turn, later⟩ := firePolicies_cons marks fired
    by_cases mine : p.id = id
    · -- The policy's own turn; the rest of the pass is about others.
      have others : Spares id mid st' := firePolicies_spares marks (fun q member same =>
        fresh (List.mem_map.mpr ⟨q, member, same.trans mine.symm⟩)) later
      obtain ⟨ticks, names, added, ⟨same, rfl⟩ | ⟨ready, err, marked⟩⟩ := turn
      · refine .inl (Spares.trans ⟨ticks, by rw [same], [], by simpa using added, by simp⟩ others)
      · refine .inr ⟨others.ticks.trans ticks, p, err, own mine, ready, ?_⟩
        rw [others.find, marked, Policies.find_mark, own mine]
        simp
    · have spared := turn.spares mine
      have still : ∀ q ∈ rest, q.id = id → mid.policies.find id = some q := fun q member same =>
        spared.find.trans (rows q member same)
      rw [← spared.find, ← spared.ticks]
      obtain others | fires := ih still once later
      · exact .inl (spared.trans others)
      · exact .inr fires

/-- What a tick does to the policy `id`, and what it is noted with. -/
theorem tick_spec (id : Nat) {st st' : State σ} (ticked : tick env loc fuel now st = .ok st') :
    ∃ dispatched, st'.ticks = (now, dispatched) :: st.ticks ∧
      ((st'.policies.find id = st.policies.find id ∧ ∀ entry ∈ dispatched, entry.1 ≠ id) ∨
        ∃ p err, st.policies.find id = some p ∧ p.Ready now ∧
          st'.policies.find id = some { p with lastFiredAt := some now, lastError := err }) := by
  unfold tick at ticked
  rcases asked : st.ask env .listEnabledScrubPolicies with ⟨_ | err, mid⟩
  all_goals
    rw [asked] at ticked
    obtain ⟨-, rfl⟩ := Prod.mk.inj asked
    simp only at ticked
  · generalize begun : ({ st with
      world := (env.query .listEnabledScrubPolicies st.world).2, dispatched := [] } : State σ) =
        mid at ticked
    have policies : mid.policies = st.policies := by rw [← begun]
    have ticks : mid.ticks = st.ticks := by rw [← begun]
    have empty : mid.dispatched = [] := by rw [← begun]
    have perm := env.order_perm (env.query .listEnabledScrubPolicies st.world).2 st.policies.enabled
    generalize env.order (env.query .listEnabledScrubPolicies st.world).2 st.policies.enabled =
      listed at ticked perm
    -- The rows listed are those of the table, each once.
    have rows : ∀ p ∈ listed, p.id = id → mid.policies.find id = some p := by
      rintro p member rfl
      rw [policies]
      exact Policies.find_of_mem (List.mem_filter.mp (perm.mem_iff.mp member)).1
    have once : (listed.map (·.id)).Nodup := by
      rw [(perm.map (·.id)).nodup_iff]
      exact st.policies.key.sublist (List.filter_sublist.map _)
    cases passed : firePolicies env loc fuel now listed mid with
    | error hung =>
      rw [passed] at ticked
      cases ticked
    | ok final =>
      rw [passed] at ticked
      cases ticked
      rw [← policies, ← ticks]
      obtain spared | ⟨same, fires⟩ := firePolicies_spec marks rows once passed
      · obtain ⟨added, dispatched, others⟩ := spared.dispatched
        refine ⟨final.dispatched, by rw [spared.ticks], .inl ⟨spared.find, ?_⟩⟩
        simpa [dispatched, empty] using others
      · exact ⟨final.dispatched, by rw [same], .inr fires⟩
  · cases ticked
    exact ⟨[], rfl, .inl ⟨rfl, by simp⟩⟩

end Passes

/-! ### Ticks in UTC -/

theorem firePolicies_ends (env : Environment σ) (loc : Location) (fuel : Nat)
    (answers : Answers loc fuel) (now : Int) (listed : List ScrubPolicy) (st : State σ) :
    ∃ st', firePolicies env loc fuel now listed st = .ok st' := by
  induction listed generalizing st with
  | nil => exact ⟨st, rfl⟩
  | cons p rest ih =>
    have turn : ∃ result, firePolicy env loc fuel now p st = .ok result := by
      simp only [firePolicy]
      split
      · exact ⟨_, rfl⟩
      next expr _ =>
        obtain ⟨due, answer⟩ :=
          Option.ne_none_iff_exists'.mp (answers expr (p.lastFiredAt.getD 0) now)
        rw [answer]
        cases due with
        | false => exact ⟨_, rfl⟩
        | true =>
          dsimp only
          repeat' split
          all_goals exact ⟨_, rfl⟩
    obtain ⟨result, turned⟩ := turn
    obtain ⟨st', later⟩ := ih result.2
    refine ⟨st', ?_⟩
    simp only [firePolicies, turned]
    exact later

theorem tick_ends (env : Environment σ) (loc : Location) (fuel : Nat)
    (answers : Answers loc fuel) (now : Int) (st : State σ) : ∃ st', tick env loc fuel now st = .ok st' := by
  unfold tick
  rcases st.ask env .listEnabledScrubPolicies with ⟨_ | err, mid⟩
  · obtain ⟨st', passed⟩ := firePolicies_ends env loc fuel answers now
      (env.order mid.world mid.policies.enabled) { mid with dispatched := [] }
    simp only [passed]
    exact ⟨_, rfl⟩
  · exact ⟨_, rfl⟩

variable (env)

/-- One tick of a manager that runs in UTC, at a time after the zero time and no earlier than
the ticks before. -/
def step (st : State σ) (now : Int) : Option (State σ) :=
  if 0 < now ∧ ∀ earlier ∈ st.ticks, earlier.1 ≤ now then (tick env utc searchFuel now st).toOption
  else none

variable {env}

/-- The times of the ticks that dispatched scrubs for the policy `id`. -/
def State.fires (st : State σ) (id : Nat) : List Int :=
  (st.ticks.filter fun ticked => ticked.2.any (·.1 == id)).map (·.1)

/-- The policy dispatches at no more than one tick in any calendar month. -/
def OncePerMonth (id : Nat) (st : State σ) : Prop :=
  (st.fires id).Pairwise fun later earlier => monthKey later ≠ monthKey earlier

/-- A tick comes within the gap after the policy's last fire, or in another month. -/
def Spaced (id : Nat) (st : State σ) (now : Int) : Prop :=
  ∀ p ∈ st.policies.find id, ∀ f ∈ p.lastFiredAt,
    now - f < minFireGap ∨ monthKey f ≠ monthKey now

instance (id : Nat) (st : State σ) (now : Int) : Decidable (Spaced id st now) :=
  inferInstanceAs (Decidable (∀ p ∈ st.policies.find id, ∀ f ∈ p.lastFiredAt, _))

/-- The policy's last fire is the time of a tick, and no tick that dispatched came after it. -/
structure Monthly (id : Nat) (st : State σ) : Prop where
  once : OncePerMonth id st
  marked : ∀ t ∈ st.fires id, ∃ p f, st.policies.find id = some p ∧ p.lastFiredAt = some f ∧ t ≤ f
  past : ∀ p f, st.policies.find id = some p → p.lastFiredAt = some f →
    0 < f ∧ ∃ ticked ∈ st.ticks, f = ticked.1

theorem Monthly.step (marks : MarksSucceed env) {id : Nat} {st st' : State σ} {now : Int}
    (monthly : Monthly id st) (spaced : Spaced id st now) (stepped : step env st now = some st') :
    Monthly id st' := by
  simp only [Scrub.step] at stepped
  split at stepped
  next inOrder =>
    obtain ⟨positive, order⟩ := inOrder
    have ticked : tick env utc searchFuel now st = .ok st' := by
      cases done : tick env utc searchFuel now st with
      | error hung => simp [done, Except.toOption] at stepped
      | ok result => simpa [done, Except.toOption] using stepped
    obtain ⟨dispatched, ticks, effect⟩ := tick_spec marks id ticked
    have older : ∀ ticked ∈ st.ticks, ticked ∈ st'.ticks := fun _ member =>
      ticks ▸ List.mem_cons_of_mem _ member
    -- The tick is among the fires if it dispatched for this policy.
    have fires : st'.fires id = st.fires id ∨ st'.fires id = now :: st.fires id := by
      by_cases own : dispatched.any (·.1 == id) <;> simp [State.fires, ticks, own]
    obtain ⟨same, others⟩ | ⟨p, err, found, ready, fired⟩ := effect
    · have quiet : st'.fires id = st.fires id := by
        simp only [State.fires, ticks, List.filter_cons]
        rw [if_neg (by simpa using fun name member => others (id, name) member rfl)]
      refine ⟨?_, ?_, fun p f row last => ?_⟩
      · rw [OncePerMonth, quiet]
        exact monthly.once
      · rw [quiet, same]
        exact monthly.marked
      · obtain ⟨later, earlier, member, at_⟩ := monthly.past p f (same ▸ row) last
        exact ⟨later, earlier, older earlier member, at_⟩
    · -- Whatever fired before lies in an earlier month than this tick.
      have apart : ∀ t ∈ st.fires id, t ≤ now ∧ monthKey now ≠ monthKey t := by
        intro t member
        obtain ⟨q, f, row, last, upto⟩ := monthly.marked t member
        obtain rfl := Option.some.inj (found.symm.trans row)
        obtain ⟨later, earlier, known, rfl⟩ := monthly.past p f row last
        have reached := order earlier known
        refine ⟨upto.trans reached, fun clash => ?_⟩
        obtain zero | gap := ready _ last
        · omega
        · obtain close | month := spaced p row _ last
          · omega
          · exact month ((monthKey_numbers.stretches t _ now upto reached clash.symm).trans clash.symm)
      refine ⟨?_, fun t member => ⟨_, now, fired, rfl, ?_⟩, fun q f row last => ?_⟩
      · obtain same | new := fires
        · rw [OncePerMonth, same]
          exact monthly.once
        · rw [OncePerMonth, new]
          exact List.pairwise_cons.mpr ⟨fun t member => (apart t member).2, monthly.once⟩
      · obtain same | new := fires
        · exact (apart t (same ▸ member)).1
        · rw [new] at member
          obtain rfl | member := List.mem_cons.mp member
          · exact le_rfl
          · exact (apart t member).1
      · obtain rfl := Option.some.inj (fired.symm.trans row)
        obtain rfl : now = f := by simpa using last
        exact ⟨positive, _, ticks ▸ List.mem_cons_self, rfl⟩
  next => cases stepped

/-- Ticks in order always come to an end. -/
theorem run_ends (marks : MarksSucceed env) (nows : List Int) (positive : ∀ now ∈ nows, 0 < now)
    (sorted : nows.Pairwise (· ≤ ·)) (st : State σ)
    (later : ∀ now ∈ nows, ∀ earlier ∈ st.ticks, earlier.1 ≤ now) :
    ∃ final, run (step env) st nows = some final ∧
      final.ticks.map (·.1) = nows.reverse ++ st.ticks.map (·.1) := by
  induction nows generalizing st with
  | nil => exact ⟨st, rfl, rfl⟩
  | cons now rest ih =>
    obtain ⟨first, positive⟩ := List.forall_mem_cons.mp positive
    obtain ⟨here, later⟩ := List.forall_mem_cons.mp later
    obtain ⟨least, sorted⟩ := List.pairwise_cons.mp sorted
    obtain ⟨mid, ticked⟩ := tick_ends env utc searchFuel (answers_fixed 0 le_rfl) now st
    obtain ⟨dispatched, ticks, -⟩ := tick_spec marks 0 ticked
    have stepped : step env st now = some mid := by
      rw [step, if_pos ⟨first, here⟩, ticked]
      rfl
    obtain ⟨final, ran, all⟩ := ih positive sorted mid fun next member earlier known => by
      rw [ticks] at known
      obtain rfl | known := List.mem_cons.mp known
      · exact least next member
      · exact later next member earlier known
    refine ⟨final, ?_, ?_⟩
    · rw [run, stepped]
      exact ran
    · simp [all, ticks]

theorem ensureDefaultPolicy_installs {st installed : State σ}
    (missing : st.policies.rows.find? (·.name == defaultPolicyName) = none)
    (ensured : ensureDefaultPolicy env st = (.ok p, installed)) :
    installed.ticks = st.ticks ∧ installed.policies.find p.id = some p ∧ p.lastFiredAt = none := by
  simp only [ensureDefaultPolicy] at ensured
  rcases got : st.ask env (.getScrubPolicyByName defaultPolicyName) with ⟨_ | err, mid⟩
  · obtain ⟨-, rfl⟩ := Prod.mk.inj got
    simp only [got, missing] at ensured
    rcases created : State.ask env (.createScrubPolicy defaultPolicyName) _ with ⟨_ | err, last⟩
    · rw [created] at ensured
      obtain ⟨-, rfl⟩ := Prod.mk.inj created
      simp only at ensured
      split at ensured
      · cases ensured
      · obtain ⟨same, rfl⟩ := Prod.mk.inj ensured
        obtain rfl := Except.ok.inj same
        exact ⟨rfl, by simp [Policies.find, Policies.insert], rfl⟩
    · rw [created] at ensured
      cases ensured
  · rw [got] at ensured
    cases ensured

/-- Installed on a host that does not have it, the default policy dispatches scrubs at no more
than one tick a month, as long as every tick is spaced from its last fire: within the gap of
seven days or in another month. -/
theorem default_policy_monthly (marks : MarksSucceed env) (st installed : State σ)
    (p : ScrubPolicy) (missing : st.policies.rows.find? (·.name == defaultPolicyName) = none)
    (unticked : st.ticks = []) (ensured : ensureDefaultPolicy env st = (.ok p, installed))
    (nows : List Int) (positive : ∀ now ∈ nows, 0 < now) (sorted : nows.Pairwise (· ≤ ·))
    (spaced : Guarded (step env) (Spaced p.id) installed nows) :
    ∃ final, run (step env) installed nows = some final ∧
      final.ticks.map (·.1) = nows.reverse ∧ OncePerMonth p.id final := by
  obtain ⟨ticks, row, never⟩ := ensureDefaultPolicy_installs missing ensured
  rw [unticked] at ticks
  have start : Monthly p.id installed := by
    refine ⟨by simp [OncePerMonth, State.fires, ticks], by simp [State.fires, ticks], ?_⟩
    rintro q f found last
    obtain rfl := Option.some.inj (row.symm.trans found)
    simp [never] at last
  obtain ⟨final, ran, all⟩ := run_ends marks nows positive sorted installed (by simp [ticks])
  refine ⟨final, ran, by simpa [ticks] using all, ?_⟩
  refine (run_induction (Monthly p.id) ?_ start spaced ran).once
  intro s now s' monthly guarded stepped
  exact monthly.step marks guarded stepped

/-! ### Sundays -/

/-- A host with one idle pool on which everything succeeds. -/
def onePool : Environment Unit where
  query _ w := (none, w)
  order _ rows := rows
  order_perm _ rows := .refl rows
  poolNames w := (.ok ["tank"], w)
  isScrubInProgress _ w := (.ok false, w)
  dispatch _ w := (none, w)

def noPolicies : State Unit := ⟨(), ⟨[], .nil, .nil⟩, [], []⟩

/-- The host once the default policy is installed. -/
def newHost : State Unit := (ensureDefaultPolicy onePool noPolicies).2

/-- Two o'clock on the `n`-th Sunday of 2026, counted from the 4th of January. -/
def sunday (n : Nat) : Int := (739619 + 7 * n) * Clock.day + 2 * Clock.hour

/-- The first Sundays of January and February. -/
theorem default_policy_monthly_sundays :
    ∃ final, run (step onePool) newHost [sunday 0, sunday 4] = some final ∧
      final.ticks.map (·.1) = [sunday 4, sunday 0] ∧ OncePerMonth 1 final :=
  default_policy_monthly (fun _ _ => rfl) noPolicies newHost (defaultPolicy 1) rfl rfl rfl
    [sunday 0, sunday 4] (by decide) (by decide) (by decide +kernel)

/-- Two Sundays of one January: both ticks dispatch a scrub. -/
theorem scrubs_every_sunday :
    ensureDefaultPolicy onePool noPolicies = (.ok (defaultPolicy 1), newHost) ∧
      (run (step onePool) newHost [sunday 0, sunday 1]).map (·.ticks) =
        some [(sunday 1, [(1, "tank")]), (sunday 0, [(1, "tank")])] ∧
      monthKey (sunday 0) = "2026-01" ∧ monthKey (sunday 1) = "2026-01" := by
  refine ⟨rfl, ?_, ?_, ?_⟩ <;> decide +kernel

end NovaNas.Scrub
