import NovaNas.Scrub.Occurrences
import NovaNas.Zfs.PoolStatus

/-!
# Scrubs of busy pools

Before it dispatches a scrub, the policy asks whether one is under way. The answer is read off the
last `scan:` line of the pool's status, and only a line that starts with `scrub in progress` makes
it yes. A resilver that is under way is taken for a scan that has finished, and the scrub is
dispatched on top of it.
-/
namespace NovaNas.Scrub

open Clock Scheduler

variable {σ : Type} {env : Environment σ} {status : String → Zfs.Answer} {p : ScrubPolicy}

/-- The state of a pool is read off what `zpool` says of it. -/
def Reads (env : Environment σ) (status : String → Zfs.Answer) : Prop :=
  ∀ name world, (env.isScrubInProgress name world).1 = Zfs.isScrubInProgress (status name)

abbrev Sent := List (Jobs.DispatchInput PoolScrubPayload)

/-- The environment, with what its dispatcher is called with, whatever it answers. -/
def recording (env : Environment σ) : Environment (σ × Sent) where
  query q w := ((env.query q w.1).1, (env.query q w.1).2, w.2)
  order w := env.order w.1
  order_perm w := env.order_perm w.1
  poolNames w := ((env.poolNames w.1).1, (env.poolNames w.1).2, w.2)
  isScrubInProgress name w :=
    ((env.isScrubInProgress name w.1).1, (env.isScrubInProgress name w.1).2, w.2)
  dispatch input w := ((env.dispatch input w.1).1, (env.dispatch input w.1).2, w.2 ++ [input])

/-- What the lines of a text say of the scan. -/
def scans (text : Zfs.Name) : List Zfs.Name := (Text.split '\n' text).filterMap Zfs.scanText

def scrubbing : Zfs.Name := "scrub in progress".toList

def resilvering : Zfs.Name := "resilver in progress".toList

/-- A `scan:` line of the text starts with a scan that is under way. -/
def Busy (text : Zfs.Name) : Prop := ∃ raw ∈ scans text, scrubbing <+: raw ∨ resilvering <+: raw

/-- The last `scan:` line starts with a scrub that is under way. -/
def ShowsScrub (text : Zfs.Name) : Prop := ∃ raw, (scans text).getLast? = some raw ∧ scrubbing <+: raw

/-- A line of the text is more than the scanner holds. -/
def TooLong (text : Zfs.Name) : Prop := Text.scanLines 65536 text = none

/-! ### One pool -/

theorem inProgress_iff (raw : Zfs.Name) :
    (Zfs.parseScrubStatus raw).state = .inProgress ↔ scrubbing <+: raw := by
  rw [← List.isPrefixOf_iff_prefix]
  unfold Zfs.parseScrubStatus
  split
  next none =>
    subst none
    decide
  next =>
    split
    next starts => exact ⟨fun _ => starts, fun _ => rfl⟩
    next other => split <;> exact ⟨nofun, fun starts => absurd starts other⟩

theorem isScrubInProgress_eq_false (text : Zfs.Name) :
    Zfs.isScrubInProgress (.ok text) = .ok false ↔ ¬TooLong text ∧ ¬ShowsScrub text := by
  cases short : Text.scanLines 65536 text with
  | none =>
    have failed : Zfs.isScrubInProgress (.ok text) = .error "bufio.Scanner: token too long" := by
      have unread : Zfs.parseStatus text = none := by simp [Zfs.parseStatus, short]
      rw [Zfs.isScrubInProgress, Zfs.scrubStatus]
      simp only [bind, Except.bind, unread]
      rfl
    simp [failed, TooLong, short]
  | some lines =>
    obtain rfl : lines = Text.split '\n' text :=
      Option.some.inj (Option.ite_none_right_eq_some.mp short).2.symm
    let state := (((scans text).getLast?.map Zfs.parseScrubStatus).map (·.state)).getD .none
    have read : Zfs.isScrubInProgress (.ok text) = .ok (decide (state = .inProgress)) := by
      have last := Zfs.scan_lines (Text.split '\n' text) .start
      rw [show Zfs.Reading.start.scan = none from rfl, Option.or_none] at last
      have read : Zfs.parseStatus text =
          some ((Text.split '\n' text).foldl Zfs.Reading.line .start).status := by
        simp [Zfs.parseStatus, short]
      rw [Zfs.isScrubInProgress, Zfs.scrubStatus]
      simp only [bind, Except.bind, read, state, scans, ← last]
      rfl
    have fine : ¬TooLong text := by simp [TooLong, short]
    rw [read, Except.ok.injEq, decide_eq_false_iff_not, ShowsScrub]
    simp only [fine, not_false_iff, true_and, state]
    cases (scans text).getLast? with
    | none => simp
    | some raw => simp [inProgress_iff]

/-- The dispatcher is called for a pool if the check says no. -/
theorem visit_sent (reads : Reads env status) (name : String) (w : σ × Sent) :
    (visit (recording env) p name w).2.2 =
      if Zfs.isScrubInProgress (status name) = .ok false then w.2 ++ [scrubInput p name]
      else w.2 := by
  rw [← reads name w.1]
  rcases checked : env.isScrubInProgress name w.1 with ⟨err | idle, after⟩
  · simp [visit, recording, checked]
  cases idle with
  | true => simp [visit, recording, checked]
  | false =>
    rcases answered : env.dispatch (scrubInput p name) after with ⟨_ | (dup | err), later⟩ <;>
      simp [visit, recording, checked, answered]

/-! ### The pools of a policy -/

theorem mem_sent_firePools (reads : Reads env status) (pools : List String) (firedAny : Bool)
    (firstErr : Option String) (st : State (σ × Sent))
    (input : Jobs.DispatchInput PoolScrubPayload) :
    input ∈ (firePools (recording env) p pools firedAny firstErr st).2.world.2 ↔
      input ∈ st.world.2 ∨ ∃ name ∈ pools,
        Zfs.isScrubInProgress (status name) = .ok false ∧ input = scrubInput p name := by
  induction pools generalizing firedAny firstErr st with
  | nil => simp [firePools]
  | cons name rest ih =>
    rw [firePools, ih, visit_sent reads]
    split
    next idle => simp [idle, or_assoc]
    next busy => simp [busy]

variable {loc : Location} {fuel : Nat} {now : Int} {st st' : State (σ × Sent)}
  {r : Option FireError}

theorem mem_sent (reads : Reads env status)
    (fired : firePolicy (recording env) loc fuel now p st = .ok (r, st'))
    (input : Jobs.DispatchInput PoolScrubPayload) :
    input ∈ st'.world.2 ↔ input ∈ st.world.2 ∨ ∃ pools world,
      Comes (recording env) loc fuel now p st pools world ∧ ∃ name ∈ pools,
        Zfs.isScrubInProgress (status name) = .ok false ∧ input = scrubInput p name := by
  -- Expanding the pools sends nothing.
  have expanded {found : Except String (List String)} {world : σ × Sent}
      (expands : expandPools (recording env) p.pools st.world = (found, world)) :
      world.2 = st.world.2 := by
    rw [expandPools] at expands
    split at expands <;> exact (congrArg (·.2.2) expands).symm
  have marking (err : Option String) (st : State (σ × Sent)) :
      (markFired (recording env) p.id now err st).world.2 = st.world.2 := by
    simp only [markFired, State.ask, recording]
    cases (env.query (.markScrubPolicyFired p.id) st.world.1).1 <;> rfl
  rcases firePolicy_cases fired with ⟨nowhere, world, rfl, same⟩ | ⟨pools, world, comes, after⟩
  · have kept : world.2 = st.world.2 := by
      rcases same with rfl | ⟨err, expands⟩
      · rfl
      · exact expanded expands
    simp [kept, nowhere]
  · have sent := mem_sent_firePools (p := p) reads pools false none { st with world } input
    have whole : st'.world.2 =
        (firePools (recording env) p pools false none { st with world }).2.world.2 := by
      rw [after]
      split
      · exact marking _ _
      · rfl
    rw [whole, sent, expanded comes.expands]
    refine or_congr_right ⟨fun idle => ⟨pools, world, comes, idle⟩, ?_⟩
    rintro ⟨pools', world', comes', idle⟩
    cases comes.expands.symm.trans comes'.expands
    exact idle

/-- A policy that fires calls the dispatcher for no busy pool exactly if each busy pool that it
comes to shows a scrub in the last `scan:` line of its status, or has a status that cannot be
read. -/
theorem busy_pools_spared_iff (reads : Reads env status) (fresh : st.world.2 = [])
    (fired : firePolicy (recording env) loc fuel now p st = .ok (r, st')) :
    (∀ input ∈ st'.world.2, ∀ text, status input.target = .ok text → ¬Busy text) ↔
    ∀ pools world, Comes (recording env) loc fuel now p st pools world →
      ∀ name ∈ pools, ∀ text, status name = .ok text → Busy text →
        ShowsScrub text ∨ TooLong text := by
  simp only [mem_sent reads fired, fresh, List.not_mem_nil, false_or]
  constructor
  · intro spared pools world comes name listed text said busy
    by_contra neither
    have idle : Zfs.isScrubInProgress (status name) = .ok false := by
      rw [said, isScrubInProgress_eq_false]
      exact ⟨fun long => neither (.inr long), fun shows => neither (.inl shows)⟩
    exact spared _ ⟨pools, world, comes, name, listed, idle, rfl⟩ text said busy
  · rintro shown _ ⟨pools, world, comes, name, listed, idle, rfl⟩ text said busy
    rw [show status name = .ok text from said, isScrubInProgress_eq_false] at idle
    exact (shown pools world comes name listed text said busy).elim idle.2 idle.1

/-- A host with one pool of the given status. -/
def hostWith (text : Zfs.Name) : Environment Unit :=
  { onePool with isScrubInProgress _ w := (Zfs.isScrubInProgress (.ok text), w) }

def scrubText : Zfs.Name := "  scan: scrub in progress since Sun".toList

def resilverText : Zfs.Name := "  scan: resilver in progress since Sun".toList

def newRecord : State (Unit × Sent) := { newHost with world := ((), []) }

/-- What the dispatcher is called with on the first Sunday. -/
def sentOnSunday (text : Zfs.Name) : Option (List String) :=
  (firePolicy (recording (hostWith text)) utc searchFuel (sunday 0) (defaultPolicy 1)
    newRecord).toOption.map fun result => result.2.world.2.map (·.target)

theorem fired_of_sent {text : Zfs.Name} {pools : List String}
    (sent : sentOnSunday text = some pools) : ∃ r st',
      firePolicy (recording (hostWith text)) utc searchFuel (sunday 0) (defaultPolicy 1) newRecord =
        .ok (r, st') ∧ st'.world.2.map (·.target) = pools := by
  obtain ⟨⟨r, st'⟩, ended, same⟩ := Option.map_eq_some_iff.mp sent
  refine ⟨r, st', ?_, same⟩
  cases result : firePolicy (recording (hostWith text)) utc searchFuel (sunday 0) (defaultPolicy 1)
      newRecord with
  | error hung =>
    rw [result] at ended
    cases ended
  | ok result' =>
    rw [result] at ended
    cases ended
    rfl

theorem scrubbing_pool_spared : Busy scrubText ∧ ∃ r st',
    firePolicy (recording (hostWith scrubText)) utc searchFuel (sunday 0) (defaultPolicy 1)
      newRecord = .ok (r, st') ∧ st'.world.2 = [] := by
  have said : scans scrubText = ["scrub in progress since Sun".toList] := by decide
  have busy : Busy scrubText := ⟨_, by rw [said]; exact List.mem_cons_self, .inl (by decide)⟩
  have reads : Reads (hostWith scrubText) fun _ => .ok scrubText := fun _ _ => rfl
  have sent : sentOnSunday scrubText = some [] := by decide +kernel
  obtain ⟨r, st', fired, -⟩ := fired_of_sent sent
  refine ⟨busy, r, st', fired, List.eq_nil_iff_forall_not_mem.mpr fun input sent => ?_⟩
  refine (busy_pools_spared_iff reads rfl fired).mpr ?_ input sent scrubText rfl busy
  rintro - - - - - text ⟨⟩ -
  exact .inl ⟨_, by rw [said]; rfl, by decide⟩

/-- A pool that is being resilvered is given a scrub. -/
theorem resilvering_pool_scrubbed : Busy resilverText ∧ ∃ r st',
    firePolicy (recording (hostWith resilverText)) utc searchFuel (sunday 0) (defaultPolicy 1)
      newRecord = .ok (r, st') ∧ st'.world.2.map (·.target) = ["tank"] := by
  have said : scans resilverText = ["resilver in progress since Sun".toList] := by decide
  have sent : sentOnSunday resilverText = some ["tank"] := by decide +kernel
  exact ⟨⟨_, by rw [said]; exact List.mem_cons_self, .inr (by decide)⟩, fired_of_sent sent⟩

end NovaNas.Scrub
