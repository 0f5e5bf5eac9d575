import Mathlib.Data.List.Rotate
import NovaNas.Scheduler.Ticks

/-!
# Schedules that share snapshots

A schedule finds its snapshots by dataset and prefix alone. The time stamp of a name has a
fixed length, so a snapshot belongs to the schedules of one dataset and one prefix; among
these, each prunes by its own policy. Pruning respects the policies of all of them exactly
when those policies agree on what to drop.
-/
namespace NovaNas.Scheduler

open Clock

variable {σ : Type}

/-- The state a computation ends or hangs in. -/
def reachedAt {β : Type} (at_ : β → State σ) : Except (State σ) β → State σ
  | .ok b => at_ b
  | .error st => st

abbrev reached : Except (State σ) (State σ) → State σ := reachedAt id

abbrev passReached : Except (State σ) (Option String × State σ) → State σ := reachedAt Prod.snd

section Reached

variable {β γ ρ : Type} {turn : ρ → State σ → Except (State σ) (State σ)} {st : State σ}

theorem reachedAt_bind (P : State σ → Prop) {x : Except (State σ) β}
    {f : β → Except (State σ) γ} {at_ : β → State σ} {at' : γ → State σ}
    (first : P (reachedAt at_ x)) (next : ∀ b, P (at_ b) → P (reachedAt at' (f b))) :
    P (reachedAt at' (x >>= f)) := by
  cases x with
  | error hung => exact first
  | ok b => exact next b first

theorem passReached_pure (turns : Except (State σ) (State σ)) :
    passReached (do let st ← turns; pure (none, st)) = reached turns := by
  cases turns <;> rfl

theorem whenDue_reached (loc : Location) (fuel : Nat) (now : Int) (cron : String)
    (last : Option Int) (turn : Bool → State σ) (st : State σ) :
    reached (whenDue loc fuel now cron last turn st) = st ∨ (∃ c, parseCron cron = .ok c) ∧
      ∃ due, reached (whenDue loc fuel now cron last turn st) = turn due := by
  unfold whenDue
  cases parsed : parseCron cron with
  | error err => exact .inl rfl
  | ok expr =>
    simp only
    split
    · exact .inl rfl
    · exact .inr ⟨⟨expr, rfl⟩, _, rfl⟩

/-- A search that hangs ends the turns; what was done before it counts. -/
theorem turnEach_reached (inv : List ρ → State σ → Prop) {P : State σ → Prop}
    (holds : ∀ {rest st}, inv rest st → P st)
    (each : ∀ {s rest st}, inv (s :: rest) st → inv rest (reached (turn s st)))
    {listed : List ρ} (initial : inv listed st) : P (reached (turnEach turn listed st)) := by
  induction listed generalizing st with
  | nil => exact holds initial
  | cons s rest ih =>
    have next := each initial
    rw [turnEach]
    cases done : turn s st with
    | error hung =>
      rw [done] at next
      exact holds next
    | ok mid =>
      rw [done] at next
      exact ih next

theorem runListed_reached (P : State σ → Prop) {env : Environment σ} {q : Query} {kind : String}
    {rows : Store → List ρ} (asked : P (st.ask env q).2)
    (turns : ∀ mid, mid = (st.ask env q).2 →
      P (reached (turnEach turn (env.order mid.world (rows mid.store)) mid))) :
    P (passReached (runListed env q kind rows turn st)) := by
  unfold runListed
  split
  next failed =>
    rw [failed] at asked
    exact asked
  next mid done =>
    rw [passReached_pure]
    exact turns mid (by rw [done])

end Reached

/-- Whatever was destroyed is dropped, from the listing it was found in, by the policy of every
enabled schedule that manages it. -/
def RespectsPolicies (loc : Location) (store : Store) (log : List Event) : Prop :=
  ∀ id listing name, .destroy id listing name ∈ log → ∀ s ∈ store.enabledSnapshots,
    (∃ sn ∈ listing, sn.name = name ∧ (s.manages loc sn).isSome) → name ∈ s.drops loc listing

/-- Enabled schedules of one dataset and prefix agree: what one that prunes drops from a
listing, the others drop as well. -/
def PruneAlike (loc : Location) (store : Store) : Prop :=
  ∀ a ∈ store.enabledSnapshots, ∀ b ∈ store.enabledSnapshots, (∃ c, parseCron a.cron = .ok c) →
    a.dataset = b.dataset → a.snapshotPrefix = b.snapshotPrefix →
      ∀ listing name, name ∈ a.drops loc listing → name ∈ b.drops loc listing

/-! ### Whose snapshot a name is -/

theorem Snapshot.name_injective {a b : Snapshot} (same : a.name = b.name) : a = b := by
  have lists : a.dataset.toList ++ '@' :: a.shortName.toList =
      b.dataset.toList ++ '@' :: b.shortName.toList := by
    simpa [Snapshot.name] using congrArg String.toList same
  -- Datasets hold no `@`, so the first one separates the two parts.
  have parts := congrArg (Text.cut '@') lists
  rw [Text.cut_append a.plain, Text.cut_append b.plain, Option.some.injEq, Prod.mk.injEq] at parts
  exact Snapshot.ext (String.toList_injective parts.1) (String.toList_injective parts.2)

variable {loc : Location} {s : SnapshotSchedule}

theorem mem_drops {listing : List Snapshot} {name : String} (dropped : name ∈ s.drops loc listing) :
    ∃ sn ∈ listing, sn.name = name ∧ (s.manages loc sn).isSome := by
  unfold SnapshotSchedule.drops at dropped
  split at dropped
  · cases dropped
  · obtain ⟨info, member, rfl⟩ := List.mem_map.mp dropped
    have inside := (List.mem_filter.mp member).1
    obtain ⟨sn, listed, found⟩ := List.mem_filterMap.mp inside
    obtain ⟨t, managed, rfl⟩ := Option.map_eq_some_iff.mp found
    exact ⟨sn, listed, rfl, by simp [managed]⟩

theorem manages_iff {sn : Snapshot} :
    (s.manages loc sn).isSome ↔
      sn.dataset = s.dataset ∧ (parsedSnapTime loc sn.shortName s.snapshotPrefix).isSome := by
  unfold SnapshotSchedule.manages
  split <;> simp_all

/-- Two schedules that manage one snapshot share dataset and prefix. -/
theorem manages_same {a b : SnapshotSchedule} {sn : Snapshot} (first : (a.manages loc sn).isSome)
    (second : (b.manages loc sn).isSome) :
    a.dataset = b.dataset ∧ a.snapshotPrefix = b.snapshotPrefix := by
  obtain ⟨adataset, aparsed⟩ := manages_iff.mp first
  obtain ⟨bdataset, bparsed⟩ := manages_iff.mp second
  obtain ⟨s, aparsed⟩ := Option.isSome_iff_exists.mp aparsed
  obtain ⟨t, bparsed⟩ := Option.isSome_iff_exists.mp bparsed
  exact ⟨adataset.symm.trans bdataset, parsedSnapTime_start_unique aparsed bparsed⟩

/-! ### Who destroys -/

/-- A destroy of the log was decided by a listed schedule whose cron parses. -/
def DecidedBy (loc : Location) (listed : List SnapshotSchedule) (log : List Event) : Prop :=
  ∀ id listing name, .destroy id listing name ∈ log →
    ∃ s ∈ listed, (∃ c, parseCron s.cron = .ok c) ∧ name ∈ s.drops loc listing

theorem DecidedBy.append {listed : List SnapshotSchedule} {first second : List Event}
    (one : DecidedBy loc listed first) (two : DecidedBy loc listed second) :
    DecidedBy loc listed (first ++ second) := fun id listing name member =>
  (List.mem_append.mp member).elim (one id listing name) (two id listing name)

theorem DecidedBy.mono {listed more : List SnapshotSchedule} {log : List Event}
    (decided : DecidedBy loc listed log) (sub : listed ⊆ more) : DecidedBy loc more log := by
  intro id listing name member
  obtain ⟨s, here, facts⟩ := decided id listing name member
  exact ⟨s, sub here, facts⟩

theorem markFired_log (env : Environment σ) (id : Nat) (last : Int) (st : State σ) :
    (markSnapshotScheduleFired env id last st).2.log = st.log := by
  unfold markSnapshotScheduleFired mark
  split
  next asked => exact (ask_aside asked).log
  next asked => exact (ask_aside asked).log

theorem destroys_decided (parses : ∃ c, parseCron s.cron = .ok c)
    (listed : Except String (List Snapshot)) :
    DecidedBy loc [s] (s.destroys loc listed) := by
  intro id listing name destroyed
  cases listed with
  | error err => cases destroyed
  | ok all =>
    obtain ⟨dropped, member, equal⟩ := List.mem_map.mp destroyed
    cases equal
    exact ⟨s, List.mem_singleton.mpr rfl, parses, member⟩

theorem snapshotTurn_log (env : Environment σ) (loc : Location) (fuel : Nat) (now : Int)
    (s : SnapshotSchedule) (st : State σ) :
    ∃ added, (reached (snapshotTurn env loc fuel now s st)).log = st.log ++ added ∧
      DecidedBy loc [s] added := by
  rcases whenDue_reached loc fuel now s.cron s.lastFiredAt _ st with idle | ⟨parses, due, turned⟩
  · exact ⟨[], (congrArg State.log idle).trans (List.append_nil _).symm, by simp [DecidedBy]⟩
  -- Firing logs no destroy, pruning only what the policy drops.
  have fired : ∃ fired, (fireWhen env loc s now st due).log = st.log ++ fired ∧
      DecidedBy loc [s] fired := by
    cases due with
    | false => exact ⟨[], (List.append_nil _).symm, by simp [DecidedBy]⟩
    | true => exact ⟨[.fireSnapshot s.id], markFired_log .., by simp [DecidedBy]⟩
  obtain ⟨fired, log, decided⟩ := fired
  have pruned := (pruneSnapshots_spec env loc s (fireWhen env loc s now st due)).2
  rw [log, List.append_assoc] at pruned
  exact ⟨_, (congrArg State.log turned).trans pruned, decided.append (destroys_decided parses _)⟩

theorem snapshotTurns_log (env : Environment σ) (loc : Location) (fuel : Nat) (now : Int)
    (listed : List SnapshotSchedule) (st : State σ) :
    ∃ added, (reached (turnEach (snapshotTurn env loc fuel now) listed st)).log = st.log ++ added ∧
      DecidedBy loc listed added := by
  refine turnEach_reached (fun rest mid => rest ⊆ listed ∧ ∃ added,
    mid.log = st.log ++ added ∧ DecidedBy loc listed added) And.right ?_
    ⟨List.Subset.refl _, [], (List.append_nil _).symm, by simp [DecidedBy]⟩
  rintro s rest mid ⟨among, added, log, decided⟩
  obtain ⟨own, later⟩ := List.cons_subset.mp among
  obtain ⟨more, log', decided'⟩ := snapshotTurn_log env loc fuel now s mid
  refine ⟨later, added ++ more, by rw [log', log, List.append_assoc], decided.append ?_⟩
  exact decided'.mono (List.cons_subset.mpr ⟨own, List.nil_subset _⟩)

/-- Every snapshot a pass destroys is dropped by an enabled schedule whose cron parses. -/
theorem runSnapshotSchedules_decided (env : Environment σ) (loc : Location) (fuel : Nat) (now : Int)
    (world : σ) (store : Store) :
    DecidedBy loc store.enabledSnapshots
      (passReached (runSnapshotSchedules env loc fuel now ⟨world, store, []⟩)).log := by
  refine runListed_reached (fun st => DecidedBy loc store.enabledSnapshots st.log)
    (by simp [State.ask, DecidedBy]) ?_
  rintro _ rfl
  -- The rows come in some order, but all of them and no others.
  obtain ⟨added, log, decided⟩ := snapshotTurns_log env loc fuel now (env.order _ _) _
  rw [log]
  exact decided.mono (env.order_perm _ _).subset

/-! ### Pruning and the policies of others -/

theorem respects_of_pruneAlike {store : Store} (alike : PruneAlike loc store) {log : List Event}
    (decided : DecidedBy loc store.enabledSnapshots log) :
    RespectsPolicies loc store log := by
  rintro id listing name destroyed b hb ⟨sn, listed, rfl, managed⟩
  obtain ⟨a, ha, parses, dropped⟩ := decided id listing sn.name destroyed
  -- Whoever decided manages the snapshot too, hence shares dataset and prefix with `b`.
  obtain ⟨own, -, same, manages⟩ := mem_drops dropped
  obtain ⟨dataset, start⟩ := manages_same (Snapshot.name_injective same ▸ manages) managed
  exact alike a ha b hb parses dataset start listing sn.name dropped

/-- A host that shows one listing, fails to create and begins its rows at number `n`. -/
def frozenHost (n : Nat) (listing : List Snapshot) : Environment Unit where
  query _ w := (none, w)
  order _ rows := rows.rotate n
  order_perm _ rows := List.rotate_perm rows n
  create _ _ _ w := (some "dataset is busy", w)
  destroy _ w := (none, w)
  list _ w := (.ok listing, w)
  transport := false
  transfer _ _ _ _ w := ((none, none), w)
  quote name := name

/-- The first schedule in line destroys all that its policy drops. -/
theorem first_turn_destroys (env : Environment σ) (fuel : Nat) {a : SnapshotSchedule}
    (rest : List SnapshotSchedule) {listing : List Snapshot} {name : String} (st : State σ)
    (parses : ∃ c, parseCron a.cron = .ok c) (shown : ∀ w, (env.list a.dataset w).1 = .ok listing)
    (dropped : name ∈ a.drops loc listing) :
    .destroy a.id listing name ∈ (reached
      (turnEach (snapshotTurn env loc fuel (a.lastFiredAt.getD 0)) (a :: rest) st)).log := by
  obtain ⟨c, parsed⟩ := parses
  -- A tick no later than the last fire is never due for a search.
  have answers : ∃ due, c.shouldFireBetween loc fuel (a.lastFiredAt.getD 0) (a.lastFiredAt.getD 0) =
      some due := by
    simp only [CronExpr.shouldFireBetween]
    split
    · exact ⟨_, rfl⟩
    · exact ⟨false, by simp⟩
  obtain ⟨due, answers⟩ := answers
  have turn : ∃ mid, snapshotTurn env loc fuel (a.lastFiredAt.getD 0) a st = .ok mid ∧
      .destroy a.id listing name ∈ mid.log := by
    simp only [snapshotTurn, whenDue, parsed, answers]
    refine ⟨_, rfl, ?_⟩
    rw [(pruneSnapshots_spec env loc a _).2, shown]
    exact List.mem_append_right _ (List.mem_map_of_mem dropped)
  obtain ⟨mid, done, destroyed⟩ := turn
  obtain ⟨added, log, -⟩ := snapshotTurns_log env loc fuel (a.lastFiredAt.getD 0) rest mid
  rw [turnEach, done]
  refine (congrArg (_ ∈ ·) log).mpr ?_
  exact List.mem_append_left _ destroyed

/-- Pruning respects the policies of all schedules, on every host and at every tick, exactly
when enabled schedules of one dataset and prefix drop alike. -/
theorem prune_respects_policies_iff (loc : Location) (store : Store) :
    (∀ (σ : Type) (env : Environment σ) (fuel : Nat) (now : Int) (world : σ),
      RespectsPolicies loc store
        (passReached (runSnapshotSchedules env loc fuel now ⟨world, store, []⟩)).log) ↔
      PruneAlike loc store := by
  constructor
  · intro respects a ha b hb parses dataset start listing name dropped
    -- A host that puts `a` first in line and shows the listing in question.
    obtain ⟨before, after, rows⟩ := List.append_of_mem ha
    have first := first_turn_destroys (frozenHost before.length listing) 0 (after ++ before)
      ⟨(), store, []⟩ parses (fun _ => rfl) dropped
    have order : (frozenHost before.length listing).order () store.enabledSnapshots =
        a :: (after ++ before) := by
      change store.enabledSnapshots.rotate _ = _
      rw [rows, List.rotate_append_length_eq, List.cons_append]
    obtain ⟨sn, listed, named, managed⟩ := mem_drops dropped
    refine respects Unit (frozenHost before.length listing) 0 (a.lastFiredAt.getD 0) () a.id listing
      name ?_ b hb ⟨sn, listed, named, ?_⟩
    · rw [← order, ← passReached_pure] at first
      exact first
    · rw [manages_iff, ← dataset, ← start]
      exact manages_iff.mp managed
  · intro alike σ env fuel now world
    exact respects_of_pruneAlike alike (runSnapshotSchedules_decided env loc fuel now world store)

/-! ### An hourly and a daily schedule under one prefix -/

def keepHourly : SnapshotSchedule :=
  ⟨1, "tank", "hourly", "0 * * * *", false, "auto", 24, 0, 0, 0, 0, true, none⟩

def keepDaily : SnapshotSchedule :=
  ⟨2, "tank", "daily", "0 0 * * *", false, "auto", 0, 7, 0, 0, 0, true, none⟩

def sharedPrefix : Store :=
  ⟨[keepHourly, keepDaily], [], [], by decide, by decide, by decide⟩

def atMidnight : Snapshot := ⟨"tank", "auto-2026-01-05-0000", by decide⟩

def atOne : Snapshot := ⟨"tank", "auto-2026-01-05-0100", by decide⟩

/-- Half past one on that day. -/
def halfPastOne : Int := 739620 * Clock.day + 90 * Clock.minute

/-- The daily schedule destroys the snapshot of one o'clock that the hourly one keeps. -/
theorem prune_ignores_other_policy :
    .destroy 2 [atMidnight, atOne] atOne.name ∈
        (passReached (runSnapshotSchedules (frozenHost 0 [atMidnight, atOne]) utc 0 halfPastOne
          ⟨(), sharedPrefix, []⟩)).log ∧
      keepHourly ∈ sharedPrefix.enabledSnapshots ∧ (keepHourly.manages utc atOne).isSome ∧
      atOne.name ∉ keepHourly.drops utc [atMidnight, atOne] := by
  refine ⟨?_, ?_, ?_, ?_⟩ <;> decide +kernel

end NovaNas.Scheduler
