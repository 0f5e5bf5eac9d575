import NovaNas.Base.Relational
import NovaNas.Notifycenter.Listing

/-!
# The unread badge

The badge is counted by a join of the two tables; the list is filtered in memory. Both look at a
notification through the one row, if any, that the user has for it, and the upserts of a user only
touch rows of the user's own.
-/
namespace NovaNas.Notifycenter.Bell

open Paging

variable {ι : Type} [LinearOrder ι]

inductive Failure where
  | refused (message : String)
  | database
  deriving DecidableEq, Repr

/-! ### Recording events -/

structure RecordInput where
  source : Name
  sourceID : Name
  severity : Name
  title : Name
  body : Name
  link : Name
  tenantID : Name
  deriving DecidableEq, Repr

def Tables.empty : Tables ι := ⟨[], [], .nil, .nil, .nil, fun _ member => nomatch member⟩

omit [LinearOrder ι] in
theorem nodup_map_append {κ : Type} {key : Notification ι → κ} {rows : List (Notification ι)}
    {n : Notification ι} (distinct : (rows.map key).Nodup) (new : ∀ m ∈ rows, key m ≠ key n) :
    ((rows ++ [n]).map key).Nodup := by
  rw [List.map_append, List.map_singleton, List.nodup_append]
  refine ⟨distinct, List.nodup_singleton _, ?_⟩
  rintro k inside _ last rfl
  obtain ⟨m, member, same⟩ := List.mem_map.mp inside
  exact new m member (same.trans (List.mem_singleton.mp last))

omit [LinearOrder ι] in
theorem references_append (t : Tables ι) (n : Notification ι) :
    ∀ s ∈ t.states, s.notificationID ∈ (t.notifications ++ [n]).map Notification.id := by
  intro s member
  rw [List.map_append]
  exact List.mem_append_left _ (t.references s member)

def Tables.append (t : Tables ι) (n : Notification ι)
    (newID : ∀ m ∈ t.notifications, m.id ≠ n.id)
    (newSource : ∀ m ∈ t.notifications, m.sourceKey ≠ n.sourceKey) : Tables ι where
  notifications := t.notifications ++ [n]
  states := t.states
  ids_nodup := nodup_map_append t.ids_nodup newID
  sources_nodup := nodup_map_append t.sources_nodup newSource
  keys_nodup := t.keys_nodup
  references := references_append t n

/-- A row of the same source and identifier stays and is returned. -/
def insertNotification (t : Tables ι) (n : Notification ι) :
    Option (Notification ι × Tables ι) :=
  match t.notifications.find? (·.sourceKey = n.sourceKey) with
  | some row => some (row, t)
  | none =>
    if new : (∀ m ∈ t.notifications, m.id ≠ n.id) ∧
        ∀ m ∈ t.notifications, m.sourceKey ≠ n.sourceKey then
      some (n, t.append n new.1 new.2)
    else none

/-- The parameters of the insertion; the database sets the time. -/
def RecordInput.row (input : RecordInput) (source : Source) (severity : Severity) (id : ι)
    (now : Time) : Notification ι where
  id := id
  tenantID := if Text.trimSpace input.tenantID = [] then none
    else some (Text.trimSpace input.tenantID)
  source := source
  sourceID := input.sourceID
  severity := severity
  title := input.title
  body := input.body
  link := input.link
  createdAt := now

/-- `id` is the identifier drawn for the row. -/
def recordEvent (t : Tables ι) (now : Time) (input : RecordInput) (id : ι) :
    Except Failure (Event ι) × Tables ι :=
  match Source.ofText input.source, severityOfText input.severity with
  | none, _ => (.error (.refused "notifycenter: invalid source"), t)
  | some _, none => (.error (.refused "notifycenter: invalid severity"), t)
  | some source, some severity =>
    if Text.trimSpace input.sourceID = [] then
      (.error (.refused "notifycenter: source_id is required"), t)
    else if Text.trimSpace input.title = [] then
      (.error (.refused "notifycenter: title is required"), t)
    else
      match insertNotification t (input.row source severity id now) with
      | none => (.error .database, t)
      | some (row, t') => (.ok (rowToEvent row none now), t')

/-! ### The state of a user -/

/-- `INSERT … VALUES … ON CONFLICT (notification_id, user_subject) DO UPDATE SET …`: the values, and
for each column what it is set to, from the old value and the one that was to be inserted. -/
structure Upsert where
  readAt : Option Time := none
  dismissedAt : Option Time := none
  snoozedUntil : Option Time := none
  setReadAt : Option Time → Option Time → Option Time := fun old _ => old
  setDismissedAt : Option Time → Option Time → Option Time := fun old _ => old
  setSnoozedUntil : Option Time → Option Time → Option Time := fun old _ => old

def coalesce (old excluded : Option Time) : Option Time := old <|> excluded

def upsertUserStateRead (now : Time) : Upsert :=
  { readAt := some now, setReadAt := coalesce }

def upsertUserStateDismiss (now : Time) : Upsert :=
  { dismissedAt := some now, readAt := some now
    setDismissedAt := fun _ excluded => excluded, setReadAt := coalesce }

def upsertUserStateSnooze (until' : Option Time) : Upsert :=
  { snoozedUntil := until', setSnoozedUntil := fun _ excluded => excluded }

def Upsert.fresh (u : Upsert) (id : ι) (user : Name) : StateRow ι :=
  ⟨id, user, u.readAt, u.dismissedAt, u.snoozedUntil⟩

def Upsert.update (u : Upsert) (s : StateRow ι) : StateRow ι :=
  { s with
    readAt := u.setReadAt s.readAt u.readAt
    dismissedAt := u.setDismissedAt s.dismissedAt u.dismissedAt
    snoozedUntil := u.setSnoozedUntil s.snoozedUntil u.snoozedUntil }

omit [LinearOrder ι] in
theorem Upsert.update_key (u : Upsert) (s : StateRow ι) : (u.update s).key = s.key := rfl

def upsertRows (t : Tables ι) (u : Upsert) (user : Name) (id : ι) : List (StateRow ι) :=
  Relational.upsert StateRow.key (u.fresh id user) u.update t.states

theorem upsertRows_references {t : Tables ι} {id : ι}
    (known : id ∈ t.notifications.map Notification.id) (u : Upsert) (user : Name) :
    ∀ s ∈ upsertRows t u user id, s.notificationID ∈ t.notifications.map Notification.id := by
  intro s member
  rcases Relational.mem_upsert u.update_key member with same | ⟨old, inside, same⟩
  · have same : s.notificationID = id := congrArg Prod.fst same
    rwa [same]
  · have same : s.notificationID = old.notificationID := congrArg Prod.fst same
    rw [same]
    exact t.references old inside

/-- The database refuses a row for a notification that is not there. -/
def upsertState (t : Tables ι) (u : Upsert) (user : Name) (id : ι) : Option (Tables ι) :=
  if known : id ∈ t.notifications.map Notification.id then
    some { t with
      states := upsertRows t u user id
      keys_nodup := Relational.nodup_upsert u.update_key t.keys_nodup
      references := upsertRows_references known u user }
  else none

/-- The calls for one notification; they differ in the statement. -/
def mark (uuids : UUIDs ι) (t : Tables ι) (u : Upsert) (user id : Name) :
    Except Failure Unit × Tables ι :=
  match uuids.parse id with
  | none => (.error (.refused "notifycenter: invalid notification id"), t)
  | some pgID =>
    match upsertState t u user pgID with
    | none => (.error .database, t)
    | some t' => (.ok (), t')

def markRead (uuids : UUIDs ι) (t : Tables ι) (now : Time) (user id : Name) :
    Except Failure Unit × Tables ι := mark uuids t (upsertUserStateRead now) user id

def markDismissed (uuids : UUIDs ι) (t : Tables ι) (now : Time) (user id : Name) :
    Except Failure Unit × Tables ι := mark uuids t (upsertUserStateDismiss now) user id

/-- The zero time clears the snooze. -/
def snooze (uuids : UUIDs ι) (t : Tables ι) (user id : Name) (until' : Time) :
    Except Failure Unit × Tables ι :=
  mark uuids t (upsertUserStateSnooze (if until' = 0 then none else some until')) user id

/-- `notifications n LEFT JOIN notification_state s`, on the identifier and the user. -/
def joined (t : Tables ι) (user : Name) : List (Notification ι × Option (StateRow ι)) :=
  Relational.leftJoin (fun n s => s.notificationID = n.id ∧ s.userSubject = user)
    t.notifications t.states

/-- `s.read_at IS NULL AND s.dismissed_at IS NULL` -/
def untouched (s : Option (StateRow ι)) : Bool :=
  (s.bind StateRow.readAt).isNone && (s.bind StateRow.dismissedAt).isNone

/-- The rows of a bulk statement, one after the other. -/
def upsertAll (u : Upsert) (user : Name) (ids : List ι) (t : Tables ι) : Tables ι :=
  ids.foldl (fun t id => (upsertState t u user id).getD t) t

/-- The update of the statement is that of a single notification. -/
def markAllRead (t : Tables ι) (now : Time) (user : Name) : Tables ι :=
  upsertAll (upsertUserStateRead now) user
    (((joined t user).filter fun row => untouched row.2).map fun row => row.1.id) t

/-- `s.snoozed_until IS NULL OR s.snoozed_until <= now()` -/
def awake (s : Option (StateRow ι)) (now : Time) : Bool :=
  (s.bind StateRow.snoozedUntil).all (· ≤ now)

def unreadCountForUser (t : Tables ι) (now : Time) (user : Name) : Nat :=
  ((joined t user).filter fun row => untouched row.2 && awake row.2 now).length

/-! ### Runs -/

inductive Operation (ι : Type) where
  | recordEvent (input : RecordInput) (id : ι)
  | markRead (user id : Name)
  | markDismissed (user id : Name)
  | snooze (user id : Name) (until' : Time)
  | markAllRead (user : Name)

/-- Whose operation it is; events are recorded by the system. -/
def Operation.user : Operation ι → Option Name
  | .recordEvent _ _ => none
  | .markRead user _ | .markDismissed user _ | .snooze user _ _ | .markAllRead user => some user

def Operation.run (uuids : UUIDs ι) (now : Time) (t : Tables ι) : Operation ι → Tables ι
  | .recordEvent input id => (Bell.recordEvent t now input id).2
  | .markRead user id => (Bell.markRead uuids t now user id).2
  | .markDismissed user id => (Bell.markDismissed uuids t now user id).2
  | .snooze user id until' => (Bell.snooze uuids t user id until').2
  | .markAllRead user => Bell.markAllRead t now user

/-- The tables after operations, each at some time. -/
def after (uuids : UUIDs ι) (ops : List (Time × Operation ι)) : Tables ι :=
  ops.foldl (fun t timed => timed.2.run uuids timed.1 t) Tables.empty

/-- The operation records an event that was not there. -/
def Operation.recordsNew (t : Tables ι) : Operation ι → Bool
  | .recordEvent input id =>
    match Source.ofText input.source, severityOfText input.severity with
    | some source, some _ =>
      Text.trimSpace input.sourceID ≠ [] && Text.trimSpace input.title ≠ [] &&
        t.notifications.all fun m => m.sourceKey ≠ (source, input.sourceID) && m.id ≠ id
    | _, _ => false
  | _ => false

/-! ### Badge and list -/

/-- The notification counts as unread for a user with this row. -/
def unread (now : Time) (s : Option (StateRow ι)) : Bool := untouched s && awake s now

variable {uuids : UUIDs ι} {t t' : Tables ι} {user : Name} {now : Time}

theorem joined_eq (t : Tables ι) (user : Name) :
    joined t user = t.notifications.map fun n => (n, stateOf t user n.id) :=
  Relational.leftJoin_of_unique fun n _ => states_of_user t user n.id

theorem unreadCount_eq (t : Tables ι) (now : Time) (user : Name) :
    unreadCountForUser t now user =
      t.notifications.countP fun n => unread now (stateOf t user n.id) := by
  rw [unreadCountForUser, joined_eq, ← List.countP_eq_length_filter, List.countP_map]
  rfl

theorem applyFilter_unread (n : Notification ι) :
    applyFilter (eventOf t user now n) { onlyUnread := true } now =
      unread now (stateOf t user n.id) := by
  rw [eventOf]
  cases stateOf t user n.id with
  | none => rfl
  | some s =>
    obtain ⟨_, _, readAt, dismissedAt, snoozedUntil⟩ := s
    have past (until' : Time) : decide (now < until') = !decide (until' ≤ now) := by
      rw [Bool.eq_iff_iff]
      simp
    cases readAt <;> cases dismissedAt <;> cases snoozedUntil <;>
      simp [applyFilter, rowToEvent, userState, unread, untouched, awake, past]

theorem matching_unread (t : Tables ι) (now : Time) (user : Name) :
    (matching t user now { onlyUnread := true }).length = unreadCountForUser t now user := by
  have rows : (chosen t { onlyUnread := true }).Perm t.notifications := by
    have all : (t.notifications.filter fun _ => true) = t.notifications := by simp
    exact all ▸ newestFirst_perm _ _
  rw [unreadCount_eq, matching, candidates, ← List.countP_eq_length_filter, List.countP_map,
    ← rows.countP_eq]
  refine List.countP_congr fun n _ => ?_
  rw [Function.comp_apply, applyFilter_unread]

/-! ### What an operation does -/

theorem stateOf_eq (t : Tables ι) (user : Name) (id : ι) :
    stateOf t user id = Relational.lookup StateRow.key (id, user) t.states := by
  simp [stateOf, Relational.lookup, StateRow.key]

theorem upsertState_notifications {u : Upsert} {id : ι} (done : upsertState t u user id = some t') :
    t'.notifications = t.notifications := by
  rw [upsertState] at done
  split at done
  · cases done
    rfl
  · cases done

theorem stateOf_upsertState {u : Upsert} {id : ι} (done : upsertState t u user id = some t')
    (other : Name) (id' : ι) : stateOf t' other id' =
      if id' = id ∧ other = user then
        some (((stateOf t user id).map u.update).getD (u.fresh id user))
      else stateOf t other id' := by
  rw [upsertState] at done
  split at done
  · cases done
    have changed : Relational.lookup StateRow.key (id', other) (upsertRows t u user id) = _ :=
      Relational.lookup_upsert u.update_key _
    rw [stateOf_eq, stateOf_eq, stateOf_eq]
    refine changed.trans ?_
    have key : (u.fresh id user).key = (id, user) := rfl
    simp only [key, Prod.mk.injEq]
    split_ifs with same
    · rw [same.1, same.2]
    · rfl
  · cases done

/-- Nothing changes for the other users. -/
def SameForOthers (user : Name) (t t' : Tables ι) : Prop :=
  t'.notifications = t.notifications ∧
    ∀ other id, user ≠ other → stateOf t' other id = stateOf t other id

theorem SameForOthers.refl : SameForOthers user t t := ⟨rfl, fun _ _ _ => rfl⟩

theorem SameForOthers.trans {t'' : Tables ι} (first : SameForOthers user t t')
    (second : SameForOthers user t' t'') : SameForOthers user t t'' :=
  ⟨second.1.trans first.1, fun other id apart =>
    (second.2 other id apart).trans (first.2 other id apart)⟩

theorem sameForOthers_upsert (t : Tables ι) (u : Upsert) (user : Name) (id : ι) :
    SameForOthers user t ((upsertState t u user id).getD t) := by
  cases done : upsertState t u user id with
  | none => exact .refl
  | some t' =>
    refine ⟨upsertState_notifications done, fun other id' apart => ?_⟩
    rw [Option.getD_some, stateOf_upsertState done, if_neg]
    exact fun same => apart same.2.symm

theorem sameForOthers_mark (u : Upsert) (id : Name) :
    SameForOthers user t (mark uuids t u user id).2 := by
  rw [mark]
  cases uuids.parse id with
  | none => exact .refl
  | some pgID =>
    have same := sameForOthers_upsert t u user pgID
    dsimp only
    cases done : upsertState t u user pgID with
    | none => exact .refl
    | some t' => simpa [done] using same

theorem sameForOthers_upsertAll (u : Upsert) (ids : List ι) (t : Tables ι) :
    SameForOthers user t (upsertAll u user ids t) := by
  induction ids generalizing t with
  | nil => exact .refl
  | cons id ids ih => exact (sameForOthers_upsert t u user id).trans (ih _)

theorem insertNotification_cases (t : Tables ι) (n : Notification ι) :
    if t.notifications.all fun m => m.sourceKey ≠ n.sourceKey && m.id ≠ n.id then
      ∃ t', insertNotification t n = some (n, t') ∧ (∀ m ∈ t.notifications, m.id ≠ n.id) ∧
        t'.notifications = t.notifications ++ [n] ∧ t'.states = t.states
    else insertNotification t n = none ∨ ∃ row, insertNotification t n = some (row, t) := by
  rw [insertNotification]
  split
  next new =>
    have new (m) (member : m ∈ t.notifications) : m.sourceKey ≠ n.sourceKey ∧ m.id ≠ n.id := by
      simpa using List.all_eq_true.mp new m member
    have absent : t.notifications.find? (·.sourceKey = n.sourceKey) = none :=
      List.find?_eq_none.mpr fun m member => by simpa using (new m member).1
    rw [absent]
    exact ⟨t.append n (fun m member => (new m member).2) fun m member => (new m member).1,
      dif_pos ⟨fun m member => (new m member).2, fun m member => (new m member).1⟩,
      fun m member => (new m member).2, rfl, rfl⟩
  next old =>
    cases t.notifications.find? (·.sourceKey = n.sourceKey) with
    | some row => exact .inr ⟨row, rfl⟩
    | none =>
      refine .inl (dif_neg fun new => old (List.all_eq_true.mpr fun m member => ?_))
      simpa using ⟨new.2 m member, new.1 m member⟩

/-- An event is recorded as a new row that no user has a state for, or nothing changes. -/
theorem recordEvent_cases (t : Tables ι) (now : Time) (input : RecordInput) (id : ι) :
    if (Operation.recordEvent input id).recordsNew t then
      ∃ n, (∀ m ∈ t.notifications, m.id ≠ n.id) ∧
        (recordEvent t now input id).2.notifications = t.notifications ++ [n] ∧
        (recordEvent t now input id).2.states = t.states
    else (recordEvent t now input id).2 = t := by
  rw [Operation.recordsNew, recordEvent]
  cases Source.ofText input.source with
  | none => simp
  | some source =>
    cases severityOfText input.severity with
    | none => simp
    | some severity =>
      simp only
      by_cases noID : Text.trimSpace input.sourceID = []
      · simp [noID]
      by_cases noTitle : Text.trimSpace input.title = []
      · simp [noID, noTitle]
      rw [if_neg noID, if_neg noTitle]
      have inserted := insertNotification_cases t (input.row source severity id now)
      have key : (input.row source severity id now).sourceKey = (source, input.sourceID) := rfl
      have drawn : (input.row source severity id now).id = id := rfl
      rw [key, drawn] at inserted
      split at inserted
      next new =>
        obtain ⟨t', done, fresh, rows, states⟩ := inserted
        rw [if_pos (by simpa [noID, noTitle] using new)]
        simp only [done]
        exact ⟨_, fresh, rows, states⟩
      next old =>
        rw [if_neg (by simpa [noID, noTitle] using old)]
        rcases inserted with done | ⟨row, done⟩ <;> simp only [done]

theorem stateOf_new {n : Notification ι} (new : ∀ m ∈ t.notifications, m.id ≠ n.id) :
    stateOf t user n.id = none := by
  refine List.find?_eq_none.mpr fun s member same => ?_
  obtain ⟨m, inside, equal⟩ := List.mem_map.mp (t.references s member)
  have same : s.notificationID = n.id ∧ s.userSubject = user := by simpa using same
  exact new m inside (equal.trans same.1)

theorem unreadCount_congr (rows : t'.notifications = t.notifications)
    (states : ∀ id, stateOf t' user id = stateOf t user id) :
    unreadCountForUser t' now user = unreadCountForUser t now user := by
  rw [unreadCount_eq, unreadCount_eq, rows]
  simp only [states]

theorem unreadCount_append {n : Notification ι} (new : ∀ m ∈ t.notifications, m.id ≠ n.id)
    (rows : t'.notifications = t.notifications ++ [n]) (states : t'.states = t.states) :
    unreadCountForUser t' now user = unreadCountForUser t now user + 1 := by
  have same (id : ι) : stateOf t' user id = stateOf t user id := by rw [stateOf, stateOf, states]
  rw [unreadCount_eq, unreadCount_eq, rows, List.countP_append]
  simp only [same]
  rw [List.countP_singleton, stateOf_new new]
  rfl

theorem unreadCount_run (op : Operation ι) (instant : Time) (others : op.user ≠ some user) :
    unreadCountForUser (op.run uuids instant t) now user =
      unreadCountForUser t now user + if op.recordsNew t then 1 else 0 := by
  have apart {who : Name} (same : SameForOthers who t (op.run uuids instant t))
      (user' : op.user = some who) (none : op.recordsNew t = false) :
      unreadCountForUser (op.run uuids instant t) now user =
        unreadCountForUser t now user + if op.recordsNew t then 1 else 0 := by
    rw [none]
    refine unreadCount_congr same.1 fun id => same.2 user id ?_
    rintro rfl
    exact others user'
  cases op with
  | recordEvent input id =>
    have recorded := recordEvent_cases t instant input id
    split at recorded
    next new =>
      obtain ⟨n, fresh, rows, states⟩ := recorded
      rw [if_pos new]
      exact unreadCount_append fresh rows states
    next old =>
      rw [if_neg old, Operation.run, recorded, Nat.add_zero]
  | markRead who id => exact apart (sameForOthers_mark _ id) rfl rfl
  | markDismissed who id => exact apart (sameForOthers_mark _ id) rfl rfl
  | snooze who id until' => exact apart (sameForOthers_mark _ id) rfl rfl
  | markAllRead who => exact apart (sameForOthers_upsertAll _ _ t) rfl rfl

/-! ### Marking all -/

theorem untouched_upsert (id id' : ι) (instant : Time)
    (known : id' ∈ t.notifications.map Notification.id)
    (touched : untouched (stateOf t user id') = false ∨ id' = id) :
    untouched (stateOf ((upsertState t (upsertUserStateRead instant) user id).getD t) user id') =
      false := by
  cases done : upsertState t (upsertUserStateRead instant) user id with
  | none =>
    refine touched.resolve_right fun same => ?_
    rw [upsertState, dif_pos (same ▸ known)] at done
    cases done
  | some t' =>
    rw [Option.getD_some, stateOf_upsertState done]
    split
    · cases stateOf t user id with
      | none => rfl
      | some s =>
        obtain ⟨_, _, readAt, _, _⟩ := s
        cases readAt <;> rfl
    next other => exact touched.resolve_right fun same => other ⟨same, rfl⟩

theorem untouched_upsertAll (ids : List ι) (instant : Time) (id : ι)
    (known : id ∈ t.notifications.map Notification.id)
    (touched : untouched (stateOf t user id) = false ∨ id ∈ ids) :
    untouched (stateOf (upsertAll (upsertUserStateRead instant) user ids t) user id) = false := by
  induction ids generalizing t with
  | nil => exact touched.resolve_right (List.not_mem_nil)
  | cons first ids ih =>
    have rows := (sameForOthers_upsert t (upsertUserStateRead instant) user first).1
    refine ih (rows ▸ known) ?_
    rcases touched with touched | member
    · exact .inl (untouched_upsert first id instant known (.inl touched))
    · rcases List.mem_cons.mp member with same | member
      · exact .inl (untouched_upsert first id instant known (.inr same))
      · exact .inr member

theorem unreadCount_markAllRead (t : Tables ι) (instant now : Time) (user : Name) :
    unreadCountForUser (markAllRead t instant user) now user = 0 := by
  have rows : (markAllRead t instant user).notifications = t.notifications :=
    (sameForOthers_upsertAll _ _ t).1
  rw [unreadCount_eq, rows, List.countP_eq_zero]
  intro n member
  have known := List.mem_map_of_mem (f := Notification.id) member
  have touched : untouched (stateOf (markAllRead t instant user) user n.id) = false := by
    refine untouched_upsertAll _ instant n.id known ?_
    -- A notification is chosen by the statement unless it has been read or dismissed.
    by_cases fresh : untouched (stateOf t user n.id) = true
    · right
      rw [joined_eq]
      refine List.mem_map.mpr ⟨(n, stateOf t user n.id), List.mem_filter.mpr ⟨?_, fresh⟩, rfl⟩
      exact List.mem_map.mpr ⟨n, member, rfl⟩
    · exact .inl (by simpa using fresh)
  simp [unread, touched]

/-- The badge shows how many notifications the list of unread ones has. Marking all as read brings
it to zero. An operation of someone else leaves it, but for a new event, which adds one. -/
theorem badge_agrees (uuids : UUIDs ι) (ops : List (Time × Operation ι)) (user : Name) :
    (∀ now, unreadCountForUser (after uuids ops) now user =
      (matching (after uuids ops) user now { onlyUnread := true }).length) ∧
    (∀ instant now,
      unreadCountForUser (markAllRead (after uuids ops) instant user) now user = 0) ∧
    (∀ op instant now, Operation.user op ≠ some user →
      unreadCountForUser (op.run uuids instant (after uuids ops)) now user =
        unreadCountForUser (after uuids ops) now user +
          if op.recordsNew (after uuids ops) then 1 else 0) :=
  ⟨fun now => (matching_unread _ now user).symm, fun instant now =>
    unreadCount_markAllRead _ instant now user, fun op instant _ others =>
    unreadCount_run op instant others⟩

def diskEvent (sourceID : Name) : RecordInput :=
  ⟨"system".toList, sourceID, "critical".toList, "disk".toList, [], [], []⟩

/-- Two events, one of them reported twice, and a snooze that is over. -/
def sampleOperations : List (Time × Operation Nat) :=
  [(1, .recordEvent (diskEvent "sda".toList) 1), (2, .recordEvent (diskEvent "sdb".toList) 2),
    (3, .recordEvent (diskEvent "sda".toList) 3), (4, .snooze "ann".toList "x".toList 8)]

theorem badge_of_two :
    unreadCountForUser (Operation.run tallies 5 (after tallies sampleOperations)
      (.markAllRead "bob".toList)) 9 "ann".toList = 2 :=
  ((badge_agrees tallies sampleOperations "ann".toList).2.2 (.markAllRead "bob".toList) 5 9
    (by decide)).trans (by decide +kernel)

end NovaNas.Notifycenter.Bell
