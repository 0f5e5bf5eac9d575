import Mathlib.Data.Prod.Lex
import NovaNas.Base.Paging
import NovaNas.Base.Text

/-!
# The notification center

Notifications are rows that never change; what a user has read, dismissed or snoozed is in rows of
the user's own. The list reads both tables and filters in memory, the badge counts in the database.
-/
namespace NovaNas.Notifycenter

abbrev Name := List Char

/-- In nanoseconds since the zero time. -/
abbrev Time := Int

inductive Severity where
  | info
  | warning
  | critical
  deriving DecidableEq, Repr

namespace Bell

variable {ι : Type} [LinearOrder ι]

inductive Source where
  | alertmanager
  | jobs
  | audit
  | system
  deriving DecidableEq, Repr

def Source.ofText (s : Name) : Option Source :=
  if s = "alertmanager".toList then some .alertmanager
  else if s = "jobs".toList then some .jobs
  else if s = "audit".toList then some .audit
  else if s = "system".toList then some .system
  else none

def severityOfText (s : Name) : Option Severity :=
  if s = "info".toList then some .info
  else if s = "warning".toList then some .warning
  else if s = "critical".toList then some .critical
  else none

/-! ### The tables -/

structure Notification (ι : Type) where
  id : ι
  tenantID : Option Name
  source : Source
  sourceID : Name
  severity : Severity
  title : Name
  body : Name
  link : Name
  createdAt : Time
  deriving DecidableEq, Repr

def Notification.sourceKey (n : Notification ι) : Source × Name := (n.source, n.sourceID)

structure StateRow (ι : Type) where
  notificationID : ι
  userSubject : Name
  readAt : Option Time := none
  dismissedAt : Option Time := none
  snoozedUntil : Option Time := none
  deriving DecidableEq, Repr

def StateRow.key (s : StateRow ι) : ι × Name := (s.notificationID, s.userSubject)

/-- The two tables with their keys. -/
structure Tables (ι : Type) where
  notifications : List (Notification ι)
  states : List (StateRow ι)
  ids_nodup : (notifications.map Notification.id).Nodup
  sources_nodup : (notifications.map Notification.sourceKey).Nodup
  keys_nodup : (states.map StateRow.key).Nodup
  references : ∀ s ∈ states, s.notificationID ∈ notifications.map Notification.id

/-! ### Events -/

structure UserState where
  readAt : Option Time := none
  read : Bool := false
  dismissedAt : Option Time := none
  dismissed : Bool := false
  snoozedUntil : Option Time := none
  snoozed : Bool := false
  deriving DecidableEq, Repr

structure Event (ι : Type) extends Notification ι where
  userState : UserState
  deriving DecidableEq, Repr

def userState (now : Time) : Option (StateRow ι) → UserState
  | none => {}
  | some state => {
    readAt := state.readAt
    read := state.readAt.isSome
    dismissedAt := state.dismissedAt
    dismissed := state.dismissedAt.isSome
    snoozedUntil := state.snoozedUntil
    snoozed := state.snoozedUntil.any (now < ·) }

def rowToEvent (row : Notification ι) (state : Option (StateRow ι)) (now : Time) : Event ι :=
  { row with userState := userState now state }

structure ListFilter where
  severity : Option Severity := none
  source : Option Source := none
  onlyUnread : Bool := false
  includeDismissed : Bool := false
  includeSnoozed : Bool := false
  onlySnoozed : Bool := false
  limit : Int := 0
  /-- The zero time, 0, stands for no cursor. -/
  cursorTime : Time := 0
  cursorID : Name := []
  deriving DecidableEq, Repr

def applyFilter (ev : Event ι) (f : ListFilter) (now : Time) : Bool :=
  if f.onlyUnread && ev.userState.read then false
  else if !f.includeDismissed && ev.userState.dismissed then false
  else
    let snoozedNow := ev.userState.snoozedUntil.any (now < ·)
    if f.onlySnoozed then snoozedNow
    else if !f.includeSnoozed && snoozedNow then false
    else true

/-! ### The list -/

/-- What the list assumes of the library for identifiers: it reads the text it writes. -/
structure UUIDs (ι : Type) where
  toText : ι → Name
  parse : Name → Option ι
  parse_toText : ∀ id, parse (toText id) = some id

def Notification.key (n : Notification ι) : Time ×ₗ ι := toLex (n.createdAt, n.id)

/-- A row comes after a cursor. Without an identifier in the cursor rows of its time do not. -/
def Notification.after (n : Notification ι) : Option (Time × Option ι) → Bool
  | none => true
  | some (ts, id) => n.createdAt < ts || (n.createdAt = ts && id.any (n.id < ·))

def listNotifications (t : Tables ι) (severity : Option Severity)
    (source : Option Source) (cursor : Option (Time × Option ι)) (limit : Nat) :
    List (Notification ι) :=
  (Paging.newestFirst Notification.key (t.notifications.filter fun n =>
    severity.all (n.severity = ·) && source.all (n.source = ·) && n.after cursor)).take limit

def listUserStates (t : Tables ι) (user : Name) (ids : List ι) : List (StateRow ι) :=
  t.states.filter fun s => s.userSubject = user && ids.contains s.notificationID

/-- The map from identifiers to rows, in which a later row replaces an earlier one. -/
def stateMap (states : List (StateRow ι)) (id : ι) : Option (StateRow ι) :=
  (states.filter fun s => s.notificationID = id).getLast?

def effectiveLimit (limit : Int) : Nat := if limit ≤ 0 ∨ limit > 500 then 50 else limit.toNat

def ListFilter.cursor (f : ListFilter) (uuids : UUIDs ι) : Option (Time × Option ι) :=
  if f.cursorTime = 0 then none else some (f.cursorTime, uuids.parse f.cursorID)

def listForUser (uuids : UUIDs ι) (t : Tables ι) (user : Name) (f : ListFilter)
    (now : Time) : List (Event ι) :=
  let rows := listNotifications t f.severity f.source (f.cursor uuids) (effectiveLimit f.limit)
  let states := stateMap (listUserStates t user (rows.map Notification.id))
  (rows.map fun row => rowToEvent row (states row.id) now).filter fun ev => applyFilter ev f now

/-! ### The state of a user -/

def stateOf (t : Tables ι) (user : Name) (id : ι) : Option (StateRow ι) :=
  t.states.find? fun s => s.notificationID = id ∧ s.userSubject = user

/-- A notification as the user sees it. -/
def eventOf (t : Tables ι) (user : Name) (now : Time) (n : Notification ι) : Event ι :=
  rowToEvent n (stateOf t user n.id) now

variable {t : Tables ι} {user : Name}

/-- A user has at most one state row for a notification. -/
theorem states_of_user (t : Tables ι) (user : Name) (id : ι) :
    t.states.filter (fun s => s.notificationID = id ∧ s.userSubject = user) =
      (stateOf t user id).toList := by
  rw [stateOf, ← List.head?_filter]
  have nodup := t.keys_nodup.sublist ((List.filter_sublist (l := t.states)
    (p := fun s => s.notificationID = id ∧ s.userSubject = user)).map StateRow.key)
  have same : ∀ s ∈ t.states.filter (fun s => s.notificationID = id ∧ s.userSubject = user),
      s.key = (id, user) := by
    intro s member
    simpa [StateRow.key] using (List.mem_filter.mp member).2
  generalize t.states.filter (fun s => s.notificationID = id ∧ s.userSubject = user) = rows
    at nodup same
  rcases rows with _ | ⟨a, _ | ⟨b, rows⟩⟩
  · rfl
  · rfl
  · -- Two rows would have the same key.
    rw [List.map_cons, List.map_cons, same a (by simp), same b (by simp)] at nodup
    simp at nodup

theorem stateMap_eq {ids : List ι} {id : ι} (member : id ∈ ids) :
    stateMap (listUserStates t user ids) id = stateOf t user id := by
  have rows : (listUserStates t user ids).filter (fun s => s.notificationID = id) =
      t.states.filter (fun s => s.notificationID = id ∧ s.userSubject = user) := by
    rw [listUserStates, List.filter_filter]
    refine List.filter_congr fun s _ => ?_
    by_cases same : s.notificationID = id
    · simp [same, member]
    · simp [same]
  rw [stateMap, rows, states_of_user]
  cases stateOf t user id <;> rfl

end Bell

end NovaNas.Notifycenter
