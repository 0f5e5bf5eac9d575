import NovaNas.Base.Rfc3339
import NovaNas.Notifycenter.Bell

/-!
# Listing notifications

The database filters by severity and source and cuts the page; what the user has read, dismissed or
snoozed is filtered afterwards. A cursor is given out only with a page that is still full then, so
that one hidden row on a page ends the listing.
-/
namespace NovaNas.Notifycenter.Bell

open Paging

variable {ι : Type} [LinearOrder ι]

/-! ### The handler -/

structure Query where
  severity : Name := []
  source : Name := []
  unread : Name := []
  includeDismissed : Name := []
  includeSnoozed : Name := []
  onlySnoozed : Name := []
  limit : Name := []
  deriving DecidableEq, Repr

structure Rejection where
  status : Nat
  code : String
  message : String
  deriving DecidableEq, Repr

def isTrue (s : Name) : Bool := s = "true".toList

/-- A limit that is no positive number of 32 bits is none. -/
def parseLimit (s : Name) : Int :=
  match Text.atoi s with
  | some n => if 0 < n ∧ n ≤ 2 ^ 31 - 1 then n else 0
  | none => 0

/-- Time and identifier of a cursor. One that cannot be read is none. -/
def parseCursor (cursor : Name) : Time × Name :=
  match Text.cut '|' cursor with
  | some (before, after) =>
    if before = [] then (0, [])
    else
      match Rfc3339.parse before with
      | some t => (t, after)
      | none => (0, [])
  | none => (0, [])

def Query.listFilter (q : Query) (cursor : Name) : Except Rejection ListFilter :=
  if q.severity ≠ [] ∧ (severityOfText q.severity).isNone then
    .error ⟨400, "invalid_query", "severity must be info|warning|critical"⟩
  else if q.source ≠ [] ∧ (Source.ofText q.source).isNone then
    .error ⟨400, "invalid_query", "source must be alertmanager|jobs|audit|system"⟩
  else .ok {
    severity := severityOfText q.severity
    source := Source.ofText q.source
    onlyUnread := isTrue q.unread
    includeDismissed := isTrue q.includeDismissed
    includeSnoozed := isTrue q.includeSnoozed || isTrue q.onlySnoozed
    onlySnoozed := isTrue q.onlySnoozed
    limit := parseLimit q.limit
    cursorTime := (parseCursor cursor).1
    cursorID := (parseCursor cursor).2 }

def cursorOf (uuids : UUIDs ι) (ev : Event ι) : Name :=
  Rfc3339.format ev.createdAt ++ '|' :: uuids.toText ev.id

def list (uuids : UUIDs ι) (t : Tables ι) (user : Name) (now : Time) (q : Query) (cursor : Name) :
    Except Rejection (Page (Event ι)) := do
  let f ← q.listFilter cursor
  let events := listForUser uuids t user f now
  return ⟨events, if events ≠ [] ∧ f.limit > 0 ∧ (events.length : Int) = f.limit then
    (events.getLast?.map (cursorOf uuids)).getD [] else []⟩

/-! ### What is to be listed -/

/-- The rows of the severity and source, newest first. -/
def chosen (t : Tables ι) (f : ListFilter) : List (Notification ι) :=
  newestFirst Notification.key (t.notifications.filter fun n =>
    f.severity.all (n.severity = ·) && f.source.all (n.source = ·))

def candidates (t : Tables ι) (user : Name) (now : Time) (f : ListFilter) : List (Event ι) :=
  (chosen t f).map (eventOf t user now)

def matching (t : Tables ι) (user : Name) (now : Time) (f : ListFilter) : List (Event ι) :=
  (candidates t user now f).filter (applyFilter · f now)

/-! ### Pages -/

variable {uuids : UUIDs ι} {t : Tables ι} {user : Name} {now : Time} {f : ListFilter} {q : Query}

omit [LinearOrder ι] in
theorem keys_nodup (t : Tables ι) : (t.notifications.map Notification.key).Nodup := by
  refine List.Nodup.of_map (fun k => (ofLex k).2) ?_
  rw [List.map_map]
  exact t.ids_nodup

omit [LinearOrder ι] in
/-- A cursor names its row, unless the year of the row does not have four digits. -/
theorem parseCursor_cursorOf (ev : Event ι) : parseCursor (cursorOf uuids ev) =
    if Rfc3339.Readable ev.createdAt then (ev.createdAt, uuids.toText ev.id) else (0, []) := by
  have noBar : '|' ∉ Rfc3339.format ev.createdAt :=
    Rfc3339.not_mem_format (by decide) (by decide) _
  rw [parseCursor, cursorOf, Text.cut_append noBar]
  simp only [if_neg (Rfc3339.format_ne_nil _)]
  split_ifs with readable
  · simp only [Rfc3339.parse_format readable]
  · simp only [Rfc3339.parse_format_unreadable readable]

theorem after_iff (n m : Notification ι) :
    n.after (some (m.createdAt, some m.id)) = decide (n.key < m.key) := by
  rw [Bool.eq_iff_iff]
  simp [Notification.after, Notification.key, Prod.Lex.toLex_lt_toLex]

theorem listNotifications_eq (cursor : Option (Time × Option ι)) (limit : Nat) :
    listNotifications t f.severity f.source cursor limit =
      ((chosen t f).filter (Notification.after · cursor)).take limit := by
  have fewer : ((t.notifications.filter fun n => f.severity.all (n.severity = ·) &&
      f.source.all (n.source = ·)).map Notification.key).Nodup :=
    (keys_nodup t).sublist (List.filter_sublist.map _)
  rw [listNotifications, chosen, ← newestFirst_filter fewer, List.filter_filter]
  congr 3
  funext n
  rw [Bool.and_comm]

theorem listForUser_eq : listForUser uuids t user f now =
    ((((chosen t f).filter (Notification.after · (f.cursor uuids))).map (eventOf t user now)).take
      (effectiveLimit f.limit)).filter (applyFilter · f now) := by
  rw [listForUser, listNotifications_eq, ← List.map_take]
  congr 1
  refine List.map_congr_left fun n member => ?_
  rw [eventOf, stateMap_eq (List.mem_map_of_mem member)]

omit [LinearOrder ι] in
theorem listFilter_cursor (accepted : q.listFilter [] = .ok f) (cursor : Name) :
    q.listFilter cursor =
      .ok { f with cursorTime := (parseCursor cursor).1, cursorID := (parseCursor cursor).2 } := by
  unfold Query.listFilter at accepted ⊢
  split_ifs at accepted ⊢
  cases accepted
  rfl

def ListFilter.behind (f : ListFilter) (cursor : Name) : ListFilter :=
  { f with cursorTime := (parseCursor cursor).1, cursorID := (parseCursor cursor).2 }

/-- The candidates behind a cursor. -/
def rowsBehind (uuids : UUIDs ι) (t : Tables ι) (user : Name) (now : Time) (f : ListFilter)
    (cursor : Name) : List (Event ι) :=
  ((chosen t f).filter (Notification.after · ((f.behind cursor).cursor uuids))).map
    (eventOf t user now)

/-- The page of a request, from the rows behind its cursor. -/
def pageBehind (uuids : UUIDs ι) (t : Tables ι) (user : Name) (now : Time) (f : ListFilter)
    (cursor : Name) : Page (Event ι) :=
  pageFrom (applyFilter · f now) f.limit.toNat f.limit.toNat (cursorOf uuids)
    (rowsBehind uuids t user now f cursor)

theorem list_of_listForUser (accepted : q.listFilter [] = .ok f) (low : 1 ≤ f.limit)
    (cursor : Name) :
    list uuids t user now q cursor =
      let events := listForUser uuids t user (f.behind cursor) now
      .ok ⟨events, if events.length = f.limit.toNat then
        (events.getLast?.map (cursorOf uuids)).getD [] else []⟩ := by
  rw [list, listFilter_cursor accepted]
  change Except.ok _ = _
  rw [← ListFilter.behind]
  generalize listForUser uuids t user (f.behind cursor) now = events
  have full : (events ≠ [] ∧ (f.behind cursor).limit > 0 ∧
      (events.length : Int) = (f.behind cursor).limit) ↔ events.length = f.limit.toNat := by
    have same : (f.behind cursor).limit = f.limit := rfl
    rw [← List.length_pos_iff, same]
    omega
  simp only [full]

theorem listForUser_behind (f : ListFilter) (cursor : Name) :
    listForUser uuids t user (f.behind cursor) now =
      ((rowsBehind uuids t user now f cursor).take (effectiveLimit f.limit)).filter
        (applyFilter · f now) := by
  rw [listForUser_eq]
  rfl

theorem list_eq (accepted : q.listFilter [] = .ok f) (low : 1 ≤ f.limit) (high : f.limit ≤ 500)
    (cursor : Name) :
    list uuids t user now q cursor = .ok (pageBehind uuids t user now f cursor) := by
  have size : effectiveLimit f.limit = f.limit.toNat := by
    rw [effectiveLimit, if_neg (by omega)]
  have short : (((rowsBehind uuids t user now f cursor).take f.limit.toNat).filter
      (applyFilter · f now)).length ≤ f.limit.toNat :=
    (List.length_filter_le _ _).trans (List.length_take_le _ _)
  rw [list_of_listForUser accepted low, listForUser_behind, size, pageBehind, pageFrom,
    List.take_of_length_le short]

/-- The cursor of the row can be read and is not the zero time. -/
def leadsOn (ev : Event ι) : Bool := Rfc3339.Readable ev.createdAt ∧ ev.createdAt ≠ 0

omit [LinearOrder ι] in
theorem behind_cursorOf (ev : Event ι) : (f.behind (cursorOf uuids ev)).cursor uuids =
    if leadsOn ev then some (ev.createdAt, some ev.id) else none := by
  simp only [ListFilter.behind, ListFilter.cursor, parseCursor_cursorOf, leadsOn]
  by_cases readable : Rfc3339.Readable ev.createdAt
  · by_cases zero : ev.createdAt = 0
    · rw [zero] at readable
      simp [readable, zero]
    · simp [readable, zero, uuids.parse_toText]
  · simp [readable]

theorem rowsBehind_first (uuids : UUIDs ι) :
    rowsBehind uuids t user now f [] = candidates t user now f := by
  rw [rowsBehind, candidates]
  congr 1
  exact List.filter_eq_self.mpr fun n _ => rfl

theorem list_serves :
    Serves (applyFilter · f now) f.limit.toNat f.limit.toNat (cursorOf uuids) leadsOn
      (pageBehind uuids t user now f) (candidates t user now f) where
  first := by rw [pageBehind, rowsBehind_first]
  next := by
    intro front ev back split _
    refine ⟨by simp [cursorOf], ?_⟩
    obtain ⟨rows, rest, parts, rfl, same⟩ := List.map_eq_append_iff.mp split
    obtain ⟨n, others, rfl, rfl, rfl⟩ := List.map_eq_cons_iff.mp same
    have descending : Descending Notification.key (chosen t f) :=
      descending_newestFirst ((keys_nodup t).sublist (List.filter_sublist.map _))
    rw [pageBehind, rowsBehind, behind_cursorOf]
    split
    · change pageFrom _ _ _ _ (((chosen t f).filter
        (Notification.after · (some (n.createdAt, some n.id)))).map _) = _
      simp only [after_iff]
      rw [parts] at descending ⊢
      rw [descending.below]
    · rw [pageBehind, rowsBehind_first, candidates]
      congr 2
      exact List.filter_eq_self.mpr fun n _ => rfl

/-- The notifications can be listed: with pages of up to 500, each full page of the candidates has
only notifications that match, or none that matches is behind it, and its cursor leads on; with a
larger limit, the first 50 candidates have all that match. -/
def Listable (t : Tables ι) (user : Name) (now : Time) (f : ListFilter) : Prop :=
  if f.limit ≤ 500 then
    Unbroken (applyFilter · f now) f.limit.toNat (candidates t user now f) ∧
      Marked f.limit.toNat leadsOn (matching t user now f)
  else ∀ ev ∈ (candidates t user now f).drop 50, applyFilter ev f now = false

/-- A limit above 500 is replaced by 50, and then no page has as many rows as the limit. -/
theorem large_limit_iff (accepted : q.listFilter [] = .ok f) (high : 500 < f.limit) :
    Yields (list uuids t user now q) (matching t user now f) ↔
      ∀ ev ∈ (candidates t user now f).drop 50, applyFilter ev f now = false := by
  have size : effectiveLimit f.limit = 50 := by rw [effectiveLimit, if_pos (by omega)]
  have answered (cursor : Name) : list uuids t user now q cursor =
      .ok ⟨((rowsBehind uuids t user now f cursor).take 50).filter (applyFilter · f now), []⟩ := by
    rw [list_of_listForUser accepted (by omega), listForUser_behind, size]
    have few : (((rowsBehind uuids t user now f cursor).take 50).filter
        (applyFilter · f now)).length ≤ 50 :=
      (List.length_filter_le _ _).trans (List.length_take_le _ _)
    have fewer : ¬(((rowsBehind uuids t user now f cursor).take 50).filter
        (applyFilter · f now)).length = f.limit.toNat := by omega
    simp only [if_neg fewer]
  rw [yields_iff answered]
  have whole : matching t user now f =
      ((candidates t user now f).take 50).filter (applyFilter · f now) ++
        ((candidates t user now f).drop 50).filter (applyFilter · f now) := by
    rw [← List.filter_append, List.take_append_drop, matching]
  constructor
  · intro follows
    have same := follows.of_last rfl
    rw [rowsBehind_first, whole] at same
    simpa [List.filter_eq_nil_iff] using same
  · intro hidden
    have none : ((candidates t user now f).drop 50).filter (applyFilter · f now) = [] := by
      simpa [List.filter_eq_nil_iff] using hidden
    rw [whole, none, List.append_nil, ← rowsBehind_first uuids]
    exact .of_page rfl

/-- The cursors lead to every notification that matches the filter, newest first, exactly when the
notifications can be listed. -/
theorem notifications_complete_iff (accepted : q.listFilter [] = .ok f) (low : 1 ≤ f.limit) :
    Yields (list uuids t user now q) (matching t user now f) ↔ Listable t user now f := by
  rw [Listable]
  split
  next high =>
    rw [yields_iff (list_eq accepted low high), matching, list_serves.follows_iff (by omega),
      allNear_self_iff (by omega)]
  next high => exact large_limit_iff accepted (by omega)

/-! ### A dismissed notification -/

def tallies : UUIDs Nat where
  toText id := List.replicate id 'x'
  parse text := some text.length
  parse_toText := by simp

def sampleNotification (id : Nat) (createdAt : Time) : Notification Nat :=
  ⟨id, none, .jobs, List.replicate id 'j', .info, [], [], [], createdAt⟩

def twoNotifications : List (Notification Nat) :=
  [sampleNotification 1 (63871286400 * Clock.second),
    sampleNotification 2 (63871290000 * Clock.second)]

/-- The newer one of two notifications is dismissed. -/
def newerDismissed : Tables Nat where
  notifications := twoNotifications
  states := [⟨2, "ann".toList, some 1, some 1, none⟩]
  ids_nodup := by decide
  sources_nodup := by decide
  keys_nodup := by decide
  references := by decide

def oneAPage : Query := { limit := "1".toList }

def allOneAPage : Query := { oneAPage with includeDismissed := "true".toList }

def dismissedToo : ListFilter := { includeDismissed := true, limit := 1 }

theorem both_listed : Yields (list tallies newerDismissed "ann".toList 0 allOneAPage)
    (matching newerDismissed "ann".toList 0 dismissedToo) := by
  have shown : ∀ ev ∈ candidates newerDismissed "ann".toList 0 dismissedToo,
      applyFilter ev dismissedToo 0 = true ∧ leadsOn ev = true := by decide +kernel
  refine (notifications_complete_iff (f := dismissedToo) (by decide +kernel)
    (by decide)).mpr ⟨?_, ?_⟩
  · intro front page back split _ _
    refine .inl fun ev member => (shown ev ?_).1
    rw [split]
    simp [member]
  · intro pages ev last
    exact (shown ev (List.mem_of_mem_filter (List.mem_of_getElem? last))).2

/-- The first page has nothing to show and no cursor; the older notification is never listed. -/
theorem older_notification_lost :
    oneAPage.listFilter [] = .ok { limit := 1 } ∧
    matching newerDismissed "ann".toList 0 { limit := 1 } =
      [eventOf newerDismissed "ann".toList 0
        (sampleNotification 1 (63871286400 * Clock.second))] ∧
    Yields (list tallies newerDismissed "ann".toList 0 oneAPage) [] := by
  have accepted : oneAPage.listFilter [] = .ok { limit := 1 } := by decide +kernel
  have answered (cursor : Name) : list tallies newerDismissed "ann".toList 0 oneAPage cursor =
      .ok (pageBehind tallies newerDismissed "ann".toList 0 { limit := 1 } cursor) :=
    list_eq accepted (by decide) (by decide) cursor
  refine ⟨accepted, by decide +kernel, (yields_iff answered).mpr (.of_page ?_)⟩
  decide +kernel

end NovaNas.Notifycenter.Bell
