import Mathlib.Data.Prod.Lex
import NovaNas.Base.Base64
import NovaNas.Base.Fallible
import NovaNas.Base.IpNet
import NovaNas.Base.Paging
import NovaNas.Base.Rfc3339

/-!
# Reading the audit log

The database selects the rows by their columns. The address a request came from is not a column: it
is looked up in the payload of the rows that have been read.
-/
namespace NovaNas.Audit

abbrev Name := List Char

/-- Nanoseconds since the zero time. -/
abbrev Time := Int

/-! ### The table -/

inductive Outcome where
  | accepted
  | rejected
  deriving DecidableEq, Repr

def Outcome.ofText (s : Name) : Option Outcome :=
  if s = "accepted".toList then some .accepted
  else if s = "rejected".toList then some .rejected
  else none

/-- What a member of a payload is, as far as it is read. -/
inductive Value where
  | null
  | string (s : Name)
  | other
  deriving DecidableEq, Repr

inductive Payload where
  | null
  | object (members : List (Name × Value))
  | other
  deriving DecidableEq, Repr

structure Row where
  id : Int64
  ts : Time
  actor : Option Name
  action : Name
  target : Name
  requestID : Name
  payload : Option Payload
  result : Outcome
  deriving DecidableEq, Repr

def Row.key (r : Row) : Time ×ₗ Int := toLex (r.ts, r.id.toInt)

structure Table where
  rows : List Row
  ids_nodup : (rows.map Row.id).Nodup

theorem Table.keys_nodup (t : Table) : (t.rows.map Row.key).Nodup := by
  refine List.Nodup.of_map (fun k => Int64.ofInt (ofLex k).2) ?_
  have ids : (t.rows.map Row.key).map (fun k => Int64.ofInt (ofLex k).2) = t.rows.map Row.id := by
    simp [Row.key]
  exact ids ▸ t.ids_nodup

/-! ### Filters -/

structure Filter where
  actor : Option Name := none
  action : Option Name := none
  outcome : Option Outcome := none
  resource : Option Name := none
  since : Option Time := none
  until' : Option Time := none
  srcCIDR : Option Ip.Net := none
  pageSize : Nat := 100
  cursor : Option (Time × Int64) := none
  deriving DecidableEq, Repr

/-- `s LIKE pattern` -/
def like : Name → Name → Bool
  | [], s => s = []
  | '%' :: pattern, s => s.tails.any (like pattern)
  | '_' :: pattern, s =>
    match s with
    | [] => false
    | _ :: rest => like pattern rest
  | '\\' :: c :: pattern, s =>
    match s with
    | [] => false
    | d :: rest => d = c && like pattern rest
  | c :: pattern, s =>
    match s with
    | [] => false
    | d :: rest => d = c && like pattern rest

/-- The conditions on the columns, but for the cursor. -/
def Filter.selects (f : Filter) (r : Row) : Bool :=
  f.actor.all (r.actor = some ·) && f.action.all (r.action = ·) &&
    f.outcome.all (r.result = ·) && f.resource.all (fun p => like (p ++ ['%']) r.target) &&
    f.since.all (· ≤ r.ts) && f.until'.all (r.ts < ·)

def Row.after (r : Row) : Option (Time × Int64) → Bool
  | none => true
  | some (ts, id) => r.ts < ts || (r.ts = ts && r.id.toInt < id.toInt)

def searchAudit (t : Table) (f : Filter) (cursor : Option (Time × Int64)) (limit : Nat) :
    List Row :=
  (Paging.newestFirst Row.key (t.rows.filter fun r => f.selects r && r.after cursor)).take limit

/-- The address in a payload. `null` is read as the empty text. -/
def sourceIP : Payload → Option Ip.Bytes
  | .object members =>
    match (members.filter fun m => m.1 = "source_ip".toList).getLast? with
    | some (_, .string s) => Ip.parseIP (Text.trimSpace s)
    | some (_, .null) => Ip.parseIP []
    | _ => none
  | _ => none

def fromNet (payload : Option Payload) (cidr : Option Ip.Net) : Bool :=
  match cidr with
  | none => true
  | some net => (payload.bind sourceIP).any net.contains

def matchesSourceIP (r : Row) (cidr : Option Ip.Net) : Bool := fromNet r.payload cidr

/-! ### Cursors -/

/-- The first moment of 1970. -/
def unixEpoch : Time := 62135596800 * Clock.second

/-- `ts.UnixNano()`, which wraps around. -/
def unixNano (ts : Time) : Int64 := Int64.ofInt (ts - unixEpoch)

def encodeCursor (ts : Time) (id : Int64) : Name :=
  Base64.encodeText (Text.itoa (unixNano ts) ++ ':' :: Text.itoa id)

def decodeCursor (tok : Name) : Option (Time × Int64) := do
  let (nanos, id) ← (Base64.decodeText tok).bind (Text.cut ':')
  return (unixEpoch + (← Text.atoi64 nanos).toInt, ← Text.atoi64 id)

/-! ### Query parameters -/

structure Query where
  actor : Name := []
  action : Name := []
  outcome : Name := []
  resource : Name := []
  since : Name := []
  until' : Name := []
  source_ip : Name := []
  limit : Name := []
  deriving DecidableEq, Repr

structure Rejection where
  status : Nat
  code : String
  message : String
  deriving DecidableEq, Repr

def badRequest {α : Type} (message : String) : Except Rejection α :=
  .error ⟨400, "bad_request", message⟩

/-- An empty parameter is as good as none. -/
def pick (s : Name) : Option Name := if s = [] then none else some s

def parseOutcome (raw : Name) : Except Rejection (Option Outcome) :=
  if raw = [] then .ok none
  else
    match Outcome.ofText raw with
    | some outcome => .ok (some outcome)
    | none => badRequest "outcome must be accepted or rejected"

def parseTS (name : String) (raw : Name) : Except Rejection (Option Time) :=
  if raw = [] then .ok none
  else
    match Rfc3339.parse raw with
    | some t => .ok (some t)
    | none => badRequest (name ++ " must be RFC3339")

def checkOrder (since until' : Option Time) : Except Rejection Unit :=
  if since.any fun s => until'.any (· ≤ s) then badRequest "until must be after since" else .ok ()

/-- An address alone is a network of its own. -/
def withMask (v : Name) : Name :=
  if v.contains '/' then v
  else
    match Ip.parseIP v with
    | some ip => v ++ if Ip.isV4 ip then "/32".toList else "/128".toList
    | none => v

def parseSourceIP (raw : Name) : Except Rejection (Option Ip.Net) :=
  if raw = [] then .ok none
  else
    match Ip.parseNet (withMask (Text.trimSpace raw)) with
    | some net => .ok (some net)
    | none => badRequest "source_ip must be a valid IP or CIDR"

def auditDefaultPageSize : Nat := 100
def auditMaxPageSize : Nat := 1000

def parseLimit (raw : Name) : Except Rejection Nat :=
  if raw = [] then .ok auditDefaultPageSize
  else
    match Text.atoi raw with
    | none => badRequest "limit must be a positive integer"
    | some v =>
      if v ≤ 0 then badRequest "limit must be a positive integer"
      else if v > auditMaxPageSize then badRequest "limit must be <= 1000"
      else .ok v.toNat

def parseCursor (raw : Name) : Except Rejection (Option (Time × Int64)) :=
  if raw = [] then .ok none
  else
    match decodeCursor raw with
    | some cursor => .ok (some cursor)
    | none => badRequest "invalid cursor"

/-- The filter without a cursor. -/
def Query.filter (q : Query) : Except Rejection Filter := do
  let outcome ← parseOutcome q.outcome
  let since ← parseTS "since" q.since
  let until' ← parseTS "until" q.until'
  checkOrder since until'
  let srcCIDR ← parseSourceIP q.source_ip
  let pageSize ← parseLimit q.limit
  return {
    actor := pick q.actor, action := pick q.action, resource := pick q.resource
    outcome, since, until', srcCIDR, pageSize }

/-- The cursor is the last parameter to be read. -/
def parseFilter (q : Query) (cursor : Name) : Except Rejection Filter := do
  let f ← q.filter
  return { f with cursor := ← parseCursor cursor }

/-! ### Events -/

structure AuditEvent where
  id : Int64
  timestamp : Time
  actor : Name
  action : Name
  resource : Name
  requestID : Name
  payload : Option Payload
  outcome : Outcome
  deriving DecidableEq, Repr

def rowToEvent (r : Row) : AuditEvent where
  id := r.id
  timestamp := r.ts
  actor := r.actor.getD []
  action := r.action
  resource := r.target
  requestID := r.requestID
  payload := r.payload
  outcome := r.result

/-! ### The rows of a filter -/

/-- The rows that the database selects, newest first. -/
def selected (t : Table) (f : Filter) : List Row :=
  Paging.newestFirst Row.key (t.rows.filter f.selects)

theorem descending_selected (t : Table) (f : Filter) :
    Paging.Descending Row.key (selected t f) :=
  Paging.descending_newestFirst (t.keys_nodup.sublist (List.filter_sublist.map _))

theorem searchAudit_eq (t : Table) (f : Filter) (cursor : Option (Time × Int64)) (limit : Nat) :
    searchAudit t f cursor limit = ((selected t f).filter (·.after cursor)).take limit := by
  rw [searchAudit, selected, ← Paging.newestFirst_filter
    (t.keys_nodup.sublist (List.filter_sublist.map _)), List.filter_filter]
  congr 3
  funext r
  rw [Bool.and_comm]

theorem after_iff (r s : Row) : r.after (some (s.ts, s.id)) = decide (r.key < s.key) := by
  rw [Bool.eq_iff_iff]
  simp [Row.after, Row.key, Prod.Lex.toLex_lt_toLex]

/-- The rows after the one a cursor names. -/
theorem after_row {t : Table} {f : Filter} {front back : List Row} {row : Row}
    (split : selected t f = front ++ row :: back) :
    (selected t f).filter (·.after (some (row.ts, row.id))) = back := by
  have descending := descending_selected t f
  simp only [after_iff]
  rw [split] at descending ⊢
  rw [descending.below]

end NovaNas.Audit
