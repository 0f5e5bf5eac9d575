import NovaNas.Base.Forest
import NovaNas.Base.Lines
import NovaNas.Zfs.Names

/-!
# The status of a pool

`zpool status -P` is read line by line: a few lines are known by the word they start with, and
between `config:` and `errors:` every other line is a row of the tree of devices. The place of a row
is told by its indentation alone.
-/
namespace NovaNas.Zfs

open Forest (Growing)

/-! ### Scans -/

inductive ScanState where
  | none
  | inProgress
  | finished
  | resilver
  deriving DecidableEq, Repr

structure ScanStatus where
  state : ScanState
  rawLine : Name
  deriving DecidableEq, Repr

/-- What follows `scan:`. An unknown text is taken for a scan that has finished. -/
def parseScrubStatus (raw : Name) : ScanStatus :=
  if raw = "none requested".toList then ⟨.none, raw⟩
  else if "scrub in progress".toList.isPrefixOf raw then ⟨.inProgress, raw⟩
  else if "resilvered".toList.isPrefixOf raw then ⟨.resilver, raw⟩
  else ⟨.finished, raw⟩

/-! ### Devices -/

inductive VdevType where
  | mirror
  | raidz1
  | raidz2
  | raidz3
  | draid
  | log
  | cache
  | spare
  | special
  | dedup
  | disk
  deriving DecidableEq, Repr

/-- A device; those below it are below it in the forest. -/
structure Vdev where
  type : VdevType
  path : Name := []
  state : Name
  readErr : UInt64 := 0
  writeErr : UInt64 := 0
  cksumErr : UInt64 := 0
  deriving DecidableEq, Repr

def classifyVdev (name state : Name) : Vdev :=
  if "mirror".toList.isPrefixOf name then { type := .mirror, state }
  else if "raidz3".toList.isPrefixOf name then { type := .raidz3, state }
  else if "raidz2".toList.isPrefixOf name then { type := .raidz2, state }
  else if "raidz1".toList.isPrefixOf name || "raidz".toList.isPrefixOf name then
    { type := .raidz1, state }
  else if "draid".toList.isPrefixOf name then { type := .draid, state }
  else if name = "logs".toList then { type := .log, state }
  else if name = "cache".toList then { type := .cache, state }
  else if name = "spares".toList then { type := .spare, state }
  else if name = "special".toList then { type := .special, state }
  else if name = "dedup".toList then { type := .dedup, state }
  else { type := .disk, path := name, state }

/-- The level of a row, unless the line does not start with a tab. -/
def configDepth : Name → Option Nat
  | '\t' :: rest => some ((rest.takeWhile (· = ' ')).length / 2)
  | _ => none

/-! ### Reading -/

structure Status where
  state : Name
  scan : Option ScanStatus
  vdevs : Forest Vdev
  deriving DecidableEq, Repr

/-- What is known after some lines. A vdev is remembered by its place: a slice does not grow while
one of its elements is still to get a row below it, unless a row skips a level. -/
structure Reading where
  state : Name
  scan : Option ScanStatus
  config : Growing Vdev
  inConfig : Bool
  rootSeen : Bool

def Reading.start : Reading := ⟨[], none, .start, false, false⟩

/-- A row at a level that is kept track of. -/
def Reading.row (st : Reading) (depth : Nat) (v : Vdev) : Reading :=
  if depth = 0 ∧ st.rootSeen = false then
    { st with
      rootSeen := true
      config := { st.config with last := fun d => if d = 0 then none else st.config.last d } }
  else { st with config := st.config.place (depth, v) }

def Reading.line (st : Reading) (line : Name) : Reading :=
  let trim := Text.trimSpace line
  if "state:".toList.isPrefixOf trim then { st with state := Text.trimSpace (trim.drop 6) }
  else if "scan:".toList.isPrefixOf trim then
    { st with scan := some (parseScrubStatus (Text.trimSpace (trim.drop 5))) }
  else if "config:".toList.isPrefixOf trim then { st with inConfig := true }
  else if "errors:".toList.isPrefixOf trim then { st with inConfig := false }
  else if st.inConfig = false ∨ trim = [] ∨ "NAME".toList.isPrefixOf trim = true then st
  else
    match Text.fields trim, configDepth line with
    | name :: more, some depth =>
      -- Rows below the fourth level are left out.
      if 4 ≤ depth then st else st.row depth (classifyVdev name (more.head?.getD ['-']))
    | _, _ => st

def Reading.status (st : Reading) : Status := ⟨st.state, st.scan, st.config.trees⟩

/-- `none` is the scanner's error about a line that is too long. -/
def parseStatus (data : Name) : Option Status :=
  (Text.scanLines 65536 data).map fun lines => (lines.foldl Reading.line .start).status

/-! ### Scrubs -/

/-- The errors of the disks, as a sum of 64 bits. -/
def sumVdevErrors : Forest Vdev → UInt64
  | .nil => 0
  | .cons v children rest =>
    (if v.type = .disk ∧ v.path ≠ [] then v.readErr + v.writeErr + v.cksumErr else 0) +
      sumVdevErrors children + sumVdevErrors rest

structure ScrubInfo where
  state : ScanState
  errors : UInt64
  rawLine : Name
  deriving DecidableEq, Repr

def Status.scrubInfo (st : Status) : ScrubInfo where
  state := (st.scan.map (·.state)).getD .none
  errors := sumVdevErrors st.vdevs
  rawLine := (st.scan.map (·.rawLine)).getD []

/-- What `zpool` says of a pool, or why it could not be asked. -/
abbrev Answer := Except String Name

def scrubStatus (answer : Answer) : Except String ScrubInfo := do
  let text ← answer
  match parseStatus text with
  | none => throw "bufio.Scanner: token too long"
  | some st => pure st.scrubInfo

def isScrubInProgress (answer : Answer) : Except String Bool :=
  (scrubStatus answer).map fun info => info.state = .inProgress

/-! ### The scan line -/

/-- What a line says of the scan. -/
def scanText (line : Name) : Option Name :=
  let trim := Text.trimSpace line
  if "scan:".toList.isPrefixOf trim then some (Text.trimSpace (trim.drop 5)) else none

theorem scan_row (st : Reading) (depth : Nat) (v : Vdev) : (st.row depth v).scan = st.scan := by
  unfold Reading.row
  split <;> rfl

theorem scan_line (st : Reading) (line : Name) :
    (st.line line).scan = ((scanText line).map parseScrubStatus).or st.scan := by
  simp only [Reading.line, scanText]
  split
  next isState =>
    have other : "scan:".toList.isPrefixOf (Text.trimSpace line) = false := by
      obtain ⟨rest, same⟩ := List.isPrefixOf_iff_prefix.mp isState
      rw [← same]
      rfl
    rw [if_neg (by rw [other]; exact Bool.false_ne_true)]
    rfl
  next =>
    split
    · rfl
    next other =>
      split
      · rfl
      · split
        · rfl
        · split
          · rfl
          · split
            · split
              · rfl
              · exact scan_row ..
            · rfl

/-- The last line about the scan counts. -/
theorem scan_lines (lines : List Name) (st : Reading) : (lines.foldl Reading.line st).scan =
    ((lines.filterMap scanText).getLast?.map parseScrubStatus).or st.scan := by
  induction lines generalizing st with
  | nil => rfl
  | cons line lines ih =>
    rw [List.foldl_cons, ih, scan_line]
    cases said : scanText line with
    | none => simp [said]
    | some text =>
      rw [List.filterMap_cons_some said]
      cases last : (lines.filterMap scanText).getLast? with
      | none =>
        rw [List.getLast?_eq_none_iff.mp last]
        rfl
      | some raw => simp [List.getLast?_cons, last]

end NovaNas.Zfs
