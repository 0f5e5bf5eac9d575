import NovaNas.Base.Disk
import NovaNas.Base.Triples
import NovaNas.Plugins.Package

/-!
# Unpacking on a disk

The calls that unpacking a plugin makes, on a disk that may have symbolic links anywhere but below
the destination. Any call may fail, in the middle of its work too. Whatever the archive holds and
wherever the work stops, only the destination, the directories that lead to it and places below it
are made or written, no link is made, and the bytes written stay within the budget.
-/
namespace NovaNas.Unpacking

open Disks Paths Program

/-! ### Archives -/

inductive Typeflag where
  | dir
  | reg
  /-- Links, devices and the like. -/
  | other
  deriving DecidableEq

/-- An entry as the archive reader gives it: never more than the size its header states. -/
structure Entry where
  name : String
  typeflag : Typeflag
  size : Nat
  content : List UInt8
  /-- The error that ends the reading, if it is not the end of the entry. -/
  damage : Option String
  fits : content.length ≤ size

structure Archive where
  gzip : Option String
  entries : List Entry
  /-- The error that the reader gives after the entries. -/
  damage : Option String

/-! ### The disk -/

inductive Call where
  | mkdirAll (path : List Char)
  | openFile (path : List Char)
  | write (file : Location) (data : List UInt8)
  | close (file : Location)
  | readFile (path : List Char)

@[reducible] def Call.Answer : Call → Type
  | .mkdirAll _ => Option String
  | .openFile _ => Except String Location
  | .write _ _ => Nat × Option String
  | .close _ => Option String
  | .readFile _ => Except String (List UInt8)

structure World where
  disk : Disk
  cwd : Location
  cwd_dir : disk.node cwd = some .dir
  /-- The bytes written so far. -/
  written : Nat
  /-- The places that were made or written so far. -/
  touched : List Location

/-- A place that the path comes to. -/
def OnTheWay (w : World) (path : List Char) (loc : Location) : Prop :=
  ∃ pre, pre <+: steps path ∧ Reaches w.disk (start w.cwd path) pre loc

/-- `os.MkdirAll`: where no directory is, one may be made at the path and at what leads to it. -/
structure Makes (w : World) (path : List Char) (made : List Location) (w' : World) : Prop where
  new : ∀ loc ∈ made, w.disk.node loc = none ∧ w'.disk.node loc = some .dir ∧ OnTheWay w path loc
  rest : ∀ loc, loc ∉ made → w'.disk.node loc = w.disk.node loc
  present : ∀ loc, Opens w.disk w.cwd path loc → w.disk.node loc = some .dir → made = []
  touched : w'.touched = made ++ w.touched
  cwd : w'.cwd = w.cwd
  written : w'.written = w.written

/-- A place holds a file with the data afterwards; it held a file or nothing. -/
structure Puts (w : World) (file : Location) (data : List UInt8) (w' : World) : Prop where
  before : w.disk.node file = none ∨ ∃ old, w.disk.node file = some (.file old)
  after : w'.disk.node file = some (.file data)
  rest : ∀ loc, loc ≠ file → w'.disk.node loc = w.disk.node loc
  touched : w'.touched = file :: w.touched
  cwd : w'.cwd = w.cwd

inductive Responds : World → (q : Call) → q.Answer → World → Prop where
  | mkdirAll {w w' path made err} : Makes w path made w' →
      (err = none → ∃ loc, Opens w'.disk w'.cwd path loc ∧ w'.disk.node loc = some .dir) →
      Responds w (.mkdirAll path) err w'
  | refused {w path err} : Responds w (.openFile path) (.error err) w
  -- The file is made or emptied, even if the call fails in the end.
  | opened {w w' path file result} : Opens w.disk w.cwd path file → Puts w file [] w' →
      w'.written = w.written → (∀ f, result = .ok f → f = file) →
      Responds w (.openFile path) result w'
  | write {w w' file data n err} : n ≤ data.length → (err = none → n = data.length) →
      Puts w file (data.take n) w' → w'.written = w.written + n →
      Responds w (.write file data) (n, err) w'
  | close {w file err} : Responds w (.close file) err w
  | readFile {w path result} :
      (∀ data, result = .ok data → ∃ loc, Opens w.disk w.cwd path loc ∧
        w.disk.node loc = some (.file data)) →
      Responds w (.readFile path) result w

/-! ### The program -/

abbrev Unpack := Attempt Call Call.Answer String

def mkdirAll (path : List Char) : Unpack Unit := do
  match ← request (Call.mkdirAll path) with
  | none => pure ()
  | some err => throw err

def openFile (path : List Char) : Unpack Location := do
  match ← request (Call.openFile path) with
  | .ok file => pure file
  | .error err => throw err

def close (file : Location) : Unpack Unit := do
  match ← request (Call.close file) with
  | none => pure ()
  | some err => throw err

def readFile (path : List Char) : Unpack (List UInt8) := do
  match ← request (Call.readFile path) with
  | .ok data => pure data
  | .error err => throw err

/-- `io.CopyN` from an entry: the bytes copied, and the error if it is not the end of the entry. -/
def copyN (file : Location) (entry : Entry) (limit : Nat) : Unpack (Nat × Option String) := do
  let data := entry.content.take limit
  let (n, err) ← request (Call.write file data)
  match err with
  | some err => pure (n, some err)
  | none => pure (n, if data.length = limit then none else entry.damage)

structure State where
  remaining : Nat
  hasUI : Bool
  manifest : Option (List UInt8)

def escapesRoot (name : String) : String :=
  "plugins: tarball entry escapes root: " ++ Plugins.quoted name

def readManifest (full : Path) (rel : List Char) (manifest : Option (List UInt8)) :
    Unpack (Option (List UInt8)) :=
  if rel = "manifest.yaml".toList then do
    let data ← readFile full.text
    pure (some data)
  else pure manifest

/-- What is done once the copying has ended; `rel` is the place seen from the destination. -/
def finishFile (file : Location) (full : Path) (rel : List Char) (st : State)
    (copied : Nat × Option String) : Unpack State :=
  match copied.2 with
  | some err => do
    let _ ← request (Call.close file)
    throw err
  | none => do
    close file
    let manifest ← readManifest full rel st.manifest
    pure {
      remaining := st.remaining - copied.1
      hasUI := st.hasUI || "ui/".toList.isPrefixOf rel
      manifest }

/-- A regular entry. -/
def unpackFile (entry : Entry) (full : Path) (rel : List Char) (st : State) : Unpack State :=
  if entry.size > st.remaining then
    throw ("plugins: tarball exceeds " ++ toString Plugins.maxExtractBytes ++ " bytes")
  else do
    mkdirAll full.dir.text
    let file ← openFile full.text
    let copied ← copyN file entry st.remaining
    finishFile file full rel st copied

def unpackEntry (dest : List Char) (entry : Entry) (st : State) : Unpack State :=
  let clean := (Paths.clean ('/' :: entry.name.toList)).text
  if Text.contains clean ['.', '.'] then throw (escapesRoot entry.name)
  else
    let full := Paths.join dest clean
    match Paths.rel (Paths.clean dest) full with
    | none => throw (escapesRoot entry.name)
    | some rel =>
      if ['.', '.'].isPrefixOf rel then throw (escapesRoot entry.name)
      else
        match entry.typeflag with
        | .dir => do
          mkdirAll full.text
          pure { st with hasUI := st.hasUI || rel = "ui".toList }
        | .reg => unpackFile entry full rel st
        | .other => pure st

def unpackEntries (dest : List Char) : List Entry → State → Unpack State
  | [], st => pure st
  | entry :: entries, st => do
    let st ← unpackEntry dest entry st
    unpackEntries dest entries st

/-- The contents of the manifest, and the directory of the UI, empty if there is none. -/
def unpackArchive (archive : Archive) (dest : List Char) : Unpack (List UInt8 × List Char) :=
  match archive.gzip with
  | some err => throw ("plugins: gzip: " ++ err)
  | none => do
    let st ← unpackEntries dest archive.entries ⟨Plugins.maxExtractBytes, false, none⟩
    match archive.damage with
    | some err => throw ("plugins: tar: " ++ err)
    | none =>
      match st.manifest with
      | none => throw "plugins: tarball: missing manifest.yaml at root"
      | some manifest =>
        return (manifest, if st.hasUI then (Paths.join dest "ui".toList).text else [])

def extractTarball (archive : Archive) (dest : List Char) : Unpack (List UInt8 × List Char) := do
  mkdirAll dest
  unpackArchive archive dest

/-! ### What the calls may do -/

/-- What may have happened between two worlds: something below the directory, and no link. -/
structure Within (home : Location) (w w' : World) : Prop where
  links : SameLinks w.disk w'.disk
  outside : ∀ loc, ¬Below home loc → w'.disk.node loc = w.disk.node loc
  touched : ∀ loc ∈ w'.touched, loc ∈ w.touched ∨ Below home loc
  cwd : w'.cwd = w.cwd

/-- The destination leads to the directory, and no links are below it. -/
structure Settled (dest : List Char) (home : Location) (w : World) : Prop where
  dir : w.disk.node home = some .dir
  leads : Reaches w.disk (origin w.cwd (Paths.clean dest)) (pathSteps (Paths.clean dest)) home
  linkless : ∀ loc target, Below home loc → w.disk.node loc ≠ some (.link target)

theorem not_below_self (home : Location) : ¬Below home home := fun below => below.ne rfl

section Worlds

variable {dest : List Char} {home : Location} {w w' w'' : World}

theorem Within.refl (w : World) : Within home w w :=
  ⟨fun _ _ => .rfl, fun _ _ => rfl, fun _ member => .inl member, rfl⟩

theorem Within.trans (one : Within home w w') (two : Within home w' w'') : Within home w w'' where
  links loc target := (two.links loc target).trans (one.links loc target)
  outside loc out := (two.outside loc out).trans (one.outside loc out)
  touched loc member := (two.touched loc member).elim (one.touched loc) .inr
  cwd := two.cwd.trans one.cwd

theorem Settled.step (settled : Settled dest home w) (within : Within home w w') :
    Settled dest home w' where
  dir := (within.outside home (not_below_self home)).trans settled.dir
  leads := within.cwd ▸ settled.leads.of_sameLinks within.links
  linkless loc target below link := settled.linkless loc target below ((within.links _ _).mp link)

theorem Makes.links {path : List Char} {made : List Location} (makes : Makes w path made w') :
    SameLinks w.disk w'.disk := by
  intro loc target
  by_cases new : loc ∈ made
  · simp [(makes.new loc new).1, (makes.new loc new).2.1]
  · rw [makes.rest loc new]

theorem Makes.within {path : List Char} {made : List Location} (makes : Makes w path made w')
    (below : ∀ loc ∈ made, Below home loc) : Within home w w' where
  links := makes.links
  outside loc out := makes.rest loc fun new => out (below loc new)
  touched loc member := by
    rw [makes.touched, List.mem_append] at member
    exact member.elim (fun new => .inr (below loc new)) .inl
  cwd := makes.cwd

theorem Puts.within {file : Location} {data : List UInt8} (puts : Puts w file data w')
    (below : Below home file) : Within home w w' where
  links loc target := by
    by_cases same : loc = file
    · subst same
      rcases puts.before with missing | ⟨old, held⟩
      · simp [puts.after, missing]
      · simp [puts.after, held]
    · rw [puts.rest loc same]
  outside loc out := puts.rest loc fun same => out (same ▸ below)
  touched loc member := by
    rw [puts.touched, List.mem_cons] at member
    exact member.elim (fun same => .inr (same ▸ below)) .inl
  cwd := puts.cwd

theorem World.origin_dir (w : World) (p : Path) : w.disk.node (origin w.cwd p) ≠ none := by
  unfold origin
  split
  · simp [w.disk.root]
  · simp [w.cwd_dir]

end Worlds

/-! ### Every run -/

/-- So far only places below the directory were touched, and so many bytes may still be written. -/
structure Kept (dest : List Char) (home : Location) (w₀ : World) (budget : Nat) (w : World) :
    Prop where
  settled : Settled dest home w
  within : Within home w₀ w
  bytes : w.written + budget ≤ w₀.written + Plugins.maxExtractBytes

/-- The path leads to the destination and on by some names. -/
def Placed (dest : List Char) (full : Path) : Prop :=
  ∃ names, full = { Paths.clean dest with parts := (Paths.clean dest).parts ++ names }

/-- What is left of the budget when a part of the work has ended. -/
def left : Except String State → Nat
  | .ok st => st.remaining
  | .error _ => 0

section Runs

variable {dest : List Char} {home : Location} {w₀ w w' : World} {budget : Nat} {full : Path}

theorem Kept.step {budget' : Nat} (kept : Kept dest home w₀ budget w) (within : Within home w w')
    (bytes : w'.written + budget' ≤ w.written + budget) : Kept dest home w₀ budget' w' :=
  ⟨kept.settled.step within, kept.within.trans within, Nat.le_trans bytes kept.bytes⟩

theorem Kept.lower {budget' : Nat} (kept : Kept dest home w₀ budget w) (less : budget' ≤ budget) :
    Kept dest home w₀ budget' w :=
  kept.step (.refl w) (Nat.add_le_add_left less _)

/-- Where the work stops, nothing of the budget is counted as left. -/
theorem Kept.failed (e : String) (w : World) (kept : Kept dest home w₀ budget w) :
    Kept dest home w₀ (left (.error e)) w :=
  kept.lower (Nat.zero_le _)

theorem Placed.pathSteps_eq {names : List FileName}
    (placed : full = { Paths.clean dest with parts := (Paths.clean dest).parts ++ names }) :
    pathSteps full = pathSteps (Paths.clean dest) ++ names.map .enter := by
  simp [placed, pathSteps]

theorem dir_rooted (p : Path) : p.dir.rooted = p.rooted := by
  unfold Path.dir
  split <;> rfl

/-- What the call leaves behind, whether it fails or not, the program does. -/
theorem ensures_mkdirAll_of {pre post : World → Prop} {path : List Char}
    (asked : ∀ w err w', pre w → Responds w (.mkdirAll path) err w' → post w') :
    Ensures Responds pre (mkdirAll path) fun _ => post := by
  have called : Ensures Responds pre (request (Call.mkdirAll path) : Unpack (Option String))
      fun _ => post :=
    ensures_request asked
  refine called.bind ?_ fun _ _ holds => holds
  rintro (_ | err)
  · exact ensures_pure fun _ holds => holds
  · exact ensures_throw fun _ holds => holds

/-- Directories are made below the destination, on the way to a place in it. -/
theorem ensures_mkdirAll (placed : Placed dest full) {p : Path} (rooted : p.rooted = full.rooted)
    (above : pathSteps p <+: pathSteps full) :
    Ensures Responds (Kept dest home w₀ budget) (mkdirAll p.text)
      fun _ => Kept dest home w₀ budget := by
  obtain ⟨names, same⟩ := placed
  have from_ (cwd : Location) : origin cwd p = origin cwd (Paths.clean dest) := by
    simp [origin, rooted, same]
  apply ensures_mkdirAll_of
  rintro w err w' kept ⟨makes, -⟩
  obtain ⟨k, written⟩ := steps_text p
  refine kept.step (makes.within fun loc new => ?_) (by rw [makes.written])
  obtain ⟨missing, -, pre, starts, reaches⟩ := makes.new loc new
  rw [written] at starts
  rw [start_text, from_] at reaches
  obtain ⟨pre', starts, reaches⟩ := exists_prefix_of_stays starts reaches
  rw [Placed.pathSteps_eq same] at above
  exact below_of_missing (w.origin_dir _) kept.settled.leads (by simp [kept.settled.dir])
    kept.settled.linkless (starts.trans above) reaches missing

/-- The place that a path below the destination leads to is the one its names say, and the
destination itself cannot be opened. -/
theorem below_of_puts (settled : Settled dest home w) (placed : Placed dest full) {file : Location}
    {data : List UInt8} (opens : Opens w.disk w.cwd full.text file) (puts : Puts w file data w') :
    Below home file := by
  obtain ⟨names, same⟩ := placed
  have from_ : origin w.cwd full = origin w.cwd (Paths.clean dest) := by simp [origin, same]
  rw [opens_text, from_, Placed.pathSteps_eq same] at opens
  have found := opens.unique (settled.leads.append (reaches_names settled.linkless names))
  rw [found]
  apply below_append
  rintro rfl
  have before := puts.before
  simp [found, settled.dir] at before

theorem ensures_openFile (placed : Placed dest full) :
    Ensures Responds (Kept dest home w₀ budget) (openFile full.text)
      fun r w => Kept dest home w₀ budget w ∧ ∀ file, r = .ok file → Below home file := by
  have asked : Ensures Responds (Kept dest home w₀ budget)
      (request (Call.openFile full.text) : Unpack (Except String Location)) fun r w =>
        Kept dest home w₀ budget w ∧ ∀ file, r = .ok (.ok file) → Below home file := by
    apply ensures_request
    intro w result w' kept answered
    cases answered with
    | refused => exact ⟨kept, nofun⟩
    | opened opens puts bytes result =>
      have below := below_of_puts kept.settled placed opens puts
      refine ⟨kept.step (puts.within below) (by rw [bytes]), fun file same => ?_⟩
      exact result file (Except.ok.inj same) ▸ below
  refine asked.bind ?_ fun _ _ holds => ⟨holds.1, nofun⟩
  rintro (err | file)
  · exact ensures_throw fun _ holds => ⟨holds.1, nofun⟩
  · refine ensures_pure fun _ holds => ⟨holds.1, ?_⟩
    rintro _ ⟨⟩
    exact holds.2 file rfl

/-- Copying an entry takes what it writes from the budget. -/
theorem ensures_copyN (file : Location) (entry : Entry) :
    Ensures Responds (fun w => Kept dest home w₀ budget w ∧ Below home file)
      (copyN file entry budget) fun r w => ∃ copied : Nat × Option String,
        r = .ok copied ∧ Kept dest home w₀ (budget - copied.1) w := by
  have asked : Ensures Responds (fun w => Kept dest home w₀ budget w ∧ Below home file)
      (request (Call.write file (entry.content.take budget)) : Unpack (Nat × Option String))
      fun r w => ∃ written : Nat × Option String,
        r = .ok written ∧ Kept dest home w₀ (budget - written.1) w := by
    apply ensures_request
    rintro w _ w' ⟨kept, below⟩ ⟨⟩
    case write n err few _ bytes puts =>
    have bound : n ≤ budget := Nat.le_trans few (List.length_take_le ..)
    exact ⟨_, rfl, kept.step (puts.within below) (by simp only; omega)⟩
  refine asked.bind ?_ (by rintro e _ ⟨_, ⟨⟩, -⟩)
  rintro ⟨n, _ | err⟩
  · refine ensures_pure ?_
    rintro w ⟨_, ⟨⟩, kept⟩
    exact ⟨_, rfl, kept⟩
  · refine ensures_pure ?_
    rintro w ⟨_, ⟨⟩, kept⟩
    exact ⟨_, rfl, kept⟩

theorem keeps_close (inv : World → Prop) (file : Location) :
    Keeps Responds inv (request (Call.close file) : Unpack (Option String)) := by
  apply ensures_request
  rintro w _ w' holds ⟨⟩
  exact holds

theorem keeps_readFile (inv : World → Prop) (path : List Char) :
    Keeps Responds inv (readFile path) := by
  have asked : Keeps Responds inv
      (request (Call.readFile path) : Unpack (Except String (List UInt8))) := by
    apply ensures_request
    rintro w _ w' holds ⟨⟩
    exact holds
  refine asked.bind ?_
  rintro (err | data)
  · exact ensures_throw fun _ holds => holds
  · exact keeps_pure

theorem keeps_readManifest (inv : World → Prop) (rel : List Char)
    (manifest : Option (List UInt8)) : Keeps Responds inv (readManifest full rel manifest) := by
  unfold readManifest
  split
  · exact (keeps_readFile inv full.text).bind fun _ => keeps_pure
  · exact keeps_pure

theorem ensures_finishFile (file : Location) (rel : List Char) (st : State)
    (copied : Nat × Option String) :
    Ensures Responds (Kept dest home w₀ (st.remaining - copied.1))
      (finishFile file full rel st copied) fun r => Kept dest home w₀ (left r) := by
  unfold finishFile
  split
  · exact Ensures.bind (keeps_close _ file) (fun _ => ensures_throw (Kept.failed _)) Kept.failed
  · have closed : Keeps Responds (Kept dest home w₀ (st.remaining - copied.1)) (close file) := by
      refine (keeps_close _ file).bind ?_
      rintro (_ | err)
      · exact keeps_pure
      · exact ensures_throw fun _ kept => kept
    refine Ensures.bind closed (fun _ => ?_) Kept.failed
    refine Ensures.bind (keeps_readManifest _ rel st.manifest) (fun manifest => ?_) Kept.failed
    exact ensures_pure fun _ kept => kept

theorem ensures_unpackFile (placed : Placed dest full) (entry : Entry) (rel : List Char)
    (st : State) :
    Ensures Responds (Kept dest home w₀ st.remaining) (unpackFile entry full rel st)
      fun r => Kept dest home w₀ (left r) := by
  unfold unpackFile
  split
  · exact ensures_throw (Kept.failed _)
  refine (ensures_mkdirAll placed (dir_rooted full) (pathSteps_dir full)).bind (fun _ => ?_) Kept.failed
  refine (ensures_openFile placed).bind (fun file => ?_) fun e w holds => holds.1.failed e w
  -- The file is known to be below the destination from here on.
  have copying : Ensures Responds
      (fun w => Kept dest home w₀ st.remaining w ∧ Below home file)
      (copyN file entry st.remaining >>= finishFile file full rel st)
      fun r => Kept dest home w₀ (left r) := by
    refine (ensures_copyN file entry).bind (fun copied => ?_) (by rintro e _ ⟨_, ⟨⟩, -⟩)
    rintro w r w' ⟨_, ⟨⟩, kept⟩ ends
    exact ensures_finishFile file rel st copied w r w' kept ends
  intro w r w' opened ends
  exact copying w r w' ⟨opened.1, opened.2 file rfl⟩ ends

theorem ensures_unpackEntry (some : dest ≠ []) (entry : Entry) (st : State) :
    Ensures Responds (Kept dest home w₀ st.remaining) (unpackEntry dest entry st)
      fun r => Kept dest home w₀ (left r) := by
  -- Whatever the name is, cleaning it from the root on leaves names only.
  have placed : Placed dest (Paths.join dest (Paths.clean ('/' :: entry.name.toList)).text) :=
    ⟨_, join_clean some _⟩
  unfold unpackEntry
  dsimp only
  split
  · exact ensures_throw (Kept.failed _)
  split
  · exact ensures_throw (Kept.failed _)
  split
  · exact ensures_throw (Kept.failed _)
  split
  · refine (ensures_mkdirAll placed rfl List.prefix_rfl).bind (fun _ => ?_) Kept.failed
    exact ensures_pure fun _ kept => kept
  · exact ensures_unpackFile placed entry _ st
  · exact ensures_pure fun _ kept => kept

/-- From entry to entry the budget left goes along. -/
theorem ensures_unpackEntries (some : dest ≠ []) (entries : List Entry) (st : State) :
    Ensures Responds (Kept dest home w₀ st.remaining) (unpackEntries dest entries st)
      fun r => Kept dest home w₀ (left r) := by
  induction entries generalizing st with
  | nil => exact ensures_pure fun _ kept => kept
  | cons entry entries ih =>
    exact (ensures_unpackEntry some entry st).bind ih fun _ _ kept => kept

theorem ensures_unpackArchive (archive : Archive) (some : dest ≠ []) :
    Ensures Responds (Kept dest home w₀ Plugins.maxExtractBytes) (unpackArchive archive dest)
      fun _ => Kept dest home w₀ 0 := by
  have spent {b : Nat} (w : World) (kept : Kept dest home w₀ b w) : Kept dest home w₀ 0 w :=
    kept.lower (Nat.zero_le b)
  unfold unpackArchive
  split
  · exact ensures_throw spent
  refine (ensures_unpackEntries some archive.entries
    ⟨Plugins.maxExtractBytes, false, none⟩).bind (fun st => ?_) fun _ w kept => spent w kept
  split
  · exact ensures_throw spent
  split
  · exact ensures_throw spent
  · exact ensures_pure spent

/-- If the destination cannot be made, what was made on the way to it stays. Otherwise all that
follows happens below it. -/
theorem extractTarball_cases {archive : Archive} {r : Except String (List UInt8 × List Char)}
    (given : Opens w.disk w.cwd dest home)
    (cleaned : Opens w.disk w.cwd (Paths.clean dest).text home)
    (linkless : ∀ loc target, Below home loc → w.disk.node loc ≠ some (.link target))
    (ends : Ends Responds (extractTarball archive dest) w r w') :
    ∃ made w₁, Makes w dest made w₁ ∧ Within home w₁ w' ∧
      w'.written ≤ w₁.written + Plugins.maxExtractBytes := by
  have begun {r : Except String Unit} {w₁ : World} (ends : Ends Responds (mkdirAll dest) w r w₁) :
      ∃ made, Makes w dest made w₁ ∧ (r = .ok () →
        ∃ loc, Opens w₁.disk w₁.cwd dest loc ∧ w₁.disk.node loc = some .dir) := by
    obtain ⟨err, _, ⟨makes, reached⟩, rest⟩ := ends_request_bind.mp ends
    cases err with
    | none =>
      obtain ⟨rfl, rfl⟩ := rest
      exact ⟨_, makes, fun _ => reached rfl⟩
    | some err =>
      obtain ⟨rfl, rfl⟩ := rest
      exact ⟨_, makes, nofun⟩
  rcases ends_bind.mp ends with ⟨_, w₁, ran, rest⟩ | ⟨e, -, failed⟩
  · obtain ⟨made, makes, reached⟩ := begun ran
    obtain ⟨loc, opens, dir⟩ := reached rfl
    have leads := given.2.of_sameLinks makes.links
    rw [← makes.cwd] at leads
    obtain rfl := opens.2.unique leads
    have settled : Settled dest loc w₁ :=
      ⟨dir, makes.cwd ▸ (opens_text.mp cleaned).of_sameLinks makes.links,
        fun at_ target below link => linkless at_ target below ((makes.links _ _).mp link)⟩
    obtain ⟨-, within, bytes⟩ :=
      ensures_unpackArchive archive given.1 w₁ r w' ⟨settled, .refl w₁, le_rfl⟩ rest
    exact ⟨made, w₁, makes, within, bytes⟩
  · obtain ⟨made, makes, -⟩ := begun failed
    exact ⟨made, w', makes, .refl w', Nat.le_add_right ..⟩

end Runs

/-- Whatever the archive holds, and whether the work ends well or stops anywhere: only places below
the destination are made or written, besides directories that were missing on the way to it where it
was missing itself. At most so many bytes are written, and no link is made. -/
theorem extractTarball_contained (archive : Archive) {dest : List Char} {home : Location}
    {w w' : World} {r : Except String (List UInt8 × List Char)}
    (given : Opens w.disk w.cwd dest home)
    (cleaned : Opens w.disk w.cwd (Paths.clean dest).text home)
    (linkless : ∀ loc target, Below home loc → w.disk.node loc ≠ some (.link target))
    (ends : Ends Responds (extractTarball archive dest) w r w') :
    (∀ loc, w'.disk.node loc ≠ w.disk.node loc ∨ loc ∈ w'.touched ∧ loc ∉ w.touched →
      Below home loc ∨ w.disk.node home ≠ some .dir ∧ OnTheWay w dest loc ∧
        w.disk.node loc = none ∧ w'.disk.node loc = some .dir) ∧
    w'.written ≤ w.written + Plugins.maxExtractBytes ∧
    ∀ loc target, w'.disk.node loc = some (.link target) →
      w.disk.node loc = some (.link target) := by
  obtain ⟨made, w₁, makes, within, bytes⟩ := extractTarball_cases given cleaned linkless ends
  refine ⟨fun loc changed => or_iff_not_imp_left.mpr fun out => ?_, makes.written ▸ bytes,
    fun loc target link => (makes.links loc target).mp ((within.links loc target).mp link)⟩
  have new : loc ∈ made := by
    by_contra old
    rcases changed with changed | ⟨touched, before⟩
    · exact changed ((within.outside loc out).trans (makes.rest loc old))
    · have earlier := (within.touched loc touched).resolve_right out
      rw [makes.touched, List.mem_append] at earlier
      exact earlier.elim old before
  obtain ⟨missing, made_, way⟩ := makes.new loc new
  refine ⟨fun dir => ?_, way, missing, (within.outside loc out).trans made_⟩
  rw [makes.present home given dir] at new
  cases new

/-! ### A name that climbs -/

def srv : FileName := ⟨"srv".toList, by decide, by decide, by decide, by decide⟩

def manifest : FileName := ⟨"manifest.yaml".toList, by decide, by decide, by decide, by decide⟩

variable (srvDir : Option (Option Node))

/-- The root, and what may stand in it: a directory with a file or without. -/
def srvNode (loc : Location) : Option Node :=
  if loc = [] then some .dir
  else srvDir.bind fun held =>
    if loc = [srv] then some .dir else if loc = [srv, manifest] then held else none

theorem srvNode_nested (loc : Location) (name : FileName)
    (there : srvNode srvDir (loc ++ [name]) ≠ none) : srvNode srvDir loc = some .dir := by
  cases srvDir with
  | none => simp [srvNode] at there
  | some held =>
    rcases loc with _ | ⟨first, _ | ⟨second, rest⟩⟩
    · rfl
    · have same : first = srv := by
        by_contra other
        simp [srvNode, other] at there
      subst same
      rfl
    · simp [srvNode] at there

def srvDisk : Disk := ⟨srvNode srvDir, rfl, srvNode_nested srvDir⟩

def srvWorld (written : Nat) (touched : List Location) : World :=
  ⟨srvDisk srvDir, [], rfl, written, touched⟩

def climbing : Entry := ⟨"../../manifest.yaml", .reg, 1, [1], none, by decide⟩

theorem srv_not_link (target : List Char) :
    (srvDisk srvDir).node ([] ++ [srv]) ≠ some (.link target) := by
  cases srvDir <;> simp [srvDisk, srvNode]

theorem opens_srv : Opens (srvDisk srvDir) [] "/srv".toList [srv] :=
  ⟨by decide, .stay (.enter (srv_not_link srvDir) (.done [srv]))⟩

theorem opens_manifest {held : Option Node} (plain : ∀ target, held ≠ some (.link target)) :
    Opens (srvDisk (some held)) [] "/srv/manifest.yaml".toList [srv, manifest] :=
  ⟨by decide, .stay (.enter (srv_not_link _) (.enter plain (.done _)))⟩

theorem puts_manifest {held : Option Node} (before : held = none ∨ ∃ old, held = some (.file old))
    (data : List UInt8) (n m : Nat) (touched : List Location) :
    Puts (srvWorld (some held) n touched) [srv, manifest] data
      (srvWorld (some (some (.file data))) m ([srv, manifest] :: touched)) where
  before := before
  after := rfl
  rest loc other := by simp [srvWorld, srvDisk, srvNode, other]
  touched := rfl
  cwd := rfl

/-- The run in which every call succeeds. -/
theorem ends_climbing : Ends Responds (extractTarball ⟨none, [climbing], none⟩ "/srv".toList)
    (srvWorld none 0 []) (.ok ([1], []))
    (srvWorld (some (some (.file [1]))) 1 [[srv, manifest], [srv, manifest], [srv]]) := by
  have makes :
      Makes (srvWorld none 0 []) "/srv".toList [[srv]] (srvWorld (some none) 0 [[srv]]) := by
    refine ⟨?_, fun loc other => ?_, fun _ opens dir => ?_, rfl, rfl, rfl⟩
    · simp only [List.forall_mem_singleton]
      exact ⟨rfl, rfl, _, List.prefix_rfl, (opens_srv none).2⟩
    · simp_all [srvWorld, srvDisk, srvNode]
    · obtain rfl := opens.2.unique (opens_srv none).2
      cases dir
  have again :
      Makes (srvWorld (some none) 0 [[srv]]) "/srv".toList [] (srvWorld (some none) 0 [[srv]]) :=
    ⟨by simp, fun _ _ => rfl, fun _ _ _ => rfl, rfl, rfl, rfl⟩
  have opened := puts_manifest (.inl rfl) [] 0 0 [[srv]]
  have copied := puts_manifest (.inr ⟨[], rfl⟩) [1] 0 1 [[srv, manifest], [srv]]
  refine ⟨none, _, .mkdirAll makes fun _ => ⟨[srv], opens_srv _, rfl⟩, none, _,
    .mkdirAll again fun _ => ⟨[srv], opens_srv _, rfl⟩, .ok [srv, manifest], _,
    .opened (opens_manifest nofun) opened rfl (by rintro _ ⟨⟩; rfl), (1, none), _,
    .write (by decide) (fun _ => rfl) copied rfl, none, _, .close, .ok [1], _,
    .readFile ?_, rfl, rfl⟩
  rintro _ ⟨⟩
  exact ⟨_, opens_manifest nofun, rfl⟩

/-- The missing destination is made, and the entry ends up in it. -/
theorem climbing_contained :
    (∀ loc, srvNode (some (some (.file [1]))) loc ≠ srvNode none loc ∨
        loc ∈ [[srv, manifest], [srv, manifest], [srv]] ∧ loc ∉ ([] : List Location) →
      Below [srv] loc ∨ srvNode none [srv] ≠ some .dir ∧
        OnTheWay (srvWorld none 0 []) "/srv".toList loc ∧
        srvNode none loc = none ∧ srvNode (some (some (.file [1]))) loc = some .dir) ∧
      1 ≤ 0 + Plugins.maxExtractBytes ∧
      ∀ loc target, srvNode (some (some (.file [1]))) loc = some (.link target) →
        srvNode none loc = some (.link target) := by
  refine extractTarball_contained ⟨none, [climbing], none⟩ (opens_srv none) (opens_srv none)
    ?_ ends_climbing
  rintro _ target ⟨name, rest, rfl⟩ link
  have known : srvNode none ([srv] ++ name :: rest) = some (.link target) := link
  simp [srvNode] at known

end NovaNas.Unpacking
