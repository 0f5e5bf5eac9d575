import NovaNas.Base.Fallible
import NovaNas.Plugins.Manifest

/-!
# Plugin packages

A package is a tarball, seen as its list of entries, and is unpacked below a directory. The tree
below the directory maps paths to what is there. The disk may fail at any entry.
-/
namespace NovaNas.Plugins

open Fallible (failIf bind_ok)

/-- The components of a path below the destination. -/
abbrev Path := List (List Char)

inductive Node where
  | directory
  | file (document : Document)

abbrev Tree := Path → Option Node

def Tree.empty : Tree := fun _ => none

inductive EntryKind where
  | directory
  | regular (size : Nat) (document : Document)
  /-- Links, devices and the like. -/
  | other

structure Entry where
  name : String
  kind : EntryKind

structure Package where
  entries : List Entry
  /-- The error that the decompressor or the archive reader gives after the entries. -/
  damage : Option String

/-! ### Paths -/

def cleanFrom (done : Path) : List (List Char) → Path
  | [] => done.reverse
  | part :: rest =>
    if part = [] ∨ part = ['.'] then cleanFrom done rest
    else if part = ['.', '.'] then cleanFrom done.tail rest
    else cleanFrom (part :: done) rest

/-- The components of `filepath.Clean("/" + name)`. -/
def clean (name : String) : Path := cleanFrom [] (Text.split '/' name.toList)

/-- The component contains `..`. -/
def hasDots : List Char → Bool
  | '.' :: '.' :: _ => true
  | _ :: rest => hasDots rest
  | [] => false

def uiPath : Path := ["ui".toList]

def manifestPath : Path := ["manifest.yaml".toList]

/-! ### Unpacking -/

def maxExtractBytes : Nat := 512 * 2 ^ 20

/-- Where the disk fails while it works on an entry. -/
inductive DiskStep where
  /-- Some of the directories were made. -/
  | mkdir (made : Nat)
  | openFile
  /-- The file was left with other contents. -/
  | write (left : Document)
  | readBack

structure DiskFaults where
  root : Bool
  entry : Nat → Option DiskStep

def DiskFaults.none : DiskFaults := ⟨false, fun _ => .none⟩

structure Unpacking where
  tree : Tree
  remaining : Nat
  hasUI : Bool
  manifest : Option Document

def Tree.isFile (tree : Tree) (path : Path) : Bool :=
  match tree path with
  | some (.file _) => true
  | _ => false

def Tree.isDirectory (tree : Tree) (path : Path) : Bool :=
  match tree path with
  | some .directory => true
  | _ => false

def Tree.addDirectories (tree : Tree) (path : Path) : Tree := fun q =>
  if q <+: path then some ((tree q).getD .directory) else tree q

def Tree.setFile (tree : Tree) (path : Path) (document : Document) : Tree := fun q =>
  if q = path then some (.file document) else tree q

/-- `os.MkdirAll`. An error comes with the tree that it leaves. -/
def mkdirAll (tree : Tree) (path : Path) (fault : Option DiskStep) :
    Except (String × Tree) Tree :=
  match fault with
  | some (.mkdir made) => .error ("mkdir: input/output error", tree.addDirectories (path.take made))
  | _ =>
    if path.inits.any tree.isFile then .error ("mkdir: not a directory", tree)
    else .ok (tree.addDirectories path)

def failsReading : Option DiskStep → Bool
  | some .readBack => true
  | _ => false

/-- The file is opened, written, closed and, if it is the manifest, read back. -/
def writeFile (st : Unpacking) (path : Path) (size : Nat) (document : Document)
    (fault : Option DiskStep) : Except (String × Tree) Unpacking :=
  match fault with
  | some .openFile => .error ("open: input/output error", st.tree)
  | some (.write left) => .error ("write: input/output error", st.tree.setFile path left)
  | _ => do
    failIf (st.tree.isDirectory path) ("open: is a directory", st.tree)
    let tree := st.tree.setFile path document
    failIf (path = manifestPath ∧ failsReading fault) ("read: input/output error", tree)
    return {
      tree := tree
      remaining := st.remaining - size
      hasUI := st.hasUI || (path.head? = uiPath.head? && decide (2 ≤ path.length))
      manifest := if path = manifestPath then some document else st.manifest }

def unpackEntry (st : Unpacking) (entry : Entry) (fault : Option DiskStep) :
    Except (String × Tree) Unpacking := do
  let path := clean entry.name
  failIf (path.any hasDots)
    ("plugins: tarball entry escapes root: " ++ quoted entry.name, st.tree)
  match entry.kind with
  | .directory =>
    let tree ← mkdirAll st.tree path fault
    return { st with tree := tree, hasUI := st.hasUI || path = uiPath }
  | .regular size document =>
    failIf (size > st.remaining)
      ("plugins: tarball exceeds " ++ toString maxExtractBytes ++ " bytes", st.tree)
    let tree ← mkdirAll st.tree path.dropLast fault
    writeFile { st with tree := tree } path size document fault
  | .other => return st

def unpackFrom (faults : Nat → Option DiskStep) (i : Nat) :
    List Entry → Unpacking → Except (String × Tree) Unpacking
  | [], st => .ok st
  | entry :: entries, st => do
    unpackFrom faults (i + 1) entries (← unpackEntry st entry (faults i))

/-- The result of `ExtractTarball`: the contents of the manifest and whether there is a UI. -/
structure Extracted where
  manifest : Document
  hasUI : Bool

def finishUnpacking (pkg : Package) (st : Unpacking) : Except (String × Tree) (Extracted × Tree) :=
  match pkg.damage with
  | some err => .error (err, st.tree)
  | none =>
    match st.manifest with
    | none => .error ("plugins: tarball: missing manifest.yaml at root", st.tree)
    | some document => .ok (⟨document, st.hasUI⟩, st.tree)

/-- `ExtractTarball` into a directory that holds the tree. An error comes with the tree that it
leaves. -/
def extractTarball (pkg : Package) (faults : DiskFaults) (tree : Tree) :
    Except (String × Tree) (Extracted × Tree) := do
  failIf faults.root ("mkdir: input/output error", tree)
  let st ← unpackFrom faults.entry 0 pkg.entries
    ⟨tree.addDirectories [], maxExtractBytes, false, none⟩
  finishUnpacking pkg st

/-! ### What a package unpacks to -/

def Entry.path (entry : Entry) : Path := clean entry.name

/-- The manifest that the entry holds. -/
def Entry.document (entry : Entry) : Option Document :=
  match entry.kind with
  | .regular _ document => if entry.path = manifestPath then some document else none
  | _ => none

/-- The entry makes `ExtractTarball` report a UI. -/
def Entry.servesUI (entry : Entry) : Bool :=
  match entry.kind with
  | .directory => entry.path = uiPath
  | .regular _ _ => entry.path.head? = uiPath.head? && decide (2 ≤ entry.path.length)
  | .other => false

/-- The entry leaves something at `ui`. -/
def Entry.touchesUI (entry : Entry) : Bool :=
  match entry.kind with
  | .directory | .regular _ _ => entry.path.head? = uiPath.head?
  | .other => false

/-- The last manifest wins. -/
def Package.manifest (pkg : Package) : Option Document :=
  pkg.entries.foldl (fun found entry => entry.document.or found) none

def Package.hasUI (pkg : Package) : Bool := pkg.entries.any Entry.servesUI

def Package.showsUI (pkg : Package) : Bool := pkg.entries.any Entry.touchesUI

theorem uiPath_below_iff {path : Path} : uiPath <+: path ↔ path.head? = uiPath.head? := by
  cases path with
  | nil => simp [uiPath]
  | cons part rest => simp [uiPath, List.cons_prefix_cons, eq_comm]

theorem addDirectories_ui (tree : Tree) (path : Path) :
    (tree.addDirectories path uiPath).isSome =
      ((tree uiPath).isSome || decide (path.head? = uiPath.head?)) := by
  rw [Tree.addDirectories]
  by_cases below : path.head? = uiPath.head?
  · simp [uiPath_below_iff, below]
  · simp [uiPath_below_iff, below]

variable {fault : Option DiskStep}

theorem mkdirAll_ok {tree tree' : Tree} {path : Path} (ok : mkdirAll tree path fault = .ok tree') :
    tree' = tree.addDirectories path := by
  unfold mkdirAll at ok
  split at ok
  next => cases ok
  next =>
    split at ok
    next => cases ok
    next =>
      cases ok
      rfl

theorem writeFile_ok {st st' : Unpacking} {path : Path} {size : Nat} {document : Document}
    (ok : writeFile st path size document fault = .ok st') :
    st'.tree = st.tree.setFile path document ∧
      st'.hasUI = (st.hasUI || (path.head? = uiPath.head? && decide (2 ≤ path.length))) ∧
      st'.manifest = if path = manifestPath then some document else st.manifest := by
  unfold writeFile at ok
  split at ok
  next => cases ok
  next => cases ok
  next =>
    obtain ⟨_, -, ok⟩ := bind_ok ok
    obtain ⟨_, -, ok⟩ := bind_ok ok
    cases ok
    exact ⟨rfl, rfl, rfl⟩

/-- What an entry adds: a manifest, a reported UI, something at `ui`. -/
structure Adds (entry : Entry) (st st' : Unpacking) : Prop where
  manifest : st'.manifest = entry.document.or st.manifest
  hasUI : st'.hasUI = (st.hasUI || entry.servesUI)
  shown : (st'.tree uiPath).isSome = ((st.tree uiPath).isSome || entry.touchesUI)

theorem regular_shown (tree : Tree) (path : Path) (document : Document) :
    ((tree.addDirectories path.dropLast).setFile path document uiPath).isSome =
      ((tree uiPath).isSome || decide (path.head? = uiPath.head?)) := by
  rw [Tree.setFile]
  split
  next same => simp [← same]
  next other =>
    rw [addDirectories_ui]
    -- Only a path with something below its first part reaches it through its parents.
    rcases path with _ | ⟨part, _ | ⟨next, rest⟩⟩
    · rfl
    · have ne : part ≠ ['u', 'i'] := by
        rintro rfl
        exact other rfl
      simp [uiPath, ne]
    · rfl

theorem unpackEntry_ok {st st' : Unpacking} {entry : Entry}
    (ok : unpackEntry st entry fault = .ok st') : Adds entry st st' := by
  unfold unpackEntry at ok
  obtain ⟨_, -, ok⟩ := bind_ok ok
  split at ok
  next kind =>
    obtain ⟨tree, made, ok⟩ := bind_ok ok
    cases ok
    cases mkdirAll_ok made
    refine ⟨?_, ?_, ?_⟩
    · simp [Entry.document, kind]
    · rw [Entry.servesUI, kind]
      rfl
    · rw [Entry.touchesUI, kind]
      exact addDirectories_ui st.tree entry.path
  next size document kind =>
    obtain ⟨_, -, ok⟩ := bind_ok ok
    obtain ⟨tree, made, ok⟩ := bind_ok ok
    cases mkdirAll_ok made
    obtain ⟨written, serves, manifest⟩ := writeFile_ok ok
    refine ⟨?_, ?_, ?_⟩
    · rw [manifest, Entry.document, kind, Entry.path]
      split <;> simp [*]
    · rw [serves, Entry.servesUI, kind]
      rfl
    · rw [written, regular_shown, Entry.touchesUI, kind]
      rfl
  next kind =>
    cases ok
    refine ⟨?_, ?_, ?_⟩
    · simp [Entry.document, kind]
    · simp [Entry.servesUI, kind]
    · simp [Entry.touchesUI, kind]

theorem unpackFrom_ok {faults : Nat → Option DiskStep} {i : Nat} {entries : List Entry}
    {st st' : Unpacking} (ok : unpackFrom faults i entries st = .ok st') :
    st'.manifest = entries.foldl (fun found entry => entry.document.or found) st.manifest ∧
      st'.hasUI = (st.hasUI || entries.any Entry.servesUI) ∧
      (st'.tree uiPath).isSome = ((st.tree uiPath).isSome || entries.any Entry.touchesUI) := by
  induction entries generalizing i st with
  | nil =>
    cases ok
    simp
  | cons entry entries ih =>
    rw [unpackFrom] at ok
    obtain ⟨next, first, rest⟩ := bind_ok ok
    have adds := unpackEntry_ok first
    obtain ⟨manifest, hasUI, shown⟩ := ih rest
    refine ⟨?_, ?_, ?_⟩
    · rw [manifest, adds.manifest, List.foldl_cons]
    · rw [hasUI, adds.hasUI, List.any_cons, Bool.or_assoc]
    · rw [shown, adds.shown, List.any_cons, Bool.or_assoc]

/-- The result depends on the entries alone; what is at `ui` afterwards also on what was there. -/
theorem extractTarball_ok {pkg : Package} {faults : DiskFaults} {tree tree' : Tree}
    {extracted : Extracted} (ok : extractTarball pkg faults tree = .ok (extracted, tree')) :
    pkg.manifest = some extracted.manifest ∧ extracted.hasUI = pkg.hasUI ∧
      (tree' uiPath).isSome = ((tree uiPath).isSome || pkg.showsUI) := by
  unfold extractTarball at ok
  obtain ⟨_, -, ok⟩ := bind_ok ok
  obtain ⟨st, unpacked, ok⟩ := bind_ok ok
  obtain ⟨manifest, hasUI, shown⟩ := unpackFrom_ok unpacked
  rw [finishUnpacking] at ok
  split at ok
  next => cases ok
  next =>
    split at ok
    next => cases ok
    next document found =>
      cases ok
      refine ⟨?_, ?_, ?_⟩
      · rw [Package.manifest, ← found, manifest]
      · rw [hasUI, Bool.false_or, Package.hasUI]
      · rw [shown, addDirectories_ui, Package.showsUI]
        simp [uiPath]

end NovaNas.Plugins
