import NovaNas.Base.Paths
import NovaNas.Base.Program

/-!
# Replication from S3

A pull lists the keys that begin with a prefix and writes each object to the path that is left of
its key. What is left is a path of its own, and may lead out of the destination.
-/
namespace NovaNas.Replication.S3

open Paths (Path Inside)

abbrev Key := List Char

abbrev Bytes := List UInt8

inductive Call where
  | listObjects (bucket : String) (start : Key)
  | getObject (bucket : String) (key : Key)
  | mkdirAll (path : Path)
  | create (path : Path)
  | copy (path : Path) (body : Bytes)

def Call.Answer : Call → Type
  | .mkdirAll _ | .create _ => Option String
  | .listObjects _ _ => Except String (List Key)
  | .getObject _ _ => Except String Bytes
  | .copy _ _ => Except String Nat

/-- The bytes transferred, and the error if there is one. -/
abbrev RunResult := Nat × Option String

abbrev Operation := Program Call Call.Answer RunResult

/-- `strings.Trim(s, "/")` -/
def trimSlashes (s : List Char) : List Char :=
  ((s.dropWhile (· = '/')).reverse.dropWhile (· = '/')).reverse

/-- `strings.TrimPrefix` -/
def trimStart (start s : List Char) : List Char :=
  if start.isPrefixOf s then s.drop start.length else s

/-! ### Pull -/

/-- What is left of a key. -/
def relOf (start : Key) (key : Key) : List Char := trimStart ['/'] (trimStart start key)

def pullObjects (bucket : String) (start : Key) (root : List Char) : List Key → Nat → Operation
  | [], total => .ret (total, none)
  | key :: rest, total =>
    let dst := Paths.join root (relOf start key)
    .ask (.mkdirAll dst.dir) fun
      | some err => .ret (total, some err)
      | none => .ask (.getObject bucket key) fun
        | .error err => .ret (total, some err)
        | .ok body => .ask (.create dst) fun
          | some err => .ret (total, some err)
          | none => .ask (.copy dst body) fun
            | .error err => .ret (total, some err)
            | .ok n => pullObjects bucket start root rest (total + n)

def pull (bucket : String) (pfx root : List Char) : Operation :=
  .ask (.listObjects bucket (trimSlashes pfx)) fun
    | .error err => .ret (0, some err)
    | .ok keys => pullObjects bucket (trimSlashes pfx) root keys 0

/-! ### Where a pull writes -/

/-- A call to create a file is for one below the directory. -/
def CreatesInside (root : List Char) : Call → Prop
  | .create path => Inside (Paths.clean root) path
  | _ => True

/-- What is left of the key, read as a path from the destination, goes up by some names, comes back
by the same ones and goes on. -/
def Stays (root : List Char) (start : Key) (key : Key) : Prop :=
  let c := Paths.clean root
  let r := Paths.relative (relOf start key)
  (c.rooted = true ∨ r.ups ≤ c.parts.length) ∧
    ∃ name rest, r.parts = c.parts.drop (c.parts.length - r.ups) ++ name :: rest

variable {bucket : String} {start : Key} {root : List Char}

theorem inside_iff_stays (nonempty : root ≠ []) (key : Key) :
    Inside (Paths.clean root) (Paths.join root (relOf start key)) ↔ Stays root start key := by
  rw [Paths.join_eq nonempty, Path.walk_eq, Paths.inside_under_iff, Stays]

theorem pullObjects_creates_iff (nonempty : root ≠ []) (keys : List Key) (total : Nat) :
    (pullObjects bucket start root keys total).Always (CreatesInside root) ↔
      ∀ key ∈ keys, Stays root start key := by
  induction keys generalizing total with
  | nil => simp [pullObjects]
  | cons key rest ih =>
    rw [List.forall_mem_cons, ← inside_iff_stays nonempty]
    constructor
    · -- with every call answered the file is created and the loop goes on
      rintro ⟨-, made⟩
      obtain ⟨-, got⟩ := made none
      obtain ⟨inside, created⟩ := got (.ok [])
      obtain ⟨-, copied⟩ := created none
      exact ⟨inside, (ih _).mp (copied (.ok 0))⟩
    · rintro ⟨inside, later⟩
      refine ⟨trivial, fun made => ?_⟩
      cases made with
      | some err => trivial
      | none =>
        refine ⟨trivial, fun got => ?_⟩
        cases got with
        | error err => trivial
        | ok body =>
          refine ⟨inside, fun created => ?_⟩
          cases created with
          | some err => trivial
          | none =>
            refine ⟨trivial, fun copied => ?_⟩
            cases copied with
            | error err => trivial
            | ok n => exact (ih _).mpr later

/-- The files of a pull lie below its destination, whatever is answered, just where every key does. -/
theorem pull_creates_inside_iff (bucket : String) (pfx root : List Char) (nonempty : root ≠ [])
    (keys : List Key) :
    (pullObjects bucket (trimSlashes pfx) root keys 0).Always (CreatesInside root) ↔
      ∀ key ∈ keys, Stays root (trimSlashes pfx) key :=
  pullObjects_creates_iff nonempty keys 0

theorem pull_below_restore :
    (pullObjects "b" (trimSlashes "backup/".toList) "/srv/restore".toList
      ["backup/a/b".toList] 0).Always (CreatesInside "/srv/restore".toList) := by
  refine (pull_creates_inside_iff "b" "backup/".toList "/srv/restore".toList (by decide) _).mpr ?_
  rw [List.forall_mem_singleton]
  exact ⟨.inl rfl, ⟨"a".toList, by decide, by decide, by decide, by decide⟩, _, rfl⟩

theorem pull_leaves_restore :
    ¬(pullObjects "b" (trimSlashes "backup/".toList) "/srv/restore".toList
      ["backup/../../etc/passwd".toList] 0).Always (CreatesInside "/srv/restore".toList) := by
  rintro ⟨-, made⟩
  obtain ⟨⟨-, -, name, rest, parts⟩, -⟩ := ((made none).2 (.ok []))
  have first : (Paths.join "/srv/restore".toList
      (relOf (trimSlashes "backup/".toList) "backup/../../etc/passwd".toList)).parts.head? =
        (Paths.clean "/srv/restore".toList).parts.head? := by
    rw [parts]
    rfl
  exact absurd first (by decide)

end NovaNas.Replication.S3
