import NovaNas.Base.Fallible
import NovaNas.Base.Lines

/-!
# What names and paths of shares must pass

Exports, Samba shares and the shares made of both have the same rules for their names and nearly the
same ones for their paths. Each is kept in a file of its own.
-/
namespace NovaNas.Shares

open Fallible (failIf bind_ok)

abbrev Name := List Char

inductive CheckError where
  | required (what : String)
  | tooLong (what : String) (text : Name)
  | leadingDash (what : String) (text : Name)
  | character (what : String) (c : Char) (text : Name)
  | notAbsolute (what : String) (path : Name)
  | nul (what : String)
  | dotDot (what : String) (path : Name)
  | control (what : String) (path : Name)
  | cidr (text : Name)
  | noClients
  | start (name : Name)
  | digits (what : String) (text : Name)
  | at (what : String) (i : Nat) (err : CheckError)
  deriving DecidableEq, Repr

abbrev Check := Except CheckError Unit

def isAlnum (c : Char) : Bool :=
  ('a' ≤ c && c ≤ 'z') || ('A' ≤ c && c ≤ 'Z') || ('0' ≤ c && c ≤ '9')

theorem isAlnum_graphic {c : Char} (alnum : isAlnum c = true) : 47 < c.toNat ∧ c.toNat < 123 := by
  simp only [isAlnum, Bool.or_eq_true, Bool.and_eq_true, decide_eq_true_eq, Char.le_def,
    UInt32.le_iff_toNat_le] at alnum
  change (97 ≤ c.toNat ∧ c.toNat ≤ 122 ∨ 65 ≤ c.toNat ∧ c.toNat ≤ 90) ∨
    48 ≤ c.toNat ∧ c.toNat ≤ 57 at alnum
  omega

theorem isAlnum_solid {c : Char} (alnum : isAlnum c = true) :
    Text.isSpace c = false ∧ c ≠ '(' ∧ c ≠ ')' := by
  have bounds := isAlnum_graphic alnum
  refine ⟨Text.isSpace_of_graphic (by omega) (by omega), ?_, ?_⟩ <;>
  · rintro rfl
    revert bounds
    decide

/-- The first character that is not allowed. -/
def allOf (allowed : Char → Bool) (what : String) (text : Name) : Check :=
  match text.find? fun c => !allowed c with
  | some c => .error (.character what c text)
  | none => .ok ()

variable {what : String}

theorem allOf_ok {allowed : Char → Bool} {text : Name} (ok : allOf allowed what text = .ok ()) :
    ∀ c ∈ text, allowed c = true := by
  rw [allOf] at ok
  split at ok
  · cases ok
  next none => simpa using none

/-- Every element passes; an error says at which place. -/
def checkEach {α : Type} (check : α → Check) (what : String) : Nat → List α → Check
  | _, [] => .ok ()
  | i, a :: rest => do
    (check a).mapError (.at what i)
    checkEach check what (i + 1) rest

theorem checkEach_ok {α : Type} {check : α → Check} {i : Nat} {list : List α}
    (ok : checkEach check what i list = .ok ()) : ∀ a ∈ list, check a = .ok () := by
  induction list generalizing i with
  | nil => simp
  | cons a rest ih =>
    obtain ⟨⟨⟩, first, later⟩ := bind_ok ok
    exact List.forall_mem_cons.mpr ⟨Fallible.mapError_ok first, ih later⟩

/-- `validateExportName` and `validateShareName` -/
def validateName (what : String) (name : Name) : Check := do
  failIf (name = []) (.required what)
  failIf (64 < Text.byteLength name) (.tooLong what name)
  failIf (name.head? = some '-') (.leadingDash what name)
  allOf (fun c => isAlnum c || c = '_' || c = '-') what name

theorem validateName_solid {name : Name} (ok : validateName what name = .ok ()) :
    Text.Solid name := by
  obtain ⟨⟨⟩, -, ok⟩ := bind_ok ok
  obtain ⟨⟨⟩, -, ok⟩ := bind_ok ok
  obtain ⟨⟨⟩, -, ok⟩ := bind_ok ok
  have all := allOf_ok ok
  simp only [Bool.or_eq_true, decide_eq_true_eq] at all
  intro c member
  rcases all c member with (alnum | rfl) | rfl
  · exact (isAlnum_solid alnum).1
  all_goals decide

/-- The same names pass whatever they are of. -/
theorem validateName_congr {other : String} {name : Name} (ok : validateName what name = .ok ()) :
    validateName other name = .ok () := by
  have pass {condition : Prop} [Decidable condition] {err other : CheckError}
      (ok : failIf condition err = .ok ()) : failIf condition other = .ok () :=
    if_neg (Fallible.failIf_ok ok)
  obtain ⟨⟨⟩, nonempty, ok⟩ := bind_ok ok
  obtain ⟨⟨⟩, short, ok⟩ := bind_ok ok
  obtain ⟨⟨⟩, start, ok⟩ := bind_ok ok
  have all : allOf (fun c => isAlnum c || c = '_' || c = '-') other name = .ok () := by
    have none : (name.find? fun c => !(isAlnum c || c = '_' || c = '-')) = none := by
      refine List.find?_eq_none.mpr fun c member => ?_
      rw [allOf_ok ok c member]
      decide
    rw [allOf, none]
  rw [validateName, pass nonempty, pass short, pass start]
  exact all

def isControl (c : Char) : Bool := c.toNat < 0x20 || c.toNat = 0x7f

/-- `validateExportPath` and `validateSharePath` -/
def validatePath (what : String) (forbidden : List Char) (p : Name) : Check := do
  failIf (p = []) (.required what)
  failIf (p.head? ≠ some '/') (.notAbsolute what p)
  failIf (p.contains '\x00') (.nul what)
  failIf ((Text.split '/' p).contains ['.', '.']) (.dotDot what p)
  match p.find? fun c => isControl c || forbidden.contains c with
  | some c => .error (if isControl c then .control what p else .character what c p)
  | none => .ok ()

theorem validatePath_ok {forbidden : List Char} {p : Name}
    (ok : validatePath what forbidden p = .ok ()) :
    (∃ more, p = '/' :: more) ∧ ∀ c ∈ p, 0x20 ≤ c.toNat ∧ c ∉ forbidden := by
  obtain ⟨⟨⟩, -, ok⟩ := bind_ok ok
  obtain ⟨⟨⟩, absolute, ok⟩ := bind_ok ok
  obtain ⟨⟨⟩, -, ok⟩ := bind_ok ok
  obtain ⟨⟨⟩, -, ok⟩ := bind_ok ok
  have absolute := not_not.mp (Fallible.failIf_ok absolute)
  constructor
  · cases p with
    | nil => cases absolute
    | cons c more => exact ⟨more, by rw [Option.some.inj absolute]⟩
  · split at ok
    · cases ok
    next plain =>
      intro c member
      have passes := List.find?_eq_none.mp plain c member
      simp only [isControl, Bool.or_eq_true, decide_eq_true_eq, List.contains_iff_mem, not_or,
        not_lt] at passes
      exact ⟨passes.1.1, passes.2⟩

theorem not_mem_of_control {p : Name} {c : Char} (low : c.toNat < 0x20)
    (plain : ∀ c ∈ p, 0x20 ≤ c.toNat) : c ∉ p :=
  fun member => Nat.not_le.mpr low (plain c member)

/-! ### Files -/

/-- An operation on a file stops at what is not valid and at the first thing that stands in its
way, and leaves the file. -/
def onFile {ε : Type} (invalid : CheckError → ε) (valid : Check) (stops : List (Bool × ε))
    (store : Except ε Unit × Option Name) (file : Option Name) : Except ε Unit × Option Name :=
  match valid with
  | .error err => (.error (invalid err), file)
  | .ok () =>
    match stops.find? (·.1) with
    | some (_, err) => (.error err, file)
    | none => store

theorem onFile_ok {ε : Type} {invalid : CheckError → ε} {valid : Check} {stops : List (Bool × ε)}
    {store : Except ε Unit × Option Name} {file after : Option Name}
    (made : onFile invalid valid stops store file = (.ok (), after)) :
    valid = .ok () ∧ store = (.ok (), after) := by
  unfold onFile at made
  split at made
  · cases made
  · split at made
    · cases made
    · exact ⟨rfl, made⟩

/-- What becomes of a write. A failed one may leave anything. -/
inductive Write where
  | done
  | failed (left : Option Name)
  deriving DecidableEq, Repr

end NovaNas.Shares
