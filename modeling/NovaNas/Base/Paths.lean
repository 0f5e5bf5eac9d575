import NovaNas.Base.Text

/-!
# Paths

Paths as `path/filepath` cleans and joins them on Unix, without a look at the disk. A cleaned path
is its names, from the outside in, behind some steps upwards; a rooted one has none of these.
-/
namespace NovaNas.Paths

/-- The name of an entry of a directory. -/
structure FileName where
  text : List Char
  nonempty : text ≠ []
  dot : text ≠ ['.']
  dots : text ≠ ['.', '.']
  slash : '/' ∉ text
  deriving DecidableEq

structure Path where
  rooted : Bool
  ups : Nat
  parts : List FileName
  deriving DecidableEq

namespace Path

/-- A step upwards. Nothing lies above the root. -/
def up (p : Path) : Path :=
  if p.parts = [] then if p.rooted then p else { p with ups := p.ups + 1 }
  else { p with parts := p.parts.dropLast }

def child (p : Path) (name : FileName) : Path := { p with parts := p.parts ++ [name] }

/-- What one segment does to the path before it. -/
def push (p : Path) (seg : List Char) : Path :=
  if dots : seg = ['.', '.'] then p.up
  else if name : seg ≠ [] ∧ seg ≠ ['.'] ∧ '/' ∉ seg then
    p.child ⟨seg, name.1, name.2.1, dots, name.2.2⟩
  else p

/-- The path after more segments. -/
def walk (p : Path) (text : List Char) : Path := (Text.split '/' text).foldl push p

/-- How the path is written. -/
def text (p : Path) : List Char :=
  let segments := List.replicate p.ups ['.', '.'] ++ p.parts.map (·.text)
  if p.rooted then '/' :: Text.join '/' segments
  else if segments = [] then ['.'] else Text.join '/' segments

/-- `filepath.Dir` -/
def dir (p : Path) : Path :=
  if p.parts = [] then { p with ups := p.ups - 1 } else { p with parts := p.parts.dropLast }

end Path

/-- `filepath.Clean` -/
def clean (text : List Char) : Path := Path.walk ⟨text.head? = some '/', 0, []⟩ text

/-- `filepath.Join` of two elements. -/
def join (root rel : List Char) : Path :=
  if root = [] then clean rel else clean (root ++ '/' :: rel)

/-- A text read as a path from some directory on. -/
def relative (text : List Char) : Path := Path.walk ⟨false, 0, []⟩ text

/-- The path leads to something below the first one. -/
def Inside (p q : Path) : Prop :=
  q.rooted = p.rooted ∧ q.ups = p.ups ∧ ∃ name rest, q.parts = p.parts ++ name :: rest

def Path.segments (p : Path) : List (List Char) :=
  List.replicate p.ups ['.', '.'] ++ p.parts.map (·.text)

/-- What is left of two lists behind what they begin with in common. -/
def dropCommon : List (List Char) → List (List Char) → List (List Char) × List (List Char)
  | b :: base, t :: targ => if b = t then dropCommon base targ else (b :: base, t :: targ)
  | base, targ => (base, targ)

/-- `filepath.Rel` of cleaned paths. -/
def rel (base targ : Path) : Option (List Char) :=
  if base = targ then some ['.']
  else if base.rooted ≠ targ.rooted then none
  else
    let (b, t) := dropCommon base.segments targ.segments
    -- What lies below an unknown number of steps upwards has no relative path.
    if b.head? = some ['.', '.'] then none
    else some (Text.join '/' (List.replicate b.length ['.', '.'] ++ t))

namespace Path

variable (c r : Path)

/-- The path from `c` on. -/
def under : Path where
  rooted := c.rooted
  ups := if c.rooted then c.ups else c.ups + (r.ups - c.parts.length)
  parts := c.parts.take (c.parts.length - r.ups) ++ r.parts

variable {c r}

theorem under_up (relative : r.rooted = false) : c.under r.up = (c.under r).up := by
  by_cases bare : r.parts = []
  · by_cases inner : r.ups < c.parts.length
    · -- the step takes away a name of `c`
      have kept : c.parts.take (c.parts.length - r.ups) ≠ [] := by
        rw [← List.length_pos_iff, List.length_take]
        omega
      have shorter : (c.parts.take (c.parts.length - r.ups)).dropLast =
          c.parts.take (c.parts.length - (r.ups + 1)) := by
        rw [List.dropLast_eq_take, List.length_take, List.take_take]
        congr 1
        omega
      have inside : r.ups - c.parts.length = 0 := by omega
      have inside' : r.ups + 1 - c.parts.length = 0 := by omega
      simp only [under, up, bare, relative, if_true, Bool.false_eq_true, if_false, List.append_nil,
        kept, shorter, inside, inside']
    · have none_ : c.parts.length - r.ups = 0 := by omega
      have none' : c.parts.length - (r.ups + 1) = 0 := by omega
      cases rooted : c.rooted with
      | true => simp [under, up, bare, relative, none_, none', rooted]
      | false =>
        simp [under, up, bare, relative, none_, none', rooted]
        omega
  · simp [under, up, bare]

theorem under_push (relative : r.rooted = false) (seg : List Char) :
    c.under (r.push seg) = (c.under r).push seg := by
  rw [push, push]
  split
  · exact under_up relative
  · split
    · simp [under, child]
    · rfl

theorem push_rooted (seg : List Char) : (r.push seg).rooted = r.rooted := by
  rw [push]
  split
  · rw [up]
    split
    · split <;> rfl
    · rfl
  · split <;> rfl

theorem under_foldl (relative : r.rooted = false) (segs : List (List Char)) :
    c.under (segs.foldl push r) = segs.foldl push (c.under r) := by
  induction segs generalizing r with
  | nil => rfl
  | cons seg segs ih =>
    rw [List.foldl_cons, List.foldl_cons, ih ((push_rooted seg).trans relative),
      under_push relative]

theorem under_here : c.under ⟨false, 0, []⟩ = c := by
  cases c
  simp [under]

theorem walk_eq (text : List Char) : c.walk text = c.under (Paths.relative text) := by
  rw [Paths.relative, walk, walk, under_foldl rfl, under_here]

/-- Names that are written down are found again. -/
theorem walk_join {names : List FileName} (nonempty : names ≠ []) :
    c.walk (Text.join '/' (names.map FileName.text)) = { c with parts := c.parts ++ names } := by
  have apart : ∀ w ∈ names.map FileName.text, '/' ∉ w := by
    rintro w member
    obtain ⟨name, -, rfl⟩ := List.mem_map.mp member
    exact name.slash
  rw [walk, Text.split_join (by simpa using nonempty) apart]
  clear nonempty apart
  induction names generalizing c with
  | nil => simp
  | cons name names ih =>
    have first : c.push name.text = c.child name := by
      rw [push, dif_neg name.dots, dif_pos ⟨name.nonempty, name.dot, name.slash⟩]
    rw [List.map_cons, List.foldl_cons, first, ih]
    simp [child]

end Path

theorem join_eq {root : List Char} (nonempty : root ≠ []) (rel : List Char) :
    join root rel = (clean root).walk rel := by
  have head : (root ++ '/' :: rel).head? = root.head? := by
    cases root with
    | nil => exact absurd rfl nonempty
    | cons c root => rfl
  rw [join, if_neg nonempty, clean, clean, head, Path.walk, Path.walk, Path.walk,
    Text.split_append_sep, List.foldl_append]

theorem clean_slash (text : List Char) :
    (clean ('/' :: text)).rooted = true ∧ (clean ('/' :: text)).ups = 0 := by
  suffices ∀ (segs : List (List Char)) (p : Path), p.rooted = true → p.ups = 0 →
      (segs.foldl Path.push p).rooted = true ∧ (segs.foldl Path.push p).ups = 0 from
    this _ _ rfl rfl
  intro segs
  induction segs with
  | nil => exact fun p rooted none_ => ⟨rooted, none_⟩
  | cons seg segs ih =>
    intro p rooted none_
    refine ih _ ((Path.push_rooted seg).trans rooted) ?_
    rw [Path.push]
    split
    · rw [Path.up]
      split <;> simp [none_]
    · split <;> exact none_

/-- A path that was cleaned from the root on is joined to another one name by name. -/
theorem join_clean {root : List Char} (nonempty : root ≠ []) (name : List Char) :
    join root (clean ('/' :: name)).text = { clean root with
      parts := (clean root).parts ++ (clean ('/' :: name)).parts } := by
  obtain ⟨rooted, none_⟩ := clean_slash name
  have blank (c : Path) : c.push [] = c := rfl
  rw [join_eq nonempty, Path.text, rooted, none_]
  generalize (clean ('/' :: name)).parts = names
  generalize clean root = c
  simp only [List.replicate_zero, List.nil_append, if_true, Path.walk, Text.split_cons,
    List.foldl_cons, blank]
  by_cases bare : names = []
  · subst bare
    simp [Text.join, Text.split, blank]
  · exact Path.walk_join bare

/-- A relative path leads below `c` just where it comes back, by the names it went up from, as far as
it went up, and goes on. -/
theorem inside_under_iff {c r : Path} : Inside c (c.under r) ↔
    (c.rooted = true ∨ r.ups ≤ c.parts.length) ∧
      ∃ name rest, r.parts = c.parts.drop (c.parts.length - r.ups) ++ name :: rest := by
  have names (name : FileName) (rest : List FileName) :
      c.parts.take (c.parts.length - r.ups) ++ r.parts = c.parts ++ name :: rest ↔
        r.parts = c.parts.drop (c.parts.length - r.ups) ++ name :: rest := by
    conv_lhs => rhs; rw [← List.take_append_drop (c.parts.length - r.ups) c.parts]
    rw [List.append_assoc, List.append_cancel_left_eq]
  have steps : (if c.rooted then c.ups else c.ups + (r.ups - c.parts.length)) = c.ups ↔
      c.rooted = true ∨ r.ups ≤ c.parts.length := by
    cases c.rooted with
    | true => simp
    | false => simp; omega
  simp only [Inside, Path.under, names, steps, true_and]

end NovaNas.Paths
