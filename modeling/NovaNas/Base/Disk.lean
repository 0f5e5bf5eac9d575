import NovaNas.Base.Paths

/-!
# Disks with symbolic links

Directories, files and links, each at the location that the names from the root down to it give. The
kernel follows a path step by step from a directory on and takes up the target of every link it
comes to. Where there are no links, a path ends where its names say.
-/
namespace NovaNas.Disks

open Paths

/-- The names from the root down. -/
abbrev Location := List FileName

inductive Node where
  | dir
  | file (data : List UInt8)
  | link (target : List Char)
  deriving DecidableEq

structure Disk where
  node : Location → Option Node
  root : node [] = some .dir
  nested : ∀ loc name, node (loc ++ [name]) ≠ none → node loc = some .dir

inductive Step where
  | stay
  | up
  | enter (name : FileName)

/-- The segment is a name, unless it is two dots. -/
def IsName (seg : List Char) : Prop := seg ≠ [] ∧ seg ≠ ['.'] ∧ '/' ∉ seg

instance decidableIsName (seg : List Char) : Decidable (IsName seg) :=
  inferInstanceAs (Decidable (seg ≠ [] ∧ seg ≠ ['.'] ∧ '/' ∉ seg))

theorem IsName.nonempty {seg : List Char} (name : IsName seg) : seg ≠ [] := name.1

theorem IsName.dot {seg : List Char} (name : IsName seg) : seg ≠ ['.'] := name.2.1

theorem IsName.slash {seg : List Char} (name : IsName seg) : '/' ∉ seg := name.2.2

/-- What the kernel does for one segment of a path. -/
def step (seg : List Char) : Step :=
  if dots : seg = ['.', '.'] then .up
  else if name : IsName seg then .enter ⟨seg, name.nonempty, name.dot, dots, name.slash⟩
  else .stay

def steps (path : List Char) : List Step := (Text.split '/' path).map step

/-- The directory from which a path is followed. -/
def start (cwd : Location) (path : List Char) : Location :=
  if path.head? = some '/' then [] else cwd

/-- Where the steps lead. A name that is missing is passed, as if it were about to be made. -/
inductive Reaches (d : Disk) : Location → List Step → Location → Prop where
  | done (loc : Location) : Reaches d loc [] loc
  | stay {loc rest goal} : Reaches d loc rest goal → Reaches d loc (.stay :: rest) goal
  | up {loc rest goal} : Reaches d loc.dropLast rest goal → Reaches d loc (.up :: rest) goal
  | enter {loc name rest goal} : (∀ target, d.node (loc ++ [name]) ≠ some (.link target)) →
      Reaches d (loc ++ [name]) rest goal → Reaches d loc (.enter name :: rest) goal
  | follow {loc name target rest goal} : d.node (loc ++ [name]) = some (.link target) →
      Reaches d (start loc target) (steps target ++ rest) goal →
      Reaches d loc (.enter name :: rest) goal

/-- A path that is followed to its end; there is none without a name. -/
def Opens (d : Disk) (cwd : Location) (path : List Char) (goal : Location) : Prop :=
  path ≠ [] ∧ Reaches d (start cwd path) (steps path) goal

/-- Strictly below a directory. -/
def Below (home loc : Location) : Prop := ∃ name rest, loc = home ++ name :: rest

/-- Both disks have the same links. -/
def SameLinks (d d' : Disk) : Prop :=
  ∀ loc target, d'.node loc = some (.link target) ↔ d.node loc = some (.link target)

variable {home : Location}

section Nodes

variable {d : Disk} {loc : Location}

theorem Disk.exists_dropLast (there : d.node loc ≠ none) : d.node loc.dropLast ≠ none := by
  rcases List.eq_nil_or_concat loc with rfl | ⟨front, name, rfl⟩
  · exact there
  · have parent := d.nested front name (by simpa using there)
    simp [parent]

theorem Below.ne (below : Below home loc) : loc ≠ home := by
  obtain ⟨name, rest, rfl⟩ := below
  simp

theorem below_append {names : List FileName} (some : names ≠ []) :
    Below home (home ++ names) := by
  obtain ⟨name, rest, rfl⟩ := List.exists_cons_of_ne_nil some
  exact ⟨name, rest, rfl⟩

end Nodes

section Reaching

variable {d d' : Disk} {loc goal other : Location} {first rest : List Step}

theorem Reaches.append (one : Reaches d loc first goal) (two : Reaches d goal rest other) :
    Reaches d loc (first ++ rest) other := by
  induction one with
  | done loc => exact two
  | stay _ ih => exact .stay (ih two)
  | up _ ih => exact .up (ih two)
  | enter plain _ ih => exact .enter plain (ih two)
  | follow link _ ih => exact .follow link (by simpa using ih two)

/-- The way to a goal goes on from wherever its beginning leads. -/
theorem Reaches.tail (one : Reaches d loc first goal)
    (two : Reaches d loc (first ++ rest) other) : Reaches d goal rest other := by
  induction one with
  | done loc => exact two
  | stay _ ih =>
    cases two with
    | stay two => exact ih two
  | up _ ih =>
    cases two with
    | up two => exact ih two
  | enter plain _ ih =>
    cases two with
    | enter _ two => exact ih two
    | follow link _ => exact absurd link (plain _)
  | follow link _ ih =>
    cases two with
    | enter plain _ => exact absurd link (plain _)
    | follow link' two =>
      cases link.symm.trans link'
      exact ih (by simpa using two)

theorem Reaches.unique (one : Reaches d loc first goal) (two : Reaches d loc first other) :
    goal = other := by
  rw [← List.append_nil first] at two
  cases one.tail two
  rfl

theorem Reaches.of_sameLinks (same : SameLinks d d') (reaches : Reaches d loc first goal) :
    Reaches d' loc first goal := by
  induction reaches with
  | done loc => exact .done loc
  | stay _ ih => exact .stay ih
  | up _ ih => exact .up ih
  | enter plain _ ih => exact .enter (fun target link => plain target ((same _ _).mp link)) ih
  | follow link _ ih => exact .follow ((same _ _).mpr link) ih

/-- Below a directory without links the kernel goes where the names say. -/
theorem reaches_names (linkless : ∀ at_ target, Below home at_ → d.node at_ ≠ some (.link target))
    (names : List FileName) : Reaches d home (names.map .enter) (home ++ names) := by
  suffices ∀ done, Reaches d (home ++ done) (names.map .enter) (home ++ done ++ names) by
    simpa using this []
  induction names with
  | nil => simpa using fun done => Reaches.done (home ++ done)
  | cons name names ih =>
    intro done
    have next := ih (done ++ [name])
    refine .enter (fun target => linkless _ target ?_) (by simpa using next)
    rw [List.append_assoc]
    exact below_append (by simp)

/-- Names lead from a missing place to missing places only. -/
theorem exists_of_reaches {names : List FileName} (reaches : Reaches d loc (names.map .enter) goal)
    (there : d.node goal ≠ none) : d.node loc ≠ none := by
  induction names generalizing loc with
  | nil =>
    cases reaches
    exact there
  | cons name names ih =>
    intro missing
    have nothing : d.node (loc ++ [name]) = none := by
      by_contra something
      simp [d.nested _ _ something] at missing
    cases reaches with
    | enter _ reaches => exact ih reaches nothing
    | follow link _ => simp [nothing] at link

/-- Steps upwards stay among the directories that there are. -/
theorem exists_of_reaches_ups {n : Nat} (there : d.node loc ≠ none)
    (reaches : Reaches d loc (List.replicate n .up) goal) : d.node goal ≠ none := by
  induction n generalizing loc with
  | zero =>
    cases reaches
    exact there
  | succ n ih =>
    cases reaches with
    | up reaches => exact ih (Disk.exists_dropLast there) reaches

end Reaching

/-! ### Cleaned paths -/

section Cleaned

variable {d : Disk} {cwd goal : Location}

def pathSteps (p : Path) : List Step := List.replicate p.ups .up ++ p.parts.map .enter

@[simp] theorem step_name (name : FileName) : step name.text = .enter name := by
  rw [step, dif_neg name.dots, dif_pos ⟨name.nonempty, name.dot, name.slash⟩]

theorem map_step_segments (p : Path) :
    (List.replicate p.ups ['.', '.'] ++ p.parts.map (·.text)).map step = pathSteps p := by
  have dots : step ['.', '.'] = .up := rfl
  simp [pathSteps, dots, Function.comp_def]

/-- A written path has the steps of the path, behind some that stay. -/
theorem steps_text (p : Path) : ∃ k, steps p.text = List.replicate k .stay ++ pathSteps p := by
  have segments := map_step_segments p
  unfold Path.text
  generalize found : List.replicate p.ups ['.', '.'] ++ p.parts.map (·.text) = segs at segments
  have apart : ∀ w ∈ segs, '/' ∉ w := by
    subst found
    intro w member
    rcases List.mem_append.mp member with dots | name
    · rw [List.eq_of_mem_replicate dots]
      decide
    · obtain ⟨part, -, rfl⟩ := List.mem_map.mp name
      exact part.slash
  rw [← segments]
  by_cases none_ : segs = []
  · subst none_
    cases p.rooted with
    | true => exact ⟨2, rfl⟩
    | false => exact ⟨1, rfl⟩
  · have written := Text.split_join none_ apart
    cases p.rooted with
    | true =>
      refine ⟨1, ?_⟩
      simp only [steps, Text.split_cons, if_true, written]
      rfl
    | false =>
      refine ⟨0, ?_⟩
      simp [steps, none_, written]

/-- From where a cleaned path is followed. -/
def origin (cwd : Location) (p : Path) : Location := if p.rooted then [] else cwd

/-- Only a rooted path is written with a slash in front, and none is written as nothing. -/
theorem head_text (p : Path) : ∃ c rest, p.text = c :: rest ∧ (c = '/' ↔ p.rooted = true) := by
  unfold Path.text
  cases p.rooted with
  | true => exact ⟨'/', _, rfl, by simp⟩
  | false =>
    have solid : ∀ w ∈ List.replicate p.ups ['.', '.'] ++ p.parts.map (·.text),
        ∃ c rest, w = c :: rest ∧ c ≠ '/' := by
      intro w member
      rcases List.mem_append.mp member with dots | name
      · exact ⟨'.', ['.'], List.eq_of_mem_replicate dots, by decide⟩
      · obtain ⟨part, -, rfl⟩ := List.mem_map.mp name
        obtain ⟨c, rest, same⟩ := List.exists_cons_of_ne_nil part.nonempty
        exact ⟨c, rest, same, fun slash => part.slash (by simp [same, slash])⟩
    generalize List.replicate p.ups ['.', '.'] ++ p.parts.map (·.text) = segs at solid
    rcases segs with _ | ⟨w, _ | ⟨w', segs⟩⟩
    · exact ⟨'.', [], rfl, by decide⟩
    · obtain ⟨c, rest, rfl, ne⟩ := solid w (.head _)
      exact ⟨c, rest, rfl, by simpa using ne⟩
    · obtain ⟨c, rest, rfl, ne⟩ := solid w (.head _)
      exact ⟨c, _, rfl, by simpa using ne⟩

theorem start_text (cwd : Location) (p : Path) : start cwd p.text = origin cwd p := by
  obtain ⟨c, rest, same, slash⟩ := head_text p
  simp [start, origin, same, slash]

theorem reaches_stays {k : Nat} {loc : Location} {rest : List Step} :
    Reaches d loc (List.replicate k .stay ++ rest) goal ↔ Reaches d loc rest goal := by
  induction k with
  | zero => rfl
  | succ k ih =>
    rw [List.replicate_succ, List.cons_append, ← ih]
    constructor
    · rintro (_ | reaches)
      assumption
    · exact .stay

theorem exists_prefix_of_stays {k : Nat} {loc : Location} {pre rest : List Step}
    (starts : pre <+: List.replicate k .stay ++ rest) (reaches : Reaches d loc pre goal) :
    ∃ pre', pre' <+: rest ∧ Reaches d loc pre' goal := by
  induction k generalizing pre with
  | zero => exact ⟨pre, starts, reaches⟩
  | succ k ih =>
    cases pre with
    | nil => exact ⟨[], List.nil_prefix, reaches⟩
    | cons s pre =>
      rw [List.replicate_succ, List.cons_append] at starts
      obtain ⟨rfl, later⟩ := List.cons_prefix_cons.mp starts
      cases reaches with
      | stay reaches => exact ih later reaches

theorem opens_text {p : Path} :
    Opens d cwd p.text goal ↔ Reaches d (origin cwd p) (pathSteps p) goal := by
  obtain ⟨k, same⟩ := steps_text p
  have some : p.text ≠ [] := by
    obtain ⟨c, rest, written, -⟩ := head_text p
    simp [written]
  rw [Opens, start_text, same, reaches_stays]
  exact and_iff_right some

theorem pathSteps_dir (p : Path) : pathSteps p.dir <+: pathSteps p := by
  unfold Path.dir pathSteps
  split
  next bare =>
    simp only [bare, List.map_nil, List.append_nil]
    exact List.prefix_replicate_iff.mpr ⟨by simp, by simp⟩
  next => simpa using (List.dropLast_prefix p.parts).map Step.enter

/-- On the way to something below a directory, what is missing is missing below the directory. -/
theorem below_of_missing {p : Path} {loc : Location} {names : List FileName} {pre : List Step}
    (there : d.node (origin cwd p) ≠ none) (arrives : Reaches d (origin cwd p) (pathSteps p) home)
    (dir : d.node home ≠ none)
    (linkless : ∀ at_ target, Below home at_ → d.node at_ ≠ some (.link target))
    (starts : pre <+: pathSteps p ++ names.map .enter) (reaches : Reaches d (origin cwd p) pre loc)
    (missing : d.node loc = none) :
    Below home loc := by
  rcases List.prefix_or_prefix_of_prefix starts (List.prefix_append ..) with short | ⟨more, rfl⟩
  · -- The place is on the way to the directory, where nothing is missing.
    exfalso
    rcases List.prefix_or_prefix_of_prefix short (List.prefix_append ..) with ups | ⟨more, rfl⟩
    · obtain ⟨-, same⟩ := List.prefix_replicate_iff.mp ups
      rw [same] at reaches
      exact exists_of_reaches_ups there reaches missing
    · obtain ⟨rest, whole⟩ := short
      rw [← whole] at arrives
      rw [pathSteps, List.append_assoc, List.append_cancel_left_eq] at whole
      obtain ⟨_, parts, -, -, rfl⟩ := List.map_eq_append_iff.mp whole.symm
      exact exists_of_reaches (reaches.tail arrives) dir missing
  · rw [List.prefix_append_right_inj] at starts
    obtain ⟨rest, whole⟩ := starts
    obtain ⟨parts, _, -, rfl, -⟩ := List.map_eq_append_iff.mp whole.symm
    have same := (arrives.tail reaches).unique (reaches_names linkless parts)
    rw [same]
    apply below_append
    rintro rfl
    exact dir (by simpa [same] using missing)

end Cleaned

end NovaNas.Disks
