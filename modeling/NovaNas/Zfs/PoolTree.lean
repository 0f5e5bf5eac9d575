import NovaNas.Zfs.PoolStatus

/-!
# The tree of devices in a pool's status

`zpool status -P` prints the devices of a pool as indented rows below a row with the name of the
pool. Reading the rows gives the tree back, with one exception: a row is only looked at once its
line is not one of the others, and the names of pools may start like those. Then the row of the pool
is not seen, and the first row after it at the outermost level is taken for it.

The counters of a row are printed, but no reading of a row sets them.
-/
namespace NovaNas.Zfs

open Forest (Growing)
open Text (Solid isSpace blanks trimSpace)

/-! ### What is printed -/

inductive Group where
  | mirror
  | raidz
  | raidz1
  | raidz2
  | raidz3
  | draid

def Group.word : Group → Name
  | .mirror => "mirror".toList
  | .raidz => "raidz-".toList
  | .raidz1 => "raidz1".toList
  | .raidz2 => "raidz2".toList
  | .raidz3 => "raidz3".toList
  | .draid => "draid".toList

def Group.type : Group → VdevType
  | .mirror => .mirror
  | .raidz => .raidz1
  | .raidz1 => .raidz1
  | .raidz2 => .raidz2
  | .raidz3 => .raidz3
  | .draid => .draid

inductive Side where
  | logs
  | cache
  | spares
  | special
  | dedup

def Side.word : Side → Name
  | .logs => "logs".toList
  | .cache => "cache".toList
  | .spares => "spares".toList
  | .special => "special".toList
  | .dedup => "dedup".toList

def Side.type : Side → VdevType
  | .logs => .log
  | .cache => .cache
  | .spares => .spare
  | .special => .special
  | .dedup => .dedup

/-- What a row is about: a group with what follows the word for it, a disk with its path below the
root directory, or the head of a section. -/
inductive Item where
  | group (kind : Group) (number : Name) (solid : Solid number)
  | disk (path : Name) (solid : Solid path)
  | side (kind : Side)

namespace Item

def name : Item → Name
  | group kind number _ => kind.word ++ number
  | disk path _ => '/' :: path
  | side kind => kind.word

def type : Item → VdevType
  | group kind _ _ => kind.type
  | disk _ _ => .disk
  | side kind => kind.type

def path : Item → Name
  | disk path _ => '/' :: path
  | _ => []

def isDisk : Item → Bool
  | disk _ _ => true
  | _ => false

end Item

/-- The rest of a row: white space only, or a state, the counters and a remark. Each counter comes
with the further blanks before it. -/
inductive Columns where
  | bare (trail : Name) (white : ∀ c ∈ trail, c = ' ' ∨ c = '\t')
  | shown (pad : Nat) (state : Name) (counts : List (Nat × Nat)) (remark : Name)
      (solid : Solid state) (nonempty : state ≠ [])
      (spaced : ∀ c ∈ remark.head?, isSpace c = true) (single : '\n' ∉ remark)

namespace Columns

def counters : Columns → List Nat
  | bare _ _ => []
  | shown _ _ counts _ _ _ _ _ => counts.map (·.2)

def state : Columns → Name
  | bare _ _ => ['-']
  | shown _ state _ _ _ _ _ _ => state

def counterText (count : Nat × Nat) : Name := blanks (count.1 + 1) ++ Nat.toDigits 10 count.2

def text : Columns → Name
  | bare trail _ => trail
  | shown pad state counts remark _ _ _ _ =>
    blanks (pad + 1) ++ (state ++ (counts.flatMap counterText ++ remark))

end Columns

structure Row where
  item : Item
  columns : Columns

/-- The device that a row shows. -/
def Row.vdev (row : Row) : Vdev where
  type := row.item.type
  path := row.item.path
  state := row.columns.state

/-- A row starts with a tab, and each level is indented by two blanks. -/
def rowLine (depth : Nat) (name : Name) (columns : Columns) : Name :=
  '\t' :: blanks (2 * depth) ++ (name ++ columns.text)

/-- The status of a pool as `zpool status -P` prints it. -/
structure Display where
  pool : Name
  accepted : validatePoolName pool = .ok ()
  /-- The lines before the tree. -/
  header : List Name
  headerSingle : ∀ line ∈ header, '\n' ∉ line
  headerPlain : ∀ line ∈ header, "config:".toList.isPrefixOf (trimSpace line) = false
  columns : Columns
  data : Forest Row
  dataHeight : data.height ≤ 3
  sections : Forest Row
  sectionsHeight : sections.height ≤ 4
  /-- What is said about errors. -/
  errors : Name
  errorsSingle : '\n' ∉ errors

namespace Display

variable (d : Display)

def rows : List (Nat × Row) := d.data.rows 1 ++ d.sections.rows 0

def rowLines : List Name := d.rows.map fun row => rowLine row.1 row.2.item.name row.2.columns

def lines : List Name :=
  d.header ++ ["config:".toList, [], "\tNAME  STATE  READ WRITE CKSUM".toList] ++
    rowLine 0 d.pool d.columns :: d.rowLines ++ [[], "errors: ".toList ++ d.errors]

def text : Name := Text.unlines d.lines

def tree : Forest Vdev := (d.data.append d.sections).map Row.vdev

/-- No line is more than the scanner holds. -/
def Fits : Prop := ∀ line ∈ d.lines, Text.byteLength line < 65536

end Display

/-! ### A row is read -/

/-- The starts of the lines that are not rows. -/
def lineWords : List Name :=
  ["state:".toList, "scan:".toList, "config:".toList, "errors:".toList, "NAME".toList]

theorem Columns.text_head (columns : Columns) :
    ∀ c ∈ columns.text.head?, isSpace c = true := by
  intro c member
  cases columns with
  | bare trail white =>
    rcases white c (List.mem_of_mem_head? member) with rfl | rfl <;> decide
  | shown pad state counts remark solid nonempty spaced single =>
    obtain rfl : c = ' ' := by simpa [text, blanks, List.replicate_succ] using member.symm
    decide

theorem counterText_head (count : Nat × Nat) (rest : Name) :
    (Columns.counterText count ++ rest).head? = some ' ' := by
  simp [Columns.counterText, blanks, List.replicate_succ]

theorem Columns.fields_text (columns : Columns) :
    (Text.fields columns.text).head?.getD ['-'] = columns.state := by
  cases columns with
  | bare trail white =>
    have space : ∀ c ∈ trail, isSpace c = true := by
      intro c member
      rcases white c member with rfl | rfl <;> decide
    have nothing := Text.fields_spaces space []
    rw [List.append_nil] at nothing
    rw [text, nothing]
    rfl
  | shown pad state counts remark solid nonempty spaced single =>
    have ends : ∀ c ∈ (counts.flatMap counterText ++ remark).head?, isSpace c = true := by
      cases counts with
      | nil => exact spaced
      | cons count counts =>
        intro c member
        rw [List.flatMap_cons, List.append_assoc, counterText_head] at member
        cases member
        decide
    rw [text, Text.fields_blanks, Text.fields_word solid nonempty ends]
    rfl

theorem Columns.text_single (columns : Columns) : '\n' ∉ columns.text := by
  cases columns with
  | bare trail white =>
    intro member
    rcases white _ member with same | same <;> cases same
  | shown pad state counts remark solid nonempty spaced single =>
    have blank (n : Nat) : '\n' ∉ blanks n := by simp [blanks]
    have digits (n : Nat) : '\n' ∉ Nat.toDigits 10 n := by
      intro member
      have := Nat.isDigit_of_mem_toDigits (by decide) (by decide) member
      revert this
      decide
    have stated : '\n' ∉ state := solid.not_mem (by decide)
    simp [text, counterText, blank, digits, stated, single]

variable {st : Reading}

section Row

variable {depth : Nat} {name : Name} {columns : Columns}

variable (solid : Solid name) (nonempty : name ≠ [])
include solid nonempty

theorem trimSpace_rowLine :
    trimSpace (rowLine depth name columns) =
      name ++ columns.text.rdropWhile isSpace := by
  refine Text.trimSpace_word (fun c member => ?_) solid nonempty _
  rcases List.mem_cons.mp member with rfl | blank
  · decide
  · rw [List.eq_of_mem_replicate blank]
    decide

theorem fields_rowLine :
    Text.fields (trimSpace (rowLine depth name columns)) =
      name :: Text.fields columns.text := by
  rw [Text.fields_trimSpace, rowLine, List.cons_append, Text.fields_space (by decide),
    Text.fields_blanks, Text.fields_word solid nonempty columns.text_head]

theorem configDepth_rowLine :
    configDepth (rowLine depth name columns) = some depth := by
  have stops : (name ++ columns.text).takeWhile (· = ' ') = [] := by
    cases name with
    | nil => contradiction
    | cons c name =>
      have other : c ≠ ' ' := by
        rintro rfl
        exact solid.not_mem (by decide) List.mem_cons_self
      simp [other]
  have blank : ∀ c ∈ blanks (2 * depth), decide (c = ' ') = true := by
    intro c member
    simpa using List.eq_of_mem_replicate member
  rw [rowLine, List.cons_append, configDepth, List.takeWhile_append_of_pos blank, stops]
  simp [blanks]

theorem isPrefixOf_rowLine {start : Name} (solidStart : Solid start) :
    start.isPrefixOf (trimSpace (rowLine depth name columns)) = start.isPrefixOf name := by
  rw [trimSpace_rowLine solid nonempty]
  refine Text.isPrefixOf_word solidStart fun c member => ?_
  -- What is left of the columns starts as they do.
  obtain ⟨rest, whole⟩ := List.rdropWhile_prefix (p := isSpace) (l := columns.text)
  refine columns.text_head c ?_
  rw [← whole, List.head?_append, member]
  rfl

theorem line_rowLine (plain : ∀ start ∈ lineWords, start.isPrefixOf name = false)
    (tracked : depth < 4) :
    st.line (rowLine depth name columns) =
      if st.inConfig then st.row depth (classifyVdev name columns.state) else st := by
  have starts : ∀ start ∈ lineWords,
      start.isPrefixOf (trimSpace (rowLine depth name columns)) = false := by
    intro start member
    have solidStart : ∀ start ∈ lineWords, Solid start := by decide
    rw [isPrefixOf_rowLine solid nonempty (solidStart _ member), plain _ member]
  simp only [lineWords, List.forall_mem_cons] at starts
  obtain ⟨isState, isScan, isConfig, isErrors, isName, -⟩ := starts
  have filled : trimSpace (rowLine depth name columns) ≠ [] := by
    rw [trimSpace_rowLine solid nonempty]
    simp [nonempty]
  simp only [Reading.line, isState, isScan, isConfig, isErrors, isName, filled,
    fields_rowLine solid nonempty, configDepth_rowLine solid nonempty, Nat.not_le.mpr tracked,
    columns.fields_text, Bool.false_eq_true, if_false, or_false]
  cases st.inConfig <;> simp

end Row

theorem Item.name_solid (item : Item) : Solid item.name := by
  cases item with
  | group kind number solid =>
    have word : Solid kind.word := by cases kind <;> decide
    exact word.append solid
  | disk path solid => exact List.forall_mem_cons.mpr ⟨by decide, solid⟩
  | side kind => cases kind <;> decide

theorem Item.name_ne_nil (item : Item) : item.name ≠ [] := by
  cases item with
  | group kind number solid => cases kind <;> nofun
  | disk path solid => nofun
  | side kind => cases kind <;> nofun

theorem Item.name_plain (item : Item) :
    ∀ start ∈ lineWords, start.isPrefixOf item.name = false := by
  simp only [lineWords, List.forall_mem_cons]
  cases item with
  | group kind number solid => cases kind <;> exact ⟨rfl, rfl, rfl, rfl, rfl, nofun⟩
  | disk path solid => exact ⟨rfl, rfl, rfl, rfl, rfl, nofun⟩
  | side kind => cases kind <;> exact ⟨rfl, rfl, rfl, rfl, rfl, nofun⟩

theorem classifyVdev_name (row : Row) :
    classifyVdev row.item.name row.columns.state = row.vdev := by
  obtain ⟨item, columns⟩ := row
  cases item with
  | group kind number solid => cases kind <;> rfl
  | disk path solid => rfl
  | side kind => cases kind <;> rfl

/-! ### The lines around the rows -/

/-- No row has been read. -/
structure Reading.Bare (st : Reading) (inside : Bool) : Prop where
  config : st.config = .start
  inConfig : st.inConfig = inside
  rootSeen : st.rootSeen = false

theorem bare_line (bare : st.Bare false) {line : Name}
    (plain : "config:".toList.isPrefixOf (trimSpace line) = false) :
    (st.line line).Bare false := by
  simp only [Reading.line, plain, bare.inConfig, true_or, if_true, Bool.false_eq_true, if_false]
  split
  · exact ⟨bare.config, rfl, bare.rootSeen⟩
  split
  · exact ⟨bare.config, rfl, bare.rootSeen⟩
  split
  · exact ⟨bare.config, rfl, bare.rootSeen⟩
  · exact bare

theorem bare_header {lines : List Name} (bare : st.Bare false)
    (plain : ∀ line ∈ lines, "config:".toList.isPrefixOf (trimSpace line) = false) :
    (lines.foldl Reading.line st).Bare false := by
  induction lines generalizing st with
  | nil => exact bare
  | cons line lines ih =>
    obtain ⟨first, later⟩ := List.forall_mem_cons.mp plain
    exact ih (bare_line bare first) later

theorem line_empty (st : Reading) : st.line [] = st :=
  if_pos (.inr (.inl rfl))

/-- The heading opens the tree. -/
theorem bare_heading (bare : st.Bare false) :
    (["config:".toList, [], "\tNAME  STATE  READ WRITE CKSUM".toList].foldl
      Reading.line st).Bare true := by
  have named (st : Reading) : st.line "\tNAME  STATE  READ WRITE CKSUM".toList = st :=
    if_pos (.inr (.inr rfl))
  rw [List.foldl_cons, List.foldl_cons, line_empty, List.foldl_cons, named]
  exact ⟨bare.config, rfl, bare.rootSeen⟩

theorem config_errors (st : Reading) (more : Name) :
    (st.line ("errors: ".toList ++ more)).config = st.config := by
  have solid : Solid "errors:".toList := by decide
  have trimmed : trimSpace ([] ++ ("errors:".toList ++ ' ' :: more)) =
      "errors:".toList ++ (' ' :: more).rdropWhile isSpace :=
    Text.trimSpace_word (by simp) solid (by decide) _
  change trimSpace ("errors: ".toList ++ more) = _ at trimmed
  rw [Reading.line, trimmed]
  rfl

/-! ### The rows -/

def Reading.rows (st : Reading) (rows : List (Nat × Vdev)) : Reading :=
  rows.foldl (fun st row => st.row row.1 row.2) st

theorem inConfig_row (st : Reading) (depth : Nat) (v : Vdev) :
    (st.row depth v).inConfig = st.inConfig := by
  unfold Reading.row
  split <;> rfl

theorem foldl_rowLines {rows : List (Nat × Row)} (low : ∀ row ∈ rows, row.1 < 4) (st : Reading) :
    (rows.map fun row => rowLine row.1 row.2.item.name row.2.columns).foldl Reading.line st =
      if st.inConfig then st.rows (rows.map (Prod.map id Row.vdev)) else st := by
  induction rows generalizing st with
  | nil => simp [Reading.rows]
  | cons row rows ih =>
    obtain ⟨first, later⟩ := List.forall_mem_cons.mp low
    rw [List.map_cons, List.foldl_cons, line_rowLine row.2.item.name_solid row.2.item.name_ne_nil
      row.2.item.name_plain first, classifyVdev_name, ih later]
    cases inside : st.inConfig with
    | false => simp [inside]
    | true => simp [inConfig_row, inside, Reading.rows]

/-- Rows are placed once the row of the pool has been seen, or if none is outermost. -/
theorem rows_eq {rows : List (Nat × Vdev)} (placed : st.rootSeen = true ∨ ∀ row ∈ rows, 0 < row.1) :
    st.rows rows = { st with config := rows.foldl Growing.place st.config } := by
  induction rows generalizing st with
  | nil => rfl
  | cons row rows ih =>
    have first : st.row row.1 row.2 = { st with config := st.config.place row } := by
      refine if_neg fun ⟨outermost, unseen⟩ => ?_
      rcases placed with seen | deep
      · rw [seen] at unseen
        cases unseen
      · exact (deep row List.mem_cons_self).ne' outermost
    have later : st.rootSeen = true ∨ ∀ row ∈ rows, 0 < row.1 :=
      placed.imp_right fun deep => (List.forall_mem_cons.mp deep).2
    rw [Reading.rows, List.foldl_cons, first]
    exact ih later

theorem length_row_le (st : Reading) (depth : Nat) (v : Vdev) :
    (st.row depth v).config.trees.nodes.length ≤ st.config.trees.nodes.length + 1 := by
  unfold Reading.row
  split
  · exact Nat.le_succ _
  · have placed := (Forest.nodes_graft (.single v) st.config.trees (st.config.slot depth)).length_le
    rwa [List.length_append] at placed

theorem length_rows_le (st : Reading) (rows : List (Nat × Vdev)) :
    (st.rows rows).config.trees.nodes.length ≤ st.config.trees.nodes.length + rows.length := by
  induction rows generalizing st with
  | nil => exact Nat.le_refl _
  | cons row rows ih =>
    have first := length_row_le st row.1 row.2
    have later := ih (st.row row.1 row.2)
    rw [List.length_cons]
    change ((st.row row.1 row.2).rows rows).config.trees.nodes.length ≤ _
    omega

/-- After the row of the pool, the rows give the data and then the sections. -/
theorem trees_seen (bare : st.Bare true) (v : Vdev) (data sections : Forest Vdev) :
    ((st.row 0 v).rows (data.rows 1 ++ sections.rows 0)).config.trees = data.append sections := by
  have root : st.row 0 v = { st with
      rootSeen := true
      config := { st.config with last := fun d => if d = 0 then none else st.config.last d } } :=
    if_pos ⟨rfl, bare.rootSeen⟩
  rw [rows_eq (.inl (by rw [root])), List.foldl_append, (Growing.place_rows sections 0 _).1,
    (Growing.place_rows data 1 _).1, root]
  simp [Growing.slot, bare.config, Growing.start, Forest.graft_nil, Forest.append]

/-- Without the row of the pool, the data are still read. -/
theorem trees_data (bare : st.Bare true) (data : Forest Vdev) :
    (st.rows (data.rows 1)).config.trees = data ∧ (st.rows (data.rows 1)).rootSeen = false := by
  rw [rows_eq (.inr fun row member => Forest.le_level member)]
  refine ⟨?_, bare.rootSeen⟩
  rw [(Growing.place_rows data 1 _).1, bare.config]
  exact Forest.graft_nil data .nil

/-- The first outermost row is then taken for that of the pool. -/
theorem length_unseen_lt (bare : st.Bare true) (data : Forest Vdev) (v : Vdev)
    (children rest : Forest Vdev) :
    (st.rows (data.rows 1 ++ (Forest.cons v children rest).rows 0)).config.trees.nodes.length <
      (data.append (.cons v children rest)).nodes.length := by
  obtain ⟨read, unseen⟩ := trees_data bare data
  have later := length_rows_le ((st.rows (data.rows 1)).row 0 v) (children.rows 1 ++ rest.rows 0)
  have skipped : ((st.rows (data.rows 1)).row 0 v).config.trees = data := by
    rw [Reading.row, if_pos ⟨rfl, unseen⟩]
    exact read
  have counted (f : Forest Vdev) (level : Nat) : (f.rows level).length = f.nodes.length := by
    rw [← f.map_rows level, List.length_map]
  have split : st.rows (data.rows 1 ++ (Forest.cons v children rest).rows 0) =
      ((st.rows (data.rows 1)).row 0 v).rows (children.rows 1 ++ rest.rows 0) := by
    rw [Reading.rows, List.foldl_append]
    rfl
  rw [split, Forest.nodes_append, List.length_append, Forest.nodes]
  rw [skipped, List.length_append, counted, counted] at later
  rw [List.length_cons, List.length_append]
  omega

/-! ### The row of the pool -/

/-- The row of the pool is taken for another line of the heading. -/
def Masks (pool : Name) : Prop :=
  ∃ start ∈ ["state:".toList, "scan:".toList, "config:".toList, "NAME".toList],
    start.isPrefixOf pool = true

/-- The row of the pool is taken for the end of the tree. -/
def Closes (pool : Name) : Prop := "errors:".toList.isPrefixOf pool = true

theorem poolName_solid {pool : Name} (valid : validatePoolName pool = .ok ()) : Solid pool := by
  intro c member
  have allowed := validatePoolName_ok valid c member
  have low : 32 < c.toNat := by
    simp only [isAllowedComponent, isAlpha, Bool.or_eq_true, Bool.and_eq_true,
      decide_eq_true_eq] at allowed
    rcases allowed with ((((range | range) | rfl) | rfl) | rfl) | rfl
    · rcases range with range | range
      · exact Nat.lt_of_lt_of_le (by decide) (toNat_le range.1)
      · exact Nat.lt_of_lt_of_le (by decide) (toNat_le range.1)
    · exact Nat.lt_of_lt_of_le (by decide) (toNat_le range.1)
    all_goals decide
  have high := ascii_of_allowed allowed
  exact Text.isSpace_of_graphic low (by omega)

theorem poolName_ne_nil {pool : Name} (valid : validatePoolName pool = .ok ()) : pool ≠ [] := by
  rintro rfl
  cases valid

theorem not_closes_of_masks {pool : Name} (masks : Masks pool) :
    "errors:".toList.isPrefixOf pool = false := by
  obtain ⟨start, member, begins⟩ := masks
  obtain ⟨rest, rfl⟩ := List.isPrefixOf_iff_prefix.mp begins
  simp only [List.mem_cons, List.not_mem_nil, or_false] at member
  rcases member with rfl | rfl | rfl | rfl <;> rfl

section Pool

variable {st : Reading} {pool : Name}

theorem line_pool_plain (bare : st.Bare true) (valid : validatePoolName pool = .ok ())
    (unmasked : ¬Masks pool) (unclosed : ¬Closes pool) (columns : Columns) :
    st.line (rowLine 0 pool columns) = st.row 0 (classifyVdev pool columns.state) := by
  have plain : ∀ start ∈ lineWords, start.isPrefixOf pool = false := by
    intro start member
    refine Bool.eq_false_iff.mpr fun begins => ?_
    by_cases ends : start = "errors:".toList
    · rw [ends] at begins
      exact unclosed begins
    · refine unmasked ⟨start, ?_, begins⟩
      simp only [lineWords, List.mem_cons, ends, false_or] at member
      simpa only [List.mem_cons] using member
  rw [line_rowLine (poolName_solid valid) (poolName_ne_nil valid) plain (by decide), bare.inConfig,
    if_pos rfl]

theorem line_pool (bare : st.Bare true) (valid : validatePoolName pool = .ok ())
    (other : Masks pool ∨ Closes pool) (columns : Columns) :
    (st.line (rowLine 0 pool columns)).Bare (!"errors:".toList.isPrefixOf pool) := by
  have tests : ∀ start ∈ lineWords,
      start.isPrefixOf (trimSpace (rowLine 0 pool columns)) = start.isPrefixOf pool := by
    have solid : ∀ start ∈ lineWords, Solid start := by decide
    exact fun start member =>
      isPrefixOf_rowLine (poolName_solid valid) (poolName_ne_nil valid) (solid start member)
  simp only [lineWords, List.forall_mem_cons] at tests
  obtain ⟨isState, isScan, isConfig, isErrors, isName, -⟩ := tests
  by_cases masks : Masks pool
  · have unended := not_closes_of_masks masks
    simp only [Reading.line, isState, isScan, isConfig, isErrors, isName, unended]
    obtain ⟨start, member, begins⟩ := masks
    simp only [List.mem_cons, List.not_mem_nil, or_false] at member
    split
    · exact ⟨bare.config, bare.inConfig, bare.rootSeen⟩
    next noState =>
      split
      · exact ⟨bare.config, bare.inConfig, bare.rootSeen⟩
      next noScan =>
        split
        · exact ⟨bare.config, rfl, bare.rootSeen⟩
        next noConfig =>
          -- Only the heading of the columns is left.
          have named : "NAME".toList.isPrefixOf pool = true := by
            rcases member with rfl | rfl | rfl | rfl
            · exact absurd begins noState
            · exact absurd begins noScan
            · exact absurd begins noConfig
            · exact begins
          rw [if_neg Bool.false_ne_true, if_pos (.inr (.inr named))]
          exact bare
  · have closes : "errors:".toList.isPrefixOf pool = true := other.resolve_left masks
    have unmasked {start : Name}
        (member : start ∈ ["state:".toList, "scan:".toList, "config:".toList, "NAME".toList]) :
        start.isPrefixOf pool = false :=
      Bool.eq_false_iff.mpr fun begins => masks ⟨start, member, begins⟩
    have noState := unmasked List.mem_cons_self
    have noScan := unmasked (.tail _ List.mem_cons_self)
    have noConfig := unmasked (.tail _ (.tail _ List.mem_cons_self))
    simp only [Reading.line, isState, isScan, isConfig, isErrors, closes, noState, noScan, noConfig]
    exact ⟨bare.config, rfl, bare.rootSeen⟩

end Pool

/-! ### The tree -/

namespace Display

variable (d : Display)

theorem lines_single : ∀ line ∈ d.lines, '\n' ∉ line := by
  have row {depth : Nat} {name : Name} {columns : Columns} (solid : Solid name) :
      '\n' ∉ rowLine depth name columns := by
    have named : '\n' ∉ name := solid.not_mem (by decide)
    simp [rowLine, blanks, named, columns.text_single]
  intro line member
  simp only [lines, List.mem_append, List.mem_cons, List.not_mem_nil, or_false] at member
  rcases member with ((member | rfl | rfl | rfl) | rfl | member) | rfl | rfl
  · exact d.headerSingle line member
  · decide
  · decide
  · decide
  · exact row (poolName_solid d.accepted)
  · obtain ⟨shown, -, rfl⟩ := List.mem_map.mp member
    exact row shown.2.item.name_solid
  · decide
  · simp [d.errorsSingle]

theorem rows_low : ∀ row ∈ d.rows, row.1 < 4 := by
  intro row member
  rcases List.mem_append.mp member with data | sections
  · have := Forest.level_lt_height data
    have := d.dataHeight
    omega
  · have := Forest.level_lt_height sections
    have := d.sectionsHeight
    omega

/-- What is known before the row of the pool. -/
def opened : Reading :=
  (d.header ++ ["config:".toList, [], "\tNAME  STATE  READ WRITE CKSUM".toList]).foldl
    Reading.line .start

theorem bare_opened : d.opened.Bare true := by
  rw [opened, List.foldl_append]
  exact bare_heading (bare_header ⟨rfl, rfl, rfl⟩ d.headerPlain)

def vdevRows : List (Nat × Vdev) := (d.data.map Row.vdev).rows 1 ++ (d.sections.map Row.vdev).rows 0

/-- The trees that are read are those after the rows. -/
theorem vdevs_text (fits : d.Fits) : ∃ st, parseStatus d.text = some st ∧
    st.vdevs = (d.rowLines.foldl Reading.line
      (d.opened.line (rowLine 0 d.pool d.columns))).config.trees := by
  have read : Text.scanLines 65536 d.text = some (d.lines ++ [[]]) := by
    rw [text, Text.scanLines_unlines (by decide) d.lines_single]
    exact if_pos fits
  refine ⟨_, by rw [parseStatus, read]; rfl, ?_⟩
  simp only [Reading.status, lines, List.foldl_append, List.foldl_cons, List.foldl_nil, line_empty,
    config_errors, opened]

theorem unread (unfit : ¬d.Fits) : parseStatus d.text = none := by
  have long : Text.scanLines 65536 d.text = none := by
    rw [text, Text.scanLines_unlines (by decide) d.lines_single]
    exact if_neg unfit
  rw [parseStatus, long]
  rfl

theorem foldl_rows (st : Reading) : d.rowLines.foldl Reading.line st =
    if st.inConfig then st.rows d.vdevRows else st := by
  rw [rowLines, foldl_rowLines d.rows_low, vdevRows, Forest.rows_map, Forest.rows_map, rows,
    List.map_append]

theorem tree_eq : d.tree = (d.data.map Row.vdev).append (d.sections.map Row.vdev) :=
  Forest.map_append ..

end Display

/-- The tree is recovered exactly if every line is short enough for the scanner and the name of the
pool does not hide it: a name that starts as another line of the heading does is only good for a
pool without sections, and one that starts with `errors:` for a pool without devices. -/
theorem tree_recovered_iff (d : Display) :
    (∃ st, parseStatus d.text = some st ∧ st.vdevs = d.tree) ↔
      d.Fits ∧ (Masks d.pool → d.sections = .nil) ∧
        (Closes d.pool → d.data = .nil ∧ d.sections = .nil) := by
  by_cases fits : d.Fits
  swap
  · simp [d.unread fits, fits]
  obtain ⟨st, read, vdevs⟩ := d.vdevs_text fits
  have same : (∃ st, parseStatus d.text = some st ∧ st.vdevs = d.tree) ↔ st.vdevs = d.tree := by
    simp [read]
  rw [same, vdevs, d.foldl_rows, d.tree_eq]
  by_cases masks : Masks d.pool
  · have unclosed : ¬Closes d.pool := by
      rw [Closes, not_closes_of_masks masks]
      exact Bool.false_ne_true
    have bare := line_pool d.bare_opened d.accepted (.inl masks) d.columns
    rw [not_closes_of_masks masks, Bool.not_false] at bare
    rw [if_pos bare.inConfig, Display.vdevRows]
    simp only [fits, masks, unclosed, true_and, true_imp_iff, false_imp_iff, and_true]
    cases d.sections with
    | nil =>
      have data := (trees_data bare (d.data.map Row.vdev)).1
      simpa [Forest.map, Forest.rows, Forest.append_nil] using data
    | cons row children rest =>
      have lost := length_unseen_lt bare (d.data.map Row.vdev) row.vdev (children.map Row.vdev)
        (rest.map Row.vdev)
      simp only [reduceCtorEq, iff_false]
      intro whole
      rw [← Forest.map] at lost
      rw [whole] at lost
      exact Nat.lt_irrefl _ lost
  by_cases closes : Closes d.pool
  · have bare := line_pool d.bare_opened d.accepted (.inr closes) d.columns
    rw [show "errors:".toList.isPrefixOf d.pool = true from closes, Bool.not_true] at bare
    rw [if_neg (by simp [bare.inConfig]), bare.config]
    simp only [fits, masks, closes, true_and, true_imp_iff, false_imp_iff]
    cases d.data with
    | nil => cases d.sections <;> simp [Growing.start, Forest.map, Forest.append]
    | cons row children rest => simp [Growing.start, Forest.map, Forest.append]
  · rw [line_pool_plain d.bare_opened d.accepted masks closes, inConfig_row, d.bare_opened.inConfig,
      if_pos rfl, Display.vdevRows, trees_seen d.bare_opened]
    simp [fits, masks, closes]

def hiddenText : Name :=
  "config:\n\n\tNAME  STATE  READ WRITE CKSUM\n\tNAME1 ONLINE\n".toList ++
    "\tlogs\n\t  /dev/sdb ONLINE\n\nerrors: No\n".toList

/-- The row of the pool `NAME1` is taken for the heading, and its logs for the pool. -/
theorem first_section_lost :
    (∃ d : Display, d.text = hiddenText ∧ d.pool = "NAME1".toList ∧
      d.tree = .cons { type := .log, state := ['-'] }
        (.single { type := .disk, path := "/dev/sdb".toList, state := "ONLINE".toList }) .nil) ∧
    (parseStatus hiddenText).map (·.vdevs) =
      some (.single { type := .disk, path := "/dev/sdb".toList, state := "ONLINE".toList }) := by
  let online : Columns := .shown 0 "ONLINE".toList [] [] (by decide) (by decide) (by simp) (by simp)
  let disk : Row := ⟨.disk "dev/sdb".toList (by decide), online⟩
  let logs : Row := ⟨.side .logs, .bare [] (by simp)⟩
  let shown : Display := {
    pool := "NAME1".toList
    accepted := by decide
    header := []
    headerSingle := by simp
    headerPlain := by simp
    columns := online
    data := .nil
    dataHeight := by decide
    sections := .cons logs (.single disk) .nil
    sectionsHeight := by decide
    errors := "No".toList
    errorsSingle := by decide }
  exact ⟨⟨shown, by decide, rfl, rfl⟩, by decide⟩

/-! ### The errors -/

/-- The counters of a device are not set. -/
def Vdev.Unset (v : Vdev) : Prop := v.readErr = 0 ∧ v.writeErr = 0 ∧ v.cksumErr = 0

theorem Vdev.Unset.ite {p : Prop} [Decidable p] {v w : Vdev} (one : v.Unset) (two : w.Unset) :
    (if p then v else w).Unset := by
  split
  · exact one
  · exact two

theorem unset_classifyVdev (name state : Name) : (classifyVdev name state).Unset := by
  unfold classifyVdev
  repeat' apply Vdev.Unset.ite
  all_goals exact ⟨rfl, rfl, rfl⟩

theorem unset_line (unset : ∀ v ∈ st.config.trees.nodes, v.Unset) (line : Name) :
    ∀ v ∈ (st.line line).config.trees.nodes, v.Unset := by
  simp only [Reading.line]
  split
  · exact unset
  split
  · exact unset
  split
  · exact unset
  split
  · exact unset
  split
  · exact unset
  split
  next name more depth _ _ =>
    split
    · exact unset
    unfold Reading.row
    split
    · exact unset
    · intro v member
      -- The row adds itself at most.
      have among := (Forest.nodes_graft _ _ _).subset member
      rcases List.mem_append.mp among with old | new
      · exact unset v old
      · obtain rfl := List.mem_singleton.mp new
        exact unset_classifyVdev ..
  · exact unset

theorem sumVdevErrors_unset {f : Forest Vdev} (unset : ∀ v ∈ f.nodes, v.Unset) :
    sumVdevErrors f = 0 := by
  induction f with
  | nil => rfl
  | cons v children rest first later =>
    simp only [Forest.nodes, List.forall_mem_cons, List.forall_mem_append] at unset
    obtain ⟨⟨read, write, cksum⟩, below, after⟩ := unset
    simp [sumVdevErrors, first below, later after, read, write, cksum]

/-- No text makes the sum anything but zero. -/
theorem errors_eq_zero {text : Name} {st : Status} (read : parseStatus text = some st) :
    sumVdevErrors st.vdevs = 0 := by
  obtain ⟨lines, -, rfl⟩ := Option.map_eq_some_iff.mp read
  have run (lines : List Name) (st : Reading) (unset : ∀ v ∈ st.config.trees.nodes, v.Unset) :
      ∀ v ∈ (lines.foldl Reading.line st).config.trees.nodes, v.Unset := by
    induction lines generalizing st with
    | nil => exact unset
    | cons line lines ih => exact ih _ (unset_line unset line)
  have start : ∀ v ∈ Reading.start.config.trees.nodes, v.Unset := by
    simp [Reading.start, Growing.start, Forest.nodes]
  exact sumVdevErrors_unset (run lines .start start)

def Display.rowsShown (d : Display) : List Row := (d.data.append d.sections).nodes

/-- The printed counters of the disks, added up. -/
def Display.diskErrors (d : Display) : Nat :=
  (d.rowsShown.map fun row => if row.item.isDisk then row.columns.counters.sum else 0).sum

/-- The errors of a scrub are those that are printed exactly if every line is short enough for the
scanner and no counter of a disk is other than zero. -/
theorem scrub_errors_iff (d : Display) :
    (∃ info, scrubStatus (.ok d.text) = .ok info ∧ info.errors.toNat = d.diskErrors) ↔
      d.Fits ∧ ∀ row ∈ d.rowsShown, row.item.isDisk = true → ∀ n ∈ row.columns.counters, n = 0 := by
  by_cases fits : d.Fits
  swap
  · simp [scrubStatus, bind, Except.bind, d.unread fits, fits, throw, throwThe, MonadExceptOf.throw]
  obtain ⟨st, read, -⟩ := d.vdevs_text fits
  have answered : scrubStatus (.ok d.text) = .ok st.scrubInfo := by
    rw [scrubStatus]
    simp only [bind, Except.bind, read]
    rfl
  have none : st.scrubInfo.errors = 0 := errors_eq_zero read
  simp only [answered, Except.ok.injEq, exists_eq_left', none, fits, true_and, Display.diskErrors]
  rw [eq_comm, UInt64.toNat_zero, List.sum_eq_zero_iff_forall_eq_nat]
  simp [List.sum_eq_zero_iff_forall_eq_nat]

def erringText : Name :=
  "config:\n\n\tNAME  STATE  READ WRITE CKSUM\n\ttank ONLINE\n".toList ++
    "\t  /dev/sda ONLINE 0 0 3\n\nerrors: No\n".toList

/-- Three checksum errors of the only disk are no error of the scrub. -/
theorem checksum_errors_lost :
    (∃ d : Display, d.text = erringText ∧ d.diskErrors = 3) ∧
    (scrubStatus (.ok erringText)).map (·.errors) = .ok 0 := by
  let online (counts : List (Nat × Nat)) : Columns :=
    .shown 0 "ONLINE".toList counts [] (by decide) (by decide) (by simp) (by simp)
  let disk : Row := ⟨.disk "dev/sda".toList (by decide), online [(0, 0), (0, 0), (0, 3)]⟩
  let shown : Display := {
    pool := "tank".toList
    accepted := by decide
    header := []
    headerSingle := by simp
    headerPlain := by simp
    columns := online []
    data := .single disk
    dataHeight := by decide
    sections := .nil
    sectionsHeight := by decide
    errors := "No".toList
    errorsSingle := by decide }
  exact ⟨⟨shown, by decide, by decide⟩, by decide⟩

end NovaNas.Zfs
