import Mathlib.Data.List.Perm.Subperm

/-!
# Ordered forests

A forest is a list of trees, each with the forest below it. A place in it is a list of positions,
from the outside in, and forests are built from indented rows: a row goes below the last row of the
level before its own.
-/
namespace NovaNas

inductive Forest (α : Type) where
  | nil
  | cons (a : α) (children rest : Forest α)
  deriving DecidableEq, Repr

namespace Forest

variable {α β : Type}

abbrev Place := List Nat

def single (a : α) : Forest α := .cons a .nil .nil

def append : Forest α → Forest α → Forest α
  | .nil, g => g
  | .cons a children rest, g => .cons a children (rest.append g)

def map (f : α → β) : Forest α → Forest β
  | .nil => .nil
  | .cons a children rest => .cons (f a) (children.map f) (rest.map f)

/-- The nodes, each before what is below it. -/
def nodes : Forest α → List α
  | .nil => []
  | .cons a children rest => a :: (children.nodes ++ rest.nodes)

def height : Forest α → Nat
  | .nil => 0
  | .cons _ children rest => max (children.height + 1) rest.height

/-- How many trees there are below a place. -/
def count : Forest α → Place → Nat
  | .nil, _ => 0
  | .cons _ _ rest, [] => rest.count [] + 1
  | .cons _ children _, 0 :: place => children.count place
  | .cons _ _ rest, (i + 1) :: place => rest.count (i :: place)

/-- More trees below a place, after those that are there. -/
def graft (g : Forest α) : Forest α → Place → Forest α
  | f, [] => f.append g
  | .nil, _ :: _ => .nil
  | .cons a children rest, 0 :: place => .cons a (graft g children place) rest
  | .cons a children rest, (i + 1) :: place => .cons a children (graft g rest (i :: place))

theorem append_nil (f : Forest α) : f.append .nil = f := by
  induction f with
  | nil => rfl
  | cons a children rest _ ih => rw [append, ih]

theorem append_assoc (f g h : Forest α) : (f.append g).append h = f.append (g.append h) := by
  induction f with
  | nil => rfl
  | cons a children rest _ ih => rw [append, append, append, ih]

theorem nodes_append (f g : Forest α) : (f.append g).nodes = f.nodes ++ g.nodes := by
  induction f with
  | nil => rfl
  | cons a children rest _ ih => simp [append, nodes, ih]

@[simp] theorem map_append (f : α → β) (g h : Forest α) :
    (g.append h).map f = (g.map f).append (h.map f) := by
  induction g with
  | nil => rfl
  | cons a children rest _ ih => simp [append, map, ih]

theorem graft_nil (g f : Forest α) : graft g f [] = f.append g := by
  cases f <;> rfl

theorem graft_graft (g h f : Forest α) (place : Place) :
    graft h (graft g f place) place = graft (g.append h) f place := by
  induction f generalizing place with
  | nil =>
    cases place with
    | nil => simp [graft_nil, append]
    | cons i place => rfl
  | cons a children rest first later =>
    match place with
    | [] => simp only [graft_nil, append_assoc]
    | 0 :: place => simp only [graft, first]
    | (i + 1) :: place => simp only [graft, later]

/-- What goes below a new tree goes into it. -/
theorem graft_below (a : α) (g f : Forest α) (place : Place) :
    graft g (graft (single a) f place) (place ++ [f.count place]) =
      graft (.cons a g .nil) f place := by
  induction f generalizing place with
  | nil =>
    cases place with
    | nil => simp [graft, append, single, count]
    | cons i place => rfl
  | cons b children rest first later =>
    match place with
    | [] =>
      have last := later []
      simp only [graft_nil, List.nil_append] at last
      simp only [append, count, List.nil_append, graft, last]
    | 0 :: place => simp only [graft, count, List.cons_append, first]
    | (i + 1) :: place =>
      have further := later (i :: place)
      simp only [List.cons_append] at further
      simp only [graft, count, List.cons_append, further]

/-- Nothing but the new nodes is added. -/
theorem nodes_graft (g f : Forest α) (place : Place) :
    (graft g f place).nodes.Subperm (f.nodes ++ g.nodes) := by
  induction f generalizing place with
  | nil =>
    cases place with
    | nil => rw [graft_nil, nodes_append]
    | cons i place => exact List.nil_subperm
  | cons a children rest first later =>
    match place with
    | [] => rw [graft_nil, nodes_append]
    | 0 :: place =>
      -- The new nodes come before the later trees, which is another order of the same list.
      have order : (children.nodes ++ g.nodes ++ rest.nodes).Perm
          (children.nodes ++ rest.nodes ++ g.nodes) := by
        simpa only [List.append_assoc] using List.perm_append_comm.append_left children.nodes
      have further := ((List.subperm_append_right rest.nodes).mpr (first place)).trans order.subperm
      exact (List.subperm_cons a).mpr further
    | (i + 1) :: place =>
      have further := (List.subperm_append_left children.nodes).mpr (later (i :: place))
      rw [← List.append_assoc] at further
      exact (List.subperm_cons a).mpr further

/-! ### Rows -/

/-- The rows of a forest with their levels. -/
def rows (level : Nat) : Forest α → List (Nat × α)
  | .nil => []
  | .cons a children rest => (level, a) :: (children.rows (level + 1) ++ rest.rows level)

theorem rows_map (f : α → β) (g : Forest α) (level : Nat) :
    (g.map f).rows level = (g.rows level).map (Prod.map id f) := by
  induction g generalizing level with
  | nil => rfl
  | cons a children rest first later => simp [map, rows, first, later]

theorem map_rows (g : Forest α) (level : Nat) : (g.rows level).map Prod.snd = g.nodes := by
  induction g generalizing level with
  | nil => rfl
  | cons a children rest first later => simp [rows, nodes, first, later]

theorem level_lt_height {g : Forest α} {level : Nat} {row : Nat × α} (member : row ∈ g.rows level) :
    row.1 < level + g.height := by
  induction g generalizing level with
  | nil => cases member
  | cons a children rest first later =>
    rw [height]
    rcases List.mem_cons.mp member with rfl | member
    · omega
    rcases List.mem_append.mp member with below | after
    · have := first below
      omega
    · have := later after
      omega

theorem le_level {g : Forest α} {level : Nat} {row : Nat × α} (member : row ∈ g.rows level) :
    level ≤ row.1 := by
  induction g generalizing level with
  | nil => cases member
  | cons a children rest first later =>
    rcases List.mem_cons.mp member with rfl | member
    · exact Nat.le_refl level
    rcases List.mem_append.mp member with below | after
    · exact Nat.le_of_succ_le (first below)
    · exact later after

/-- A forest that is being built: the trees so far, and the last row of each level. -/
structure Growing (α : Type) where
  trees : Forest α
  last : Nat → Option Place

namespace Growing

def start : Growing α := ⟨.nil, fun _ => none⟩

/-- Where a row of the level goes; the outermost place if there is no row to go below. -/
def slot (s : Growing α) : Nat → Place
  | 0 => []
  | level + 1 => (s.last level).getD []

def place (s : Growing α) (row : Nat × α) : Growing α where
  trees := graft (single row.2) s.trees (s.slot row.1)
  last level :=
    if level < row.1 then s.last level
    else if level = row.1 then some (s.slot row.1 ++ [s.trees.count (s.slot row.1)])
    else none

theorem slot_congr {s t : Growing α} {level : Nat} (same : ∀ e < level, s.last e = t.last e) :
    s.slot level = t.slot level := by
  cases level with
  | zero => rfl
  | succ level => rw [slot, slot, same level (Nat.lt_succ_self level)]

/-- The rows of a forest put the whole of it where its first row goes. -/
theorem place_rows (f : Forest α) (level : Nat) (s : Growing α) :
    ((f.rows level).foldl place s).trees = graft f s.trees (s.slot level) ∧
      ∀ e < level, ((f.rows level).foldl place s).last e = s.last e := by
  induction f generalizing level s with
  | nil =>
    have none : graft .nil s.trees (s.slot level) = s.trees := by
      generalize s.slot level = place
      generalize s.trees = f
      induction f generalizing place with
      | nil => cases place <;> rfl
      | cons a children rest first later =>
        match place with
        | [] => rw [graft_nil, append_nil]
        | 0 :: place => rw [graft, first]
        | (i + 1) :: place => rw [graft, later]
    exact ⟨none.symm, fun _ _ => rfl⟩
  | cons a children rest first later =>
    rw [rows, List.foldl_cons, List.foldl_append]
    obtain ⟨inside, kept⟩ := first (level + 1) (s.place (level, a))
    obtain ⟨after, kept'⟩ := later level ((children.rows (level + 1)).foldl place (s.place (level, a)))
    have below : ∀ e < level,
        ((children.rows (level + 1)).foldl place (s.place (level, a))).last e = s.last e := by
      intro e lower
      rw [kept e (Nat.lt_succ_of_lt lower)]
      exact if_pos lower
    have slot : (s.place (level, a)).slot (level + 1) =
        s.slot level ++ [s.trees.count (s.slot level)] := by
      simp [Growing.slot, place]
    refine ⟨?_, fun e lower => (kept' e lower).trans (below e lower)⟩
    rw [after, inside, slot, slot_congr below]
    change graft rest (graft children (graft (single a) _ _) _) _ = _
    rw [graft_below, graft_graft]
    rfl

end Growing

end Forest

end NovaNas
