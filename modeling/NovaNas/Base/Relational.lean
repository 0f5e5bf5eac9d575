import Mathlib.Data.List.Nodup

/-!
# Tables with a key

What a statement does to a table, as a list of rows: `INSERT … ON CONFLICT (key) DO UPDATE`, and the
pairs of rows that a `LEFT JOIN` reads.
-/
namespace NovaNas.Relational

/-! ### Upserts -/

section Upsert

variable {α κ : Type} [DecidableEq κ] (key : α → κ)

/-- The row is updated where its key is in the table, otherwise the fresh one is inserted. -/
def upsert (fresh : α) (update : α → α) (rows : List α) : List α :=
  if rows.any (key · = key fresh) then
    rows.map fun row => if key row = key fresh then update row else row
  else rows ++ [fresh]

def lookup (k : κ) (rows : List α) : Option α := rows.find? (key · = k)

variable {key} {fresh : α} {update : α → α} {rows : List α}

theorem mem_upsert (keeps : ∀ row, key (update row) = key row) {row : α}
    (member : row ∈ upsert key fresh update rows) :
    key row = key fresh ∨ ∃ old ∈ rows, key row = key old := by
  rw [upsert] at member
  split at member
  · obtain ⟨old, inside, rfl⟩ := List.mem_map.mp member
    refine .inr ⟨old, inside, ?_⟩
    split
    · exact keeps old
    · rfl
  · rcases List.mem_append.mp member with inside | last
    · exact .inr ⟨row, inside, rfl⟩
    · exact .inl (List.mem_singleton.mp last ▸ rfl)

theorem nodup_upsert (keeps : ∀ row, key (update row) = key row)
    (distinct : (rows.map key).Nodup) : ((upsert key fresh update rows).map key).Nodup := by
  rw [upsert]
  split
  next =>
    have same : (rows.map fun row => if key row = key fresh then update row else row).map key =
        rows.map key := by
      rw [List.map_map]
      refine List.map_congr_left fun row _ => ?_
      rw [Function.comp_apply]
      split
      · exact keeps row
      · rfl
    rwa [same]
  next absent =>
    rw [List.map_append, List.map_singleton, List.nodup_append]
    refine ⟨distinct, List.nodup_singleton _, ?_⟩
    rintro k inside _ last rfl
    obtain ⟨row, member, same⟩ := List.mem_map.mp inside
    refine absent (List.any_eq_true.mpr ⟨row, member, ?_⟩)
    simpa [same] using List.mem_singleton.mp last

/-- Only the row of the fresh one's key is another one afterwards. -/
theorem lookup_upsert (keeps : ∀ row, key (update row) = key row) (k : κ) :
    lookup key k (upsert key fresh update rows) =
      if k = key fresh then some (((lookup key k rows).map update).getD fresh)
      else lookup key k rows := by
  rw [upsert]
  split
  next present =>
    have found (row : α) : key (if key row = key fresh then update row else row) = key row := by
      split
      · exact keeps row
      · rfl
    have mapped : lookup key k (rows.map fun row =>
        if key row = key fresh then update row else row) =
          (lookup key k rows).map fun row => if key row = key fresh then update row else row := by
      rw [lookup, lookup, List.find?_map]
      simp only [Function.comp_def, found]
    rw [mapped]
    split
    next same =>
      subst same
      obtain ⟨row, member, equal⟩ := List.any_eq_true.mp present
      cases first : lookup key (key fresh) rows with
      | none =>
        have := List.find?_eq_none.mp first row member
        exact absurd equal this
      | some old =>
        have equal : key old = key fresh := by simpa using List.find?_some first
        simp [equal]
    next other =>
      cases first : lookup key k rows with
      | none => rfl
      | some old =>
        have equal : key old = k := by simpa using List.find?_some first
        simp [equal, other]
  next absent =>
    rw [lookup, List.find?_append, ← lookup]
    split
    next same =>
      subst same
      have none : lookup key (key fresh) rows = none := by
        refine List.find?_eq_none.mpr fun row member equal => absent ?_
        exact List.any_eq_true.mpr ⟨row, member, equal⟩
      simp [none]
    next other => simp [Ne.symm other]

end Upsert

/-! ### Joins -/

section Join

variable {α β : Type} {on : α → β → Bool} {left : List α} {right : List β}

/-- Each row with those that belong to it, or alone if none does. -/
def leftJoin (on : α → β → Bool) (left : List α) (right : List β) : List (α × Option β) :=
  left.flatMap fun a =>
    match right.filter (on a) with
    | [] => [(a, none)]
    | rows => rows.map fun b => (a, some b)

/-- With at most one row for each the join has one pair for each. -/
theorem leftJoin_of_unique {partner : α → Option β}
    (unique : ∀ a ∈ left, right.filter (on a) = (partner a).toList) :
    leftJoin on left right = left.map fun a => (a, partner a) := by
  rw [leftJoin, List.map_eq_flatMap]
  refine List.flatMap_congr fun a member => ?_
  rw [unique a member]
  cases partner a <;> rfl

end Join

end NovaNas.Relational
