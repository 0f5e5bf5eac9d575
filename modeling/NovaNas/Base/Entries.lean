/-!
# Maps as lists of entries

The entries are in the order in which the map is ranged over.
-/
namespace NovaNas.Entries

variable {κ β : Type} [DecidableEq κ]

/-- An assignment `m[key] = value`. -/
def put (key : κ) (value : β) : List (κ × β) → List (κ × β)
  | [] => [(key, value)]
  | entry :: entries =>
    if entry.1 = key then (key, value) :: entries else entry :: put key value entries

def get (key : κ) (entries : List (κ × β)) : Option β :=
  (entries.find? fun entry => entry.1 = key).map (·.2)

theorem mem_keys_put (key : κ) (value : β) (k : κ) (entries : List (κ × β)) :
    k ∈ (put key value entries).map (·.1) ↔ k = key ∨ k ∈ entries.map (·.1) := by
  induction entries with
  | nil => simp [put]
  | cons entry entries ih =>
    rw [put]
    split
    next same => simp [same]
    next =>
      rw [List.map_cons, List.mem_cons, ih, List.map_cons, List.mem_cons]
      exact or_left_comm

variable {entries : List (κ × β)}

theorem mem_put {key : κ} {value : β} {e : κ × β} (member : e ∈ put key value entries) :
    e = (key, value) ∨ e ∈ entries := by
  induction entries with
  | nil => simpa [put] using member
  | cons entry entries ih =>
    rw [put] at member
    split at member
    · exact (List.mem_cons.mp member).imp_right (List.mem_cons_of_mem _)
    · rcases List.mem_cons.mp member with rfl | later
      · exact .inr List.mem_cons_self
      · exact (ih later).imp_right (List.mem_cons_of_mem _)

theorem get_put (k key : κ) (value : β) (entries : List (κ × β)) :
    get k (put key value entries) = if k = key then some value else get k entries := by
  induction entries with
  | nil =>
    by_cases same : k = key
    · simp [put, get, same]
    · simp [put, get, same, Ne.symm same]
  | cons entry entries ih =>
    rw [put]
    split
    next old =>
      by_cases same : k = key
      · simp [get, same]
      · simp [get, old, same, Ne.symm same]
    next other =>
      by_cases own : entry.1 = k
      · have differs : k ≠ key := own ▸ other
        simp [get, own, differs]
      · simpa [get, own] using ih

theorem mem_of_get {k : κ} {value : β} (found : get k entries = some value) :
    (k, value) ∈ entries := by
  obtain ⟨entry, first, rfl⟩ := Option.map_eq_some_iff.mp found
  have same : entry.1 = k := by simpa using List.find?_some first
  exact same ▸ List.mem_of_find?_eq_some first

theorem get_eq_none_iff {k : κ} :
    get k entries = none ↔ k ∉ entries.map (·.1) := by
  simp only [get, Option.map_eq_none_iff, List.find?_eq_none, decide_eq_true_eq, List.mem_map,
    not_exists, not_and]

theorem get_foldl (names : List κ) (value : κ → β) (k : κ) (made : List (κ × β)) :
    get k (names.foldl (fun made key => put key (value key) made) made) =
      if k ∈ names then some (value k) else get k made := by
  induction names generalizing made with
  | nil => simp
  | cons key names ih =>
    rw [List.foldl_cons, ih, get_put]
    by_cases later : k ∈ names
    · simp [later]
    · by_cases same : k = key
      · simp [same]
      · simp [later, same]

/-- Assignments to all keys of a map, in any order, make the map again. -/
theorem get_foldl_put {names : List κ} {value : κ → β}
    (all : ∀ k, k ∈ names ↔ k ∈ entries.map (·.1))
    (own : ∀ k v, get k entries = some v → value k = v) (k : κ) :
    get k (names.foldl (fun made key => put key (value key) made) []) = get k entries := by
  rw [get_foldl]
  cases found : get k entries with
  | none =>
    rw [if_neg (mt (all k).mp (get_eq_none_iff.mp found))]
    rfl
  | some v =>
    rw [if_pos ((all k).mpr (List.mem_map_of_mem (mem_of_get found))), own k v found]

end NovaNas.Entries
