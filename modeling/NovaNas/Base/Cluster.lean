import Mathlib.Data.List.Nodup

/-!
# Objects in namespaces

A cluster holds objects, each in a namespace and known by the namespace and its own name. Taking
a namespace away takes away all that is in it.
-/
namespace NovaNas

structure Cluster {ν α : Type} (key : α → ν × ν) where
  namespaces : List ν
  objects : List α
  housed : ∀ o ∈ objects, (key o).1 ∈ namespaces
  distinct : (objects.map key).Nodup
  deriving DecidableEq

namespace Cluster

variable {ν α : Type} [DecidableEq ν] {key : α → ν × ν}

def empty : Cluster key where
  namespaces := []
  objects := []
  housed := by simp
  distinct := by simp

def find (c : Cluster key) (k : ν × ν) : Option α := c.objects.find? fun o => key o = k

theorem find_eq_some {c : Cluster key} {k : ν × ν} {o : α} (found : c.find k = some o) :
    o ∈ c.objects ∧ key o = k :=
  ⟨List.mem_of_find?_eq_some found, by simpa using List.find?_some found⟩

theorem find_isSome {c : Cluster key} {k : ν × ν} :
    (c.find k).isSome = true ↔ ∃ o ∈ c.objects, key o = k := by
  simp [find]

theorem find_mem {c : Cluster key} {o : α} (member : o ∈ c.objects) : c.find (key o) = some o := by
  have found : (c.find (key o)).isSome = true := find_isSome.mpr ⟨o, member, rfl⟩
  obtain ⟨o', same⟩ := Option.isSome_iff_exists.mp found
  obtain ⟨member', keys⟩ := find_eq_some same
  rw [same, List.inj_on_of_nodup_map c.distinct member' member keys]

/-- There is such a namespace. -/
def holds (c : Cluster key) (ns : ν) : Bool := c.namespaces.contains ns

theorem holds_iff {c : Cluster key} {ns : ν} : c.holds ns = true ↔ ns ∈ c.namespaces := by
  simp [holds]

/-! ### Changes -/

/-- The namespace is there afterwards. -/
def ensure (c : Cluster key) (ns : ν) : Cluster key where
  namespaces := if ns ∈ c.namespaces then c.namespaces else c.namespaces ++ [ns]
  objects := c.objects
  housed := by
    intro o member
    have old := c.housed o member
    split
    · exact old
    · exact List.mem_append_left _ old
  distinct := c.distinct

def add (c : Cluster key) (o : α) (inside : (key o).1 ∈ c.namespaces)
    (absent : key o ∉ c.objects.map key) : Cluster key where
  namespaces := c.namespaces
  objects := c.objects ++ [o]
  housed := by
    intro o' member
    rcases List.mem_append.mp member with old | new
    · exact c.housed o' old
    · rwa [List.mem_singleton.mp new]
  distinct := by
    rw [List.map_append, List.nodup_append]
    refine ⟨c.distinct, by simp, ?_⟩
    rintro k old k' new rfl
    obtain rfl : k = key o := List.mem_singleton.mp new
    exact absent old

/-- Adds an object if its namespace is there and its name is free. -/
def create (c : Cluster key) (o : α) : Option (Cluster key) :=
  if inside : (key o).1 ∈ c.namespaces then
    if absent : key o ∉ c.objects.map key then some (c.add o inside absent) else none
  else none

/-- Keeps some of the objects. -/
def keep (c : Cluster key) (stays : α → Bool) : Cluster key where
  namespaces := c.namespaces
  objects := c.objects.filter stays
  housed o member := c.housed o (List.mem_of_mem_filter member)
  distinct := c.distinct.sublist (List.filter_sublist.map key)

def remove (c : Cluster key) (k : ν × ν) : Cluster key := c.keep fun o => key o ≠ k

def dropNamespace (c : Cluster key) (ns : ν) : Cluster key where
  namespaces := c.namespaces.filter (· ≠ ns)
  objects := c.objects.filter fun o => (key o).1 ≠ ns
  housed o member := by
    rw [List.mem_filter] at member
    exact List.mem_filter.mpr ⟨c.housed o member.1, member.2⟩
  distinct := c.distinct.sublist (List.filter_sublist.map key)

def modify (c : Cluster key) (k : ν × ν) (f : α → α) (keeps : ∀ o, key (f o) = key o) :
    Cluster key where
  namespaces := c.namespaces
  objects := c.objects.map fun o => if key o = k then f o else o
  housed o member := by
    obtain ⟨o', old, rfl⟩ := List.mem_map.mp member
    split
    · rw [keeps]
      exact c.housed o' old
    · exact c.housed o' old
  distinct := by
    have same : key ∘ (fun o => if key o = k then f o else o) = key := by
      funext o
      simp only [Function.comp]
      split
      · exact keeps o
      · rfl
    rw [List.map_map, same]
    exact c.distinct

section Changes

variable (c : Cluster key) (ns : ν) (k : ν × ν) (o : α)

theorem create_objects {c c' : Cluster key} {o : α} (created : c.create o = some c') :
    c'.objects = c.objects ++ [o] := by
  rw [create] at created
  split at created
  · split at created
    · cases created
      rfl
    · cases created
  · cases created

theorem all_create {p : α → Prop} {c c' : Cluster key} {o : α} (all : ∀ o ∈ c.objects, p o)
    (new : p o) (created : c.create o = some c') : ∀ o ∈ c'.objects, p o := by
  simpa [create_objects created, or_imp, forall_and] using ⟨all, new⟩

@[simp] theorem mem_remove : o ∈ (c.remove k).objects ↔ o ∈ c.objects ∧ key o ≠ k := by
  simp [remove, keep]

@[simp] theorem mem_dropNamespace :
    o ∈ (c.dropNamespace ns).objects ↔ o ∈ c.objects ∧ (key o).1 ≠ ns := by
  simp [dropNamespace]

theorem all_remove {c : Cluster key} {p : α → Prop} (all : ∀ o ∈ c.objects, p o) :
    ∀ o ∈ (c.remove k).objects, p o :=
  fun o member => all o ((c.mem_remove k o).mp member).1

theorem all_dropNamespace {c : Cluster key} {p : α → Prop} (all : ∀ o ∈ c.objects, p o) :
    ∀ o ∈ (c.dropNamespace ns).objects, p o :=
  fun o member => all o ((c.mem_dropNamespace ns o).mp member).1

end Changes

end Cluster

end NovaNas
