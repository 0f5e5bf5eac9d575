import Mathlib.Data.List.Nodup

/-!
# A directory of files

Files in one directory, without anything below it: which names there are and what each file holds.
-/
namespace NovaNas.Files

structure Directory (ν β : Type) where
  names : List ν
  read : ν → Option β
  nodup : names.Nodup
  mem_names : ∀ n, n ∈ names ↔ read n ≠ none

namespace Directory

variable {ν β : Type} [DecidableEq ν] (d : Directory ν β)

section Change

variable {d} {n : ν}

theorem write_mem_names {data : β} (m : ν) :
    m ∈ d.names.insert n ↔ Function.update d.read n (some data) m ≠ none := by
  rw [List.mem_insert_iff, d.mem_names, Function.update_apply]
  split <;> simp [*]

end Change

def write (n : ν) (data : β) : Directory ν β where
  names := d.names.insert n
  read := Function.update d.read n (some data)
  nodup := d.nodup.insert
  mem_names := write_mem_names

/-- Several files, one after the other. -/
def writeAll (files : List (ν × β)) : Directory ν β :=
  files.foldl (fun d file => d.write file.1 file.2) d

@[simp] theorem read_write (n m : ν) (data : β) :
    (d.write n data).read m = if m = n then some data else d.read m :=
  Function.update_apply ..

variable {d} {files : List (ν × β)} {n : ν}

theorem read_writeAll_of_not_mem (absent : ∀ file ∈ files, file.1 ≠ n) :
    (d.writeAll files).read n = d.read n := by
  induction files generalizing d with
  | nil => rfl
  | cons file files ih =>
    obtain ⟨first, later⟩ := List.forall_mem_cons.mp absent
    rw [writeAll, List.foldl_cons]
    exact (ih later).trans (by rw [read_write, if_neg first.symm])

/-- Files of different names are all there afterwards. -/
theorem read_writeAll_of_mem (nodup : (files.map Prod.fst).Nodup) {data : β}
    (member : (n, data) ∈ files) : (d.writeAll files).read n = some data := by
  induction files generalizing d with
  | nil => cases member
  | cons file files ih =>
    rw [List.map_cons, List.nodup_cons] at nodup
    rw [writeAll, List.foldl_cons]
    rcases List.mem_cons.mp member with rfl | later
    · refine (read_writeAll_of_not_mem fun other there same => nodup.1 ?_).trans (by simp)
      exact List.mem_map.mpr ⟨other, there, same⟩
    · exact ih nodup.2 later

end Directory

end NovaNas.Files
