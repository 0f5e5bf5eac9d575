import Mathlib.Data.List.AList
import NovaNas.Base.Sorting
import NovaNas.Zfs.Names

/-!
# The escrowed datasets

The wrapped key of a dataset is kept under a key made of the dataset's name, in a secrets backend
that has rules of its own for keys. Every key made of a valid name passes them and is decoded to the
name, so the datasets can be listed from the keys alone.
-/
namespace NovaNas.Zfs

/-! ### Keys of the secrets backend -/

inductive KeyError where
  | empty
  | nul
  | leadingSlash
  | trailingSlash
  | emptySegment
  | traversal
  | character (c : Char)
  deriving DecidableEq, Repr

def isKeyChar (c : Char) : Bool := isPlain c || c = '_'

def validateSegment (seg : Name) : Except KeyError Unit :=
  if seg = [] then .error .emptySegment
  else if seg = "..".toList ∨ seg = ".".toList then .error .traversal
  else
    match seg.find? fun c => !isKeyChar c with
    | some c => .error (.character c)
    | none => .ok ()

def validateSegments : List Name → Except KeyError Unit
  | [] => .ok ()
  | seg :: rest => do
    validateSegment seg
    validateSegments rest

def validateKey (key : Name) : Except KeyError Unit :=
  if key = [] then .error .empty
  else if key.contains '\x00' then .error .nul
  else if key.head? = some '/' then .error .leadingSlash
  else if key.getLast? = some '/' then .error .trailingSlash
  else validateSegments (Text.split '/' key)

theorem validateSegment_ok {seg : Name} (nonempty : seg ≠ [])
    (chars : ∀ c ∈ seg, isKeyChar c = true) : validateSegment seg = .ok () := by
  have dots : ¬(seg = "..".toList ∨ seg = ".".toList) := by
    rintro (rfl | rfl) <;> exact absurd (chars '.' (by simp)) (by decide)
  have none : (seg.find? fun c => !isKeyChar c) = none := by
    simpa using chars
  rw [validateSegment, if_neg nonempty, if_neg dots, none]

theorem validateSegments_ok {segs : List Name}
    (each : ∀ seg ∈ segs, seg ≠ [] ∧ ∀ c ∈ seg, isKeyChar c = true) :
    validateSegments segs = .ok () := by
  induction segs with
  | nil => rfl
  | cons seg segs ih =>
    obtain ⟨first, later⟩ := List.forall_mem_cons.mp each
    rw [validateSegments, validateSegment_ok first.1 first.2]
    exact ih later

/-- It is enough to look at the segments. -/
theorem validateKey_ok {key : Name} (each : ∀ seg ∈ Text.split '/' key, seg ≠ [] ∧
    ∀ c ∈ seg, isKeyChar c = true) : validateKey key = .ok () := by
  have nonempty : key ≠ [] := by
    rintro rfl
    exact (each [] (by simp [Text.split_nil])).1 rfl
  have nul : key.contains '\x00' = false := by
    simp only [List.contains_eq_mem, decide_eq_false_iff_not]
    intro member
    rw [← Text.join_split '/' key] at member
    rcases Text.mem_join member with same | ⟨seg, listed, within⟩
    · cases same
    · exact absurd ((each seg listed).2 _ within) (by decide)
  -- A slash at either end would give an empty segment.
  have first : key.head? ≠ some '/' := by
    intro starts
    obtain ⟨rest, rfl⟩ := List.head?_eq_some_iff.mp starts
    exact (each [] (by simp [Text.split_cons])).1 rfl
  have last : key.getLast? ≠ some '/' := by
    intro stops
    obtain ⟨front, rfl⟩ := List.getLast?_eq_some_iff.mp stops
    exact (each [] (by simp [Text.split_append_sep, Text.split_nil])).1 rfl
  rw [validateKey, if_neg nonempty, nul, if_neg first, if_neg last]
  exact validateSegments_ok each

theorem isKeyChar_of_mem_encodeSegment {s : Name} {c : Char} (ascii : ∀ c ∈ s, c.toNat < 128)
    (member : c ∈ encodeSegment s) : isKeyChar c = true := by
  have digits : ∀ n < 16, isKeyChar (hexDigit n) = true := by decide
  obtain ⟨d, within, encoded⟩ := List.mem_flatMap.mp member
  have small := ascii d within
  unfold encodeByte at encoded
  split at encoded
  next plain =>
    obtain rfl := List.mem_singleton.mp encoded
    simp [isKeyChar, plain]
  next =>
    simp only [List.mem_cons, List.not_mem_nil, or_false] at encoded
    rcases encoded with rfl | rfl | rfl | rfl
    · decide
    · decide
    · exact digits _ (by omega)
    · exact digits _ (by omega)

theorem encodeSegment_ne_nil {s : Name} (nonempty : s ≠ []) : encodeSegment s ≠ [] := by
  cases s with
  | nil => contradiction
  | cons c s =>
    simp only [encodeSegment, List.flatMap_cons, encodeByte]
    split <;> simp

theorem validateKey_encoded {name : Name} {key : List Char}
    (encoded : encodeSecretKey name = .ok key) : validateKey key = .ok () := by
  obtain ⟨valid, rfl⟩ := encodeSecretKey_ok encoded
  have root : "zfs-keys/".toList = "zfs-keys".toList ++ ['/'] := rfl
  refine validateKey_ok ?_
  rw [root, List.append_assoc, List.singleton_append, Text.split_append (by decide),
    split_encoded valid]
  refine List.forall_mem_cons.mpr ⟨⟨by decide, by simp [isKeyChar, isPlain]⟩, ?_⟩
  intro seg listed
  obtain ⟨p, within, rfl⟩ := List.mem_map.mp listed
  exact ⟨encodeSegment_ne_nil (validateDatasetName_ok valid p within).1,
    fun c => isKeyChar_of_mem_encodeSegment (ascii_of_valid valid p within)⟩

/-! ### The backend -/

/-- A secrets backend with states of type `σ` and records of type `α`. -/
structure Backend (σ α : Type) where
  get : σ → Name → Option α
  set : σ → Name → α → σ
  delete : σ → Name → σ
  list : σ → Name → List Name

structure Backend.MapLike {σ α : Type} (b : Backend σ α) : Prop where
  get_set : ∀ s key record, b.get (b.set s key record) =
    Function.update (b.get s) key (some record)
  get_delete : ∀ s key, b.get (b.delete s key) = Function.update (b.get s) key none
  mem_list : ∀ s start key, key ∈ b.list s start ↔ start <+: key ∧ (b.get s key).isSome = true
  list_nodup : ∀ s start, (b.list s start).Nodup

section Listing

variable {σ α : Type} (b : Backend σ α)

def listEscrowedDatasets (s : σ) : List Name :=
  Sorting.sortNames ((b.list s "zfs-keys/".toList).filterMap fun k => (decodeSecretKey k).toOption)

/-- Records are written and deleted under the keys of datasets; other users of the backend keep to
keys of their own. -/
inductive EscrowOp (α : Type) where
  | write (name : Name) (record : α)
  | delete (name : Name)
  | otherSet (key : Name) (record : α) (other : ¬"zfs-keys/".toList <+: key)
  | otherDelete (key : Name) (other : ¬"zfs-keys/".toList <+: key)

/-- The backend refuses keys that break its rules. -/
def EscrowOp.run (s : σ) : EscrowOp α → σ
  | .write name record =>
    match encodeSecretKey name with
    | .ok key => if validateKey key = .ok () then b.set s key record else s
    | .error _ => s
  | .delete name =>
    match encodeSecretKey name with
    | .ok key => if validateKey key = .ok () then b.delete s key else s
    | .error _ => s
  | .otherSet key record _ => b.set s key record
  | .otherDelete key _ => b.delete s key

/-- The records that were written and not deleted. -/
def EscrowOp.apply (held : Name → Option α) : EscrowOp α → Name → Option α
  | .write name record =>
    if validateDatasetName name = .ok () then Function.update held name (some record) else held
  | .delete name => Function.update held name none
  | .otherSet _ _ _ => held
  | .otherDelete _ _ => held

def held (ops : List (EscrowOp α)) : Name → Option α := ops.foldl EscrowOp.apply fun _ => none

/-- The backend holds exactly these records of datasets. -/
structure Backend.Keeps (s : σ) (held : Name → Option α) : Prop where
  valid : ∀ name, (held name).isSome = true → validateDatasetName name = .ok ()
  record : ∀ name key, encodeSecretKey name = .ok key → b.get s key = held name
  only : ∀ key, "zfs-keys/".toList <+: key → (b.get s key).isSome = true →
    ∃ name, encodeSecretKey name = .ok key

variable {b} {s s' : σ} {held : Name → Option α} {name key : Name} {record : Option α}

theorem encodeSecretKey_valid (valid : validateDatasetName name = .ok ()) :
    ∃ key, encodeSecretKey name = .ok key := by
  rw [encodeSecretKey, valid]
  exact ⟨_, rfl⟩

theorem root_of_encoded (encoded : encodeSecretKey name = .ok key) :
    "zfs-keys/".toList <+: key := by
  obtain ⟨-, rfl⟩ := encodeSecretKey_ok encoded
  exact List.prefix_append _ _

/-- The record of a dataset is replaced or deleted. -/
theorem Backend.Keeps.update (keeps : b.Keeps s held) (encoded : encodeSecretKey name = .ok key)
    (changed : b.get s' = Function.update (b.get s) key record) :
    b.Keeps s' (Function.update held name record) where
  valid other present := by
    by_cases same : other = name
    · exact same ▸ (encodeSecretKey_ok encoded).1
    · rw [Function.update_of_ne same] at present
      exact keeps.valid other present
  record other key' encoded' := by
    rw [changed]
    by_cases same : other = name
    · subst same
      cases encoded.symm.trans encoded'
      simp
    · have apart : key' ≠ key := by
        rintro rfl
        exact same (encodeSecretKey_inj encoded' encoded)
      rw [Function.update_of_ne apart, Function.update_of_ne same]
      exact keeps.record other key' encoded'
  only key' root present := by
    by_cases same : key' = key
    · exact ⟨name, same ▸ encoded⟩
    · rw [changed, Function.update_of_ne same] at present
      exact keeps.only key' root present

/-- Other users of the backend change nothing about the datasets. -/
theorem Backend.Keeps.outside (keeps : b.Keeps s held) (other : ¬"zfs-keys/".toList <+: key)
    (changed : b.get s' = Function.update (b.get s) key record) : b.Keeps s' held := by
  have same {key' : Name} (root : "zfs-keys/".toList <+: key') : b.get s' key' = b.get s key' := by
    have apart : key' ≠ key := by
      rintro rfl
      exact other root
    rw [changed, Function.update_of_ne apart]
  refine ⟨keeps.valid, fun name key' encoded => ?_, fun key' root present => ?_⟩
  · rw [same (root_of_encoded encoded), keeps.record name key' encoded]
  · exact keeps.only key' root (same root ▸ present)

section

variable (laws : b.MapLike) (keeps : b.Keeps s held)
include laws keeps

theorem Backend.Keeps.run (op : EscrowOp α) :
    b.Keeps (op.run b s) (op.apply held) := by
  cases op with
  | write name record =>
    by_cases valid : validateDatasetName name = .ok ()
    · obtain ⟨key, encoded⟩ := encodeSecretKey_valid valid
      simp only [EscrowOp.run, EscrowOp.apply, encoded, validateKey_encoded encoded, valid, if_true]
      exact keeps.update encoded (laws.get_set s key record)
    · rw [EscrowOp.apply, if_neg valid, EscrowOp.run]
      cases encoded : encodeSecretKey name with
      | error err => exact keeps
      | ok key => exact absurd (encodeSecretKey_ok encoded).1 valid
  | delete name =>
    rw [EscrowOp.apply, EscrowOp.run]
    cases encoded : encodeSecretKey name with
    | ok key =>
      simp only [validateKey_encoded encoded, if_true]
      exact keeps.update encoded (laws.get_delete s key)
    | error err =>
      -- There is no record under a name that is not valid.
      have nothing : held name = none := by
        cases there : held name with
        | none => rfl
        | some record =>
          obtain ⟨key, encoded'⟩ := encodeSecretKey_valid (keeps.valid name (by simp [there]))
          cases encoded.symm.trans encoded'
      rw [Function.update_eq_self_iff.mpr nothing.symm]
      exact keeps
  | otherSet key record other => exact keeps.outside other (laws.get_set s key record)
  | otherDelete key other => exact keeps.outside other (laws.get_delete s key)

theorem keeps_runs (ops : List (EscrowOp α)) :
    b.Keeps (ops.foldl (EscrowOp.run b) s) (ops.foldl EscrowOp.apply held) := by
  induction ops generalizing s held with
  | nil => exact keeps
  | cons op ops ih => exact ih (keeps.run laws op)

/-- A key in the list is the key of the name it is decoded to. -/
theorem Backend.Keeps.encoded {key n : Name} (listed : key ∈ b.list s "zfs-keys/".toList)
    (decoded : (decodeSecretKey key).toOption = some n) : encodeSecretKey n = .ok key := by
  obtain ⟨root, present⟩ := (laws.mem_list s _ key).mp listed
  obtain ⟨name, encoded⟩ := keeps.only key root present
  rw [decode_encode encoded] at decoded
  exact Option.some.inj decoded ▸ encoded

theorem Backend.Keeps.mem_list (n : Name) :
    n ∈ listEscrowedDatasets b s ↔ (held n).isSome = true := by
  rw [listEscrowedDatasets, Sorting.mem_sortNames, List.mem_filterMap]
  constructor
  · rintro ⟨key, listed, decoded⟩
    rw [← keeps.record n key (keeps.encoded laws listed decoded)]
    exact ((laws.mem_list s _ key).mp listed).2
  · intro present
    obtain ⟨key, encoded⟩ := encodeSecretKey_valid (keeps.valid n present)
    refine ⟨key, (laws.mem_list s _ key).mpr ⟨root_of_encoded encoded, ?_⟩, ?_⟩
    · rwa [keeps.record n key encoded]
    · rw [decode_encode encoded]
      rfl

theorem Backend.Keeps.ascending :
    Sorting.Ascending (listEscrowedDatasets b s) := by
  refine Sorting.ascending_sortBy (List.pairwise_filterMap.mpr ?_)
  refine (laws.list_nodup s _).pairwise_of_forall_ne fun key listed key' listed' apart => ?_
  rintro n decoded _ decoded' rfl
  cases (keeps.encoded laws listed decoded).symm.trans (keeps.encoded laws listed' decoded')
  exact apart rfl

end

/-- Every key made of a valid name is accepted and decoded to the name, no two names have the same
key, and the list shows the datasets whose records were written and not deleted, in order. -/
theorem escrow_names_bijective (laws : b.MapLike)
    (fresh : ∀ key, "zfs-keys/".toList <+: key → b.get s key = none) (ops : List (EscrowOp α)) :
    (∀ n, validateDatasetName n = .ok () → ∃ key, encodeSecretKey n = .ok key ∧
      validateKey key = .ok () ∧ decodeSecretKey key = .ok n) ∧
    (∀ n n' key, encodeSecretKey n = .ok key → encodeSecretKey n' = .ok key → n = n') ∧
    Sorting.Ascending (listEscrowedDatasets b (ops.foldl (EscrowOp.run b) s)) ∧
    ∀ n, n ∈ listEscrowedDatasets b (ops.foldl (EscrowOp.run b) s) ↔
      (Zfs.held ops n).isSome = true := by
  have start : b.Keeps s fun _ => none := by
    refine ⟨by simp, fun name key encoded => fresh key (root_of_encoded encoded), ?_⟩
    intro key root present
    simp [fresh key root] at present
  have keeps := keeps_runs laws start ops
  refine ⟨fun n valid => ?_, fun n n' key => encodeSecretKey_inj, keeps.ascending laws,
    keeps.mem_list laws⟩
  obtain ⟨key, encoded⟩ := encodeSecretKey_valid valid
  exact ⟨key, encoded, validateKey_encoded encoded, decode_encode encoded⟩

end Listing

/-- A map in memory. -/
def memoryBackend : Backend (AList fun _ : Name => Unit) Unit where
  get s key := s.lookup key
  set s key record := s.insert key record
  delete s key := s.erase key
  list s start := s.keys.filter start.isPrefixOf

theorem memoryBackend_mapLike : memoryBackend.MapLike where
  get_set s key record := by
    funext other
    by_cases same : other = key
    · simp [memoryBackend, same]
    · simp [memoryBackend, same, AList.lookup_insert_ne same]
  get_delete s key := by
    funext other
    by_cases same : other = key
    · simp [memoryBackend, same]
    · simp [memoryBackend, same, AList.lookup_erase_ne same]
  mem_list s start key := by
    simp [memoryBackend, AList.lookup_isSome, AList.mem_keys, and_comm]
  list_nodup s start := s.keys_nodup.filter _

/-- A dataset with characters that are escaped, and one whose record is deleted again. -/
theorem escrowed_host_listed :
    "tank/host.example".toList ∈ listEscrowedDatasets memoryBackend
      ([.write "tank/host.example".toList (), .write "tank/home".toList (),
        .delete "tank/home".toList].foldl (EscrowOp.run memoryBackend) ∅) := by
  obtain ⟨-, -, -, listed⟩ := escrow_names_bijective memoryBackend_mapLike (s := ∅)
    (fun _ _ => rfl) [.write "tank/host.example".toList (), .write "tank/home".toList (),
      .delete "tank/home".toList]
  exact (listed _).mpr (by decide)

end NovaNas.Zfs
