import NovaNas.Base.Fallible
import NovaNas.Base.Text

/-!
# Names of pools and datasets, and of their escrow records

The rules that names must pass, and the code that makes a dataset name the key under which the
secrets backend keeps the dataset's wrapped key.
-/
namespace NovaNas.Zfs

open Text (join)

abbrev Name := List Char

inductive NameError where
  | poolEmpty
  | poolTooLong
  | poolReserved (name : Name)
  | poolStart
  | poolCharacter (c : Char)
  | empty
  | tooLong
  | snapshot
  | noPool
  | pool (err : NameError)
  | emptyComponent
  | leadingDash
  | character (c : Char)
  deriving DecidableEq, Repr

def maxNameLen : Nat := 255

/-- The length in bytes. -/
def byteLength (s : Name) : Nat := (s.map Char.utf8Size).sum

def reservedPoolNames : List Name :=
  ["mirror", "raidz", "raidz1", "raidz2", "raidz3", "draid", "spare", "log", "cache",
    "special"].map String.toList

def isAlpha (c : Char) : Bool := ('a' ≤ c && c ≤ 'z') || ('A' ≤ c && c ≤ 'Z')

def isAllowedComponent (c : Char) : Bool :=
  isAlpha c || ('0' ≤ c && c ≤ '9') || c = '_' || c = '-' || c = '.' || c = ':'

/-- The first character that is not allowed. -/
def allAllowed (err : Char → NameError) (s : Name) : Except NameError Unit :=
  match s.find? fun c => !isAllowedComponent c with
  | some c => .error (err c)
  | none => .ok ()

def validatePoolName (s : Name) : Except NameError Unit :=
  match s with
  | [] => .error .poolEmpty
  | first :: _ =>
    if byteLength s > maxNameLen then .error .poolTooLong
    else if reservedPoolNames.contains s then .error (.poolReserved s)
    else if !isAlpha first then .error .poolStart
    else allAllowed .poolCharacter s

def validateComponent (p : Name) : Except NameError Unit :=
  match p with
  | [] => .error .emptyComponent
  | first :: _ => if first = '-' then .error .leadingDash else allAllowed .character p

def validateComponents : List Name → Except NameError Unit
  | [] => .ok ()
  | p :: rest => do
    validateComponent p
    validateComponents rest

def validateDatasetName (s : Name) : Except NameError Unit :=
  if s = [] then .error .empty
  else if byteLength s > maxNameLen then .error .tooLong
  else if '@' ∈ s then .error .snapshot
  else
    match Text.split '/' s with
    | [] => .error .noPool
    | pool :: components =>
      if pool = [] then .error .noPool
      else do
        (validatePoolName pool).mapError .pool
        validateComponents components

inductive SnapshotNameError where
  | noDataset
  | severalDelimiters
  | dataset (err : NameError)
  | emptyShort
  | leadingDash
  | character (err : NameError)
  deriving DecidableEq, Repr

def validateSnapshotName (s : Name) : Except SnapshotNameError Unit :=
  match Text.cut '@' s with
  | none => .error .noDataset
  | some ([], _) => .error .noDataset
  | some (dataset, short) =>
    if '@' ∈ short then .error .severalDelimiters
    else do
      (validateDatasetName dataset).mapError .dataset
      match short with
      | [] => .error .emptyShort
      | first :: _ =>
        if first = '-' then .error .leadingDash
        else (allAllowed .character short).mapError .character

/-! ### Escrow keys -/

def hexDigit (n : Nat) : Char :=
  if n < 10 then Char.ofNat ('0'.toNat + n) else Char.ofNat ('A'.toNat + (n - 10))

def isPlain (c : Char) : Bool :=
  ('a' ≤ c && c ≤ 'z') || ('A' ≤ c && c ≤ 'Z') || ('0' ≤ c && c ≤ '9') || c = '-'

/-- A byte of a name, which is all a character of a valid name takes. -/
def encodeByte (c : Char) : List Char :=
  if isPlain c then [c] else ['_', '_', hexDigit (c.toNat / 16), hexDigit (c.toNat % 16)]

def encodeSegment (s : Name) : List Char := s.flatMap encodeByte

def encodeSecretKey (name : Name) : Except NameError (List Char) := do
  validateDatasetName name
  return "zfs-keys/".toList ++ join '/' ((Text.split '/' name).map encodeSegment)

def isHex (c : Char) : Bool :=
  ('0' ≤ c && c ≤ '9') || ('a' ≤ c && c ≤ 'f') || ('A' ≤ c && c ≤ 'F')

def hexValue (c : Char) : Nat :=
  if '0' ≤ c ∧ c ≤ '9' then c.toNat - '0'.toNat
  else if 'a' ≤ c ∧ c ≤ 'f' then c.toNat - 'a'.toNat + 10
  else c.toNat - 'A'.toNat + 10

inductive DecodeError where
  | notEscrow
  | escape (segment : Name)
  | name (err : NameError)
  deriving DecidableEq, Repr

/-- An escape stands for a byte. One above 127, alone or with others, is part of no valid name. -/
def decodeSegment : Name → Option Name
  | [] => some []
  | '_' :: '_' :: high :: low :: rest =>
    if isHex high && isHex low then
      (decodeSegment rest).map (Char.ofNat (16 * hexValue high + hexValue low) :: ·)
    else none
  | '_' :: _ => none
  | c :: rest => (decodeSegment rest).map (c :: ·)

def decodeSegments : List Name → Except DecodeError (List Name)
  | [] => .ok []
  | p :: rest =>
    match decodeSegment p with
    | none => .error (.escape p)
    | some decoded => (decodeSegments rest).map (decoded :: ·)

def decodeSecretKey (k : Name) : Except DecodeError Name :=
  if !"zfs-keys/".toList.isPrefixOf k then .error .notEscrow
  else do
    let out ← decodeSegments (Text.split '/' (k.drop "zfs-keys/".toList.length))
    let full := join '/' out
    (validateDatasetName full).mapError .name
    return full

/-! ### Keys are decoded to the names that they were made of -/

theorem toNat_le {c d : Char} (le : c ≤ d) : c.toNat ≤ d.toNat :=
  UInt32.le_iff_toNat_le.mp le

theorem ascii_of_allowed {c : Char} (allowed : isAllowedComponent c = true) : c.toNat < 128 := by
  simp only [isAllowedComponent, isAlpha, Bool.or_eq_true, Bool.and_eq_true,
    decide_eq_true_eq] at allowed
  have upTo {d : Char} (le : c ≤ d) (small : d.toNat < 128) : c.toNat < 128 :=
    Nat.lt_of_le_of_lt (toNat_le le) small
  rcases allowed with ((((range | range) | rfl) | rfl) | rfl) | rfl
  · rcases range with range | range
    · exact upTo range.2 (by decide)
    · exact upTo range.2 (by decide)
  · exact upTo range.2 (by decide)
  all_goals decide

theorem hexDigit_read : ∀ n < 16, isHex (hexDigit n) = true ∧ hexValue (hexDigit n) = n := by
  decide

theorem decodeSegment_plain {c : Char} (plain : isPlain c = true) (rest : Name) :
    decodeSegment (c :: rest) = (decodeSegment rest).map (c :: ·) := by
  have other : c ≠ '_' := by
    rintro rfl
    cases plain
  simp [decodeSegment, other]

variable {s : Name}

theorem decodeSegment_encodeSegment (ascii : ∀ c ∈ s, c.toNat < 128) :
    decodeSegment (encodeSegment s) = some s := by
  induction s with
  | nil => rfl
  | cons c s ih =>
    obtain ⟨small, ascii⟩ := List.forall_mem_cons.mp ascii
    have shape : encodeSegment (c :: s) = encodeByte c ++ encodeSegment s := rfl
    rw [shape, encodeByte]
    split
    next plain =>
      rw [List.singleton_append, decodeSegment_plain plain, ih ascii]
      rfl
    next =>
      -- The two digits are those of the byte.
      obtain ⟨highHex, high⟩ := hexDigit_read (c.toNat / 16) (by omega)
      obtain ⟨lowHex, low⟩ := hexDigit_read (c.toNat % 16) (by omega)
      simp only [List.cons_append, List.nil_append, decodeSegment, highHex, lowHex, high, low,
        Nat.div_add_mod, Char.ofNat_toNat, ih ascii, Bool.and_self, if_true, Option.map_some]

theorem decodeSegments_encodeSegments {ss : List Name} (ascii : ∀ s ∈ ss, ∀ c ∈ s, c.toNat < 128) :
    decodeSegments (ss.map encodeSegment) = .ok ss := by
  induction ss with
  | nil => rfl
  | cons s ss ih =>
    obtain ⟨first, later⟩ := List.forall_mem_cons.mp ascii
    simp only [List.map_cons, decodeSegments, decodeSegment_encodeSegment first, ih later]
    rfl

theorem slash_not_mem_encodeSegment (s : Name) (ascii : ∀ c ∈ s, c.toNat < 128) :
    '/' ∉ encodeSegment s := by
  have digits : ∀ n < 16, hexDigit n ≠ '/' := by decide
  intro member
  obtain ⟨c, within, encoded⟩ := List.mem_flatMap.mp member
  have small := ascii c within
  unfold encodeByte at encoded
  split at encoded
  next plain =>
    obtain rfl := List.mem_singleton.mp encoded
    cases plain
  next =>
    simp only [List.mem_cons, List.not_mem_nil, or_false] at encoded
    rcases encoded with same | same | same | same
    · cases same
    · cases same
    · exact digits _ (by omega) same.symm
    · exact digits _ (by omega) same.symm

theorem allAllowed_ok {err : Char → NameError} (ok : allAllowed err s = .ok ()) :
    ∀ c ∈ s, isAllowedComponent c = true := by
  rw [allAllowed] at ok
  split at ok
  next => cases ok
  next none => simpa using none

theorem validatePoolName_ok (ok : validatePoolName s = .ok ()) :
    ∀ c ∈ s, isAllowedComponent c = true := by
  cases s with
  | nil => cases ok
  | cons first rest =>
    simp only [validatePoolName] at ok
    split at ok
    · cases ok
    split at ok
    · cases ok
    split at ok
    · cases ok
    · exact allAllowed_ok ok

/-- A component of a valid name. -/
def IsComponent (p : Name) : Prop := p ≠ [] ∧ ∀ c ∈ p, isAllowedComponent c = true

theorem validateComponent_ok (ok : validateComponent s = .ok ()) : IsComponent s := by
  cases s with
  | nil => cases ok
  | cons first rest =>
    simp only [validateComponent] at ok
    split at ok
    · cases ok
    · exact ⟨List.cons_ne_nil _ _, allAllowed_ok ok⟩

theorem validateComponents_ok {components : List Name}
    (ok : validateComponents components = .ok ()) : ∀ p ∈ components, IsComponent p := by
  induction components with
  | nil => simp
  | cons p components ih =>
    obtain ⟨⟨⟩, first, later⟩ := Fallible.bind_ok ok
    exact List.forall_mem_cons.mpr ⟨validateComponent_ok first, ih later⟩

theorem validateDatasetName_ok (ok : validateDatasetName s = .ok ()) :
    ∀ p ∈ Text.split '/' s, IsComponent p := by
  rw [validateDatasetName] at ok
  split at ok
  · cases ok
  split at ok
  · cases ok
  split at ok
  · cases ok
  split at ok
  next => cases ok
  next pool components parts =>
    split at ok
    next => cases ok
    next nonempty =>
      rw [parts]
      obtain ⟨⟨⟩, first, later⟩ := Fallible.bind_ok ok
      exact List.forall_mem_cons.mpr ⟨⟨nonempty, validatePoolName_ok (Fallible.mapError_ok first)⟩,
        validateComponents_ok later⟩

theorem encodeSecretKey_ok {name : Name} {key : List Char}
    (encoded : encodeSecretKey name = .ok key) : validateDatasetName name = .ok () ∧
      key = "zfs-keys/".toList ++ join '/' ((Text.split '/' name).map encodeSegment) := by
  obtain ⟨⟨⟩, valid, rest⟩ := Fallible.bind_ok encoded
  exact ⟨valid, (Except.ok.inj rest).symm⟩

theorem ascii_of_valid (valid : validateDatasetName s = .ok ()) :
    ∀ p ∈ Text.split '/' s, ∀ c ∈ p, c.toNat < 128 := by
  intro p member c within
  exact ascii_of_allowed ((validateDatasetName_ok valid p member).2 c within)

/-- The components of the key are those of the name. -/
theorem split_encoded (valid : validateDatasetName s = .ok ()) :
    Text.split '/' (join '/' ((Text.split '/' s).map encodeSegment)) =
      (Text.split '/' s).map encodeSegment := by
  apply Text.split_join
  · simp [Text.split_ne_nil]
  · intro word member
    obtain ⟨p, within, rfl⟩ := List.mem_map.mp member
    exact slash_not_mem_encodeSegment p (ascii_of_valid valid p within)

theorem decode_encode {name : Name} {key : List Char} (encoded : encodeSecretKey name = .ok key) :
    decodeSecretKey key = .ok name := by
  obtain ⟨valid, rfl⟩ := encodeSecretKey_ok encoded
  have starts : "zfs-keys/".toList.isPrefixOf ("zfs-keys/".toList ++
      join '/' ((Text.split '/' name).map encodeSegment)) = true :=
    List.isPrefixOf_iff_prefix.mpr (List.prefix_append _ _)
  rw [decodeSecretKey, starts, List.drop_left, split_encoded valid,
    decodeSegments_encodeSegments (ascii_of_valid valid)]
  change (do
    (validateDatasetName (join '/' (Text.split '/' name))).mapError DecodeError.name
    return join '/' (Text.split '/' name) : Except DecodeError Name) = _
  rw [Text.join_split, valid]
  rfl

/-- No two datasets share an escrow record. -/
theorem encodeSecretKey_inj {a b : Name} {key : List Char} (encoded : encodeSecretKey a = .ok key)
    (encoded' : encodeSecretKey b = .ok key) : a = b :=
  Except.ok.inj ((decode_encode encoded).symm.trans (decode_encode encoded'))

example : (encodeSecretKey "tank/host.example".toList).map String.ofList =
    .ok "zfs-keys/tank/host__2Eexample" := by decide

end NovaNas.Zfs
