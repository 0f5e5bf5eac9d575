import NovaNas.Base.Trimming

/-!
# IP addresses

The textual form of IP addresses as the standard library of Go reads it.
-/
namespace NovaNas.Ip

abbrev Bytes := List Nat

/-! ### Reading -/

/-- The rest of a dotted address after some fields and the digits of the next one. -/
def ipv4From (fields : Bytes) (value digits : Nat) : List Char → Option Bytes
  | [] => if fields.length < 3 then none else some (fields ++ [value])
  | c :: rest =>
    match Text.digit c with
    | some d =>
      if digits = 1 ∧ value = 0 then none
      else if value * 10 + d > 255 then none
      else ipv4From fields (value * 10 + d) (digits + 1) rest
    | none =>
      if c ≠ '.' then none
      else if digits = 0 ∨ rest = [] then none
      else if fields.length = 3 then none
      else ipv4From (fields ++ [value]) 0 0 rest

def ipv4Fields (s : List Char) : Option Bytes := ipv4From [] 0 0 s

def hexDigit (c : Char) : Option Nat :=
  if '0' ≤ c ∧ c ≤ '9' then some (c.toNat - '0'.toNat)
  else if 'a' ≤ c ∧ c ≤ 'f' then some (c.toNat - 'a'.toNat + 10)
  else if 'A' ≤ c ∧ c ≤ 'F' then some (c.toNat - 'A'.toNat + 10)
  else none

def isHex (c : Char) : Bool := (hexDigit c).isSome

def hexValue (digits : List Char) : Nat :=
  digits.foldl (fun acc c => acc * 16 + (hexDigit c).getD 0) 0

/-- The groups of an address, where `::` stands if it does, and what is left of the text. -/
def ipv6Groups : Nat → Bytes → Option Nat → List Char → Option (Bytes × Option Nat × List Char)
  | 0, bytes, ellipsis, s => some (bytes, ellipsis, s)
  | groups + 1, bytes, ellipsis, s =>
    let digits := s.takeWhile isHex
    if digits = [] ∨ digits.length > 4 then none
    else
      match s.dropWhile isHex with
      | [] => some (bytes ++ [hexValue digits / 256, hexValue digits % 256], ellipsis, [])
      | '.' :: _ =>
        -- An address with dots may stand for the last two groups.
        if ellipsis = none ∧ bytes.length ≠ 12 then none
        else if bytes.length + 4 > 16 then none
        else (ipv4Fields s).map fun fields => (bytes ++ fields, ellipsis, [])
      | ':' :: rest =>
        let bytes := bytes ++ [hexValue digits / 256, hexValue digits % 256]
        match rest with
        | [] => none
        | ':' :: more =>
          if ellipsis.isSome then none
          else if more = [] then some (bytes, some bytes.length, [])
          else ipv6Groups groups bytes (some bytes.length) more
        | more => ipv6Groups groups bytes ellipsis more
      | _ :: _ => none

/-- The zeros in the place of `::`. -/
def expand : Bytes × Option Nat × List Char → Option Bytes
  | (_, _, _ :: _) => none
  | (bytes, ellipsis, []) =>
    if bytes.length < 16 then
      ellipsis.map fun at_ =>
        bytes.take at_ ++ List.replicate (16 - bytes.length) 0 ++ bytes.drop at_
    else if ellipsis.isSome then none
    else some bytes

def ipv6 (s : List Char) : Option Bytes :=
  match s with
  | [':', ':'] => some (List.replicate 16 0)
  | ':' :: ':' :: rest => (ipv6Groups 8 [] (some 0) rest).bind expand
  | _ => (ipv6Groups 8 [] none s).bind expand

/-- `net.ParseIP`: the sixteen bytes of the address. One with a zone is none. -/
def parseIP (s : List Char) : Option Bytes :=
  match s.find? fun c => c = '.' || c = ':' || c = '%' with
  | some '.' => (ipv4Fields s).map fun fields => List.replicate 10 0 ++ [255, 255] ++ fields
  | some ':' => if s.contains '%' then none else ipv6 s
  | _ => none

/-- `ip.To4() != nil` -/
def isV4 (ip : Bytes) : Bool := ip.take 12 = List.replicate 10 0 ++ [255, 255]

/-- `net.ParseCIDR`: the address and the length of the network's part. -/
def parseCIDR (s : List Char) : Option (Bytes × Nat) := do
  let (addr, mask) ← Text.cut '/' s
  let ip ← parseIP addr
  let bits ← Text.decimal mask
  if bits ≤ (if addr.contains ':' then 128 else 32) then some (ip, bits) else none

/-! ### The characters of an address -/

/-- A digit, a dot or a colon. -/
def isMark (c : Char) : Bool := isHex c || c = '.' || c = ':'

theorem isMark_of_isHex {c : Char} (hex : isHex c = true) : isMark c = true := by simp [isMark, hex]

theorem isMark_of_digit {c : Char} {d : Nat} (read : Text.digit c = some d) : isMark c = true := by
  apply isMark_of_isHex
  unfold Text.digit at read
  split at read
  next bounds => simp [isHex, hexDigit, bounds]
  next => cases read

variable {s : List Char}

theorem ipv4From_marks {fields ip : Bytes} {value digits : Nat}
    (read : ipv4From fields value digits s = some ip) : ∀ c ∈ s, isMark c = true := by
  induction s generalizing fields value digits with
  | nil => nofun
  | cons c rest ih =>
    rw [ipv4From] at read
    split at read
    next d isDigit =>
      split at read
      · cases read
      · split at read
        · cases read
        · exact List.forall_mem_cons.mpr ⟨isMark_of_digit isDigit, ih read⟩
    next =>
      split at read
      · cases read
      next dot =>
        split at read
        · cases read
        · split at read
          · cases read
          · refine List.forall_mem_cons.mpr ⟨?_, ih read⟩
            rw [not_not.mp dot]
            decide

/-- The digits of a group and what comes after them are of an address if that is. -/
theorem marks_of_rest (rest : ∀ c ∈ s.dropWhile isHex, isMark c = true) :
    ∀ c ∈ s, isMark c = true := by
  intro c member
  rw [← List.takeWhile_append_dropWhile (p := isHex) (l := s)] at member
  rcases List.mem_append.mp member with digit | later
  · exact isMark_of_isHex (List.mem_takeWhile_imp digit)
  · exact rest c later

theorem ipv6Groups_marks {groups : Nat} {bytes : Bytes} {ellipsis : Option Nat} {ip : Bytes}
    (read : (ipv6Groups groups bytes ellipsis s).bind expand = some ip) :
    ∀ c ∈ s, isMark c = true := by
  have colon : isMark ':' = true := by decide
  induction groups generalizing bytes ellipsis s with
  | zero =>
    cases s with
    | nil => nofun
    | cons c s => cases read
  | succ groups ih =>
    simp only [ipv6Groups] at read
    split at read
    · cases read
    · split at read
      next empty =>
        apply marks_of_rest
        rw [empty]
        nofun
      next dotted =>
        split at read
        · cases read
        · split at read
          · cases read
          · cases fields : ipv4Fields s with
            | none =>
              rw [fields] at read
              cases read
            | some given => exact ipv4From_marks fields
      next rest more =>
        apply marks_of_rest
        rw [more]
        refine List.forall_mem_cons.mpr ⟨colon, ?_⟩
        split at read
        · nofun
        next last =>
          refine List.forall_mem_cons.mpr ⟨colon, ?_⟩
          split at read
          · cases read
          · split at read
            next done =>
              rw [done]
              nofun
            next => exact ih read
        next => exact ih read
      next => cases read

theorem ipv6_marks {ip : Bytes} (read : ipv6 s = some ip) :
    ∀ c ∈ s, isMark c = true := by
  unfold ipv6 at read
  have colon : isMark ':' = true := by decide
  split at read
  · simp [colon]
  next rest _ =>
    have later := ipv6Groups_marks read
    exact List.forall_mem_cons.mpr ⟨colon, List.forall_mem_cons.mpr ⟨colon, later⟩⟩
  next => exact ipv6Groups_marks read

theorem parseIP_marks {ip : Bytes} (read : parseIP s = some ip) :
    ∀ c ∈ s, isMark c = true := by
  unfold parseIP at read
  split at read
  · obtain ⟨fields, given, -⟩ := Option.map_eq_some_iff.mp read
    exact ipv4From_marks given
  · split at read
    · cases read
    · exact ipv6_marks read
  · cases read

/-! ### No spaces -/

theorem isSpace_of_isHex {c : Char} (hex : isHex c = true) : Text.isSpace c = false := by
  have bounds : (48 ≤ c.toNat ∧ c.toNat ≤ 57) ∨ (65 ≤ c.toNat ∧ c.toNat ≤ 70) ∨
      (97 ≤ c.toNat ∧ c.toNat ≤ 102) := by
    unfold isHex hexDigit at hex
    simp only [Char.le_def, UInt32.le_iff_toNat_le] at hex
    split at hex
    next digit => exact .inl digit
    next =>
      split at hex
      next small => exact .inr (.inr small)
      next =>
        split at hex
        next big => exact .inr (.inl big)
        next => cases hex
  have differs (n : UInt32) (other : n.toNat < 48 ∨ 102 < n.toNat) : c.val ≠ n := by
    intro same
    have value : c.toNat = n.toNat := congrArg UInt32.toNat same
    omega
  have blank : c ≠ ' ' := fun same => differs 32 (by decide) (congrArg Char.val same)
  simp [Text.isSpace, blank, differs, Char.le_def, UInt32.le_iff_toNat_le]
  omega

theorem isSpace_of_isMark {c : Char} (mark : isMark c = true) : Text.isSpace c = false := by
  simp only [isMark, Bool.or_eq_true, decide_eq_true_eq] at mark
  rcases mark with (hex | rfl) | rfl
  · exact isSpace_of_isHex hex
  · decide
  · decide

theorem decimalFrom_marks {n value : Nat} (read : Text.decimalFrom n s = some value) :
    ∀ c ∈ s, isMark c = true := by
  induction s generalizing n with
  | nil => simp
  | cons c rest ih =>
    obtain ⟨d, first, later⟩ := Option.bind_eq_some_iff.mp read
    exact List.forall_mem_cons.mpr ⟨isMark_of_digit first, ih later⟩

theorem parseCIDR_marks {net : Bytes × Nat} (read : parseCIDR s = some net) :
    ∀ c ∈ s, isMark c = true ∨ c = '/' := by
  obtain ⟨⟨addr, mask⟩, found, read⟩ := Option.bind_eq_some_iff.mp read
  obtain ⟨ip, parsed, read⟩ := Option.bind_eq_some_iff.mp read
  obtain ⟨bits, digits, -⟩ := Option.bind_eq_some_iff.mp read
  have maskMarks : ∀ c ∈ mask, isMark c = true := by
    cases mask with
    | nil => simp
    | cons c rest => exact decimalFrom_marks digits
  rw [(Text.cut_eq_some_iff.mp found).1]
  intro c member
  rcases List.mem_append.mp member with front | back
  · exact .inl (parseIP_marks parsed c front)
  · rcases List.mem_cons.mp back with slash | back
    · exact .inr slash
    · exact .inl (maskMarks c back)

end NovaNas.Ip
