import NovaNas.Zfs.Names

/-!
# Access control entries on the wire

An entry is sent to `nfs4_setfacl` as four fields with colons between them, and read back from
`nfs4_getfacl` in the same form. Types, permissions and inheritance flags are letters. The three
kinds of principals share one field: a user under the plain name, a group under its name with an `@`
after it unless the name has one, and the special principals as they are. So the field does not
always tell them apart.
-/
namespace NovaNas.Zfs.Acl

/-! ### Letters -/

section Letters

variable {α : Type} [DecidableEq α]

/-- The letters of the chosen values, in the order of the table. -/
def letters (letter : α → Char) (order chosen : List α) : List Char :=
  (order.map letter).filter fun c => (chosen.map letter).contains c

/-- The value with the letter. -/
def ofLetter (letter : α → Char) (order : List α) (c : Char) : Option α :=
  order.find? (letter · = c)

theorem letters_eq {letter : α → Char} (distinct : Function.Injective letter)
    (order chosen : List α) :
    letters letter order chosen = (order.filter (· ∈ chosen)).map letter := by
  rw [letters, List.filter_map]
  refine congrArg _ (List.filter_congr fun a _ => ?_)
  simp [distinct.eq_iff]

end Letters

/-! ### Entries -/

inductive ACEType where
  | allow
  | deny
  | other (text : Name)
  deriving DecidableEq, Repr

/-- A single permission. -/
inductive Perm where
  | read
  | write
  | execute
  | append
  | deleteChild
  | delete
  | readAttrs
  | writeAttrs
  | readXattr
  | writeXattr
  | readACL
  | writeACL
  | writeOwner
  | sync
  deriving DecidableEq, Repr

inductive ACLPerm where
  | specific (perm : Perm)
  | fullControl
  | modify
  | readOnly
  | other (text : Name)
  deriving DecidableEq, Repr

inductive InheritFlag where
  | file
  | dir
  | noPropagate
  | inheritOnly
  deriving DecidableEq, Repr

inductive Inherit where
  | flag (flag : InheritFlag)
  | other (text : Name)
  deriving DecidableEq, Repr

structure ACE where
  type : ACEType
  principal : Name
  permissions : List ACLPerm
  inheritance : List Inherit
  deriving DecidableEq, Repr

def permLetter : Perm → Char
  | .read => 'r'
  | .write => 'w'
  | .execute => 'x'
  | .append => 'a'
  | .delete => 'd'
  | .deleteChild => 'D'
  | .readACL => 'c'
  | .writeACL => 'C'
  | .writeOwner => 'o'
  | .readAttrs => 't'
  | .writeAttrs => 'T'
  | .readXattr => 'n'
  | .writeXattr => 'N'
  | .sync => 'y'

/-- `rwxaDdtTnNcCoy` -/
def canonical : List Perm :=
  [.read, .write, .execute, .append, .deleteChild, .delete, .readAttrs, .writeAttrs, .readXattr,
    .writeXattr, .readACL, .writeACL, .writeOwner, .sync]

def inheritLetter : InheritFlag → Char
  | .file => 'f'
  | .dir => 'd'
  | .noPropagate => 'n'
  | .inheritOnly => 'i'

/-- `fdni` -/
def canonicalFlags : List InheritFlag := [.file, .dir, .noPropagate, .inheritOnly]

def shorthandExpansion : ACLPerm → Option (List Perm)
  | .fullControl => some
    [.read, .write, .execute, .append, .delete, .deleteChild, .readAttrs, .writeAttrs, .readXattr,
      .writeXattr, .readACL, .writeACL, .writeOwner, .sync]
  | .modify => some
    [.read, .write, .execute, .append, .delete, .readAttrs, .writeAttrs, .readACL]
  | .readOnly => some [.read, .execute, .readAttrs, .readACL]
  | _ => none

/-! ### Checks -/

inductive AclError where
  | principalEmpty
  | notUppercase (principal : Name)
  | principalKind (principal : Name)
  | nameEmpty
  | nameCharacter (c : Char)
  | type (text : Name)
  | noPermissions
  | permission (text : Name)
  | mixedShorthand
  | severalShorthands
  | inheritance (text : Name)
  | fields (n : Nat) (line : Name)
  | audit (text : Name)
  | flag (c : Char) (line : Name)
  | noPrincipal (line : Name)
  | letter (c : Char) (line : Name)
  | noLetters (line : Name)
  deriving DecidableEq, Repr

def specials : List Name := ["OWNER@".toList, "GROUP@".toList, "EVERYONE@".toList]

def user : Name := "user:".toList

def group : Name := "group:".toList

def nameCharacter (c : Char) : Bool :=
  ('a' ≤ c && c ≤ 'z') || ('A' ≤ c && c ≤ 'Z') || ('0' ≤ c && c ≤ '9') || c = '.' || c = '-' ||
    c = '_' || c = '@' || c = '\\'

def validateName (name : Name) : Except AclError Unit :=
  if name = [] then .error .nameEmpty
  else
    match name.find? fun c => !nameCharacter c with
    | some c => .error (.nameCharacter c)
    | none => .ok ()

def validatePrincipal (p : Name) : Except AclError Unit :=
  if p = [] then .error .principalEmpty
  else if specials.contains p then .ok ()
  else if ['@'].isSuffixOf p && specials.contains (p.map Char.toUpper) then .error (.notUppercase p)
  else if user.isPrefixOf p then validateName (p.drop 5)
  else if group.isPrefixOf p then validateName (p.drop 6)
  else .error (.principalKind p)

def validatePermissions (permissions : List ACLPerm) : Except AclError Unit :=
  let unknown : ACLPerm → Option Name
    | .other text => some text
    | _ => none
  let hasShorthand := permissions.any fun p => (shorthandExpansion p).isSome
  let hasSpecific := permissions.any fun p => (shorthandExpansion p).isNone
  match permissions.findSome? unknown with
  | some text => .error (.permission text)
  | none =>
    if hasShorthand && hasSpecific then .error .mixedShorthand
    else if hasShorthand && 1 < permissions.length then .error .severalShorthands
    else .ok ()

def unknownFlag : Inherit → Option Name
  | .flag _ => none
  | .other text => some text

def validateACE (ace : ACE) : Except AclError Unit :=
  match ace.type with
  | .other text => .error (.type text)
  | _ => do
    validatePrincipal ace.principal
    if ace.permissions = [] then .error .noPermissions
    else do
      validatePermissions ace.permissions
      match ace.inheritance.findSome? unknownFlag with
      | some text => .error (.inheritance text)
      | none => .ok ()

/-! ### Writing -/

def perms : List ACLPerm → List Perm
  | [] => []
  | .specific p :: rest => p :: perms rest
  | _ :: rest => perms rest

/-- The permissions once a shorthand is expanded. -/
def expand (permissions : List ACLPerm) : List Perm :=
  match permissions with
  | [p] => (shorthandExpansion p).getD (perms [p])
  | _ => perms permissions

def flags : List Inherit → List InheritFlag
  | [] => []
  | .flag f :: rest => f :: flags rest
  | .other _ :: rest => flags rest

def isGroup (principal : Name) : Bool :=
  principal = "GROUP@".toList || group.isPrefixOf principal

def wirePrincipal (principal : Name) : Name :=
  if specials.contains principal then principal
  else if user.isPrefixOf principal then principal.drop 5
  else if group.isPrefixOf principal then
    let name := principal.drop 6
    if name.contains '@' then name else name ++ ['@']
  else []

def typeLetter : ACEType → Char
  | .deny => 'D'
  | _ => 'A'

def wireFlags (ace : ACE) : Name :=
  letters inheritLetter canonicalFlags (flags ace.inheritance) ++
    if isGroup ace.principal then ['g'] else []

def aceToString (ace : ACE) : Except AclError Name := do
  validateACE ace
  .ok (typeLetter ace.type :: ':' :: (wireFlags ace ++ ':' ::
    (wirePrincipal ace.principal ++ ':' :: letters permLetter canonical (expand ace.permissions))))

/-! ### Reading -/

/-- Whether the principal is said to be a group, and the inheritance flags. -/
def parseFlags (line : Name) : Name → Except AclError (Bool × List InheritFlag)
  | [] => .ok (false, [])
  | c :: rest =>
    if c = 'g' then (parseFlags line rest).map fun (_, flags) => (true, flags)
    else if c = 'S' || c = 'F' then .error (.audit [c])
    else
      match ofLetter inheritLetter canonicalFlags c with
      | none => .error (.flag c line)
      | some f => (parseFlags line rest).map fun (isGroup, flags) => (isGroup, f :: flags)

def parsePrincipal (line : Name) (isGroup : Bool) (field : Name) : Except AclError Name :=
  if specials.contains field then .ok field
  else if field = [] then .error (.noPrincipal line)
  else if isGroup then .ok (group ++ if ['@'].isSuffixOf field then field.dropLast else field)
  else .ok (user ++ field)

def parsePerms (line : Name) : Name → Except AclError (List Perm)
  | [] => .ok []
  | c :: rest =>
    match ofLetter permLetter canonical c with
    | none => .error (.letter c line)
    | some p => (parsePerms line rest).map (p :: ·)

def parseType (text : Name) : Except AclError ACEType :=
  if text = ['A'] then .ok .allow
  else if text = ['D'] then .ok .deny
  else if text = ['U'] || text = ['L'] then .error (.audit text)
  else .error (.type text)

/-- The four fields of a line. -/
def parseFields (line typeStr flagsStr principalStr permsStr : Name) : Except AclError ACE := do
  let type ← parseType typeStr
  let (isGroup, flags) ← parseFlags line flagsStr
  let principal ← parsePrincipal line isGroup principalStr
  let permissions ← parsePerms line permsStr
  if permissions = [] then .error (.noLetters line)
  else .ok ⟨type, principal, permissions.map .specific, flags.map .flag⟩

def parseACE (line : Name) : Except AclError ACE :=
  match Text.cut ':' line with
  | none => .error (.fields 1 line)
  | some (typeStr, rest) =>
    match Text.cut ':' rest with
    | none => .error (.fields 2 line)
    | some (flagsStr, rest) =>
      match Text.cut ':' rest with
      | none => .error (.fields 3 line)
      | some (principalStr, permsStr) =>
        parseFields line typeStr flagsStr principalStr permsStr

variable {principal : Name}

theorem parseACE_fields {type : Char} {flags : Name} (typed : type ≠ ':') (flagged : ':' ∉ flags)
    (named : ':' ∉ principal) (perms : Name) {line : Name}
    (fields : line = type :: ':' :: (flags ++ ':' :: (principal ++ ':' :: perms))) :
    parseACE line = parseFields line [type] flags principal perms := by
  have first : Text.cut ':' line = some ([type], flags ++ ':' :: (principal ++ ':' :: perms)) := by
    have absent : ':' ∉ [type] := by simp [typed.symm]
    rw [fields]
    exact Text.cut_append absent _
  simp only [parseACE, first, Text.cut_append flagged, Text.cut_append named]

/-! ### Letters are read back -/

theorem parsePerms_letters (line : Name) (list : List Perm) :
    parsePerms line (list.map permLetter) = .ok list := by
  induction list with
  | nil => rfl
  | cons p list ih =>
    have found : ofLetter permLetter canonical (permLetter p) = some p := by cases p <;> rfl
    simp [parsePerms, found, ih, Except.map]

theorem parseFlags_letters (line : Name) (list : List InheritFlag) (isGroup : Bool) :
    parseFlags line (list.map inheritLetter ++ if isGroup then ['g'] else []) =
      .ok (isGroup, list) := by
  induction list with
  | nil => cases isGroup <;> rfl
  | cons f list ih =>
    have plain : inheritLetter f ≠ 'g' ∧ inheritLetter f ≠ 'S' ∧ inheritLetter f ≠ 'F' ∧
        ofLetter inheritLetter canonicalFlags (inheritLetter f) = some f := by
      cases f <;> decide
    rw [List.map_cons, List.cons_append, parseFlags, if_neg plain.1, plain.2.2.2, ih]
    simp [plain, Except.map]

theorem mem_letters_perms (list : List Perm) (p : Perm) :
    p ∈ canonical.filter (· ∈ list) ↔ p ∈ list := by
  have all : p ∈ canonical := by cases p <;> decide
  simp [all]

theorem mem_letters_flags (list : List InheritFlag) (f : InheritFlag) :
    f ∈ canonicalFlags.filter (· ∈ list) ↔ f ∈ list := by
  have all : f ∈ canonicalFlags := by cases f <;> decide
  simp [all]

/-! ### What the checks leave -/

section Accepted

variable {ace : ACE}

theorem validateACE_ok (accepted : validateACE ace = .ok ()) :
    (ace.type = .allow ∨ ace.type = .deny) ∧ validatePrincipal ace.principal = .ok () ∧
      ace.permissions ≠ [] ∧ validatePermissions ace.permissions = .ok () ∧
      ace.inheritance.findSome? unknownFlag = none := by
  have typed : ace.type = .allow ∨ ace.type = .deny := by
    cases type : ace.type with
    | allow => exact .inl rfl
    | deny => exact .inr rfl
    | other text => simp [validateACE, type] at accepted
  have checks : (do
      validatePrincipal ace.principal
      if ace.permissions = [] then .error .noPermissions
      else do
        validatePermissions ace.permissions
        match ace.inheritance.findSome? unknownFlag with
        | some text => .error (.inheritance text)
        | none => .ok ()) = Except.ok () := by
    rcases typed with type | type <;> rwa [validateACE, type] at accepted
  obtain ⟨⟨⟩, principal, checks⟩ := Fallible.bind_ok checks
  split at checks
  · cases checks
  next some =>
    obtain ⟨⟨⟩, permissions, checks⟩ := Fallible.bind_ok checks
    split at checks
    · cases checks
    next known => exact ⟨typed, principal, some, permissions, known⟩

/-- Known flags are the flags. -/
theorem mem_flags {list : List Inherit} (known : list.findSome? unknownFlag = none) (f : Inherit) :
    f ∈ (flags list).map .flag ↔ f ∈ list := by
  induction list with
  | nil => rfl
  | cons g list ih =>
    cases g with
    | flag g =>
      rw [List.findSome?_cons] at known
      simp [flags, ← ih known]
    | other text => cases known

theorem expand_ne_nil {permissions : List ACLPerm} (nonempty : permissions ≠ [])
    (valid : validatePermissions permissions = .ok ()) : expand permissions ≠ [] := by
  rcases permissions with _ | ⟨p, _ | ⟨q, rest⟩⟩
  · contradiction
  · cases p with
    | other text => cases valid
    | _ => simp [expand, shorthandExpansion, perms]
  · -- With a second permission, none is a shorthand.
    cases p with
    | specific p => simp [expand, perms]
    | other text => cases valid
    | _ =>
      simp only [validatePermissions] at valid
      split at valid
      · cases valid
      · split at valid
        · cases valid
        · simp [shorthandExpansion] at valid

end Accepted

/-! ### Principals -/

/-- The principal has the wire form of another one. -/
def Ambiguous (principal : Name) : Prop :=
  (∃ name ∈ specials, principal = user ++ name) ∨
    ∃ name, principal = group ++ name ∧ (['@'] <:+ name ∨ name ++ ['@'] ∈ specials)

theorem validateName_ok {name : Name} (ok : validateName name = .ok ()) :
    name ≠ [] ∧ ':' ∉ name := by
  rw [validateName] at ok
  split at ok
  · cases ok
  next nonempty =>
    refine ⟨nonempty, fun colon => ?_⟩
    split at ok
    · cases ok
    next all =>
      have allowed := List.find?_eq_none.mp all ':' colon
      revert allowed
      decide

/-- The kinds of accepted principals. -/
theorem principal_cases (ok : validatePrincipal principal = .ok ()) :
    principal ∈ specials ∨ (∃ name, principal = user ++ name ∧ name ≠ [] ∧ ':' ∉ name) ∨
      ∃ name, principal = group ++ name ∧ name ≠ [] ∧ ':' ∉ name := by
  rw [validatePrincipal] at ok
  split at ok
  · cases ok
  split at ok
  next special => exact .inl (by simpa using special)
  split at ok
  · cases ok
  split at ok
  next users =>
    obtain ⟨name, rfl⟩ := List.isPrefixOf_iff_prefix.mp users
    exact .inr (.inl ⟨name, rfl, validateName_ok ok⟩)
  split at ok
  next groups =>
    obtain ⟨name, rfl⟩ := List.isPrefixOf_iff_prefix.mp groups
    exact .inr (.inr ⟨name, rfl, validateName_ok ok⟩)
  · cases ok

theorem wirePrincipal_user (name : Name) : wirePrincipal (user ++ name) = name := rfl

theorem wirePrincipal_group (name : Name) :
    wirePrincipal (group ++ name) = if name.contains '@' then name else name ++ ['@'] := rfl

theorem user_eq : user = ['u', 's', 'e', 'r', ':'] := rfl

theorem group_eq : group = ['g', 'r', 'o', 'u', 'p', ':'] := rfl

theorem not_ambiguous_special (special : principal ∈ specials) :
    ¬Ambiguous principal := by
  simp only [specials, List.mem_cons, List.not_mem_nil, or_false] at special
  rintro (⟨name, -, same⟩ | ⟨name, same, -⟩)
  all_goals rcases special with rfl | rfl | rfl <;> simp [user_eq, group_eq] at same

theorem ambiguous_user {name : Name} : Ambiguous (user ++ name) ↔ name ∈ specials := by
  constructor
  · rintro (⟨other, special, same⟩ | ⟨other, same, -⟩)
    · exact List.append_cancel_left same ▸ special
    · simp [user_eq, group_eq] at same
  · exact fun special => .inl ⟨name, special, rfl⟩

theorem ambiguous_group {name : Name} :
    Ambiguous (group ++ name) ↔ ['@'] <:+ name ∨ name ++ ['@'] ∈ specials := by
  constructor
  · rintro (⟨other, -, same⟩ | ⟨other, same, ambiguous⟩)
    · simp [user_eq, group_eq] at same
    · exact List.append_cancel_left same ▸ ambiguous
  · exact fun ambiguous => .inr ⟨name, rfl, ambiguous⟩

/-- A principal is read back exactly if its wire form is no other's. -/
theorem parsePrincipal_wire (line : Name) (ok : validatePrincipal principal = .ok ()) :
    ∃ read, parsePrincipal line (isGroup principal) (wirePrincipal principal) = .ok read ∧
      (read = principal ↔ ¬Ambiguous principal) := by
  rcases principal_cases ok with special | ⟨name, rfl, nonempty, -⟩ | ⟨name, rfl, nonempty, -⟩
  · have contained : specials.contains principal = true := by simpa using special
    refine ⟨principal, ?_, ?_⟩
    · rw [wirePrincipal, if_pos contained, parsePrincipal, if_pos contained]
    · simp [not_ambiguous_special special]
  · rw [wirePrincipal_user, ambiguous_user, parsePrincipal]
    by_cases special : name ∈ specials
    · refine ⟨name, if_pos (by simpa using special), ?_⟩
      have shorter : name ≠ user ++ name := fun same => by
        have := congrArg List.length same
        rw [List.length_append] at this
        exact absurd this (by simp [user_eq])
      simp [special, shorter]
    · refine ⟨user ++ name, ?_, by simp [special]⟩
      rw [if_neg (by simpa using special), if_neg nonempty]
      rfl
  · have grouped : isGroup (group ++ name) = true := rfl
    rw [ambiguous_group, wirePrincipal_group, grouped]
    -- Without the prefix the field is too short to be the principal.
    have shorter (back : Name) (few : back.length < 6) : name ++ back ≠ group ++ name := by
      intro same
      have := congrArg List.length same
      simp only [List.length_append, group] at this
      have : ("group:".toList).length = 6 := by decide
      omega
    by_cases marked : '@' ∈ name
    · rw [if_pos (by simpa using marked), parsePrincipal]
      have unextended : name ++ ['@'] ∉ specials := by
        intro special
        simp only [specials, List.mem_cons, List.not_mem_nil, or_false] at special
        have bare : name = "OWNER".toList ∨ name = "GROUP".toList ∨ name = "EVERYONE".toList :=
          special.imp List.append_cancel_right
            (Or.imp List.append_cancel_right List.append_cancel_right)
        rcases bare with rfl | rfl | rfl <;> exact absurd marked (by decide)
      by_cases special : name ∈ specials
      · have ends : ['@'] <:+ name := by
          have all : ∀ name ∈ specials, ['@'] <:+ name := by decide
          exact all name special
        refine ⟨name, if_pos (by simpa using special), ?_⟩
        have other := shorter [] (by decide)
        rw [List.append_nil] at other
        simp [ends, other]
      · rw [if_neg (by simpa using special), if_neg nonempty, if_pos rfl]
        refine ⟨_, rfl, ?_⟩
        by_cases ends : ['@'] <:+ name
        · have dropped : name.dropLast ≠ name := by
            intro same
            have := congrArg List.length same
            have pos := List.length_pos_of_ne_nil nonempty
            rw [List.length_dropLast] at this
            omega
          simp [List.isSuffixOf_iff_suffix.mpr ends, dropped, ends]
        · simp [mt List.isSuffixOf_iff_suffix.mp ends, ends, unextended]
    · rw [if_neg (by simpa using marked), parsePrincipal]
      have unended : ¬['@'] <:+ name := fun ends => marked (ends.subset List.mem_cons_self)
      by_cases special : name ++ ['@'] ∈ specials
      · refine ⟨name ++ ['@'], if_pos (by simpa using special), ?_⟩
        simp [special, shorter ['@'] (by decide)]
      · have ends : ['@'].isSuffixOf (name ++ ['@']) = true :=
          List.isSuffixOf_iff_suffix.mpr (List.suffix_append _ _)
        rw [if_neg (by simpa using special), if_neg (by simp), if_pos rfl, if_pos ends]
        exact ⟨_, rfl, by simp [unended, special]⟩

theorem colon_not_mem_wire (ok : validatePrincipal principal = .ok ()) :
    ':' ∉ wirePrincipal principal := by
  rcases principal_cases ok with special | ⟨name, rfl, -, plain⟩ | ⟨name, rfl, -, plain⟩
  · have all : ∀ special ∈ specials, ':' ∉ wirePrincipal special := by decide
    exact all principal special
  · exact plain
  · rw [wirePrincipal_group]
    split <;> simp [plain]

/-! ### The codec -/

/-- The entry that is read is the one that was written, up to the expansion of shorthands and the
order and number of permissions and flags. -/
structure Same (ace read : ACE) : Prop where
  type : read.type = ace.type
  principal : read.principal = ace.principal
  permissions : ∀ p, p ∈ read.permissions ↔ p ∈ (expand ace.permissions).map .specific
  inheritance : ∀ f, f ∈ read.inheritance ↔ f ∈ ace.inheritance

/-- An accepted entry survives the wire exactly if its principal does not have the wire form of
another one. -/
theorem codec_lossless_iff {ace : ACE} (accepted : validateACE ace = .ok ()) :
    (∃ line read, aceToString ace = .ok line ∧ parseACE line = .ok read ∧ Same ace read) ↔
      ¬Ambiguous ace.principal := by
  obtain ⟨typed, principal, nonempty, permissions, known⟩ := validateACE_ok accepted
  have flagLetters : wireFlags ace = (canonicalFlags.filter (· ∈ flags ace.inheritance)).map
      inheritLetter ++ if isGroup ace.principal then ['g'] else [] := by
    have distinct : Function.Injective inheritLetter := by
      intro f g
      cases f <;> cases g <;> decide
    rw [wireFlags, letters_eq distinct]
  have permLetters : letters permLetter canonical (expand ace.permissions) =
      (canonical.filter (· ∈ expand ace.permissions)).map permLetter := by
    have distinct : Function.Injective permLetter := by
      intro p q
      cases p <;> cases q <;> decide
    exact letters_eq distinct ..
  have isType : typeLetter ace.type ≠ ':' ∧ parseType [typeLetter ace.type] = .ok ace.type := by
    rcases typed with type | type <;> rw [type] <;> decide
  obtain ⟨line, shape⟩ : ∃ line, line = typeLetter ace.type :: ':' :: (wireFlags ace ++ ':' ::
      (wirePrincipal ace.principal ++ ':' ::
        letters permLetter canonical (expand ace.permissions))) := ⟨_, rfl⟩
  have written : aceToString ace = .ok line := by
    rw [aceToString, accepted, shape]
    rfl
  obtain ⟨principal', parsed, same⟩ := parsePrincipal_wire line principal
  let read : ACE := ⟨ace.type, principal',
    (canonical.filter (· ∈ expand ace.permissions)).map .specific,
    (canonicalFlags.filter (· ∈ flags ace.inheritance)).map .flag⟩
  have flagColon : ':' ∉ wireFlags ace := by
    have letter (f : InheritFlag) : inheritLetter f ≠ ':' := by cases f <;> decide
    rw [flagLetters]
    split <;> simp [letter]
  have some : canonical.filter (· ∈ expand ace.permissions) ≠ [] := by
    obtain ⟨p, member⟩ := List.exists_mem_of_ne_nil _ (expand_ne_nil nonempty permissions)
    exact List.ne_nil_of_mem ((mem_letters_perms _ p).mpr member)
  have readBack : parseACE line = .ok read := by
    rw [parseACE_fields isType.1 flagColon (colon_not_mem_wire principal) _ shape, parseFields,
      isType.2, flagLetters, parseFlags_letters, permLetters, parsePerms_letters]
    simp only [bind, Except.bind, parsed]
    rw [if_neg some]
  constructor
  · rintro ⟨line', read', written', read'', same'⟩
    cases written.symm.trans written'
    cases readBack.symm.trans read''
    exact same.mp same'.principal
  · intro unambiguous
    refine ⟨line, read, written, readBack, rfl, same.mpr unambiguous, fun p => ?_, fun f => ?_⟩
    · simp only [read, List.mem_map, mem_letters_perms]
    · rw [← mem_flags known]
      simp only [read, List.mem_map, mem_letters_flags]

def aliceReads : ACE := ⟨.allow, "user:alice".toList, [.readOnly], [.flag .file]⟩

theorem alice_survives : validateACE aliceReads = .ok () ∧
    ∃ line read, aceToString aliceReads = .ok line ∧ parseACE line = .ok read ∧
      Same aliceReads read := by
  have accepted : validateACE aliceReads = .ok () := by decide
  have distinct : ¬Ambiguous aliceReads.principal := by
    change ¬Ambiguous (user ++ "alice".toList)
    rw [ambiguous_user]
    decide
  exact ⟨accepted, (codec_lossless_iff accepted).mpr distinct⟩

/-- What is granted to the users named like the special principals is granted to these. -/
theorem user_becomes_everyone :
    let ace : ACE := ⟨.allow, "user:EVERYONE@".toList, [.fullControl], []⟩
    validateACE ace = .ok () ∧
      ((aceToString ace).bind parseACE).map (·.principal) = .ok "EVERYONE@".toList ∧
      ((aceToString { ace with principal := "group:EVERYONE".toList }).bind parseACE).map
        (·.principal) = .ok "EVERYONE@".toList := by
  decide

end NovaNas.Zfs.Acl
