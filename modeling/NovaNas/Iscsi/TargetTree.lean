import NovaNas.Base.Ip
import NovaNas.Iscsi.Acls

/-!
# The tree of an iSCSI target

`targetcli` draws a target as a tree, one line for each node, and `parseTargetDetail` reads the lines
one after the other: it does not look at how far they are indented, only at the name of the node and
at the section that was opened last.
-/
namespace NovaNas.Iscsi

open Fallible (failIf failIf_ok bind_ok)
open Text (Solid cutWord cut toLower unlines itoa cut_append isSpace_of_mem_itoa)

structure Portal where
  ip : Name
  port : Int64
  transport : Name
  deriving DecidableEq, Repr

structure LUN where
  id : Int64
  zvol : Name := []
  backstore : Name := []
  deriving DecidableEq, Repr

structure TargetDetail where
  portals : List Portal := []
  luns : List LUN := []
  acls : List ACL := []
  deriving DecidableEq, Repr

/-! ### Checks -/

def backstoreChar (c : Char) : Bool := Text.alphanumeric c || c == '_' || c == '-' || c == '.'

def validateBackstoreName (name : Name) : Except Invalid Unit := do
  failIf (name = []) (.required "backstore name")
  validateNoDash "backstore name" name
  validateEach (fun c => if backstoreChar c then none else some (.forbidden "backstore name" c)) name

def validateNoWhitespace (field : String) (v : Name) : Except Invalid Unit :=
  validateEach (fun c => if " \t\n\r".toList.contains c then some (.whitespace field) else none) v

def validateDevPath (p : Name) : Except Invalid Unit := do
  failIf ("/dev/zvol/".toList.isPrefixOf p = false) .notZvol
  validateNoDash "dev path" p
  validateNoWhitespace "dev path" p
  validateEach (fun c =>
    if controlChar c then some (.control "dev path")
    else if shellCharacters.contains c then some (.forbidden "dev path" c)
    else none) p

def transports : List Name := ["", "tcp", "iser"].map String.toList

def validatePortal (p : Portal) : Except Invalid Unit := do
  failIf ((Ip.parseIP p.ip).isNone = true) (.ip p.ip)
  failIf (p.port < 1 ∨ p.port > 65535) (.port p.port)
  failIf (transports.contains p.transport = false) (.transport p.transport)

theorem validateEach_ok {check : Char → Option Invalid} {v : Name}
    (valid : validateEach check v = .ok ()) : ∀ c ∈ v, check c = none := by
  rw [validateEach] at valid
  split at valid
  · cases valid
  next none_ => exact List.findSome?_eq_none_iff.mp none_

/-! ### Reading a line -/

/-- The column of the marker, and the name of the node. -/
def parseTreeLine (line : Name) : Option (Nat × Name) := do
  let (front, rest) ← cutWord "o- ".toList line
  let name := Text.trimSpace (((cutWord " .".toList rest).map (·.1)).getD rest)
  if name = [] then none else some (Text.byteLength front, name)

/-- The backstore and the device in the brackets at the end of the line, as far as they are there. -/
def bracketed (line : Name) : Name × Name :=
  match (Text.cutLast '[' line).bind fun parts => cut ']' parts.2 with
  | none => ([], [])
  | some (info, _) =>
    if "block/".toList.isPrefixOf info then
      match cut ' ' (info.drop 6) with
      | some (c :: backstore, more) =>
        (c :: backstore, (((cut '(' more).bind fun parts => cut ')' parts.2).map (·.1)).getD [])
      | _ => (info.drop 6, [])
    else ([], [])

def parseLUNLine (name fullLine : Name) : Option LUN :=
  if "lun".toList.isPrefixOf name then
    (Text.atoi64 (name.drop 3)).map fun id =>
      { id, backstore := (bracketed fullLine).1, zvol := (bracketed fullLine).2 }
  else none

/-- The host and the port, empty if there is none. -/
def hostPort (name : Name) : Option (Name × Name) :=
  match name with
  | '[' :: rest =>
    (cut ']' rest).map fun parts =>
      (parts.1, if parts.2.head? = some ':' then parts.2.tail else [])
  | _ => some ((Text.cutLast ':' name).getD (name, []))

def parsePortalName (name : Name) : Option Portal := do
  let (host, port) ← hostPort name
  if host = [] ∨ port = [] then none
  else (Text.atoi64 port).map fun n => ⟨host, n, "tcp".toList⟩

/-! ### Reading the tree -/

inductive Section where
  | acls
  | luns
  | portals
  deriving DecidableEq, Repr

def sectionHeader (name : Name) : Option Section :=
  if toLower name = "acls".toList then some .acls
  else if toLower name = "luns".toList then some .luns
  else if toLower name = "portals".toList then some .portals
  else none

structure Reading where
  section_ : Option Section
  detail : TargetDetail
  deriving DecidableEq, Repr

def Reading.leaf (s : Reading) (name line : Name) : Reading :=
  match s.section_ with
  | some .acls =>
    if "iqn.".toList.isPrefixOf name then
      { s with detail.acls := s.detail.acls ++ [{ initiatorIQN := name }] }
    else s
  | some .luns =>
    match parseLUNLine name line with
    | some lun => { s with detail.luns := s.detail.luns ++ [lun] }
    | none => s
  | some .portals =>
    match parsePortalName name with
    | some p => { s with detail.portals := s.detail.portals ++ [p] }
    | none => s
  | none => s

def Reading.node (s : Reading) (name line : Name) : Reading :=
  match sectionHeader name with
  | some opened => { s with section_ := some opened }
  | none =>
    if "iqn.".toList.isPrefixOf name ∧ s.section_ = none then s
    else if "tpg".toList.isPrefixOf name then { s with section_ := none }
    else s.leaf name line

def Reading.line (s : Reading) (line : Name) : Reading :=
  match parseTreeLine line with
  | none => s
  | some (_, name) => s.node name line

def parseTargetDetail (data : Name) : TargetDetail :=
  ((Text.split '\n' data).foldl Reading.line ⟨none, {}⟩).detail

/-! ### The tree that is drawn -/

structure Node where
  /-- Blanks and the bars of the tree. -/
  bars : Name
  name : Name
  /-- One dot is always drawn. -/
  moreDots : Nat
  note : Name
  deriving DecidableEq, Repr

def Node.line (n : Node) : Name :=
  n.bars ++ ("o- ".toList ++ (n.name ++ (" .".toList ++
    (List.replicate n.moreDots '.' ++ ' ' :: '[' :: (n.note ++ [']'])))))

structure Node.Drawn (n : Node) : Prop where
  bars : ∀ c ∈ n.bars, c = ' ' ∨ c = '|'
  note : '\n' ∉ n.note

structure Tree where
  target : Node
  tpg : Node
  aclsHeader : Node
  /-- Each initiator with its mapped LUNs. -/
  acls : List (Node × List Node)
  lunsHeader : Node
  luns : List Node
  portalsHeader : Node
  portals : List Node
  deriving DecidableEq, Repr

def Tree.nodes (t : Tree) : List Node :=
  t.target :: t.tpg :: t.aclsHeader :: (t.acls.flatMap fun entry => entry.1 :: entry.2) ++
    t.lunsHeader :: t.luns ++ t.portalsHeader :: t.portals

def Tree.text (t : Tree) : Name := unlines (t.nodes.map Node.line)

def LUN.label (lun : LUN) : Name := "lun".toList ++ itoa lun.id

def LUN.note (lun : LUN) : Name :=
  "block/".toList ++ (lun.backstore ++ " (".toList ++ lun.zvol ++ [')'])

/-- An address with colons stands in brackets. -/
def Portal.label (p : Portal) : Name :=
  if p.ip.contains ':' then '[' :: (p.ip ++ "]:".toList ++ itoa p.port)
  else p.ip ++ ':' :: itoa p.port

structure Tree.Draws (t : Tree) (iqn : Name) (d : TargetDetail) : Prop where
  drawn : ∀ n ∈ t.nodes, n.Drawn
  target : t.target.name = iqn
  tpg : t.tpg.name = "tpg1".toList
  aclsHeader : t.aclsHeader.name = "acls".toList
  acls : List.Forall₂ (fun entry acl => entry.1.name = acl.initiatorIQN ∧
    ∀ n ∈ entry.2, ∃ i : Int64, n.name = "mapped_lun".toList ++ itoa i) t.acls d.acls
  lunsHeader : t.lunsHeader.name = "luns".toList
  luns : List.Forall₂ (fun n lun => n.name = lun.label ∧ n.note = lun.note) t.luns d.luns
  portalsHeader : t.portalsHeader.name = "portals".toList
  portals : List.Forall₂ (fun n p => n.name = p.label) t.portals d.portals

/-- What can be created; credentials are not part of the tree. -/
structure TargetDetail.Accepted (d : TargetDetail) : Prop where
  acls : ∀ acl ∈ d.acls, validateIQN acl.initiatorIQN = .ok () ∧ ¬acl.HasCHAP
  luns : ∀ lun ∈ d.luns, 0 ≤ lun.id ∧ validateBackstoreName lun.backstore = .ok () ∧
    validateDevPath lun.zvol = .ok ()
  portals : ∀ p ∈ d.portals, validatePortal p = .ok () ∧ p.transport = "tcp".toList

/-! ### Characters of the names -/

theorem iqn_valid {iqn : Name} (valid : validateIQN iqn = .ok ()) :
    "iqn.".toList.isPrefixOf iqn = true ∧ ∀ c ∈ iqn, iqnChar c = true := by
  obtain ⟨_, started, valid⟩ := bind_ok valid
  obtain ⟨_, -, valid⟩ := bind_ok valid
  refine ⟨by simpa using failIf_ok started, fun c member => ?_⟩
  simpa using validateEach_ok valid c member

theorem backstore_valid {name : Name} (valid : validateBackstoreName name = .ok ()) :
    name ≠ [] ∧ ∀ c ∈ name, backstoreChar c = true := by
  obtain ⟨_, given, valid⟩ := bind_ok valid
  obtain ⟨_, -, valid⟩ := bind_ok valid
  refine ⟨failIf_ok given, fun c member => ?_⟩
  simpa using validateEach_ok valid c member

theorem devPath_valid {p : Name} (valid : validateDevPath p = .ok ()) :
    ∀ c ∈ p, shellCharacters.contains c = false := by
  obtain ⟨_, -, valid⟩ := bind_ok valid
  obtain ⟨_, -, valid⟩ := bind_ok valid
  obtain ⟨_, -, valid⟩ := bind_ok valid
  intro c member
  have checked := validateEach_ok valid c member
  split at checked
  · cases checked
  · split at checked
    · cases checked
    next plain => simpa using plain

variable {c : Char}

/-- The characters of the names are neither blanks nor beyond ASCII. -/
theorem iqnChar_bounds (ok : iqnChar c = true) : 44 < c.toNat ∧ c.toNat < 123 := by
  simp only [iqnChar, Bool.or_eq_true, beq_iff_eq] at ok
  rcases ok with ((word | rfl) | rfl) | rfl
  · have bounds := Text.toNat_of_alphanumeric word
    omega
  all_goals decide

/-- A name with a character that is no letter opens no section. -/
theorem sectionHeader_none {name : Name} (member : c ∈ name) (mark : c.toNat < 65 ∨ c = '_') :
    sectionHeader name = none := by
  have kept : c ∈ toLower name := by
    refine List.mem_map.mpr ⟨c, member, ?_⟩
    rcases mark with low | rfl
    · have kelvin : c ≠ 'K' := by
        rintro rfl
        exact absurd low (by decide)
      have dotted : c ≠ 'İ' := by
        rintro rfl
        exact absurd low (by decide)
      have small : ¬(c.val ≥ 'A'.val ∧ c.val ≤ 'Z'.val) := fun capital =>
        absurd (UInt32.le_iff_toNat_le.mp capital.1) (Nat.not_le.mpr low)
      rw [if_neg kelvin, if_neg dotted]
      exact dif_neg small
    · rfl
  have other {word : Name} (letters : word.all (fun d => 96 < d.toNat) = true) :
      toLower name ≠ word := by
    intro same
    rw [same] at kept
    have high := List.all_eq_true.mp letters c kept
    rcases mark with low | rfl
    · simp at high
      omega
    · cases high
  rw [sectionHeader, if_neg (other (by decide)), if_neg (other (by decide)),
    if_neg (other (by decide))]

/-! ### Nodes -/

variable {n : Node}

theorem parseTreeLine_line (drawn : n.Drawn) (solid : Solid n.name) (named : n.name ≠ []) :
    parseTreeLine n.line = some (Text.byteLength n.bars, n.name) := by
  have marker : 'o' ∉ n.bars := fun member => by
    rcases drawn.bars _ member with same | same <;> cases same
  have blank : ' ' ∉ n.name := solid.not_mem (by decide)
  have front : cutWord "o- ".toList n.line = some (n.bars, _) :=
    Text.cutWord_append marker ['-', ' '] _
  have name : cutWord " .".toList (n.name ++ (" .".toList ++
      (List.replicate n.moreDots '.' ++ ' ' :: '[' :: (n.note ++ [']'])))) = some (n.name, _) :=
    Text.cutWord_append blank ['.'] _
  rw [parseTreeLine, front]
  simp only [Option.bind_eq_bind, Option.bind_some, name, Option.map_some, Option.getD_some,
    Text.trimSpace_eq_self solid, if_neg named]

/-- The rest of the tree is read from where the reading is. -/
def Reading.reads (s : Reading) (nodes : List Node) : Reading :=
  (Text.split '\n' (unlines (nodes.map Node.line))).foldl Reading.line s

theorem Reading.reads_node (drawn : n.Drawn) (solid : Solid n.name) (named : n.name ≠ [])
    (s : Reading) (rest : List Node) :
    s.reads (n :: rest) = (s.node n.name n.line).reads rest := by
  have single : '\n' ∉ n.line := by
    have bars : '\n' ∉ n.bars := fun member => by
      rcases drawn.bars _ member with same | same <;> cases same
    simp [Node.line, bars, solid.no_newline, drawn.note]
  have text : unlines ((n :: rest).map Node.line) =
      n.line ++ '\n' :: unlines (rest.map Node.line) := by simp [unlines]
  rw [Reading.reads, text, Text.split_append single, List.foldl_cons, Reading.line,
    parseTreeLine_line drawn solid named]
  rfl

/-- A node that is neither a section nor a group is an entry of the section. -/
theorem Reading.node_leaf {name : Name} (member : c ∈ name) (mark : c.toNat < 65 ∨ c = '_')
    (front : name.head? ≠ some 't') {s : Reading} (opened : s.section_ ≠ none) (line : Name) :
    s.node name line = s.leaf name line := by
  have group : "tpg".toList.isPrefixOf name = false := by
    cases name with
    | nil => rfl
    | cons d name =>
      have other : 't' ≠ d := fun same => front (congrArg some same.symm)
      simp [List.isPrefixOf, other]
  simp only [Reading.node, sectionHeader_none member mark, opened, group, and_false, if_false,
    Bool.false_eq_true]

open Reading (reads reads_node node_leaf)

/-! ### Initiators -/

section Initiators

variable {iqn : Name} (valid : validateIQN iqn = .ok ())
include valid

theorem iqn_solid : Solid iqn := fun c member => by
  have bounds := iqnChar_bounds ((iqn_valid valid).2 c member)
  exact Text.isSpace_of_graphic (by omega) (by omega)

theorem iqn_shape : ∃ rest, iqn = 'i' :: 'q' :: 'n' :: '.' :: rest := by
  obtain ⟨rest, rfl⟩ := List.isPrefixOf_iff_prefix.mp (iqn_valid valid).1
  exact ⟨rest, rfl⟩

theorem reads_target (drawn : n.Drawn) (named : n.name = iqn) (d : TargetDetail)
    (rest : List Node) : reads ⟨none, d⟩ (n :: rest) = reads ⟨none, d⟩ rest := by
  have start := (iqn_valid valid).1
  obtain ⟨back, shape⟩ := iqn_shape valid
  have dot : '.' ∈ iqn := by simp [shape]
  rw [reads_node drawn (named ▸ iqn_solid valid) (by simp [named, shape]), Reading.node, named,
    sectionHeader_none dot (by decide)]
  simp only [start, and_self, if_true]

theorem reads_acl (drawn : n.Drawn) (named : n.name = iqn) (d : TargetDetail) (rest : List Node) :
    reads ⟨some .acls, d⟩ (n :: rest) =
      reads ⟨some .acls, { d with acls := d.acls ++ [{ initiatorIQN := iqn }] }⟩ rest := by
  have start := (iqn_valid valid).1
  obtain ⟨back, shape⟩ := iqn_shape valid
  have dot : '.' ∈ iqn := by simp [shape]
  rw [reads_node drawn (named ▸ iqn_solid valid) (by simp [named, shape]), named,
    node_leaf dot (by decide) (by simp [shape]) (by simp), Reading.leaf]
  simp only [start, if_true]

end Initiators

theorem reads_mapped (drawn : n.Drawn) {i : Int64}
    (named : n.name = "mapped_lun".toList ++ itoa i) (d : TargetDetail) (rest : List Node) :
    reads ⟨some .acls, d⟩ (n :: rest) = reads ⟨some .acls, d⟩ rest := by
  have solid : Solid n.name := by
    rw [named]
    exact Solid.append (by decide) fun c => isSpace_of_mem_itoa
  have mark : '_' ∈ n.name := by simp [named]
  rw [reads_node drawn solid (by simp [named]),
    node_leaf mark (.inr rfl) (by simp [named]) (by simp), Reading.leaf, named]
  simp [List.isPrefixOf]

/-! ### LUNs -/

theorem bracketed_line {lun : LUN} (noted : n.note = lun.note)
    (backstore : validateBackstoreName lun.backstore = .ok ())
    (zvol : validateDevPath lun.zvol = .ok ()) :
    bracketed n.line = (lun.backstore, lun.zvol) := by
  obtain ⟨named, chars⟩ := backstore_valid backstore
  have other {c : Char} (bad : backstoreChar c = false) : c ∉ lun.backstore := fun member => by
    rw [chars c member] at bad
    cases bad
  have shell {c : Char} (bad : shellCharacters.contains c = true) : c ∉ lun.zvol := fun member => by
    rw [devPath_valid zvol c member] at bad
    cases bad
  have written : n.note =
      "block/".toList ++ (lun.backstore ++ " (".toList ++ lun.zvol ++ [')']) := noted
  have opening : '[' ∉ n.note ++ [']'] := by
    simp [written, other (c := '[') (by decide), shell (c := '[') (by decide)]
  have closing : ']' ∉ n.note := by
    simp [written, other (c := ']') (by decide), shell (c := ']') (by decide)]
  have whole : n.line = (n.bars ++ ("o- ".toList ++ (n.name ++ (" .".toList ++
      (List.replicate n.moreDots '.' ++ [' ']))))) ++ '[' :: (n.note ++ [']']) := by
    simp [Node.line]
  have info : ((Text.cutLast '[' n.line).bind fun parts => cut ']' parts.2) =
      some (n.note, []) := by
    rw [whole, Text.cutLast_append opening, Option.bind_some, cut_append closing]
  have name : cut ' ' (n.note.drop 6) = some (lun.backstore, '(' :: (lun.zvol ++ [')'])) := by
    have rest : n.note.drop 6 = lun.backstore ++ ' ' :: '(' :: (lun.zvol ++ [')']) := by
      simp [written]
    rw [rest, cut_append (other (by decide))]
  have device : ((cut '(' ('(' :: (lun.zvol ++ [')']))).bind fun parts =>
      cut ')' parts.2) = some (lun.zvol, []) := by
    have start : cut '(' ([] ++ '(' :: (lun.zvol ++ [')'])) = some ([], lun.zvol ++ [')']) :=
      cut_append List.not_mem_nil _
    rw [List.nil_append] at start
    rw [start, Option.bind_some, cut_append (shell (by decide))]
  have block : "block/".toList.isPrefixOf n.note = true := by
    rw [List.isPrefixOf_iff_prefix, noted]
    exact List.prefix_append _ _
  cases shape : lun.backstore with
  | nil => exact absurd shape named
  | cons c rest =>
    rw [bracketed, info]
    simp only [block, if_true, name, shape, device, Option.map_some, Option.getD_some]

theorem reads_lun (drawn : n.Drawn) {lun : LUN} (named : n.name = lun.label)
    (noted : n.note = lun.note) (backstore : validateBackstoreName lun.backstore = .ok ())
    (zvol : validateDevPath lun.zvol = .ok ()) (d : TargetDetail) (rest : List Node) :
    reads ⟨some .luns, d⟩ (n :: rest) =
      reads ⟨some .luns, { d with luns := d.luns ++ [lun] }⟩ rest := by
  have solid : Solid n.name := by
    rw [named]
    exact Solid.append (by decide) fun c => isSpace_of_mem_itoa
  obtain ⟨c, member⟩ := List.exists_mem_of_ne_nil _ (Text.itoa_ne_nil lun.id)
  have low := Text.toNat_of_mem_itoa member
  have mark : c ∈ n.name := by simp [named, LUN.label, member]
  have read : parseLUNLine n.name n.line = some lun := by
    have start : "lun".toList.isPrefixOf n.name = true := by
      rw [List.isPrefixOf_iff_prefix, named]
      exact List.prefix_append _ _
    have number : n.name.drop 3 = itoa lun.id := by simp [named, LUN.label]
    rw [parseLUNLine, start, number, Text.atoi64_itoa, bracketed_line noted backstore zvol]
    rfl
  rw [reads_node drawn solid (by simp [named, LUN.label]),
    node_leaf mark (.inl (low.trans (by decide))) (by simp [named, LUN.label]) (by simp),
    Reading.leaf]
  simp only [read]

/-! ### Portals -/

theorem portal_valid {p : Portal} (valid : validatePortal p = .ok ()) :
    p.ip ≠ [] ∧ ∀ c ∈ p.ip, Ip.isMark c = true := by
  obtain ⟨_, read, -⟩ := bind_ok valid
  obtain ⟨ip, parsed⟩ := Option.ne_none_iff_exists'.mp (by simpa using failIf_ok read)
  refine ⟨fun none_ => ?_, Ip.parseIP_marks parsed⟩
  rw [none_] at parsed
  cases parsed

section Portals

variable {p : Portal} (valid : validatePortal p = .ok ())
include valid

theorem not_mem_ip (bad : Ip.isMark c = false) : c ∉ p.ip := fun member => by
  rw [(portal_valid valid).2 c member] at bad
  cases bad

theorem head_ip (bad : Ip.isMark c = false) (rest : Name) :
    (p.ip ++ ':' :: rest).head? ≠ some c := by
  cases shape : p.ip with
  | nil => exact absurd shape (portal_valid valid).1
  | cons d ip =>
    rw [List.cons_append, List.head?_cons]
    intro same
    refine not_mem_ip valid bad ?_
    rw [shape, Option.some.inj same]
    exact List.mem_cons_self

theorem hostPort_label : hostPort p.label = some (p.ip, itoa p.port) := by
  have colon : ':' ∉ itoa p.port := fun member =>
    Nat.lt_irrefl _ (Text.toNat_of_mem_itoa member)
  rw [Portal.label]
  split
  · have whole : p.ip ++ "]:".toList ++ itoa p.port = p.ip ++ ']' :: ':' :: itoa p.port := by
      simp
    rw [hostPort, whole, cut_append (not_mem_ip valid (by decide))]
    simp
  · -- An address without colons does not start with a bracket.
    have first := head_ip valid (c := '[') (by decide) (itoa p.port)
    unfold hostPort
    split
    next rest same => exact absurd (congrArg List.head? same) first
    next => rw [Text.cutLast_append colon, Option.getD_some]

theorem label_solid : Solid p.label := by
  have ip : Solid p.ip := fun c member => Ip.isSpace_of_isMark ((portal_valid valid).2 c member)
  have port : Solid (itoa p.port) := fun c => isSpace_of_mem_itoa
  have colon : Solid [':'] := by decide
  rw [Portal.label]
  split
  · exact List.forall_mem_cons.mpr ⟨by decide, (ip.append (by decide)).append port⟩
  · exact ip.append (colon.append port)

theorem reads_portal (tcp : p.transport = "tcp".toList) (drawn : n.Drawn) (named : n.name = p.label)
    (d : TargetDetail) (rest : List Node) :
    reads ⟨some .portals, d⟩ (n :: rest) =
      reads ⟨some .portals, { d with portals := d.portals ++ [p] }⟩ rest := by
  have mark : ':' ∈ p.label := by
    rw [Portal.label]
    split <;> simp
  have front : p.label.head? ≠ some 't' := by
    rw [Portal.label]
    split
    · simp
    · exact head_ip valid (by decide) _
  have read : parsePortalName p.label = some p := by
    have whole : p = ⟨p.ip, p.port, "tcp".toList⟩ := by rw [← tcp]
    rw [parsePortalName, hostPort_label valid]
    simp only [Option.bind_eq_bind, Option.bind_some, (portal_valid valid).1, Text.itoa_ne_nil,
      or_self, if_false, Text.atoi64_itoa, Option.map_some]
    exact congrArg some whole.symm
  rw [reads_node drawn (named ▸ label_solid valid) (named ▸ List.ne_nil_of_mem mark), named,
    node_leaf mark (.inl (by decide)) front (by simp), Reading.leaf]
  simp only [read]

end Portals

/-! ### The whole tree -/

/-- The entries of a section are read one after the other. -/
theorem reads_entries {α β : Type} (nodes : β → List Node) (put : List α → Reading)
    {draws : β → α → Prop} {drawings : List β} {entries : List α}
    (all : List.Forall₂ draws drawings entries)
    (one : ∀ b ∈ drawings, ∀ a ∈ entries, draws b a → ∀ before rest,
      (put before).reads (nodes b ++ rest) = (put (before ++ [a])).reads rest)
    (before : List α) (rest : List Node) :
    (put before).reads (drawings.flatMap nodes ++ rest) = (put (before ++ entries)).reads rest := by
  induction all generalizing before with
  | nil => simp
  | cons drawn _ ih =>
    rw [List.flatMap_cons, List.append_assoc, one _ (.head _) _ (.head _) drawn,
      ih fun b later a listed => one b (.tail _ later) a (.tail _ listed), List.append_assoc,
      List.singleton_append]

theorem reads_header (drawn : n.Drawn) {opened : Section} {word : String}
    (named : n.name = word.toList) (solid : Solid word.toList)
    (header : sectionHeader word.toList = some opened) (s : Reading) (rest : List Node) :
    s.reads (n :: rest) = reads ⟨some opened, s.detail⟩ rest := by
  have given : n.name ≠ [] := by
    rintro none_
    rw [← named, none_] at header
    cases header
  rw [reads_node drawn (named ▸ solid) given, Reading.node, named, header]

theorem reads_tpg (drawn : n.Drawn) (named : n.name = "tpg1".toList) (s : Reading)
    (rest : List Node) : s.reads (n :: rest) = reads ⟨none, s.detail⟩ rest := by
  have solid : Solid n.name := by
    rw [named]
    decide
  have header : sectionHeader "tpg1".toList = none := by decide
  rw [reads_node drawn solid (by simp [named]), Reading.node, named, header]
  simp [List.isPrefixOf]

theorem reads_allMapped {nodes : List Node} (d : TargetDetail) (rest : List Node)
    (mapped : ∀ n ∈ nodes, n.Drawn ∧ ∃ i : Int64, n.name = "mapped_lun".toList ++ itoa i) :
    reads ⟨some .acls, d⟩ (nodes ++ rest) = reads ⟨some .acls, d⟩ rest := by
  induction nodes with
  | nil => rfl
  | cons n nodes ih =>
    obtain ⟨⟨drawn, i, named⟩, mapped⟩ := List.forall_mem_cons.mp mapped
    rw [List.cons_append, reads_mapped drawn named, ih mapped]

section Sections

variable {d : TargetDetail} (accepted : d.Accepted)
include accepted

theorem reads_acls {entries : List (Node × List Node)}
    (drawn : ∀ n ∈ entries.flatMap fun entry => entry.1 :: entry.2, n.Drawn)
    (draws : List.Forall₂ (fun entry acl => entry.1.name = acl.initiatorIQN ∧
      ∀ n ∈ entry.2, ∃ i : Int64, n.name = "mapped_lun".toList ++ itoa i) entries d.acls)
    (rest : List Node) :
    reads ⟨some .acls, {}⟩ ((entries.flatMap fun entry => entry.1 :: entry.2) ++ rest) =
      reads ⟨some .acls, { acls := d.acls }⟩ rest := by
  refine reads_entries _ (fun before => ⟨some .acls, { acls := before }⟩) draws
    (fun entry listed acl given ⟨named, mapped⟩ before rest => ?_) [] rest
  obtain ⟨valid, open_⟩ := accepted.acls acl given
  obtain ⟨user, secret⟩ := not_or.mp open_
  have own : ∀ n ∈ entry.1 :: entry.2, n.Drawn := fun n within =>
    drawn n (List.mem_flatMap.mpr ⟨entry, listed, within⟩)
  have whole : acl = { initiatorIQN := acl.initiatorIQN } := by
    conv_lhs => rw [show acl = ⟨acl.initiatorIQN, acl.chapUser, acl.chapSecret⟩ from rfl,
      not_not.mp user, not_not.mp secret]
  rw [List.cons_append, reads_acl valid (own _ (.head _)) named,
    reads_allMapped _ _ fun n within => ⟨own n (.tail _ within), mapped n within⟩, ← whole]

theorem reads_luns {nodes : List Node} (drawn : ∀ n ∈ nodes, n.Drawn)
    (draws : List.Forall₂ (fun n lun => n.name = lun.label ∧ n.note = lun.note) nodes d.luns)
    (rest : List Node) :
    reads ⟨some .luns, { acls := d.acls }⟩ (nodes ++ rest) =
      reads ⟨some .luns, { acls := d.acls, luns := d.luns }⟩ rest := by
  have read := reads_entries (fun n => [n])
    (fun before => ⟨some .luns, { acls := d.acls, luns := before }⟩) draws
    (fun n listed lun given ⟨named, noted⟩ before rest =>
      reads_lun (drawn n listed) named noted (accepted.luns lun given).2.1
        (accepted.luns lun given).2.2 _ rest) [] rest
  rwa [List.flatMap_singleton'] at read

theorem reads_portals {nodes : List Node} (drawn : ∀ n ∈ nodes, n.Drawn)
    (draws : List.Forall₂ (fun n p => n.name = p.label) nodes d.portals) :
    reads ⟨some .portals, { acls := d.acls, luns := d.luns }⟩ nodes = ⟨some .portals, d⟩ := by
  have read := reads_entries (fun n => [n])
    (fun before => ⟨some .portals, { acls := d.acls, luns := d.luns, portals := before }⟩) draws
    (fun n listed p given named before rest =>
      reads_portal (accepted.portals p given).1 (accepted.portals p given).2 (drawn n listed) named
        _ rest) [] []
  rw [List.flatMap_singleton', List.append_nil] at read
  exact read

end Sections

/-- The tree of a target is read as the portals, LUNs and initiators that it was drawn for. -/
theorem target_read_back {t : Tree} {iqn : Name} {d : TargetDetail}
    (valid : validateIQN iqn = .ok ()) (accepted : d.Accepted) (draws : t.Draws iqn d) :
    parseTargetDetail t.text = d := by
  have drawn := draws.drawn
  simp only [Tree.nodes, List.cons_append, List.forall_mem_append, List.forall_mem_cons] at drawn
  obtain ⟨target, tpg, aclsHeader, ⟨acls, lunsHeader, luns⟩, portalsHeader, portals⟩ := drawn
  have aclsWord : sectionHeader "acls".toList = some .acls := by decide
  have lunsWord : sectionHeader "luns".toList = some .luns := by decide
  have portalsWord : sectionHeader "portals".toList = some .portals := by decide
  have read : reads ⟨none, {}⟩ t.nodes = ⟨some .portals, d⟩ := by
    rw [Tree.nodes]
    simp only [List.cons_append, List.append_assoc]
    rw [reads_target valid target draws.target, reads_tpg tpg draws.tpg,
      reads_header aclsHeader draws.aclsHeader (by decide) aclsWord,
      reads_acls accepted acls draws.acls,
      reads_header lunsHeader draws.lunsHeader (by decide) lunsWord,
      reads_luns accepted luns draws.luns,
      reads_header portalsHeader draws.portalsHeader (by decide) portalsWord,
      reads_portals accepted portals draws.portals]
  exact congrArg Reading.detail read

def foo : Name := "iqn.2020-01.io.example:foo".toList

def fooDetail : TargetDetail where
  portals := [⟨"10.0.0.1".toList, 3260, "tcp".toList⟩, ⟨"fd00::1".toList, 3260, "tcp".toList⟩]
  luns := [⟨0, "/dev/zvol/tank/vol1".toList, "zvol1".toList⟩]
  acls := [{ initiatorIQN := "iqn.2020-01.io.client:bar".toList }]

def fooTree : Tree where
  target := ⟨[], foo, 16, "TPGs: 1".toList⟩
  tpg := ⟨"  ".toList, "tpg1".toList, 40, "no-gen-acls, no-auth".toList⟩
  aclsHeader := ⟨"    ".toList, "acls".toList, 36, "ACLs: 1".toList⟩
  acls := [(⟨"    | ".toList, "iqn.2020-01.io.client:bar".toList, 11, "Mapped LUNs: 1".toList⟩,
    [⟨"    |   ".toList, "mapped_lun0".toList, 13, "lun0 block/zvol1 (rw)".toList⟩])]
  lunsHeader := ⟨"    ".toList, "luns".toList, 36, "LUNs: 1".toList⟩
  luns := [⟨"    | ".toList, "lun0".toList, 14, "block/zvol1 (/dev/zvol/tank/vol1)".toList⟩]
  portalsHeader := ⟨"    ".toList, "portals".toList, 33, "Portals: 2".toList⟩
  portals := [⟨"      ".toList, "10.0.0.1:3260".toList, 26, "OK".toList⟩,
    ⟨"      ".toList, "[fd00::1]:3260".toList, 25, "OK".toList⟩]

theorem fooTree_read_back : parseTargetDetail fooTree.text = fooDetail := by
  have valid : validateIQN foo = .ok () := by decide +kernel
  have accepted : fooDetail.Accepted := by
    constructor
    all_goals
      simp only [fooDetail, List.forall_mem_cons, List.not_mem_nil, false_imp_iff, implies_true]
      decide +kernel
  have plain : (fooTree.nodes.all fun n =>
      n.bars.all (fun c => c = ' ' || c = '|') && !n.note.contains '\n') = true := by decide +kernel
  have draws : fooTree.Draws foo fooDetail := by
    refine ⟨fun n member => ?_, rfl, rfl, rfl, ?_, rfl, ?_, rfl, ?_⟩
    · have own := List.all_eq_true.mp plain n member
      simp only [Bool.and_eq_true, List.all_eq_true, Bool.or_eq_true, decide_eq_true_eq] at own
      exact ⟨own.1, by simpa using own.2⟩
    · refine .cons ⟨rfl, fun n member => ⟨0, ?_⟩⟩ .nil
      rw [List.mem_singleton.mp member]
      decide +kernel
    · exact .cons (by decide +kernel) .nil
    · exact .cons (by decide +kernel) (.cons (by decide +kernel) .nil)
  exact target_read_back valid accepted draws

end NovaNas.Iscsi
