import NovaNas.Shares.Checks

/-!
# Samba shares

A share is written as a section with one setting a line and read back line by line. Comments, paths
and entries of the veto list may hold almost any character, but none that ends a line, and the key
of a line ends at its first equals sign. So what is written is read back, up to white space around
the values and blank entries of the veto list.
-/
namespace NovaNas.Shares.Samba

open Fallible (failIf bind_ok)
open Text (Solid byteLength join blanks toLower trimSpace fields isSpace trimSpace_of_ends)

structure Share where
  name : Name := []
  path : Name := []
  comment : Name := []
  browseable : Bool := false
  writable : Bool := false
  guestOK : Bool := false
  readOnly : Bool := false
  validUsers : List Name := []
  writeList : List Name := []
  adminUsers : List Name := []
  createMask : Name := []
  directoryMask : Name := []
  veto : List Name := []
  deriving DecidableEq, Repr

/-! ### Checks -/

def forbidden : List Char := " \t;|&$`\\\"'<>*?\n\r[]".toList

def validateUsername (u : Name) : Check := do
  failIf (u = []) (.required "username")
  failIf (32 < byteLength u) (.tooLong "username" u)
  failIf (!u.head?.any fun c => (isAlnum c && !('0' ≤ c && c ≤ '9')) || c = '_') (.start u)
  allOf (fun c => isAlnum c || c = '_' || c = '-' || c = '.') "username" u

def isOctal (c : Char) : Bool := '0' ≤ c && c ≤ '7'

def validateMask (what : String) (m : Name) : Check := do
  if m = [] then .ok ()
  else do
    failIf (byteLength m ≠ 3 ∧ byteLength m ≠ 4) (.digits what m)
    allOf isOctal what m

def validateVetoEntry (e : Name) : Check := do
  failIf (e = []) (.required "veto entry")
  allOf (fun c => !("/\x00\n\r".toList.contains c)) "veto entry" e

def validateComment (c : Name) : Check := do
  failIf (256 < byteLength c) (.tooLong "comment" c)
  allOf (fun c => !("\n\r\x00".toList.contains c)) "comment" c

def validateShare (s : Share) : Check := do
  validateName "share name" s.name
  validatePath "share path" forbidden s.path
  validateComment s.comment
  validateMask "create mask" s.createMask
  validateMask "directory mask" s.directoryMask
  checkEach validateUsername "validUsers" 0 s.validUsers
  checkEach validateUsername "writeList" 0 s.writeList
  checkEach validateUsername "adminUsers" 0 s.adminUsers
  checkEach validateVetoEntry "veto" 0 s.veto

/-! ### Writing -/

def yesno (b : Bool) : Name := if b then "yes".toList else "no".toList

/-- `strings.Join` with a comma and a blank. -/
def joinUsers : List Name → Name
  | [] => []
  | [u] => u
  | u :: next :: rest => u ++ ',' :: ' ' :: joinUsers (next :: rest)

/-- A setting that is only written if it is not empty. -/
def unlessEmpty {α : Type} (values : List α) (key : String) (value : Name) : List (Name × Name) :=
  match values with
  | [] => []
  | _ :: _ => [(key.toList, value)]

def settings (s : Share) : List (Name × Name) :=
  [("path".toList, s.path)] ++ unlessEmpty s.comment "comment" s.comment ++
    [("browseable".toList, yesno s.browseable), ("writable".toList, yesno s.writable),
      ("guest ok".toList, yesno s.guestOK), ("read only".toList, yesno s.readOnly)] ++
    unlessEmpty s.validUsers "valid users" (joinUsers s.validUsers) ++
    unlessEmpty s.writeList "write list" (joinUsers s.writeList) ++
    unlessEmpty s.adminUsers "admin users" (joinUsers s.adminUsers) ++
    unlessEmpty s.createMask "create mask" s.createMask ++
    unlessEmpty s.directoryMask "directory mask" s.directoryMask ++
    unlessEmpty s.veto "veto files" ('/' :: (join '/' s.veto ++ ['/']))

def settingLine (setting : Name × Name) : Name :=
  blanks 3 ++ (setting.1 ++ " = ".toList ++ setting.2)

def shareLines (s : Share) : List Name :=
  ('[' :: (s.name ++ [']'])) :: (settings s).map settingLine

def renderShareConf (s : Share) : Name := Text.unlines (shareLines s)

/-! ### Reading -/

def parseBool (s : Name) : Bool :=
  (["yes", "true", "1", "on"].map String.toList).contains (toLower (trimSpace s))

def parseUserList (s : Name) : List Name := fields (s.map fun c => if c = ',' then ' ' else c)

def parseVetoList (s : Name) : List Name :=
  ((Text.split '/' s).map trimSpace).filter (· ≠ [])

def Share.set (s : Share) (key value : Name) : Share :=
  if key = "path".toList then { s with path := value }
  else if key = "comment".toList then { s with comment := value }
  else if key = "browseable".toList ∨ key = "browsable".toList then
    { s with browseable := parseBool value }
  else if key = "writable".toList ∨ key = "writeable".toList then
    { s with writable := parseBool value }
  else if key = "guest ok".toList then { s with guestOK := parseBool value }
  else if key = "read only".toList then { s with readOnly := parseBool value }
  else if key = "valid users".toList then { s with validUsers := parseUserList value }
  else if key = "write list".toList then { s with writeList := parseUserList value }
  else if key = "admin users".toList then { s with adminUsers := parseUserList value }
  else if key = "create mask".toList then { s with createMask := value }
  else if key = "directory mask".toList then { s with directoryMask := value }
  else if key = "veto files".toList then { s with veto := parseVetoList value }
  else s

inductive ParseError where
  | beforeHeader (line : Name)
  | noHeader
  | tooLong
  deriving DecidableEq, Repr

def parseLines (tooLong : Bool) (s : Share) (headerSeen : Bool) :
    List Name → Except ParseError Share
  | [] => if tooLong then .error .tooLong else if headerSeen then .ok s else .error .noHeader
  | raw :: rest =>
    let line := trimSpace raw
    if line = [] ∨ line.head? = some '#' ∨ line.head? = some ';' then
      parseLines tooLong s headerSeen rest
    else if line.head? = some '[' ∧ line.getLast? = some ']' then
      -- A second section ends the reading.
      if headerSeen then .ok s
      else parseLines tooLong { s with name := trimSpace (line.drop 1).dropLast } true rest
    else if headerSeen then
      match Text.cut '=' line with
      | none => parseLines tooLong s true rest
      | some (key, value) =>
        parseLines tooLong (s.set (trimSpace (toLower key)) (trimSpace value)) true
          rest
    else .error (.beforeHeader line)

def parseShareConf (data : Name) : Except ParseError Share :=
  let (lines, tooLong) := Text.scanned 1048576 data
  parseLines tooLong {} false lines

/-! ### The manager -/

inductive ShareError where
  | invalid (err : CheckError)
  | exists (name : Name)
  | notFound
  | read (name : Name)
  | write (name : Name)
  | testparm
  | reload
  | parse (err : ParseError)
  deriving DecidableEq, Repr

/-- What the host does at each step; `undo` is the write or removal after a failed `testparm`. -/
structure Steps where
  readFails : Bool := false
  write : Write := .done
  testparmFails : Bool := false
  undo : Write := .done
  reloadFails : Bool := false

/-- What an operation returns, and the file after it. -/
abbrev Result := Except ShareError Unit × Option Name

inductive Stage where
  | write
  | testparm
  | reload

def Stage.shareError (name : Name) : Stage → ShareError
  | .write => .write name
  | .testparm => .testparm
  | .reload => .reload

/-- The new text is written, checked and loaded; if it does not pass, what was there before is put
back. -/
def Steps.commit (steps : Steps) (text : Name) (before : Option Name) :
    Except Stage Unit × Option Name :=
  match steps.write with
  | .failed left => (.error .write, left)
  | .done =>
    if steps.testparmFails then
      match steps.undo with
      | .failed left => (.error .testparm, left)
      | .done => (.error .testparm, before)
    else (if steps.reloadFails then .error .reload else .ok (), some text)

def Steps.store (steps : Steps) (s : Share) (before : Option Name) : Result :=
  let (result, after) := steps.commit (renderShareConf s) before
  (result.mapError (Stage.shareError s.name), after)

def createShare (steps : Steps) (s : Share) (file : Option Name) : Result :=
  onFile .invalid (validateShare s)
    [(steps.readFails, .read s.name), (file.isSome, .exists s.name)] (steps.store s none) file

def updateShare (steps : Steps) (s : Share) (file : Option Name) : Result :=
  onFile .invalid (validateShare s)
    [(steps.readFails, .read s.name), (file.isNone, .notFound)] (steps.store s file) file

section Accepted

variable {steps : Steps} {s : Share} {file after : Option Name}

theorem store_ok (made : steps.store s file = (.ok (), after)) :
    after = some (renderShareConf s) := by
  obtain ⟨ok, rfl⟩ := Prod.mk.inj made
  have done := Fallible.mapError_ok ok
  split at done
  · cases done
  · split at done
    · split at done <;> cases done
    next passed => simp [passed]

theorem createShare_ok (made : createShare steps s file = (.ok (), after)) :
    validateShare s = .ok () ∧ after = some (renderShareConf s) :=
  (onFile_ok made).imp_right store_ok

theorem updateShare_ok (made : updateShare steps s file = (.ok (), after)) :
    validateShare s = .ok () ∧ after = some (renderShareConf s) :=
  (onFile_ok made).imp_right store_ok

end Accepted

def getShare (readFails : Bool) (name : Name) (file : Option Name) : Except ShareError Share := do
  (validateName "share name" name).mapError .invalid
  if readFails then .error (.read name)
  else
    match file with
    | none => .error .notFound
    | some data => do
      let s ← (parseShareConf data).mapError .parse
      .ok { s with name := name }

/-! ### Settings are read back -/

/-- The key of a setting is read as it is written. -/
def KeyFine (key : Name) : Prop :=
  key.head?.any (fun c => !isSpace c && c ≠ '#' && c ≠ ';' && c ≠ '[') = true ∧ '=' ∉ key ∧
    trimSpace (toLower (key ++ [' '])) = key

theorem parse_setting {key : Name} (fine : KeyFine key) (value : Name) (tooLong : Bool) (s : Share)
    (rest : List Name) : parseLines tooLong s true (settingLine (key, value) :: rest) =
      parseLines tooLong (s.set key (trimSpace value)) true rest := by
  obtain ⟨first, plain, read⟩ := fine
  rcases key with _ | ⟨c, more⟩
  · cases first
  simp only [List.head?_cons, Option.any_some, Bool.and_eq_true, Bool.not_eq_true',
    decide_eq_true_eq] at first
  obtain ⟨⟨⟨solid, hash⟩, semicolon⟩, bracket⟩ := first
  let shown := (' ' :: value).rdropWhile isSpace
  have trimmed : trimSpace (settingLine (c :: more, value)) =
      (c :: more ++ [' ']) ++ '=' :: shown := by
    have blank : ∀ d ∈ blanks 3, isSpace d = true := by
      simp [blanks, isSpace]
    have line : c :: more ++ " = ".toList ++ value =
        (c :: more ++ [' ']) ++ '=' :: (' ' :: value) := by simp
    have kept : ((c :: more ++ [' ']) ++ '=' :: (' ' :: value)).dropWhile isSpace =
        (c :: more ++ [' ']) ++ '=' :: (' ' :: value) := by simp [solid]
    rw [settingLine, Text.trimSpace_eq, List.dropWhile_append_of_pos blank, line, kept,
      Text.rdropWhile_append_solid (by decide)]
  have absent : '=' ∉ c :: more ++ [' '] := by simpa using plain
  have value' : trimSpace shown = trimSpace value := by
    have whole := List.rdropWhile_append_rtakeWhile (p := isSpace) (l := ' ' :: value)
    rw [← Text.trimSpace_append (fun d member => List.mem_rtakeWhile_imp member) shown, whole]
    rfl
  rw [parseLines, trimmed]
  simp only [Text.cut_append absent, read, value']
  rw [if_neg (by simp [hash, semicolon]), if_neg (by simp [bracket])]
  rfl

theorem parse_settings {list : List (Name × Name)} (fine : ∀ setting ∈ list, KeyFine setting.1)
    (s : Share) : parseLines false s true (list.map settingLine ++ [[]]) =
      .ok (list.foldl (fun s setting => s.set setting.1 (trimSpace setting.2)) s) := by
  induction list generalizing s with
  | nil => rfl
  | cons setting list ih =>
    obtain ⟨first, later⟩ := List.forall_mem_cons.mp fine
    rw [List.map_cons, List.cons_append, parse_setting first, ih later]
    rfl

/-! ### Lists -/

theorem username_ok {u : Name} (ok : validateUsername u = .ok ()) :
    u ≠ [] ∧ Solid u ∧ ',' ∉ u := by
  obtain ⟨⟨⟩, nonempty, ok⟩ := bind_ok ok
  obtain ⟨⟨⟩, -, ok⟩ := bind_ok ok
  obtain ⟨⟨⟩, -, ok⟩ := bind_ok ok
  have all := allOf_ok ok
  simp only [Bool.or_eq_true, decide_eq_true_eq] at all
  refine ⟨Fallible.failIf_ok nonempty, fun c member => ?_, fun comma => ?_⟩
  · rcases all c member with ((alnum | rfl) | rfl) | rfl
    · exact (isAlnum_solid alnum).1
    all_goals decide
  · have := all ',' comma
    revert this
    decide

section Users

variable {users : List Name} (ok : ∀ u ∈ users, validateUsername u = .ok ())
include ok

theorem users_ends : ∀ c, c ∈ (joinUsers users).head? ∨ c ∈ (joinUsers users).getLast? →
    isSpace c = false := by
  induction users with
  | nil => simp [joinUsers]
  | cons u rest ih =>
    obtain ⟨first, later⟩ := List.forall_mem_cons.mp ok
    obtain ⟨nonempty, solid, -⟩ := username_ok first
    intro c ends
    cases rest with
    | nil =>
      rcases ends with head | last
      · exact solid c (List.mem_of_mem_head? head)
      · exact solid c (List.mem_of_mem_getLast? last)
    | cons next rest =>
      have some : joinUsers (next :: rest) ≠ [] := by
        have := (username_ok (List.forall_mem_cons.mp later).1).1
        cases rest <;> simp [joinUsers, this]
      rcases ends with head | last
      · rw [joinUsers, List.head?_append_of_ne_nil _ nonempty] at head
        exact solid c (List.mem_of_mem_head? head)
      · refine ih later c (.inr ?_)
        have shape : joinUsers (u :: next :: rest) =
            (u ++ [',', ' ']) ++ joinUsers (next :: rest) := by simp [joinUsers]
        rwa [shape, List.getLast?_append_of_ne_nil _ some] at last

theorem parseUserList_join : parseUserList (trimSpace (joinUsers users)) = users := by
  have ends := users_ends ok
  rw [trimSpace_of_ends (fun c head => ends c (.inl head)) fun c last => ends c (.inr last)]
  clear ends
  have name {u : Name} (ok : validateUsername u = .ok ()) :
      u.map (fun c => if c = ',' then ' ' else c) = u := by
    obtain ⟨-, -, absent⟩ := username_ok ok
    conv_rhs => rw [← List.map_id u]
    refine List.map_congr_left fun c member => if_neg ?_
    rintro rfl
    exact absent member
  induction users with
  | nil => rfl
  | cons u rest ih =>
    obtain ⟨first, later⟩ := List.forall_mem_cons.mp ok
    obtain ⟨nonempty, solid, -⟩ := username_ok first
    cases rest with
    | nil =>
      have word : fields (u ++ []) = u :: fields [] :=
        Text.fields_word solid nonempty (by simp)
      rw [List.append_nil] at word
      rw [parseUserList, joinUsers, name first, word]
      rfl
    | cons next rest =>
      have blank : isSpace ' ' = true := by decide
      rw [parseUserList, joinUsers, List.map_append, name first,
        Text.fields_word solid nonempty (by simp [blank]), List.map_cons, List.map_cons,
        if_pos rfl, if_neg (by decide), Text.fields_space blank, Text.fields_space blank]
      exact congrArg (u :: ·) (ih later)

end Users

theorem veto_plain {e : Name} (ok : validateVetoEntry e = .ok ()) : '/' ∉ e ∧ '\n' ∉ e := by
  obtain ⟨⟨⟩, -, ok⟩ := bind_ok ok
  have all := allOf_ok ok
  constructor <;>
  · intro member
    have := all _ member
    revert this
    decide

theorem parseVetoList_join {veto : List Name} (nonempty : veto ≠ [])
    (ok : ∀ e ∈ veto, validateVetoEntry e = .ok ()) :
    parseVetoList (trimSpace ('/' :: (join '/' veto ++ ['/']))) =
      (veto.map trimSpace).filter (· ≠ []) := by
  have kept : trimSpace ('/' :: (join '/' veto ++ ['/'])) =
      '/' :: (join '/' veto ++ ['/']) := by
    refine trimSpace_of_ends (by simp [isSpace]) ?_
    rw [← List.cons_append, List.getLast?_concat]
    simp [isSpace]
  have words : Text.split '/' ('/' :: (join '/' veto ++ ['/'])) = [] :: (veto ++ [[]]) := by
    have first : Text.split '/' ([] ++ '/' :: (join '/' veto ++ ['/'])) = _ :=
      Text.split_append (by simp) _
    rw [List.nil_append] at first
    rw [first, Text.split_append_sep, Text.split_join nonempty fun e member =>
      (veto_plain (ok e member)).1]
    rfl
  rw [kept, parseVetoList, words]
  simp [trimSpace]

/-! ### Shares are read back -/

/-- The share without white space around its texts and without blank entries of the veto list. -/
def Share.normal (s : Share) : Share :=
  { s with
    path := trimSpace s.path
    comment := trimSpace s.comment
    veto := (s.veto.map trimSpace).filter (· ≠ []) }

section Set

variable (s : Share) (value : Name)

@[simp] theorem set_path : s.set "path".toList value = { s with path := value } := rfl

@[simp] theorem set_comment : s.set "comment".toList value = { s with comment := value } := rfl

@[simp] theorem set_browseable :
    s.set "browseable".toList value = { s with browseable := parseBool value } := rfl

@[simp] theorem set_writable :
    s.set "writable".toList value = { s with writable := parseBool value } := rfl

@[simp] theorem set_guestOK :
    s.set "guest ok".toList value = { s with guestOK := parseBool value } := rfl

@[simp] theorem set_readOnly :
    s.set "read only".toList value = { s with readOnly := parseBool value } := rfl

@[simp] theorem set_validUsers :
    s.set "valid users".toList value = { s with validUsers := parseUserList value } := rfl

@[simp] theorem set_writeList :
    s.set "write list".toList value = { s with writeList := parseUserList value } := rfl

@[simp] theorem set_adminUsers :
    s.set "admin users".toList value = { s with adminUsers := parseUserList value } := rfl

@[simp] theorem set_createMask :
    s.set "create mask".toList value = { s with createMask := value } := rfl

@[simp] theorem set_directoryMask :
    s.set "directory mask".toList value = { s with directoryMask := value } := rfl

@[simp] theorem set_veto :
    s.set "veto files".toList value = { s with veto := parseVetoList value } := rfl

end Set

theorem parseBool_yesno (b : Bool) : parseBool (trimSpace (yesno b)) = b := by
  cases b <;> decide

theorem mask_kept {what : String} {m : Name} (ok : validateMask what m = .ok ()) :
    trimSpace m = m ∧ '\n' ∉ m := by
  have octal : ∀ c ∈ m, isOctal c = true := by
    rw [validateMask] at ok
    split at ok
    next empty => simp [empty]
    · obtain ⟨⟨⟩, -, ok⟩ := bind_ok ok
      exact allOf_ok ok
  have solid : Solid m := by
    intro c member
    have range := octal c member
    refine (isAlnum_solid ?_).1
    simp only [isOctal, Bool.and_eq_true, decide_eq_true_eq] at range
    have seven : '7' ≤ '9' := by decide
    have high : c ≤ '9' := Char.le_trans range.2 seven
    simp [isAlnum, range.1, high]
  exact ⟨Text.trimSpace_eq_self solid, solid.not_mem (by decide)⟩

theorem mem_unlessEmpty {α : Type} {values : List α} {key : String} {value : Name}
    {setting : Name × Name} (member : setting ∈ unlessEmpty values key value) :
    setting = (key.toList, value) := by
  cases values with
  | nil => cases member
  | cons => exact List.mem_singleton.mp member

variable {s : Share}

theorem foldl_unlessEmpty {α : Type} {values : List α} (key : String) {value : Name}
    (absent : values = [] → s.set key.toList (trimSpace value) = s) :
    (unlessEmpty values key value).foldl
      (fun s setting => s.set setting.1 (trimSpace setting.2)) s =
      s.set key.toList (trimSpace value) := by
  cases values with
  | nil => exact (absent rfl).symm
  | cons => rfl

/-- What is known of an accepted share. -/
structure Accepted (s : Share) : Prop where
  name : Solid s.name
  path : '\n' ∉ s.path
  comment : '\n' ∉ s.comment
  createMask : trimSpace s.createMask = s.createMask ∧ '\n' ∉ s.createMask
  directoryMask : trimSpace s.directoryMask = s.directoryMask ∧ '\n' ∉ s.directoryMask
  validUsers : ∀ u ∈ s.validUsers, validateUsername u = .ok ()
  writeList : ∀ u ∈ s.writeList, validateUsername u = .ok ()
  adminUsers : ∀ u ∈ s.adminUsers, validateUsername u = .ok ()
  veto : ∀ e ∈ s.veto, validateVetoEntry e = .ok ()

theorem accepted_of_valid (valid : validateShare s = .ok ()) : Accepted s := by
  obtain ⟨⟨⟩, name, valid⟩ := bind_ok valid
  obtain ⟨⟨⟩, path, valid⟩ := bind_ok valid
  obtain ⟨⟨⟩, comment, valid⟩ := bind_ok valid
  obtain ⟨⟨⟩, createMask, valid⟩ := bind_ok valid
  obtain ⟨⟨⟩, directoryMask, valid⟩ := bind_ok valid
  obtain ⟨⟨⟩, validUsers, valid⟩ := bind_ok valid
  obtain ⟨⟨⟩, writeList, valid⟩ := bind_ok valid
  obtain ⟨⟨⟩, adminUsers, veto⟩ := bind_ok valid
  obtain ⟨⟨⟩, -, comment⟩ := bind_ok comment
  refine ⟨validateName_solid name, ?_, fun member => ?_, mask_kept createMask,
    mask_kept directoryMask, checkEach_ok validUsers, checkEach_ok writeList,
    checkEach_ok adminUsers, checkEach_ok veto⟩
  · exact not_mem_of_control (by decide) fun c member => ((validatePath_ok path).2 c member).1
  · have := allOf_ok comment '\n' member
    revert this
    decide

/-- Every setting that may be written. -/
def allSettings (s : Share) : List (Name × Name) :=
  [("path".toList, s.path), ("comment".toList, s.comment),
    ("browseable".toList, yesno s.browseable), ("writable".toList, yesno s.writable),
    ("guest ok".toList, yesno s.guestOK), ("read only".toList, yesno s.readOnly),
    ("valid users".toList, joinUsers s.validUsers), ("write list".toList, joinUsers s.writeList),
    ("admin users".toList, joinUsers s.adminUsers), ("create mask".toList, s.createMask),
    ("directory mask".toList, s.directoryMask),
    ("veto files".toList, '/' :: (join '/' s.veto ++ ['/']))]

theorem mem_allSettings {setting : Name × Name} (member : setting ∈ settings s) :
    setting ∈ allSettings s := by
  have written {α : Type} {values : List α} {key : String} {value : Name}
      (listed : (key.toList, value) ∈ allSettings s)
      (member : setting ∈ unlessEmpty values key value) : setting ∈ allSettings s :=
    mem_unlessEmpty member ▸ listed
  simp only [settings, List.mem_append, List.mem_cons, List.not_mem_nil, or_false] at member
  rcases member with ((((((((rfl | member) | rfl | rfl | rfl | rfl) | member) | member) | member) |
    member) | member) | member)
  all_goals first | exact written (by simp [allSettings]) member | simp [allSettings]

theorem settings_keys {setting : Name × Name} (member : setting ∈ settings s) :
    KeyFine setting.1 ∧ '\n' ∉ setting.1 := by
  have fine : ∀ key ∈ (allSettings {}).map (·.1), KeyFine key ∧ '\n' ∉ key := by
    unfold KeyFine
    decide
  have listed : setting.1 ∈ (allSettings s).map (·.1) :=
    List.mem_map_of_mem (mem_allSettings member)
  exact fine _ listed

theorem not_mem_joinUsers {users : List Name} {c : Char} (other : c ≠ ',' ∧ c ≠ ' ')
    (absent : ∀ u ∈ users, c ∉ u) : c ∉ joinUsers users := by
  induction users with
  | nil => simp [joinUsers]
  | cons u rest ih =>
    obtain ⟨first, later⟩ := List.forall_mem_cons.mp absent
    cases rest with
    | nil => exact first
    | cons next rest => simp [joinUsers, first, other, ih later]

theorem settings_single (accepted : Accepted s) {setting : Name × Name}
    (member : setting ∈ settings s) : '\n' ∉ setting.2 := by
  have users {list : List Name} (ok : ∀ u ∈ list, validateUsername u = .ok ()) :
      '\n' ∉ joinUsers list :=
    not_mem_joinUsers (by decide) fun u member =>
      (username_ok (ok u member)).2.1.not_mem (by decide)
  have said (b : Bool) : '\n' ∉ yesno b := by cases b <;> decide
  have veto : '\n' ∉ join '/' s.veto := fun broken => by
    obtain same | ⟨e, member, within⟩ := Text.mem_join broken
    · cases same
    · exact (veto_plain (accepted.veto e member)).2 within
  have all : ∀ setting ∈ allSettings s, '\n' ∉ setting.2 := by
    simp only [allSettings, List.forall_mem_cons]
    exact ⟨accepted.path, accepted.comment, said _, said _, said _, said _,
      users accepted.validUsers, users accepted.writeList, users accepted.adminUsers,
      accepted.createMask.2, accepted.directoryMask.2, by simpa using veto, by simp⟩
  exact all setting (mem_allSettings member)

theorem settings_fold (accepted : Accepted s) (name : Name) :
    (settings s).foldl (fun s setting => s.set setting.1 (trimSpace setting.2))
      { name := name } = { s.normal with name := name } := by
  have veto : parseVetoList (trimSpace ('/' :: (join '/' s.veto ++ ['/']))) =
      (s.veto.map trimSpace).filter (· ≠ []) := by
    by_cases empty : s.veto = []
    · rw [empty]
      decide
    · exact parseVetoList_join empty accepted.veto
  simp only [settings, List.foldl_append, List.foldl_cons, List.foldl_nil]
  -- A setting that is not written would set what is there already.
  rw [foldl_unlessEmpty "comment", foldl_unlessEmpty "valid users", foldl_unlessEmpty "write list",
    foldl_unlessEmpty "admin users", foldl_unlessEmpty "create mask",
    foldl_unlessEmpty "directory mask", foldl_unlessEmpty "veto files"]
  · simp only [set_path, set_comment, set_browseable, set_writable, set_guestOK, set_readOnly,
      set_validUsers, set_writeList, set_adminUsers, set_createMask, set_directoryMask, set_veto,
      parseBool_yesno, parseUserList_join accepted.validUsers,
      parseUserList_join accepted.writeList, parseUserList_join accepted.adminUsers,
      accepted.createMask.1, accepted.directoryMask.1, veto, Share.normal]
  all_goals
    intro empty
    simp only [set_path, set_comment, set_browseable, set_writable, set_guestOK, set_readOnly,
      set_validUsers, set_writeList, set_adminUsers, set_createMask, set_directoryMask, set_veto]
    rw [empty]
    rfl

/-- A share that was accepted is read back, up to white space and blank entries. -/
theorem shares_read_back {steps : Steps} {s : Share} {file : Option Name}
    (created : (createShare steps s file).1 = .ok ())
    (short : ∀ line ∈ shareLines s, byteLength line < 1048576) :
    getShare false s.name (createShare steps s file).2 = .ok s.normal := by
  obtain ⟨valid, written⟩ := createShare_ok (Prod.ext created rfl)
  have accepted := accepted_of_valid valid
  have single : ∀ line ∈ shareLines s, '\n' ∉ line := by
    refine List.forall_mem_cons.mpr ⟨?_, fun line member => ?_⟩
    · simpa using accepted.name.not_mem (by decide)
    · obtain ⟨setting, listed, rfl⟩ := List.mem_map.mp member
      simp [settingLine, blanks, (settings_keys listed).2, settings_single accepted listed]
  have header : trimSpace ('[' :: (s.name ++ [']'])) = '[' :: (s.name ++ [']']) := by
    refine trimSpace_of_ends (by simp [isSpace]) ?_
    rw [← List.cons_append, List.getLast?_concat]
    simp [isSpace]
  have last : ('[' :: (s.name ++ [']'])).getLast? = some ']' := by
    rw [← List.cons_append, List.getLast?_concat]
  have parsed : parseShareConf (renderShareConf s) = .ok { s.normal with
      name := trimSpace (('[' :: (s.name ++ [']'])).drop 1).dropLast } := by
    rw [parseShareConf, renderShareConf, Text.scanned_unlines (by decide) single short, shareLines,
      List.cons_append]
    simp only [parseLines, header]
    rw [if_neg (by simp), if_pos ⟨rfl, last⟩, if_neg (by simp),
      parse_settings fun setting member => (settings_keys member).1, settings_fold accepted]
  have named : validateName "share name" s.name = .ok () := by
    obtain ⟨⟨⟩, named, -⟩ := bind_ok valid
    exact named
  simp [getShare, written, named, parsed, bind, Except.bind, Except.mapError, Share.normal]

def tricky : Share where
  name := "docs".toList
  path := "/tank/docs".toList
  comment := "[global] guest ok = yes".toList
  validUsers := ["alice".toList, "bob".toList]
  veto := ["path = x".toList]

theorem tricky_read_back : (createShare {} tricky none).1 = .ok () ∧
    getShare false "docs".toList (createShare {} tricky none).2 = .ok tricky := by
  have created : (createShare {} tricky none).1 = .ok () := by decide
  exact ⟨created, shares_read_back created (by decide)⟩

end NovaNas.Shares.Samba
