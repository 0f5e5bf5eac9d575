import NovaNas.Zfs.Names

/-!
# The arguments of `zpool create` and `zpool add`

A request names the devices of a pool class by class and group by group; `zpool` gets one flat list
of words. It takes a device for the group that was opened last, so a single disk that is requested
after a group goes into the group, and it takes a device whose name is one of its own words for that
word. The request survives the way exactly if neither can happen.
-/
namespace NovaNas.Zfs.Pool

open Fallible (mapError_ok bind_ok)

/-! ### Requests -/

structure VdevSpec where
  type : Name
  disks : List Name
  deriving DecidableEq, Repr

structure AddSpec where
  vdevs : List VdevSpec := []
  special : List VdevSpec := []
  dedup : List VdevSpec := []
  log : List VdevSpec := []
  cache : List Name := []
  spare : List Name := []
  deriving DecidableEq, Repr

structure CreateSpec extends AddSpec where
  name : Name
  deriving DecidableEq, Repr

inductive WriteError where
  | name (err : NameError)
  | noVdevs
  | nothing
  | invalidType (type : Name)
  | noDisks (type : Name)
  | within (position : Name) (err : WriteError)
  deriving DecidableEq, Repr

def validVdevTypes : List Name :=
  ["mirror", "raidz1", "raidz2", "raidz3", "stripe", "disk"].map String.toList

def validLogTypes : List Name := ["mirror", "stripe", "disk"].map String.toList

def isDraid (type : Name) : Bool := "draid".toList.isPrefixOf type

def isBare (type : Name) : Bool := type = "stripe".toList || type = "disk".toList

/-- The disks of the vdev are given without a word before them. -/
def VdevSpec.bare (v : VdevSpec) : Bool := isBare v.type

def VdevSpec.args (v : VdevSpec) : List Name := (if v.bare then [] else [v.type]) ++ v.disks

def emitVdevs (args : List Name) (allowed : List Name) :
    List VdevSpec → Except WriteError (List Name)
  | [] => .ok args
  | v :: rest =>
    if !isDraid v.type && !allowed.contains v.type then .error (.invalidType v.type)
    else if v.disks = [] then .error (.noDisks v.type)
    else emitVdevs (args ++ v.args) allowed rest

/-- The vdevs of a class other than data, after the word for it. -/
def emitClass (args : List Name) (word : Name) (allowed : List Name) (vdevs : List VdevSpec) :
    Except WriteError (List Name) :=
  if vdevs = [] then .ok args
  else (emitVdevs (args ++ [word]) allowed vdevs).mapError (.within word)

def emitDisks (args : List Name) (word : Name) (disks : List Name) : List Name :=
  if disks = [] then args else args ++ [word] ++ disks

def AddSpec.emit (spec : AddSpec) (args : List Name) : Except WriteError (List Name) := do
  let args ← emitVdevs args validVdevTypes spec.vdevs
  let args ← emitClass args "special".toList validVdevTypes spec.special
  let args ← emitClass args "dedup".toList validVdevTypes spec.dedup
  let args ← emitClass args "log".toList validLogTypes spec.log
  let args := emitDisks args "cache".toList spec.cache
  .ok (emitDisks args "spare".toList spec.spare)

def buildCreateArgs (spec : CreateSpec) : Except WriteError (List Name) := do
  (validatePoolName spec.name).mapError .name
  if spec.vdevs = [] then .error .noVdevs
  else spec.emit ["create".toList, "-f".toList, spec.name]

def buildAddArgs (name : Name) (spec : AddSpec) : Except WriteError (List Name) := do
  (validatePoolName name).mapError .name
  if spec = {} then .error .nothing else spec.emit ["add".toList, "-f".toList, name]

/-! ### What `zpool` reads -/

inductive Class where
  | data
  | special
  | dedup
  | log
  | cache
  | spare
  deriving DecidableEq, Repr

/-- The word that switches to the class; the data come first and have none. -/
def Class.words : Class → List Name
  | .data => []
  | .special => ["special".toList]
  | .dedup => ["dedup".toList]
  | .log => ["log".toList]
  | .cache => ["cache".toList]
  | .spare => ["spare".toList]

def classOf (arg : Name) : Option Class :=
  if arg = "special".toList then some .special
  else if arg = "dedup".toList then some .dedup
  else if arg = "log".toList then some .log
  else if arg = "cache".toList then some .cache
  else if arg = "spare".toList then some .spare
  else none

def isGroupWord (arg : Name) : Bool :=
  (["mirror", "raidz", "raidz1", "raidz2", "raidz3"].map String.toList).contains arg || isDraid arg

def isFlag (arg : Name) : Bool := arg.head? = some '-'

/-- A vdev of the pool: a group under its word, or a single disk. -/
structure TopVdev where
  group : Option Name
  disks : List Name
  deriving DecidableEq, Repr

/-- A group that has been opened. -/
abbrev OpenGroup := Option (Name × List Name)

def close (c : Class) : OpenGroup → List (Class × TopVdev)
  | none => []
  | some (word, disks) => [(c, ⟨some word, disks⟩)]

def readVdevs (c : Class) (opened : OpenGroup) : List Name → List (Class × TopVdev)
  | [] => close c opened
  | arg :: rest =>
    match classOf arg with
    | some other => close c opened ++ readVdevs other none rest
    | none =>
      if isGroupWord arg then close c opened ++ readVdevs c (some (arg, [])) rest
      else
        match opened with
        | none => (c, ⟨none, [arg]⟩) :: readVdevs c none rest
        | some (word, disks) => readVdevs c (some (word, disks ++ [arg])) rest

section Reading

variable {c : Class} {opened : OpenGroup} {arg : Name} {rest : List Name}

theorem read_switch {other : Class} (switched : classOf arg = some other) :
    readVdevs c opened (arg :: rest) = close c opened ++ readVdevs other none rest := by
  rcases opened with _ | ⟨word, disks⟩ <;> simp [readVdevs, switched]

theorem read_open (unswitched : classOf arg = none) (grouped : isGroupWord arg = true) :
    readVdevs c opened (arg :: rest) = close c opened ++ readVdevs c (some (arg, [])) rest := by
  rcases opened with _ | ⟨word, disks⟩ <;> simp [readVdevs, unswitched, grouped]

theorem read_single (unswitched : classOf arg = none) (plain : isGroupWord arg = false) :
    readVdevs c none (arg :: rest) = (c, ⟨none, [arg]⟩) :: readVdevs c none rest := by
  simp [readVdevs, unswitched, plain]

theorem read_join (unswitched : classOf arg = none) (plain : isGroupWord arg = false) {word : Name}
    {disks : List Name} : readVdevs c (some (word, disks)) (arg :: rest) =
      readVdevs c (some (word, disks ++ [arg])) rest := by
  simp [readVdevs, unswitched, plain]

end Reading

/-- The pool and the vdevs of a command: the flags are taken out first. -/
def readCommand (args : List Name) : Option (Name × List (Class × TopVdev)) :=
  match (args.drop 1).filter (!isFlag ·) with
  | [] => none
  | pool :: rest => some (pool, readVdevs .data none rest)

/-! ### What was requested -/

def VdevSpec.tops (v : VdevSpec) : List TopVdev :=
  if v.bare then v.disks.map (⟨none, [·]⟩) else [⟨some v.type, v.disks⟩]

/-- A disk on its own. -/
def VdevSpec.single (disk : Name) : VdevSpec := ⟨"disk".toList, [disk]⟩

def AddSpec.classes (spec : AddSpec) : List (Class × List VdevSpec) :=
  [(.data, spec.vdevs), (.special, spec.special), (.dedup, spec.dedup), (.log, spec.log),
    (.cache, spec.cache.map .single), (.spare, spec.spare.map .single)]

/-- The vdevs of the pool, class by class and in order. -/
def AddSpec.tops (spec : AddSpec) : List (Class × TopVdev) :=
  spec.classes.flatMap fun (c, vdevs) => (vdevs.flatMap VdevSpec.tops).map (Prod.mk c)

inductive Request where
  | create (spec : CreateSpec)
  | add (name : Name) (spec : AddSpec)

namespace Request

def name : Request → Name
  | create spec => spec.name
  | add name _ => name

def spec : Request → AddSpec
  | create spec => spec.toAddSpec
  | add _ spec => spec

def args : Request → Except WriteError (List Name)
  | create spec => buildCreateArgs spec
  | add name spec => buildAddArgs name spec

end Request

/-! ### The arguments of an accepted request -/

/-- The vdev is accepted at a position. -/
def VdevSpec.Accepted (allowed : List Name) (v : VdevSpec) : Prop :=
  (isDraid v.type || allowed.contains v.type) = true ∧ v.disks ≠ []

variable {vdevs : List VdevSpec}

theorem emitVdevs_ok {args allowed out : List Name} (ok : emitVdevs args allowed vdevs = .ok out) :
    out = args ++ vdevs.flatMap VdevSpec.args ∧ ∀ v ∈ vdevs, v.Accepted allowed := by
  induction vdevs generalizing args with
  | nil =>
    cases ok
    simp
  | cons v rest ih =>
    rw [emitVdevs] at ok
    split at ok
    · cases ok
    next typed =>
      split at ok
      · cases ok
      next disks =>
        obtain ⟨rfl, later⟩ := ih ok
        refine ⟨by simp, List.forall_mem_cons.mpr ⟨⟨?_, disks⟩, later⟩⟩
        simpa [or_iff_not_imp_left] using typed

/-- What makes the words of a vdev readable: its type is a word for a group if it is given, and it
has disks. -/
structure VdevSpec.Fine (v : VdevSpec) : Prop where
  grouped : v.bare = false → isGroupWord v.type = true
  disks : v.disks ≠ []

theorem VdevSpec.Accepted.fine {allowed : List Name} {v : VdevSpec} (accepted : v.Accepted allowed)
    (known : ∀ type ∈ allowed, isBare type = false → isGroupWord type = true) : v.Fine := by
  refine ⟨fun grouped => ?_, accepted.2⟩
  rcases Bool.or_eq_true_iff.mp accepted.1 with draid | member
  · simp [isGroupWord, draid]
  · exact known v.type (by simpa using member) grouped

/-- The words for the vdevs of a class. -/
def classArgs (class_ : Class × List VdevSpec) : List Name :=
  if class_.2 = [] then [] else class_.1.words ++ class_.2.flatMap VdevSpec.args

theorem classArgs_data (vdevs : List VdevSpec) :
    classArgs (.data, vdevs) = vdevs.flatMap VdevSpec.args := by
  cases vdevs <;> simp [classArgs, Class.words]

theorem emitClass_ok {args allowed out : List Name} {word : Name}
    (ok : emitClass args word allowed vdevs = .ok out) {c : Class} (words : c.words = [word]) :
    out = args ++ classArgs (c, vdevs) ∧ ∀ v ∈ vdevs, v.Accepted allowed := by
  rw [emitClass] at ok
  split at ok
  next none =>
    cases ok
    simp [classArgs, none]
  next some =>
    obtain ⟨rfl, accepted⟩ := emitVdevs_ok (mapError_ok ok)
    exact ⟨by simp [classArgs, some, words], accepted⟩

theorem emitDisks_eq (args : List Name) (word : Name) (disks : List Name) {c : Class}
    (words : c.words = [word]) :
    emitDisks args word disks = args ++ classArgs (c, disks.map .single) := by
  have devices : (disks.map VdevSpec.single).flatMap VdevSpec.args = disks := by
    induction disks with
    | nil => rfl
    | cons disk disks ih =>
      rw [List.map_cons, List.flatMap_cons, ih]
      rfl
  cases disks with
  | nil => simp [emitDisks, classArgs]
  | cons disk disks =>
    rw [emitDisks, if_neg nofun, classArgs, if_neg nofun, devices, words, List.append_assoc]

theorem emit_ok {spec : AddSpec} {args out : List Name} (ok : spec.emit args = .ok out) :
    out = args ++ spec.classes.flatMap classArgs ∧ (∀ c ∈ spec.classes, ∀ v ∈ c.2, v.Fine) ∧
      ∀ v ∈ spec.log, v.Accepted validLogTypes := by
  obtain ⟨_, emitted, ok⟩ := bind_ok ok
  obtain ⟨rfl, data⟩ := emitVdevs_ok emitted
  obtain ⟨_, emitted, ok⟩ := bind_ok ok
  obtain ⟨rfl, special⟩ := emitClass_ok emitted (c := .special) rfl
  obtain ⟨_, emitted, ok⟩ := bind_ok ok
  obtain ⟨rfl, dedup⟩ := emitClass_ok emitted (c := .dedup) rfl
  obtain ⟨_, emitted, ok⟩ := bind_ok ok
  obtain ⟨rfl, log⟩ := emitClass_ok emitted (c := .log) rfl
  have known : ∀ type ∈ validVdevTypes, isBare type = false → isGroupWord type = true := by decide
  have knownLog : ∀ type ∈ validLogTypes, isBare type = false → isGroupWord type = true := by decide
  refine ⟨?_, ?_, log⟩
  · cases ok
    rw [emitDisks_eq _ _ _ (c := .spare) rfl, emitDisks_eq _ _ _ (c := .cache) rfl]
    simp [AddSpec.classes, classArgs_data]
  · have single : ∀ disks : List Name, ∀ v ∈ disks.map VdevSpec.single, v.Fine := by
      intro disks v member
      obtain ⟨disk, -, rfl⟩ := List.mem_map.mp member
      exact ⟨nofun, by simp [VdevSpec.single]⟩
    simp only [AddSpec.classes, List.forall_mem_cons]
    exact ⟨fun v member => (data v member).fine known,
      fun v member => (special v member).fine known, fun v member => (dedup v member).fine known,
      fun v member => (log v member).fine knownLog, single _, single _, by simp⟩

theorem args_ok {request : Request} {args : List Name} (ok : request.args = .ok args) :
    (∃ command,
      args = [command, "-f".toList, request.name] ++ request.spec.classes.flatMap classArgs) ∧
      validatePoolName request.name = .ok () ∧
      (∀ c ∈ request.spec.classes, ∀ v ∈ c.2, v.Fine) ∧
      ∀ v ∈ request.spec.log, v.Accepted validLogTypes := by
  cases request with
  | create spec =>
    obtain ⟨⟨⟩, named, ok⟩ := bind_ok ok
    split at ok
    · cases ok
    · obtain ⟨rfl, fine, log⟩ := emit_ok ok
      exact ⟨⟨_, rfl⟩, mapError_ok named, fine, log⟩
  | add name spec =>
    obtain ⟨⟨⟩, named, ok⟩ := bind_ok ok
    split at ok
    · cases ok
    · obtain ⟨rfl, fine, log⟩ := emit_ok ok
      exact ⟨⟨_, rfl⟩, mapError_ok named, fine, log⟩

/-! ### Devices are counted -/

/-- The argument is read as a device. -/
def isDevice (arg : Name) : Bool := ((classOf arg).isNone && !isGroupWord arg) && !isFlag arg

def AddSpec.devices (spec : AddSpec) : List Name :=
  spec.classes.flatMap fun c => c.2.flatMap (·.disks)

def disksIn (tops : List (Class × TopVdev)) : Nat := (tops.map (·.2.disks.length)).sum

@[simp] theorem disksIn_append (first second : List (Class × TopVdev)) :
    disksIn (first ++ second) = disksIn first + disksIn second := by
  simp [disksIn]

@[simp] theorem disksIn_cons (top : Class × TopVdev) (tops : List (Class × TopVdev)) :
    disksIn (top :: tops) = top.2.disks.length + disksIn tops := by
  simp [disksIn]

@[simp] theorem disksIn_close_none (c : Class) : disksIn (close c none) = 0 := rfl

@[simp] theorem disksIn_close_some (c : Class) (word : Name) (disks : List Name) :
    disksIn (close c (some (word, disks))) = disks.length := rfl

theorem disksIn_readVdevs (args : List Name) (c : Class) (opened : OpenGroup) :
    disksIn (readVdevs c opened args) = disksIn (close c opened) +
      args.countP fun arg => (classOf arg).isNone && !isGroupWord arg := by
  induction args generalizing c opened with
  | nil => rfl
  | cons arg rest ih =>
    cases switched : classOf arg with
    | some other => simp [read_switch switched, switched, ih]
    | none =>
      cases grouped : isGroupWord arg with
      | true => simp [read_open switched grouped, switched, grouped, ih]
      | false =>
        rcases opened with _ | ⟨word, disks⟩
        · simp [read_single switched grouped, switched, grouped, ih]
          omega
        · simp [read_join switched grouped, switched, grouped, ih]
          omega

theorem disksIn_tops (spec : AddSpec) : disksIn spec.tops = spec.devices.length := by
  have vdev (v : VdevSpec) (c : Class) : disksIn (v.tops.map (Prod.mk c)) = v.disks.length := by
    unfold VdevSpec.tops
    split <;> simp [disksIn, Function.comp_def]
  have vdevs (c : Class) (list : List VdevSpec) :
      disksIn ((list.flatMap VdevSpec.tops).map (Prod.mk c)) = (list.flatMap (·.disks)).length := by
    induction list with
    | nil => rfl
    | cons v list ih => simp [vdev, ih]
  rw [AddSpec.tops, AddSpec.devices]
  induction spec.classes with
  | nil => rfl
  | cons class_ classes ih => simp [vdevs, ih]

theorem group_word {word : Name} (grouped : isGroupWord word = true) :
    isFlag word = false ∧ classOf word = none := by
  rcases Bool.or_eq_true_iff.mp grouped with known | draid
  · have all : ∀ word ∈ ["mirror", "raidz", "raidz1", "raidz2", "raidz3"].map String.toList,
        isFlag word = false ∧ classOf word = none := by decide
    exact all word (by simpa using known)
  · obtain ⟨rest, rfl⟩ := List.isPrefixOf_iff_prefix.mp draid
    exact ⟨rfl, rfl⟩

theorem words_of (c : Class) : c.words = [] ∨ ∃ word, c.words = [word] ∧ classOf word = some c := by
  cases c
  · exact .inl rfl
  all_goals exact .inr ⟨_, rfl, rfl⟩

variable {class_ : Class × List VdevSpec}

/-- Of the arguments, only devices are read as such. -/
theorem filter_classArgs (fine : ∀ v ∈ class_.2, v.Fine) :
    (classArgs class_).filter isDevice = (class_.2.flatMap (·.disks)).filter isDevice := by
  have vdev : ∀ v ∈ class_.2, v.args.filter isDevice = v.disks.filter isDevice := by
    intro v member
    rw [VdevSpec.args]
    split
    · rfl
    next grouped =>
      have word : isDevice v.type = false := by
        simp [isDevice, (fine v member).grouped (by simpa using grouped)]
      simp [word]
  have word : class_.1.words.filter isDevice = [] := by
    rcases words_of class_.1 with none | ⟨word, same, switched⟩
    · rw [none]
      rfl
    · simp [same, isDevice, switched]
  rw [classArgs]
  split
  next none => simp [none]
  · rw [List.filter_append, word, List.nil_append, List.filter_flatMap, List.filter_flatMap]
    exact List.flatMap_congr vdev

/-! ### Groups are closed -/

/-- The disks of the vdev are read as devices. -/
def VdevSpec.Plain (v : VdevSpec) : Prop :=
  ∀ disk ∈ v.disks, classOf disk = none ∧ isGroupWord disk = false

/-- An open group and the class it is in end where the arguments begin. -/
def Breaks (rest : List Name) : Prop :=
  ∀ c opened other, readVdevs c opened rest = close c opened ++ readVdevs other none rest

section Vdevs

variable {c : Class} {rest : List Name}

theorem read_disks {disks : List Name}
    (plain : ∀ disk ∈ disks, classOf disk = none ∧ isGroupWord disk = false) :
    readVdevs c none (disks ++ rest) =
        disks.map (fun disk => (c, ⟨none, [disk]⟩)) ++ readVdevs c none rest ∧
      ∀ word before, readVdevs c (some (word, before)) (disks ++ rest) =
        readVdevs c (some (word, before ++ disks)) rest := by
  induction disks with
  | nil => simp
  | cons disk disks ih =>
    obtain ⟨⟨unswitched, ungrouped⟩, later⟩ := List.forall_mem_cons.mp plain
    obtain ⟨single, joined⟩ := ih later
    simp [read_single unswitched ungrouped, read_join unswitched ungrouped, single, joined]

theorem read_bare {v : VdevSpec} (plain : v.Plain) (bare : v.bare = true) :
    readVdevs c none (v.args ++ rest) = v.tops.map (Prod.mk c) ++ readVdevs c none rest ∧
      ∀ word before, readVdevs c (some (word, before)) (v.args ++ rest) =
        readVdevs c (some (word, before ++ v.disks)) rest := by
  simpa [VdevSpec.args, VdevSpec.tops, bare, Function.comp_def] using read_disks plain

theorem read_grouped {v : VdevSpec} (fine : v.Fine) (plain : v.Plain) (grouped : v.bare = false)
    (opened : OpenGroup) : readVdevs c opened (v.args ++ rest) =
      close c opened ++ readVdevs c (some (v.type, v.disks)) rest := by
  have word := fine.grouped grouped
  have args : v.args ++ rest = v.type :: (v.disks ++ rest) := by simp [VdevSpec.args, grouped]
  rw [args, read_open (group_word word).2 word, (read_disks plain).2]
  rfl

/-- No bare vdev comes after a group. -/
def GroupsLast (vdevs : List VdevSpec) : Prop :=
  vdevs.Pairwise fun v w => v.bare = false → w.bare = false

theorem read_ordered (fine : ∀ v ∈ vdevs, v.Fine) (plain : ∀ v ∈ vdevs, v.Plain)
    (breaks : Breaks rest) (ordered : GroupsLast vdevs) (opened : OpenGroup)
    (after : opened.isSome → ∀ v ∈ vdevs, v.bare = false) :
    readVdevs c opened (vdevs.flatMap VdevSpec.args ++ rest) = close c opened ++
      ((vdevs.flatMap VdevSpec.tops).map (Prod.mk c) ++ readVdevs c none rest) := by
  induction vdevs generalizing opened with
  | nil => exact breaks c opened c
  | cons v vdevs ih =>
    obtain ⟨fineFirst, fine⟩ := List.forall_mem_cons.mp fine
    obtain ⟨plainFirst, plain⟩ := List.forall_mem_cons.mp plain
    obtain ⟨first, ordered⟩ := List.pairwise_cons.mp ordered
    rw [List.flatMap_cons, List.append_assoc]
    cases bare : v.bare with
    | true =>
      rcases opened with _ | group
      · rw [(read_bare plainFirst bare).1, ih fine plain ordered none nofun]
        simp [close]
      · rw [after rfl v List.mem_cons_self] at bare
        cases bare
    | false =>
      have later : ∀ w ∈ vdevs, w.bare = false := fun w member => first w member bare
      rw [read_grouped fineFirst plainFirst bare, ih fine plain ordered _ fun _ => later]
      simp [close, VdevSpec.tops, bare]

/-- How many disks are taken into a group that they do not belong to. -/
def misplaced : Bool → List VdevSpec → Nat
  | _, [] => 0
  | opened, v :: vdevs =>
    if v.bare then (if opened then v.disks.length else 0) + misplaced opened vdevs
    else misplaced true vdevs

theorem misplaced_eq_zero (fine : ∀ v ∈ vdevs, v.Fine) (opened : Bool) :
    misplaced opened vdevs = 0 ↔
      (opened = true → ∀ v ∈ vdevs, v.bare = false) ∧ GroupsLast vdevs := by
  induction vdevs generalizing opened with
  | nil => simp [misplaced, GroupsLast]
  | cons v vdevs ih =>
    obtain ⟨⟨-, disks⟩, fine⟩ := List.forall_mem_cons.mp fine
    rw [misplaced, GroupsLast, List.pairwise_cons, ← GroupsLast]
    cases bare : v.bare with
    | true => cases opened <;> simp [ih fine, bare, disks]
    | false =>
      simp only [Bool.false_eq_true, if_false, ih fine, List.forall_mem_cons, bare, true_and,
        true_imp_iff]
      tauto

theorem length_read (fine : ∀ v ∈ vdevs, v.Fine) (plain : ∀ v ∈ vdevs, v.Plain)
    (breaks : Breaks rest) (opened : OpenGroup) :
    (readVdevs c opened (vdevs.flatMap VdevSpec.args ++ rest)).length +
        misplaced opened.isSome vdevs =
      (close c opened).length + (vdevs.flatMap VdevSpec.tops).length +
        (readVdevs c none rest).length := by
  induction vdevs generalizing opened with
  | nil => simp [breaks c opened c, misplaced]
  | cons v vdevs ih =>
    obtain ⟨fineFirst, fine⟩ := List.forall_mem_cons.mp fine
    obtain ⟨plainFirst, plain⟩ := List.forall_mem_cons.mp plain
    rw [List.flatMap_cons, List.append_assoc, List.flatMap_cons, List.length_append, misplaced]
    cases bare : v.bare with
    | true =>
      have tops : v.tops.length = v.disks.length := by simp [VdevSpec.tops, bare]
      rcases opened with _ | ⟨word, disks⟩
      · have later := ih fine plain none
        rw [(read_bare plainFirst bare).1]
        simp [close] at later ⊢
        omega
      · have later := ih fine plain (some (word, disks ++ v.disks))
        rw [(read_bare plainFirst bare).2]
        simp [close] at later ⊢
        omega
    | false =>
      have later := ih fine plain (some (v.type, v.disks))
      rw [read_grouped fineFirst plainFirst bare]
      simp [close, VdevSpec.tops, bare] at later ⊢
      omega

end Vdevs

/-! ### Classes -/

section Classes

variable {classes : List (Class × List VdevSpec)}

/-- The vdevs that a class is given. -/
def tagged (class_ : Class × List VdevSpec) : List (Class × TopVdev) :=
  (class_.2.flatMap VdevSpec.tops).map (Prod.mk class_.1)

theorem breaks_switch {word : Name} {c : Class} (switched : classOf word = some c)
    (rest : List Name) : Breaks (word :: rest) := by
  intro _ _ _
  rw [read_switch switched, read_switch switched]
  rfl

theorem classArgs_switch (later : class_.1 ≠ .data) :
    class_.2 = [] ∧ classArgs class_ = [] ∨ ∃ word, classOf word = some class_.1 ∧
      classArgs class_ = word :: class_.2.flatMap VdevSpec.args := by
  rw [classArgs]
  split
  next none => exact .inl ⟨none, rfl⟩
  · obtain ⟨c, vdevs⟩ := class_
    cases c with
    | data => exact absurd rfl later
    | _ => exact .inr ⟨_, rfl, rfl⟩

theorem breaks_classes (later : ∀ class_ ∈ classes, class_.1 ≠ .data) :
    Breaks (classes.flatMap classArgs) := by
  induction classes with
  | nil =>
    intro c opened _
    exact (List.append_nil (close c opened)).symm
  | cons class_ classes ih =>
    obtain ⟨first, later⟩ := List.forall_mem_cons.mp later
    rcases classArgs_switch first with ⟨-, none⟩ | ⟨word, switched, args⟩
    · rw [List.flatMap_cons, none]
      exact ih later
    · rw [List.flatMap_cons, args]
      exact breaks_switch switched _

/-- A class is read from where its word stands. -/
theorem read_class (later : class_.1 ≠ .data) {rest : List Name} (breaks : Breaks rest) (c : Class)
    : readVdevs c none (classArgs class_ ++ rest) =
      readVdevs class_.1 none (class_.2.flatMap VdevSpec.args ++ rest) := by
  rcases classArgs_switch later with ⟨empty, args⟩ | ⟨word, switched, args⟩
  · rw [args, empty]
    exact breaks c none class_.1
  · rw [args, List.cons_append, read_switch switched]
    rfl

variable (fine : ∀ class_ ∈ classes, ∀ v ∈ class_.2, v.Fine)
  (plain : ∀ class_ ∈ classes, ∀ v ∈ class_.2, v.Plain)
  (later : ∀ class_ ∈ classes, class_.1 ≠ .data)
include fine plain later

theorem read_classes (ordered : ∀ class_ ∈ classes, GroupsLast class_.2) (c : Class) :
    readVdevs c none (classes.flatMap classArgs) = classes.flatMap tagged := by
  induction classes generalizing c with
  | nil => rfl
  | cons class_ classes ih =>
    simp only [List.forall_mem_cons] at fine plain later ordered
    have breaks := breaks_classes later.2
    rw [List.flatMap_cons, read_class later.1 breaks,
      read_ordered fine.1 plain.1 breaks ordered.1 none nofun,
      ih fine.2 plain.2 later.2 ordered.2]
    rfl

theorem length_read_classes (c : Class) : (readVdevs c none (classes.flatMap classArgs)).length +
    (classes.map fun class_ => misplaced false class_.2).sum = (classes.flatMap tagged).length := by
  induction classes generalizing c with
  | nil => rfl
  | cons class_ classes ih =>
    simp only [List.forall_mem_cons] at fine plain later
    have breaks := breaks_classes later.2
    have first := length_read (c := class_.1) fine.1 plain.1 breaks none
    have others := ih fine.2 plain.2 later.2 class_.1
    rw [List.flatMap_cons, read_class later.1 breaks]
    simp [tagged, close] at first others ⊢
    omega

end Classes

/-! ### The topology of a request -/

theorem isFlag_of_mem_classArgs (fine : ∀ v ∈ class_.2, v.Fine)
    (plain : ∀ v ∈ class_.2, ∀ disk ∈ v.disks, isFlag disk = false) :
    ∀ arg ∈ classArgs class_, isFlag arg = false := by
  intro arg member
  rw [classArgs] at member
  split at member
  · cases member
  rcases List.mem_append.mp member with word | within
  · have words (c : Class) : ∀ arg ∈ c.words, isFlag arg = false := by cases c <;> decide
    exact words class_.1 arg word
  · obtain ⟨v, listed, within⟩ := List.mem_flatMap.mp within
    rcases List.mem_append.mp within with type | disk
    · split at type
      · cases type
      next grouped =>
        obtain rfl := List.mem_singleton.mp type
        exact (group_word ((fine v listed).grouped (by simpa using grouped))).1
    · exact plain v listed arg disk

/-- Devices are read as requested exactly if none is another word and no class has a bare disk
after a group. -/
theorem read_words_iff {spec : AddSpec} (fine : ∀ c ∈ spec.classes, ∀ v ∈ c.2, v.Fine) :
    readVdevs .data none ((spec.classes.flatMap classArgs).filter (!isFlag ·)) = spec.tops ↔
      (∀ device ∈ spec.devices, isDevice device = true) ∧
        ∀ c ∈ spec.classes, GroupsLast c.2 := by
  -- With only devices among the disks, the classes are read one after the other.
  have split (devices : ∀ device ∈ spec.devices, isDevice device = true) :
      readVdevs .data none ((spec.classes.flatMap classArgs).filter (!isFlag ·)) = spec.tops ↔
        ∀ c ∈ spec.classes, GroupsLast c.2 := by
    have device {c : Class × List VdevSpec} (member : c ∈ spec.classes) {v : VdevSpec}
        (listed : v ∈ c.2) : ∀ disk ∈ v.disks, isDevice disk = true := fun disk within =>
      devices disk (List.mem_flatMap.mpr ⟨c, member, List.mem_flatMap.mpr ⟨v, listed, within⟩⟩)
    have plain : ∀ c ∈ spec.classes, ∀ v ∈ c.2, v.Plain := by
      intro c member v listed disk within
      have := device member listed disk within
      simp only [isDevice, Bool.and_eq_true, Bool.not_eq_true', Option.isNone_iff_eq_none] at this
      exact this.1
    have words : (spec.classes.flatMap classArgs).filter (!isFlag ·) =
        spec.classes.flatMap classArgs := by
      refine List.filter_eq_self.mpr fun arg member => ?_
      obtain ⟨c, listed, within⟩ := List.mem_flatMap.mp member
      have flags : ∀ v ∈ c.2, ∀ disk ∈ v.disks, isFlag disk = false := by
        intro v member disk within
        have := device listed member disk within
        simp only [isDevice, Bool.and_eq_true, Bool.not_eq_true'] at this
        exact this.2
      rw [isFlag_of_mem_classArgs (fine c listed) flags arg within]
      rfl
    have classes : spec.classes = (.data, spec.vdevs) :: spec.classes.tail := rfl
    have later : ∀ c ∈ spec.classes.tail, c.1 ≠ .data := by simp [AddSpec.classes]
    rw [words]
    rw [classes] at fine plain ⊢
    simp only [List.forall_mem_cons] at fine plain ⊢
    have breaks := breaks_classes later
    rw [List.flatMap_cons, classArgs_data]
    constructor
    · intro same
      have first := length_read (c := .data) fine.1 plain.1 breaks none
      have others := length_read_classes fine.2 plain.2 later .data
      have total : spec.tops.length = (spec.vdevs.flatMap VdevSpec.tops).length +
          (spec.classes.tail.flatMap tagged).length := by
        rw [AddSpec.tops, classes, List.flatMap_cons, List.length_append, List.length_map]
        rfl
      rw [same, total] at first
      simp only [close, List.length_nil, Option.isSome_none] at first
      have none : misplaced false spec.vdevs = 0 := by omega
      have noneLater : (spec.classes.tail.map fun c => misplaced false c.2).sum = 0 := by omega
      rw [List.sum_eq_zero_iff_forall_eq_nat] at noneLater
      refine ⟨((misplaced_eq_zero fine.1 false).mp none).2, fun c member => ?_⟩
      have zero := noneLater _ (List.mem_map.mpr ⟨c, member, rfl⟩)
      exact ((misplaced_eq_zero (fine.2 c member) false).mp zero).2
    · rintro ⟨first, others⟩
      rw [read_ordered fine.1 plain.1 breaks first none nofun,
        read_classes fine.2 plain.2 later others]
      rfl
  refine ⟨fun same => ?_, fun ⟨devices, ordered⟩ => (split devices).mpr ordered⟩
  have counted := disksIn_readVdevs ((spec.classes.flatMap classArgs).filter (!isFlag ·)) .data none
  have args : (spec.classes.flatMap classArgs).filter isDevice = spec.devices.filter isDevice := by
    rw [AddSpec.devices, List.filter_flatMap, List.filter_flatMap]
    exact List.flatMap_congr fun c member => filter_classArgs (fine c member)
  have devices : ∀ device ∈ spec.devices, isDevice device = true := by
    rw [same, disksIn_tops, List.countP_filter, disksIn_close_none, Nat.zero_add,
      List.countP_eq_length_filter] at counted
    change _ = ((spec.classes.flatMap classArgs).filter isDevice).length at counted
    rw [args] at counted
    exact List.length_filter_eq_length_iff.mp counted.symm
  exact ⟨devices, (split devices).mp same⟩

/-- The word opens a group that no log may be. -/
def isRaid (word : Name) : Bool := "raidz".toList.isPrefixOf word || isDraid word

theorem log_groups_iff {spec : AddSpec} (log : ∀ v ∈ spec.log, v.Accepted validLogTypes) :
    (∀ top ∈ spec.tops, top.1 = .log → ∀ word ∈ top.2.group, isRaid word = false) ↔
      ∀ v ∈ spec.log, isDraid v.type = false := by
  have tops (top : TopVdev) : (Class.log, top) ∈ spec.tops ↔ ∃ v ∈ spec.log, top ∈ v.tops := by
    simp [AddSpec.tops, AddSpec.classes]
  constructor
  · intro none v member
    refine Bool.eq_false_iff.mpr fun draid => ?_
    have grouped : v.bare = false := by
      obtain ⟨rest, type⟩ := List.isPrefixOf_iff_prefix.mp draid
      rw [VdevSpec.bare, ← type]
      rfl
    have listed : (Class.log, ⟨some v.type, v.disks⟩) ∈ spec.tops :=
      (tops _).mpr ⟨v, member, by simp [VdevSpec.tops, grouped]⟩
    have := none _ listed rfl v.type rfl
    simp [isRaid, draid] at this
  · rintro none ⟨c, top⟩ listed rfl word named
    obtain ⟨v, member, within⟩ := (tops top).mp listed
    rw [VdevSpec.tops] at within
    split at within
    · obtain ⟨disk, -, rfl⟩ := List.mem_map.mp within
      cases named
    · obtain rfl := List.mem_singleton.mp within
      obtain rfl : v.type = word := Option.some.inj named
      have typed := (log v member).1
      rw [none v member, Bool.false_or] at typed
      have all : ∀ type ∈ validLogTypes, isRaid type = false := by decide
      exact all v.type (by simpa using typed)

/-- `zpool` reads the vdevs of an accepted request, and no raid among its logs, exactly if every
device is read as one, no class has a bare disk after a group and no log is a `draid`. -/
theorem topology_received_iff {request : Request} {args : List Name}
    (accepted : request.args = .ok args) :
    (∃ tops, readCommand args = some (request.name, tops) ∧ tops = request.spec.tops ∧
      ∀ top ∈ tops, top.1 = .log → ∀ word ∈ top.2.group, isRaid word = false) ↔
    (∀ device ∈ request.spec.devices, isDevice device = true) ∧
      (∀ c ∈ request.spec.classes, GroupsLast c.2) ∧
      ∀ v ∈ request.spec.log, isDraid v.type = false := by
  obtain ⟨⟨command, rfl⟩, valid, fine, log⟩ := args_ok accepted
  have named : isFlag request.name = false := by
    cases name : request.name with
    | nil => rfl
    | cons first more =>
      refine Bool.eq_false_iff.mpr fun flag => ?_
      obtain rfl : first = '-' := by simpa [isFlag] using flag
      have start : isAlpha '-' = false := by decide
      rw [name, validatePoolName] at valid
      split at valid
      · cases valid
      split at valid
      · cases valid
      · cases valid
  have read : readCommand ([command, "-f".toList, request.name] ++
      request.spec.classes.flatMap classArgs) = some (request.name,
        readVdevs .data none ((request.spec.classes.flatMap classArgs).filter (!isFlag ·))) := by
    rw [readCommand, List.cons_append, List.drop_one, List.tail_cons, List.cons_append,
      List.filter_cons_of_neg (by decide), List.cons_append,
      List.filter_cons_of_pos (by simp [named])]
    rfl
  rw [read, ← and_assoc, ← read_words_iff fine, ← log_groups_iff log]
  constructor
  · rintro ⟨tops, same, requested, none⟩
    obtain ⟨-, rfl⟩ := Prod.mk.inj (Option.some.inj same)
    exact ⟨requested, requested ▸ none⟩
  · rintro ⟨same, none⟩
    exact ⟨_, by rw [same], rfl, none⟩

def disk (name : String) : Name := ("/dev/" ++ name).toList

def mirrored : VdevSpec := ⟨"mirror".toList, [disk "a", disk "b"]⟩

theorem mirror_received : ∃ args,
    (Request.create { name := "tank".toList, vdevs := [mirrored] }).args = .ok args ∧
      readCommand args =
        some ("tank".toList, [(.data, ⟨some "mirror".toList, [disk "a", disk "b"]⟩)]) := by
  have accepted : (Request.create { name := "tank".toList, vdevs := [mirrored] }).args =
      .ok ["create".toList, "-f".toList, "tank".toList, "mirror".toList, disk "a", disk "b"] := by
    decide
  obtain ⟨tops, read, rfl, -⟩ := (topology_received_iff accepted).mpr
    ⟨by decide, by simp [Request.spec, AddSpec.classes, GroupsLast], nofun⟩
  exact ⟨_, accepted, read⟩

/-- The disk after a mirror becomes its third disk, and a log may be a `draid`. -/
theorem disk_joins_mirror :
    ((buildCreateArgs
        { name := "tank".toList
          vdevs := [mirrored, ⟨"disk".toList, [disk "c"]⟩] }).toOption.bind readCommand =
      some ("tank".toList, [(.data, ⟨some "mirror".toList, [disk "a", disk "b", disk "c"]⟩)])) ∧
    (buildAddArgs "tank".toList
        { log := [⟨"draid".toList, [disk "a"]⟩] }).toOption.bind readCommand =
      some ("tank".toList, [(.log, ⟨some "draid".toList, [disk "a"]⟩)]) := by
  decide

end NovaNas.Zfs.Pool
