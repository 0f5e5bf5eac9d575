import NovaNas.Base.Ip
import NovaNas.Shares.Checks

/-!
# NFS exports

An export is written as one line: its path, and for each client the address pattern with the options
in parentheses. What is written is read back as it was given, apart from the Kerberos default. That
default is meant for rules without a `sec=` option, but an option `sec` without a value counts as
one.
-/
namespace NovaNas.Shares.Nfs

open Fallible (failIf bind_ok failIf_ok)
open Text (Solid trimSpace isSpace byteLength)

structure ClientRule where
  spec : Name
  options : Name
  deriving DecidableEq, Repr

structure Export where
  name : Name := []
  path : Name
  clients : List ClientRule
  deriving DecidableEq, Repr

/-! ### Checks -/

def forbidden : List Char := " \t;|&$`\\\"'<>*?()\x7b\x7d[]".toList

def validateClientSpec (s : Name) : Check := do
  failIf (s = []) (.required "client spec")
  if s = ['*'] then .ok ()
  else if s.contains '/' then if (Ip.parseCIDR s).isNone then .error (.cidr s) else .ok ()
  else if (Ip.parseIP s).isSome then .ok ()
  else do
    failIf (s.head? = some '-') (.leadingDash "client spec" s)
    allOf (fun c => isAlnum c || c = '.' || c = '-' || c = '*' || c = '?') "client spec" s

def isOption (c : Char) : Bool :=
  isAlnum c || c = '=' || c = ',' || c = '/' || c = '-' || c = '_' || c = ':'

def validateExportOptions (opts : Name) : Check := do
  failIf (opts = []) (.required "export options")
  failIf (256 < byteLength opts) (.tooLong "export options" opts)
  allOf isOption "export options" opts

def validateClient (c : ClientRule) : Check := do
  validateClientSpec c.spec
  validateExportOptions c.options

def validateExport (e : Export) : Check := do
  validateName "export name" e.name
  validatePath "export path" forbidden e.path
  failIf (e.clients = []) .noClients
  checkEach validateClient "client" 0 e.clients

/-! ### The Kerberos default -/

def isSec (key : Name) : Bool := Text.equalFold key "sec".toList

/-- What stands before the sign. -/
def keyOf (tok : Name) : Name := ((Text.cut '=' tok).map (·.1)).getD tok

def hasSecOption (opts : Name) : Bool :=
  (Text.split ',' opts).any fun tok =>
    let k := trimSpace tok
    k ≠ [] && isSec (keyOf k)

def krb5p : Name := "sec=krb5p".toList

def ClientRule.withDefault (c : ClientRule) : ClientRule :=
  if hasSecOption c.options then c
  else { c with options := if c.options = [] then krb5p else krb5p ++ ',' :: c.options }

def applyKerberosDefault (requireKerberos : Bool) (e : Export) : Export :=
  if requireKerberos then { e with clients := e.clients.map ClientRule.withDefault } else e

/-! ### The file -/

def ClientRule.token (c : ClientRule) : Name := c.spec ++ '(' :: (c.options ++ [')'])

def exportLine (e : Export) : Name := e.path ++ e.clients.flatMap fun c => ' ' :: c.token

def renderExportFile (e : Export) : Name := Text.unlines [exportLine e]

inductive ParseError where
  | token (text : Name)
  | noSpec (text : Name)
  | noClients (line : Name)
  | noLine
  | tooLong
  deriving DecidableEq, Repr

def parseClient (tok : Name) : Except ParseError ClientRule :=
  match Text.cut '(' tok with
  | none => .error (.token tok)
  | some (spec, rest) =>
    if !([')'].isSuffixOf tok) then .error (.token tok)
    else if spec = [] then .error (.noSpec tok)
    else .ok ⟨spec, rest.dropLast⟩

def parseClientList (s : Name) : Except ParseError (List ClientRule) := do
  let out ← (Text.fields s).mapM parseClient
  if out = [] then .error (.noClients s) else .ok out

def parseExportLine (line : Name) : Except ParseError Export :=
  let plain (c : Char) : Bool := c ≠ ' ' && c ≠ '\t'
  match line.dropWhile plain with
  | [] => .error (.noClients line)
  | _ :: rest =>
    if trimSpace rest = [] then .error (.noClients line)
    else do
      let clients ← parseClientList (trimSpace rest)
      .ok { path := line.takeWhile plain, clients }

def parseExportFile (data : Name) : Except ParseError Export :=
  let (lines, tooLong) := Text.scanned 65536 data
  match (lines.map trimSpace).find? fun line => line ≠ [] && line.head? ≠ some '#' with
  | some line => parseExportLine line
  | none => .error (if tooLong then .tooLong else .noLine)

/-! ### The manager -/

inductive ExportError where
  | invalid (err : CheckError)
  | exists (name : Name)
  | notFound
  | read (name : Name)
  | write (name : Name)
  | remove (name : Name)
  | exportfs
  deriving DecidableEq, Repr

/-- What the host does at each step. -/
structure Steps where
  readFails : Bool := false
  write : Write := .done
  removeFails : Bool := false
  exportfsFails : Bool := false

/-- What an operation returns, and the file after it. -/
abbrev Result := Except ExportError Unit × Option Name

def Steps.reload (steps : Steps) : Except ExportError Unit :=
  if steps.exportfsFails then .error .exportfs else .ok ()

def Steps.store (steps : Steps) (e : Export) : Result :=
  match steps.write with
  | .failed left => (.error (.write e.name), left)
  | .done => (steps.reload, some (renderExportFile e))

def createExport (requireKerberos : Bool) (steps : Steps) (e : Export) (file : Option Name) :
    Result :=
  let e := applyKerberosDefault requireKerberos e
  onFile .invalid (validateExport e)
    [(steps.readFails, .read e.name), (file.isSome, .exists e.name)] (steps.store e) file

def updateExport (requireKerberos : Bool) (steps : Steps) (e : Export) (file : Option Name) :
    Result :=
  let e := applyKerberosDefault requireKerberos e
  onFile .invalid (validateExport e)
    [(steps.readFails, .read e.name), (file.isNone, .notFound)] (steps.store e) file

def deleteExport (steps : Steps) (name : Name) (file : Option Name) : Result :=
  onFile .invalid (validateName "export name" name)
    [(steps.removeFails, .remove name), (file.isNone, .notFound)] (steps.reload, none) file

section Accepted

variable {requireKerberos : Bool} {steps : Steps} {e : Export} {file after : Option Name}

theorem store_ok (made : steps.store e = (.ok (), after)) : after = some (renderExportFile e) := by
  unfold Steps.store at made
  split at made
  · cases made
  · exact (Prod.mk.inj made).2.symm

theorem createExport_ok (made : createExport requireKerberos steps e file = (.ok (), after)) :
    validateExport (applyKerberosDefault requireKerberos e) = .ok () ∧
      after = some (renderExportFile (applyKerberosDefault requireKerberos e)) :=
  (onFile_ok made).imp_right store_ok

theorem updateExport_ok (made : updateExport requireKerberos steps e file = (.ok (), after)) :
    validateExport (applyKerberosDefault requireKerberos e) = .ok () ∧
      after = some (renderExportFile (applyKerberosDefault requireKerberos e)) :=
  (onFile_ok made).imp_right store_ok

end Accepted

/-! ### The round trip -/

theorem spec_solid {s : Name} (ok : validateClientSpec s = .ok ()) :
    s ≠ [] ∧ Solid s ∧ '(' ∉ s := by
  obtain ⟨⟨⟩, nonempty, ok⟩ := bind_ok ok
  have marks (all : ∀ c ∈ s, Ip.isMark c = true ∨ c = '/') : Solid s ∧ '(' ∉ s := by
    refine ⟨fun c member => ?_, fun member => ?_⟩
    · rcases all c member with mark | rfl
      · exact Ip.isSpace_of_isMark mark
      · decide
    · have := all '(' member
      revert this
      decide
  refine ⟨failIf_ok nonempty, ?_⟩
  split at ok
  next any =>
    subst any
    decide
  split at ok
  · split at ok
    · cases ok
    next cidr =>
      obtain ⟨net, read⟩ := Option.ne_none_iff_exists'.mp (by simpa using cidr)
      exact marks (Ip.parseCIDR_marks read)
  split at ok
  next addr =>
    obtain ⟨ip, read⟩ := Option.isSome_iff_exists.mp addr
    exact marks fun c member => .inl (Ip.parseIP_marks read c member)
  · obtain ⟨⟨⟩, -, ok⟩ := bind_ok ok
    have all := allOf_ok ok
    simp only [Bool.or_eq_true, decide_eq_true_eq] at all
    refine ⟨fun c member => ?_, fun member => ?_⟩
    · rcases all c member with (((alnum | rfl) | rfl) | rfl) | rfl
      · exact (isAlnum_solid alnum).1
      all_goals decide
    · have := all '(' member
      revert this
      decide

theorem option_solid {c : Char} (option : isOption c = true) : isSpace c = false := by
  simp only [isOption, Bool.or_eq_true, decide_eq_true_eq] at option
  rcases option with (((((alnum | rfl) | rfl) | rfl) | rfl) | rfl) | rfl
  · exact (isAlnum_solid alnum).1
  all_goals decide

theorem options_ok {opts : Name} (ok : validateExportOptions opts = .ok ()) :
    opts ≠ [] ∧ ∀ c ∈ opts, isOption c = true := by
  obtain ⟨⟨⟩, nonempty, ok⟩ := bind_ok ok
  obtain ⟨⟨⟩, -, ok⟩ := bind_ok ok
  exact ⟨failIf_ok nonempty, allOf_ok ok⟩

theorem client_ok {c : ClientRule} (ok : validateClient c = .ok ()) :
    (c.spec ≠ [] ∧ Solid c.spec ∧ '(' ∉ c.spec) ∧ c.options ≠ [] ∧
      ∀ d ∈ c.options, isOption d = true := by
  obtain ⟨⟨⟩, spec, options⟩ := bind_ok ok
  exact ⟨spec_solid spec, options_ok options⟩

theorem token_solid {c : ClientRule} (ok : validateClient c = .ok ()) : Solid c.token := by
  obtain ⟨⟨-, solid, -⟩, -, options⟩ := client_ok ok
  refine solid.append (List.forall_mem_cons.mpr ⟨by decide, ?_⟩)
  exact Solid.append (fun d member => option_solid (options d member)) (by decide)

theorem parseClient_token {c : ClientRule} (ok : validateClient c = .ok ()) :
    parseClient c.token = .ok c := by
  obtain ⟨⟨nonempty, -, absent⟩, -, -⟩ := client_ok ok
  have ends : [')'].isSuffixOf c.token = true :=
    List.isSuffixOf_iff_suffix.mpr ⟨c.spec ++ '(' :: c.options, by simp [ClientRule.token]⟩
  rw [parseClient, ClientRule.token, Text.cut_append absent]
  change (if (!([')'].isSuffixOf c.token)) = true then _ else _) = _
  simp [ends, nonempty]

theorem fields_tokens {clients : List ClientRule} (ok : ∀ c ∈ clients, validateClient c = .ok ()) :
    Text.fields (clients.flatMap fun c => ' ' :: c.token) = clients.map ClientRule.token := by
  induction clients with
  | nil => rfl
  | cons c clients ih =>
    obtain ⟨first, later⟩ := List.forall_mem_cons.mp ok
    have nonempty : c.token ≠ [] := by simp [ClientRule.token]
    have ends : ∀ d ∈ (clients.flatMap fun c => ' ' :: c.token).head?, isSpace d = true := by
      cases clients with
      | nil => simp
      | cons => simp [isSpace]
    rw [List.flatMap_cons, List.cons_append, Text.fields_space (by decide),
      Text.fields_word (token_solid first) nonempty ends, ih later]
    rfl

theorem mapM_tokens {clients : List ClientRule} (ok : ∀ c ∈ clients, validateClient c = .ok ()) :
    (clients.map ClientRule.token).mapM parseClient = .ok clients := by
  induction clients with
  | nil => rfl
  | cons c clients ih =>
    obtain ⟨first, later⟩ := List.forall_mem_cons.mp ok
    exact Fallible.mapM_cons_ok.mpr ⟨c, clients, parseClient_token first, ih later, rfl⟩

/-- An accepted export is read back from its file. -/
theorem parseExportFile_render {e : Export} (valid : validateExport e = .ok ())
    (short : byteLength (exportLine e) < 65536) :
    parseExportFile (renderExportFile e) = .ok { path := e.path, clients := e.clients } := by
  obtain ⟨⟨⟩, -, valid⟩ := bind_ok valid
  obtain ⟨⟨⟩, path, valid⟩ := bind_ok valid
  obtain ⟨⟨⟩, some, each⟩ := bind_ok valid
  obtain ⟨⟨more, absolute⟩, chars⟩ := validatePath_ok path
  have each := checkEach_ok each
  have some := failIf_ok some
  let tokens := e.clients.flatMap fun c => ' ' :: c.token
  have single : '\n' ∉ exportLine e := by
    have path : '\n' ∉ e.path := not_mem_of_control (by decide) fun c member => (chars c member).1
    have token : ∀ c ∈ e.clients, '\n' ∉ c.token := fun c member =>
      (token_solid (each c member)).not_mem (by decide)
    simpa [exportLine, path] using token
  -- The line starts with a slash and ends with a parenthesis, so trimming leaves it alone.
  have trimmed : trimSpace (exportLine e) = exportLine e := by
    obtain ⟨init, last, same⟩ := List.eq_nil_or_concat e.clients |>.resolve_left some
    have first : (exportLine e).head? = '/' := by simp [exportLine, absolute]
    have last : (exportLine e).getLast? = ')' := by
      have shape : exportLine e = (e.path ++ (init.flatMap (fun c => ' ' :: c.token) ++
          ' ' :: (last.spec ++ '(' :: last.options))) ++ [')'] := by
        simp [exportLine, same, ClientRule.token]
      rw [shape, List.getLast?_concat]
    refine Text.trimSpace_of_ends ?_ ?_
    · simp [first, isSpace]
    · simp [last, isSpace]
  have path : ∀ c ∈ e.path, (c ≠ ' ' && c ≠ '\t') = true := by
    intro c member
    have allowed := (chars c member).2
    simp only [Bool.and_eq_true, decide_eq_true_eq]
    constructor <;>
    · rintro rfl
      exact allowed (by decide)
  obtain ⟨rest, spaced⟩ : ∃ rest, tokens = ' ' :: rest := by
    cases same : e.clients with
    | nil => exact absurd same some
    | cons c clients =>
      refine ⟨c.token ++ clients.flatMap fun c => ' ' :: c.token, ?_⟩
      simp [tokens, same]
  have words : Text.fields (trimSpace rest) = e.clients.map ClientRule.token := by
    have blank : isSpace ' ' = true := by decide
    rw [Text.fields_trimSpace, ← Text.fields_space blank rest, ← spaced]
    exact fields_tokens each
  have filled : trimSpace rest ≠ [] := by
    intro empty
    rw [empty] at words
    exact some (List.map_eq_nil_iff.mp words.symm)
  have split : exportLine e = e.path ++ ' ' :: rest := by rw [← spaced, exportLine]
  have found : parseExportFile (renderExportFile e) = parseExportLine (exportLine e) := by
    rw [parseExportFile, renderExportFile, Text.scanned_unlines (by decide) (by simpa using single)
      (by simpa using short)]
    simp only [List.cons_append, List.map_cons, trimmed]
    rw [List.find?_cons_of_pos (by simp [exportLine, absolute])]
  have list : parseClientList (trimSpace rest) = .ok e.clients := by
    rw [parseClientList, words, mapM_tokens each]
    exact if_neg some
  rw [found, parseExportLine, split, List.takeWhile_append_of_pos path,
    List.dropWhile_append_of_pos path]
  simp [list, filled, bind, Except.bind]

/-! ### Kerberos -/

/-- A token of the options is `sec=`, in any case. -/
def hasSecValue (opts : Name) : Bool :=
  (Text.split ',' opts).any fun tok => tok.contains '=' && isSec (keyOf tok)

/-- A token of the options is `sec` without a value. -/
def hasBareSec (opts : Name) : Bool :=
  (Text.split ',' opts).any fun tok => !tok.contains '=' && isSec tok

theorem hasSecOption_iff {opts : Name} (solid : Solid opts) :
    hasSecOption opts = true ↔ hasSecValue opts = true ∨ hasBareSec opts = true := by
  simp only [hasSecOption, hasSecValue, hasBareSec, List.any_eq_true, ← exists_or, ← and_or_left]
  refine exists_congr fun tok => and_congr_right fun member => ?_
  rw [Text.trimSpace_eq_self fun c within => solid c (Text.mem_of_mem_split member c within)]
  cases tok with
  | nil => decide
  | cons c more =>
    cases valued : (c :: more).contains '=' with
    | true => simp
    | false =>
      have bare : Text.cut '=' (c :: more) = none :=
        Text.cut_eq_none_iff.mpr (by simpa using valued)
      simp [keyOf, bare]

/-- The rule that is to be stored: `sec=krb5p,` comes first if it is required and not overridden. -/
def ClientRule.expected (requireKerberos : Bool) (c : ClientRule) : ClientRule :=
  if requireKerberos && !hasSecValue c.options then
    { c with options := krb5p ++ ',' :: c.options }
  else c

theorem hasSecValue_default (opts : Name) : hasSecValue (krb5p ++ ',' :: opts) = true := by
  rw [hasSecValue, Text.split_append (by decide), List.any_cons]
  rfl

/-- The options of a rule whose default is accepted. -/
theorem solid_of_default {c : ClientRule} (ok : validateClient c.withDefault = .ok ()) :
    Solid c.options := by
  obtain ⟨-, -, options⟩ := client_ok ok
  rw [ClientRule.withDefault] at options
  intro d member
  refine option_solid (options d ?_)
  split
  · exact member
  · split
    next empty =>
      rw [empty] at member
      cases member
    · exact List.mem_append_right _ (List.mem_cons_of_mem _ member)

theorem default_expected_iff {c : ClientRule} (ok : validateClient c.withDefault = .ok ()) :
    c.withDefault = c.expected true ∧ hasSecValue c.withDefault.options = true ↔
      c.options ≠ [] ∧ (hasBareSec c.options = true → hasSecValue c.options = true) := by
  have option := hasSecOption_iff (solid_of_default ok)
  cases valued : hasSecValue c.options with
  | true =>
    have nonempty : c.options ≠ [] := by
      intro empty
      rw [empty] at valued
      exact absurd valued (by decide)
    have given : hasSecOption c.options = true := option.mpr (.inl valued)
    simp [ClientRule.withDefault, ClientRule.expected, given, valued, nonempty]
  | false =>
    cases bare : hasBareSec c.options with
    | true =>
      have given : hasSecOption c.options = true := option.mpr (.inr bare)
      simp [ClientRule.withDefault, given, valued]
    | false =>
      have given : hasSecOption c.options = false := by
        rw [Bool.eq_false_iff, Ne, option, valued, bare]
        decide
      by_cases empty : c.options = []
      · obtain ⟨spec, options⟩ := c
        change options = [] at empty
        subst empty
        simp [ClientRule.withDefault, ClientRule.expected, given, valued]
      · simp [ClientRule.withDefault, ClientRule.expected, given, valued, empty,
          hasSecValue_default]

/-- An accepted export is read back with the rules that are to be stored, each with a `sec=` option
where Kerberos is required, exactly if then no rule has empty options, which get the default alone,
or an option `sec` without a value in place of one with a value. -/
theorem exports_read_back_iff {requireKerberos : Bool} {steps : Steps} {e : Export}
    {file : Option Name} (accepted : (createExport requireKerberos steps e file).1 = .ok ())
    (short : byteLength (exportLine (applyKerberosDefault requireKerberos e)) < 65536) :
    (∃ text read, (createExport requireKerberos steps e file).2 = some text ∧
      parseExportFile text = .ok read ∧ read.path = e.path ∧
      read.clients = e.clients.map (ClientRule.expected requireKerberos) ∧
      (requireKerberos = true → ∀ c ∈ read.clients, hasSecValue c.options = true)) ↔
    (requireKerberos = true → ∀ c ∈ e.clients,
      c.options ≠ [] ∧ (hasBareSec c.options = true → hasSecValue c.options = true)) := by
  obtain ⟨valid, written⟩ := createExport_ok (Prod.ext accepted rfl)
  have readBack := parseExportFile_render valid short
  have same : (applyKerberosDefault requireKerberos e).path = e.path := by
    unfold applyKerberosDefault
    split <;> rfl
  simp only [written, Option.some.injEq, exists_and_left, exists_eq_left', readBack,
    Except.ok.injEq, same, true_and]
  cases requireKerberos with
  | false =>
    have unchanged : ClientRule.expected false = id := rfl
    simp [applyKerberosDefault, unchanged]
  | true =>
    have each : ∀ c ∈ e.clients, validateClient c.withDefault = .ok () := by
      obtain ⟨⟨⟩, -, valid⟩ := bind_ok valid
      obtain ⟨⟨⟩, -, valid⟩ := bind_ok valid
      obtain ⟨⟨⟩, -, all⟩ := bind_ok valid
      exact fun c member => checkEach_ok all c.withDefault (List.mem_map_of_mem member)
    have pointwise : (∀ c ∈ e.clients, c.withDefault = c.expected true ∧
        hasSecValue c.withDefault.options = true) ↔ ∀ c ∈ e.clients,
          c.options ≠ [] ∧ (hasBareSec c.options = true → hasSecValue c.options = true) :=
      forall₂_congr fun c member => default_expected_iff (each c member)
    simp only [applyKerberosDefault, if_true, true_imp_iff, ← pointwise, List.map_inj_left,
      List.forall_mem_map, ← forall₂_and]

def simple (options : String) : Export :=
  ⟨"docs".toList, "/tank/docs".toList, [⟨"*".toList, options.toList⟩]⟩

theorem simple_read_back : ∃ text read, (createExport true {} (simple "rw") none).2 = some text ∧
    parseExportFile text = .ok read ∧ read.clients = [⟨"*".toList, "sec=krb5p,rw".toList⟩] := by
  have accepted : (createExport true {} (simple "rw") none).1 = .ok () := by decide
  obtain ⟨text, read, written, parsed, -, clients, -⟩ :=
    (exports_read_back_iff accepted (by decide)).mpr fun _ => by decide
  exact ⟨text, read, written, parsed, clients⟩

/-- An export with the option `sec` is stored without Kerberos although it is required. -/
theorem bare_sec_stored : (createExport true {} (simple "rw,sec") none).1 = .ok () ∧
    (createExport true {} (simple "rw,sec") none).2.map parseExportFile =
      some (.ok { path := "/tank/docs".toList, clients := [⟨"*".toList, "rw,sec".toList⟩] }) := by
  decide

end NovaNas.Shares.Nfs
