import NovaNas.Krb5.ConfLines

/-!
# The file of the ID mapping

`validateIdmapd` checks the domain and the verbosity. The method and the two accounts are written as
they are given, and a value with a comment, a line end or white space at its ends is not read back.
-/
namespace NovaNas.Krb5.Conf

open Fallible (failIf failIf_ok bind_ok)

structure IdmapdConfig where
  domain : Name
  verbosity : Int64 := 0
  method : Name := []
  nobodyUser : Name := []
  nobodyGroup : Name := []
  deriving DecidableEq, Repr

inductive IdmapdError where
  | domainRequired
  | domain (text : Name)
  | verbosity (n : Int64)
  deriving DecidableEq, Repr

def validateIdmapd (cfg : IdmapdConfig) : Except IdmapdError Unit := do
  failIf (cfg.domain = []) .domainRequired
  failIf (isDNSName cfg.domain = false) (.domain cfg.domain)
  failIf (cfg.verbosity < 0 ∨ cfg.verbosity > 9) (.verbosity cfg.verbosity)

def orDefault (value : Name) (default : String) : Name :=
  if value = [] then default.toList else value

/-- The configuration with the defaults for what is empty. -/
def IdmapdConfig.withDefaults (cfg : IdmapdConfig) : IdmapdConfig :=
  { cfg with
    method := orDefault cfg.method "nsswitch"
    nobodyUser := orDefault cfg.nobodyUser "nobody"
    nobodyGroup := orDefault cfg.nobodyGroup "nogroup" }

def renderIdmapdConf (cfg : IdmapdConfig) : Name :=
  Text.unlines ["[General]".toList,
    setting "Verbosity".toList (Text.itoa cfg.verbosity),
    setting "Domain".toList cfg.domain,
    [],
    "[Translation]".toList,
    setting "Method".toList (orDefault cfg.method "nsswitch"),
    [],
    "[Mapping]".toList,
    setting "Nobody-User".toList (orDefault cfg.nobodyUser "nobody"),
    setting "Nobody-Group".toList (orDefault cfg.nobodyGroup "nogroup")]

structure IdmapdReading where
  section_ : Name
  cfg : IdmapdConfig
  deriving DecidableEq, Repr

/-- Keys are compared in small letters. -/
def IdmapdConfig.set (cfg : IdmapdConfig) (sec key v : Name) : IdmapdConfig :=
  if sec = "General".toList then
    if key = "domain".toList then { cfg with domain := v }
    else if key = "verbosity".toList then
      { cfg with verbosity := (Text.atoi64 v).getD cfg.verbosity }
    else cfg
  else if sec = "Translation".toList then
    if key = "method".toList then { cfg with method := v } else cfg
  else if sec = "Mapping".toList then
    if key = "nobody-user".toList then { cfg with nobodyUser := v }
    else if key = "nobody-group".toList then { cfg with nobodyGroup := v }
    else cfg
  else cfg

def IdmapdReading.line (s : IdmapdReading) (raw : Name) : IdmapdReading :=
  match sectionName (cleaned raw) with
  | some name => { s with section_ := name }
  | none =>
    match splitKV (cleaned raw) with
    | some (k, v) => { s with cfg := s.cfg.set s.section_ (Text.toLower k) v }
    | none => s

def parseIdmapdConf (data : Name) : IdmapdConfig :=
  ((Text.split '\n' data).foldl IdmapdReading.line ⟨[], { domain := [] }⟩).cfg

/-! ### What is read -/

/-- The values that are not checked. -/
structure IdmapdConfig.Fine (cfg : IdmapdConfig) : Prop where
  method : Conf.Fine cfg.method
  nobodyUser : Conf.Fine cfg.nobodyUser
  nobodyGroup : Conf.Fine cfg.nobodyGroup

theorem IdmapdConfig.Fine.set {cfg : IdmapdConfig} (fine : cfg.Fine) (sec k : Name) {v : Name}
    (value : Conf.Fine v) : (cfg.set sec k v).Fine := by
  obtain ⟨method, user, group⟩ := fine
  unfold IdmapdConfig.set
  split_ifs <;> constructor <;> assumption

theorem fine_nil : Conf.Fine [] := .of_plain (by simp)

theorem fine_parseIdmapdConf (data : Name) : (parseIdmapdConf data).Fine := by
  have start : (IdmapdReading.mk [] { domain := [] }).cfg.Fine := ⟨fine_nil, fine_nil, fine_nil⟩
  refine List.foldlRecOn (motive := fun s => s.cfg.Fine) (Text.split '\n' data) IdmapdReading.line
    start fun s fine raw member => ?_
  rw [IdmapdReading.line]
  split
  · exact fine
  · split
    next read => exact fine.set _ _ (.of_splitKV (Text.not_mem_of_mem_split member) read)
    next => exact fine

theorem line_setting {key value : Name} (word : isKeyWord key = true) (fine : Fine value)
    (given : value ≠ []) (s : IdmapdReading) :
    s.line (setting key value) = { s with cfg := s.cfg.set s.section_ (Text.toLower key) value } := by
  have word := keyWord_of word
  have clean : cleaned (setting key value) = setting key value := cleaned_setting word fine given 0
  rw [IdmapdReading.line, clean, sectionName_setting word, splitKV_setting word fine]

theorem line_header {raw name : Name} (header : sectionName (cleaned raw) = some name)
    (s : IdmapdReading) : s.line raw = { s with section_ := name } := by
  rw [IdmapdReading.line, header]

theorem orDefault_ne_nil {default : String} (given : default.toList ≠ []) (value : Name) :
    orDefault value default ≠ [] := by
  rw [orDefault]
  split
  · exact given
  next other => exact other

theorem fine_orDefault {value : Name} {default : String}
    (plain_ : default.toList.all plain = true) : Fine (orDefault value default) ↔ Fine value := by
  rw [orDefault]
  split
  next none_ =>
    rw [none_]
    exact iff_of_true (.of_plain (List.all_eq_true.mp plain_)) fine_nil
  next => rfl

/-- An accepted configuration is read back with the defaults for what is empty exactly if the
method and the accounts have no comment, no line end and no white space at their ends. -/
theorem idmapd_read_back_iff {cfg : IdmapdConfig} (valid : validateIdmapd cfg = .ok ()) :
    parseIdmapdConf (renderIdmapdConf cfg) = cfg.withDefaults ↔ cfg.Fine := by
  obtain ⟨_, given, valid⟩ := bind_ok valid
  obtain ⟨_, named, -⟩ := bind_ok valid
  have domainGiven : cfg.domain ≠ [] := failIf_ok given
  have domain : Fine cfg.domain := .of_name (nameChar_of_isDNSName (by simpa using failIf_ok named))
  constructor
  · intro same
    have fine := fine_parseIdmapdConf (renderIdmapdConf cfg)
    rw [same] at fine
    exact ⟨(fine_orDefault (by decide)).mp fine.method, (fine_orDefault (by decide)).mp fine.nobodyUser,
      (fine_orDefault (by decide)).mp fine.nobodyGroup⟩
  · intro fine
    have verbosity : Fine (Text.itoa cfg.verbosity) := .of_plain fun c => plain_of_mem_itoa
    have method : Fine (orDefault cfg.method "nsswitch") := (fine_orDefault (by decide)).mpr fine.method
    have user : Fine (orDefault cfg.nobodyUser "nobody") :=
      (fine_orDefault (by decide)).mpr fine.nobodyUser
    have group : Fine (orDefault cfg.nobodyGroup "nogroup") :=
      (fine_orDefault (by decide)).mpr fine.nobodyGroup
    have single {key : String} {value : Name} (word : isKeyWord key.toList = true)
        (value_ : Fine value) : '\n' ∉ setting key.toList value :=
      setting_single (keyWord_of word) value_
    have blank (s : IdmapdReading) : s.line [] = s := rfl
    have general : sectionName (cleaned "[General]".toList) = some "General".toList := by decide
    have translation : sectionName (cleaned "[Translation]".toList) = some "Translation".toList := by
      decide
    have mapping : sectionName (cleaned "[Mapping]".toList) = some "Mapping".toList := by decide
    rw [parseIdmapdConf, renderIdmapdConf, Text.split_unlines]
    · simp only [List.cons_append, List.nil_append, List.foldl_cons, List.foldl_nil, blank]
      rw [line_header general, line_setting (by decide) verbosity (Text.itoa_ne_nil _),
        line_setting (by decide) domain domainGiven, line_header translation,
        line_setting (by decide) method (orDefault_ne_nil (by decide) _), line_header mapping,
        line_setting (by decide) user (orDefault_ne_nil (by decide) _),
        line_setting (by decide) group (orDefault_ne_nil (by decide) _)]
      change IdmapdConfig.mk cfg.domain ((Text.atoi64 (Text.itoa cfg.verbosity)).getD 0) _ _ _ = _
      rw [Text.atoi64_itoa]
      rfl
    · simp only [List.forall_mem_cons]
      exact ⟨by decide, single (by decide) verbosity, single (by decide) domain, by simp, by decide,
        single (by decide) method, by simp, by decide, single (by decide) user,
        single (by decide) group, by simp⟩

def production : IdmapdConfig :=
  { domain := "example.com".toList, verbosity := 1, nobodyUser := "nfsguest".toList }

theorem production_read_back : parseIdmapdConf (renderIdmapdConf production) =
    { production with method := "nsswitch".toList, nobodyGroup := "nogroup".toList } := by
  have valid : validateIdmapd production = .ok () := by decide +kernel
  have user : "nfsguest".toList.all plain = true := by decide
  exact (idmapd_read_back_iff valid).mpr
    ⟨fine_nil, .of_plain (List.all_eq_true.mp user), fine_nil⟩

/-- An account that sets the domain. -/
def spoofed : IdmapdConfig :=
  { domain := "example.com".toList, nobodyGroup := "nogroup\n[General]\nDomain = evil.org".toList }

theorem account_sets_domain : validateIdmapd spoofed = .ok () ∧
    (parseIdmapdConf (renderIdmapdConf spoofed)).domain = "evil.org".toList := by
  decide +kernel

end NovaNas.Krb5.Conf
