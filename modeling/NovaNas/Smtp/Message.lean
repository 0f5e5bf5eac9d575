import NovaNas.Base.Entries
import NovaNas.Base.Lines
import NovaNas.Smtp.Outbox

/-!
# Mail messages

`buildMessage` writes the headers, an empty line and the body, and doubles the dot that a line of the
body starts with. The writer of the transfer doubles it once more, and the server takes only one dot
away, so such a line arrives with a dot too many. The writer also completes line ends: it puts a
carriage return before a line feed that it does not see to follow one.
-/
namespace NovaNas.Smtp

open Text (replaceAll unlines replaceFrom)

abbrev Chars := List Char

def crlf : Chars := ['\r', '\n']

/-- No line end is left in the value of a header. -/
def sanitizeHeader (s : Chars) : Chars :=
  replaceAll (replaceAll s ['\r'] []) ['\n'] [' ']

/-- What `Format` makes of the time. -/
structure Stamp where
  text : Chars
  single : '\n' ∉ text

section Headers

/-! The letter cases of Unicode; nothing is assumed of them. -/
variable (upper lower : Char → Char)

/-- The first byte and the others are converted apart: the bytes of a longer character are no
characters, and each of them is replaced. -/
def titleCase : Chars → Chars
  | [] => []
  | c :: rest =>
    (if c.utf8Size = 1 then [upper c] else List.replicate c.utf8Size '�') ++ rest.map lower

def canonicalHeaderKey (s : Chars) : Chars :=
  Text.join '-' ((Text.split '-' s).map (titleCase upper lower))

/-- The headers that a caller cannot set. -/
def controlled : List Chars := ["From".toList, "To".toList, "Subject".toList]

def setHeader (required : List (Chars × Chars)) (header : String × String) :
    List (Chars × Chars) :=
  let canon := canonicalHeaderKey upper lower header.1.toList
  if controlled.contains canon then required
  else Entries.put canon (sanitizeHeader header.2.toList) required

/-- The well-known headers stay in front, in this order. -/
def wellKnown (sender : Chars) (date : Stamp) (m : Message) : List (Chars × Chars) :=
  [("From".toList, sanitizeHeader sender),
    ("To".toList, sanitizeHeader (", ".toList.intercalate (m.toAddrs.map String.toList))),
    ("Subject".toList, sanitizeHeader m.subject.toList),
    ("Date".toList, date.text),
    ("MIME-Version".toList, "1.0".toList),
    ("Content-Type".toList, "text/plain; charset=utf-8".toList)]

def required (sender : Chars) (date : Stamp) (m : Message) : List (Chars × Chars) :=
  m.headers.foldl (setHeader upper lower) (wellKnown sender date m)

def bodyLines (body : Chars) : List Chars := Text.split '\n' (replaceAll body crlf ['\n'])

/-- A leading dot is doubled. -/
def dotted (l : Chars) : Chars := if l.head? = some '.' then '.' :: l else l

def buildMessage (sender : Chars) (date : Stamp) (m : Message) : Chars :=
  (required upper lower sender date m).flatMap
      (fun field => field.1 ++ ": ".toList ++ field.2 ++ crlf) ++
    crlf ++ (bodyLines m.body.toList).flatMap fun l => dotted l ++ crlf

end Headers

/-! ### The transfer -/

/-- Where the `DotWriter` of textproto is in a line. -/
inductive WriterState where
  | begin | beginLine | cr | data
  deriving DecidableEq, Repr

/-- What is written for a character, and the state after it. -/
def WriterState.write (state : WriterState) (c : Char) : Chars × WriterState :=
  let data :=
    if c = '\r' then ([c], WriterState.cr)
    else if c = '\n' then (['\r', c], .beginLine)
    else ([c], .data)
  match state with
  | .begin | .beginLine => if c = '.' then ('.' :: data.1, data.2) else data
  | .data => data
  -- A carriage return after another one counts as data.
  | .cr => ([c], if c = '\n' then .beginLine else .data)

/-- The line that ends the data. -/
def lastLine : Chars := '.' :: crlf

def WriterState.close : WriterState → Chars
  | .begin | .data => crlf ++ lastLine
  | .cr => '\n' :: lastLine
  | .beginLine => lastLine

/-- What goes out of the writer that `Data` of the client returns, from a state on. -/
def dataWriter (state : WriterState) : Chars → Chars
  | [] => state.close
  | c :: msg => (state.write c).1 ++ dataWriter (state.write c).2 msg

/-- The server takes a leading dot of a line away. -/
def undotted (l : Chars) : Chars := if l.head? = some '.' then l.tail else l

/-- The lines up to the one that ends the data. -/
def served (data : Chars) : Chars :=
  unlines (((Text.split '\n' data).takeWhile fun l => l ≠ ['.', '\r']).map undotted)

/-- The lines after the first empty one. -/
def afterBlank (lines : List Chars) : List Chars := (lines.dropWhile fun l => l ≠ ['\r']).drop 1

def receivedBody (msg : Chars) : Chars :=
  unlines (afterBlank (Text.split '\n' msg).dropLast)

/-- The writer is in the state `cr` after the line, having been in it before or not. -/
def returned (cr : Bool) : Chars → Bool
  | [] => cr
  | c :: l => returned (c = '\r' && !cr) l

/-- The line as the writer completes it. -/
def ended (l : Chars) : Chars := l ++ if returned false l then [] else ['\r']

theorem dataWriter_data {l : Chars} (single : '\n' ∉ l) (cr : Bool) (rest : Chars) :
    dataWriter (if cr then .cr else .data) (l ++ '\n' :: rest) =
      l ++ (if returned cr l then [] else ['\r']) ++ '\n' :: dataWriter .beginLine rest := by
  induction l generalizing cr with
  | nil => cases cr <;> rfl
  | cons c l ih =>
    obtain ⟨other, single⟩ := not_or.mp (mt List.mem_cons.mpr single)
    have next : WriterState.write (if cr then .cr else .data) c =
        ([c], if c = '\r' && !cr then .cr else .data) := by
      cases cr <;> by_cases r : c = '\r' <;> simp [WriterState.write, r, Ne.symm other]
    rw [List.cons_append, dataWriter, next, ih single, returned]
    rfl

theorem dataWriter_line {l : Chars} (single : '\n' ∉ l) {state : WriterState}
    (start : state = .begin ∨ state = .beginLine) (rest : Chars) :
    dataWriter state (l ++ '\n' :: rest) =
      dotted (ended l) ++ '\n' :: dataWriter .beginLine rest := by
  cases l with
  | nil => rcases start with rfl | rfl <;> rfl
  | cons c l =>
    -- After a leading dot the writer goes on as in the middle of a line.
    have first : dataWriter state (c :: (l ++ '\n' :: rest)) = (if c = '.' then ['.'] else []) ++
        dataWriter .data ((c :: l) ++ '\n' :: rest) := by
      rcases start with rfl | rfl <;> by_cases dot : c = '.' <;>
        simp [dataWriter, WriterState.write, dot]
    have rest_ := dataWriter_data single false rest
    rw [List.cons_append, first]
    refine (congrArg _ rest_).trans ?_
    by_cases dot : c = '.' <;> simp [ended, dotted, dot]

theorem dataWriter_unlines {lines : List Chars} (single : ∀ l ∈ lines, '\n' ∉ l) :
    dataWriter .beginLine (unlines lines) =
      unlines (lines.map fun l => dotted (ended l)) ++ lastLine := by
  induction lines with
  | nil => rfl
  | cons l lines ih =>
    obtain ⟨first, others⟩ := List.forall_mem_cons.mp single
    have here := dataWriter_line first (.inr rfl) (unlines lines)
    rw [ih others] at here
    simpa [unlines] using here

theorem undotted_dotted (l : Chars) : undotted (dotted l) = l := by
  unfold dotted
  split
  · rfl
  next plain => exact if_neg plain

theorem dotted_ne_last (l : Chars) : dotted l ≠ ['.', '\r'] := by
  unfold dotted
  split
  next dot =>
    intro same
    rw [(List.cons.inj same).2] at dot
    cases dot
  next plain =>
    rintro rfl
    exact plain rfl

theorem not_mem_dotted {l : Chars} (single : '\n' ∉ l) : '\n' ∉ dotted l := by
  unfold dotted
  split <;> simpa using single

theorem not_mem_ended {l : Chars} (single : '\n' ∉ l) : '\n' ∉ ended l := by
  unfold ended
  split <;> simpa using single

theorem served_unlines {lines : List Chars} (single : ∀ l ∈ lines, '\n' ∉ l) :
    served (unlines (lines.map dotted) ++ lastLine) = unlines lines := by
  have whole : unlines (lines.map dotted) ++ lastLine =
      unlines (lines.map dotted ++ [['.', '\r']]) := by
    simp [unlines, lastLine, crlf]
  have apart : ∀ l ∈ lines.map dotted ++ [['.', '\r']], '\n' ∉ l := by
    intro l member
    rcases List.mem_append.mp member with written | last
    · obtain ⟨l, listed, rfl⟩ := List.mem_map.mp written
      exact not_mem_dotted (single l listed)
    · exact List.mem_singleton.mp last ▸ by decide
  have kept : ∀ l ∈ lines.map dotted, decide (l ≠ ['.', '\r']) = true := by
    simpa using fun l _ => dotted_ne_last l
  rw [served, whole, Text.split_unlines apart, List.append_assoc,
    List.takeWhile_append_of_pos kept]
  simp [Function.comp_def, undotted_dotted]

/-- What the server has of a message are its lines, completed. -/
theorem receivedBody_served {lines : List Chars} (given : lines ≠ [])
    (single : ∀ l ∈ lines, '\n' ∉ l) :
    receivedBody (served (dataWriter .begin (unlines lines))) =
      unlines (afterBlank (lines.map ended)) := by
  have ends : ∀ l ∈ lines.map ended, '\n' ∉ l :=
    List.forall_mem_map.mpr fun l member => not_mem_ended (single l member)
  have written : dataWriter .begin (unlines lines) =
      unlines ((lines.map ended).map dotted) ++ lastLine := by
    cases lines with
    | nil => exact absurd rfl given
    | cons l lines =>
      obtain ⟨first, others⟩ := List.forall_mem_cons.mp single
      have here := dataWriter_line first (.inl rfl) (unlines lines)
      rw [dataWriter_unlines others] at here
      simpa [unlines, Function.comp_def] using here
  rw [written, served_unlines ends, receivedBody, Text.split_unlines ends, List.dropLast_concat]

theorem afterBlank_absent {front : List Chars} (absent : ['\r'] ∉ front) (back : List Chars) :
    afterBlank (front ++ ['\r'] :: back) = back := by
  induction front with
  | nil => rfl
  | cons l front ih =>
    obtain ⟨other, absent⟩ := not_or.mp (mt List.mem_cons.mpr absent)
    rw [List.cons_append, afterBlank, List.dropWhile_cons_of_pos (by simpa using Ne.symm other)]
    exact ih absent

/-- What comes after an earlier empty line has the body in it. -/
theorem afterBlank_mem {front : List Chars} (blank : ['\r'] ∈ front) (back : List Chars) :
    (unlines back).length < (unlines (afterBlank (front ++ ['\r'] :: back))).length := by
  obtain ⟨before, after, rfl, absent⟩ := List.eq_append_cons_of_mem blank
  rw [List.append_assoc, List.cons_append, afterBlank_absent absent]
  simp only [unlines, List.flatMap_append, List.flatMap_cons, List.length_append,
    List.length_cons]
  omega

/-! ### The lines of the body -/

/-- Every line end becomes CRLF. -/
def normalised : Chars → Chars
  | '\r' :: '\n' :: rest => '\r' :: '\n' :: normalised rest
  | '\n' :: rest => '\r' :: '\n' :: normalised rest
  | c :: rest => c :: normalised rest
  | [] => []

theorem flatMap_split (s sep : Chars) : (Text.split '\n' s).flatMap (· ++ sep) =
    s.flatMap (fun c => if c = '\n' then sep else [c]) ++ sep := by
  induction s with
  | nil => simp [Text.split_nil]
  | cons c s ih =>
    rw [Text.split_cons, List.flatMap_cons]
    split
    · rw [List.flatMap_cons, ih]
      simp
    · cases words : Text.split '\n' s with
      | nil => exact absurd words (Text.split_ne_nil _ _)
      | cons word words' =>
        rw [words] at ih
        simpa using ih

theorem unlines_split (s : Chars) : unlines (Text.split '\n' s) = s ++ ['\n'] := by
  have same : ∀ c : Char, (if c = '\n' then ['\n'] else [c]) = [c] := by
    intro c
    split <;> simp_all
  rw [unlines, flatMap_split]
  simp [same]

theorem flatMap_replaceAll (s : Chars) :
    (replaceAll s crlf ['\n']).flatMap (fun c => if c = '\n' then crlf else [c]) =
      normalised s := by
  unfold replaceAll
  induction s using normalised.induct with
  | case1 rest ih => simp [replaceFrom, crlf, normalised, ← ih]
  | case2 rest ih => simp [replaceFrom, crlf, normalised, ← ih]
  | case3 c rest notCrlf notLf ih =>
    have whole : crlf.isPrefixOf (c :: rest) = false := by
      rw [Bool.eq_false_iff, Ne, List.isPrefixOf_iff_prefix]
      rintro ⟨back, same⟩
      cases same
      exact notCrlf back rfl rfl
    have kept : normalised (c :: rest) = c :: normalised rest := by
      rw [normalised]
      · exact notCrlf
      · exact notLf
    have other : c ≠ '\n' := notLf
    rw [replaceFrom, whole, kept, ← ih]
    simp [other]
  | case4 => rfl

theorem bodyLines_crlf (body : Chars) :
    (bodyLines body).flatMap (· ++ crlf) = normalised body ++ crlf := by
  rw [bodyLines, flatMap_split, flatMap_replaceAll]

/-- The line ends in an odd number of carriage returns. -/
def oddReturns (l : Chars) : Bool := (l.reverse.takeWhile (· = '\r')).length % 2 = 1

theorem returned_append (l : Chars) (cr : Bool) (c : Char) :
    returned cr (l ++ [c]) = (c = '\r' && !returned cr l) := by
  induction l generalizing cr with
  | nil => rfl
  | cons d l ih => exact ih _

theorem returned_eq (l : Chars) : returned false l = oddReturns l := by
  induction l using List.reverseRecOn with
  | nil => rfl
  | append_singleton l c ih =>
    rw [returned_append, ih, oddReturns, oddReturns, List.reverse_append]
    by_cases r : c = '\r'
    · rw [Bool.eq_iff_iff]
      simp [r]
      omega
    · simp [r]

theorem returned_dotted (l : Chars) : returned false (dotted l) = returned false l := by
  unfold dotted
  split
  · rfl
  · rfl

/-- A line of the body as it arrives. -/
def arrives (l : Chars) : Chars := ended (dotted l ++ ['\r'])

theorem length_arrives (l : Chars) : (arrives l).length = l.length + 1 +
    (if l.head? = some '.' then 1 else 0) + if oddReturns l then 1 else 0 := by
  rw [arrives, ended, returned_append, returned_dotted, returned_eq, dotted]
  by_cases odd : oddReturns l = true <;> by_cases dot : l.head? = some '.' <;> simp [odd, dot]

theorem length_le_arrives (l : Chars) : (l ++ ['\r']).length ≤ (arrives l).length := by
  rw [length_arrives, List.length_append, List.length_singleton]
  omega

/-- Lines that are not shortened have the same length together only if each has. -/
theorem lengths_of_unlines {f g : Chars → Chars} (longer : ∀ l, (g l).length ≤ (f l).length)
    (lines : List Chars) :
    (unlines (lines.map g)).length ≤ (unlines (lines.map f)).length ∧
      ((unlines (lines.map f)).length = (unlines (lines.map g)).length →
        ∀ l ∈ lines, (f l).length = (g l).length) := by
  induction lines with
  | nil => simp
  | cons l lines ih =>
    have here := longer l
    obtain ⟨least, each⟩ := ih
    simp only [unlines, List.map_cons, List.flatMap_cons, List.length_append] at least each ⊢
    exact ⟨by omega, fun same => List.forall_mem_cons.mpr ⟨by omega, each (by omega)⟩⟩

theorem unlines_arrives_iff (lines : List Chars) :
    unlines (lines.map arrives) = unlines (lines.map (· ++ ['\r'])) ↔
      ∀ l ∈ lines, l.head? ≠ some '.' ∧ oddReturns l = false := by
  constructor
  · intro same l member
    have lengths :=
      (lengths_of_unlines length_le_arrives lines).2 (congrArg List.length same) l member
    rw [length_arrives, List.length_append, List.length_singleton] at lengths
    grind
  · intro plain
    refine congrArg _ (List.map_congr_left fun l member => ?_)
    obtain ⟨dot, odd⟩ := plain l member
    rw [arrives, ended, returned_append, dotted, if_neg dot, returned_eq, odd]
    simp

/-! ### The headers -/

/-- The name of a header has an empty line in it, where a body would start. -/
def opensBody (key : Chars) : Bool :=
  (Text.split '\n' key).dropLast.any fun l => l = [] || l = ['\r']

theorem not_mem_replaceAll {c : Char} {new : Chars} (absent : c ∉ new) (s : Chars) :
    c ∉ replaceAll s [c] new := by
  unfold replaceAll
  induction s with
  | nil => simp [replaceFrom]
  | cons d s ih =>
    rw [replaceFrom]
    split
    · simpa [absent] using ih
    next other =>
      have differs : c ≠ d := by simpa [List.isPrefixOf] using other
      simpa [differs] using ih

theorem sanitizeHeader_single (s : Chars) : '\n' ∉ sanitizeHeader s :=
  not_mem_replaceAll (by decide) _

section Headers

variable (upper lower : Char → Char)

/-- A header that the caller cannot set has no empty line in its name either. -/
theorem opensBody_setHeader (header : String × String) (fields : List (Chars × Chars)) :
    (∀ k ∈ (setHeader upper lower fields header).map (·.1), opensBody k = false) ↔
      opensBody (canonicalHeaderKey upper lower header.1.toList) = false ∧
        ∀ k ∈ fields.map (·.1), opensBody k = false := by
  have own : ∀ k ∈ controlled, opensBody k = false := by decide
  rw [setHeader]
  split
  next listed =>
    exact (and_iff_right (own _ (List.contains_iff_mem.mp listed))).symm
  next =>
    simp only [Entries.mem_keys_put, forall_eq_or_imp]

theorem opensBody_foldl (headers : List (String × String)) (fields : List (Chars × Chars)) :
    (∀ k ∈ (headers.foldl (setHeader upper lower) fields).map (·.1), opensBody k = false) ↔
      (∀ h ∈ headers, opensBody (canonicalHeaderKey upper lower h.1.toList) = false) ∧
        ∀ k ∈ fields.map (·.1), opensBody k = false := by
  induction headers generalizing fields with
  | nil => simp
  | cons h headers ih =>
    rw [List.foldl_cons, ih, opensBody_setHeader, List.forall_mem_cons, ← and_assoc,
      and_comm (a := ∀ h ∈ headers, _)]

theorem opensBody_required (sender : Chars) (date : Stamp) (m : Message) :
    (∀ k ∈ (required upper lower sender date m).map (·.1), opensBody k = false) ↔
      ∀ h ∈ m.headers, opensBody (canonicalHeaderKey upper lower h.1.toList) = false := by
  have known : ∀ k ∈ (wellKnown sender date m).map (·.1), opensBody k = false := by
    simp only [wellKnown, List.map_cons, List.map_nil, List.forall_mem_cons]
    exact ⟨by decide, by decide, by decide, by decide, by decide, by decide, by simp⟩
  rw [required, opensBody_foldl]
  exact and_iff_left known

theorem required_single (sender : Chars) (date : Stamp) (m : Message) :
    ∀ f ∈ required upper lower sender date m, '\n' ∉ f.2 := by
  have known : ∀ f ∈ wellKnown sender date m, '\n' ∉ f.2 := by
    simp only [wellKnown, List.forall_mem_cons]
    exact ⟨sanitizeHeader_single _, sanitizeHeader_single _, sanitizeHeader_single _, date.single,
      by decide, by decide, by simp⟩
  rw [required]
  refine List.foldlRecOn (motive := fun fields => ∀ f ∈ fields, '\n' ∉ f.2) m.headers
    (setHeader upper lower) known fun fields single h _ f member => ?_
  rw [setHeader] at member
  split at member
  · exact single f member
  · rcases Entries.mem_put member with rfl | old
    · exact sanitizeHeader_single _
    · exact single f old

end Headers

/-! ### The body that arrives -/

/-- The lines of a header. -/
def fieldLines (field : Chars × Chars) : List Chars :=
  Text.split '\n' (field.1 ++ (": ".toList ++ field.2 ++ ['\r']))

theorem ended_eq_blank (l : Chars) : ended l = ['\r'] ↔ l = [] ∨ l = ['\r'] := by
  constructor
  · intro blank
    cases l with
    | nil => exact .inl rfl
    | cons c l =>
      rw [ended, List.cons_append, List.cons.injEq, List.append_eq_nil_iff] at blank
      exact .inr (by rw [blank.1, blank.2.1])
  · rintro (rfl | rfl) <;> rfl

theorem blank_mem_fieldLines {field : Chars × Chars} (single : '\n' ∉ field.2) :
    ['\r'] ∈ (fieldLines field).map ended ↔ opensBody field.1 = true := by
  have absent : '\n' ∉ ": ".toList ++ field.2 ++ ['\r'] := by simp [single]
  obtain ⟨last, lines⟩ := Text.split_append_absent field.1 absent
  have colon : ended (last ++ (": ".toList ++ field.2 ++ ['\r'])) ≠ ['\r'] := fun same => by
    have lengths := congrArg List.length same
    simp only [ended, List.length_append, List.length_cons, List.length_nil,
      String.reduceToList] at lengths
    omega
  rw [fieldLines, lines, List.map_append, List.mem_append, List.map_singleton, List.mem_singleton,
    or_iff_left colon.symm, opensBody, List.any_eq_true, List.mem_map]
  simp [ended_eq_blank]

theorem unlines_fields (fields : List (Chars × Chars)) :
    unlines (fields.flatMap fieldLines) =
      fields.flatMap fun field => field.1 ++ ": ".toList ++ field.2 ++ crlf := by
  induction fields with
  | nil => rfl
  | cons field fields ih =>
    have here := unlines_split (field.1 ++ (": ".toList ++ field.2 ++ ['\r']))
    rw [unlines] at ih here
    rw [unlines, List.flatMap_cons, List.flatMap_append, ih, fieldLines, here]
    simp [crlf]

section Message

variable (upper lower : Char → Char) (sender : Chars) (date : Stamp) (m : Message)

def headerLines : List Chars := (required upper lower sender date m).flatMap fieldLines

/-- The lines of the message as the server has them. -/
theorem receivedBody_eq :
    receivedBody (served (dataWriter .begin (buildMessage upper lower sender date m))) =
      unlines (afterBlank ((headerLines upper lower sender date m).map ended ++
        ['\r'] :: (bodyLines m.body.toList).map arrives)) := by
  have message : buildMessage upper lower sender date m =
      unlines (headerLines upper lower sender date m ++
        ['\r'] :: (bodyLines m.body.toList).map fun l => dotted l ++ ['\r']) := by
    have fields := unlines_fields (required upper lower sender date m)
    rw [unlines] at fields
    rw [buildMessage, unlines, List.flatMap_append, headerLines, fields]
    simp [crlf, List.flatMap_map]
  rw [message, receivedBody_served (by simp), List.map_append, List.map_cons, List.map_map]
  · rfl
  intro l member
  rcases List.mem_append.mp member with header | rest
  · obtain ⟨field, -, within⟩ := List.mem_flatMap.mp header
    exact Text.not_mem_of_mem_split within
  rcases List.mem_cons.mp rest with rfl | body
  · decide
  · obtain ⟨l, listed, rfl⟩ := List.mem_map.mp body
    simpa using not_mem_dotted (Text.not_mem_of_mem_split listed)

theorem blank_not_mem_headerLines : ['\r'] ∉ (headerLines upper lower sender date m).map ended ↔
    ∀ h ∈ m.headers, opensBody (canonicalHeaderKey upper lower h.1.toList) = false := by
  simp only [← opensBody_required upper lower sender date m, List.forall_mem_map, headerLines,
    List.map_flatMap, List.mem_flatMap, not_exists, not_and]
  refine forall₂_congr fun field given => ?_
  rw [blank_mem_fieldLines (required_single upper lower sender date m field given),
    Bool.not_eq_true]

/-- The body arrives as it was, with every line end as CRLF and one at its end, exactly if no line of
it starts with a dot or ends in an odd number of carriage returns and no header has an empty line in
its name. -/
theorem body_arrives_iff :
    receivedBody (served (dataWriter .begin (buildMessage upper lower sender date m))) =
      normalised m.body.toList ++ crlf ↔
    (∀ l ∈ bodyLines m.body.toList, l.head? ≠ some '.' ∧ oddReturns l = false) ∧
      ∀ h ∈ m.headers, opensBody (canonicalHeaderKey upper lower h.1.toList) = false := by
  have whole : normalised m.body.toList ++ crlf =
      unlines ((bodyLines m.body.toList).map (· ++ ['\r'])) := by
    rw [← bodyLines_crlf]
    simp [unlines, List.flatMap_map, crlf]
  rw [receivedBody_eq, whole, ← blank_not_mem_headerLines upper lower sender date m]
  by_cases blank : ['\r'] ∈ (headerLines upper lower sender date m).map ended
  · refine iff_of_false (fun same => ?_) fun plain => plain.2 blank
    have longer := afterBlank_mem blank ((bodyLines m.body.toList).map arrives)
    rw [same] at longer
    exact longer.not_ge (lengths_of_unlines length_le_arrives _).1
  · rw [afterBlank_absent blank, unlines_arrives_iff, and_iff_left blank]

end Message

def newYear : Chars := "Thu, 01 Jan 2026 00:00:00 +0000".toList

theorem newYear_single : '\n' ∉ newYear := by decide

theorem dotline_doubled :
    receivedBody (served (dataWriter .begin (buildMessage Char.toUpper Char.toLower
      "nas@example.com".toList ⟨newYear, newYear_single⟩
      ⟨["ops@example.com"], "hello", "body line\n.dotline", []⟩))) =
      "body line\r\n..dotline\r\n".toList := by
  decide +kernel

end NovaNas.Smtp
