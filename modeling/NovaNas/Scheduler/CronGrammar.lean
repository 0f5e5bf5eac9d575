import Mathlib.Data.List.Dedup
import NovaNas.Base.Fallible
import NovaNas.Scheduler.Cron

/-!
# What a cron field means

The grammar of a field and the integers it stands for, stated apart from the parser. The
parser agrees with it except on two kinds of items: one that begins with a minus sign is always
taken for a range without a start, and the loop over an item whose start and step add up to more
than the largest integer wraps around and comes back from below.
-/
namespace NovaNas.Scheduler

open Text Fallible

/-! ### The grammar -/

/-- `*`, a number, or two numbers in order. -/
inductive ItemBody (r : FieldRange) : List Char → Int → Int → Prop
  | star : ItemBody r ['*'] r.min r.max
  | value {text : List Char} {n : Int} (read : atoi text = some n) : ItemBody r text n n
  | range {start stop : List Char} {a b : Int} (first : atoi start = some a)
      (last : atoi stop = some b) (ordered : a ≤ b) : ItemBody r (start ++ '-' :: stop) a b

/-- An item counts from `lo` to `hi` in steps, all of it within the range. -/
inductive Item (r : FieldRange) : List Char → Int → Int → Int → Prop
  | plain {body : List Char} {lo hi : Int} (bounds : ItemBody r body lo hi) (lower : r.min ≤ lo)
      (upper : hi ≤ r.max) : Item r body lo hi 1
  | stepped {body step : List Char} {lo hi n : Int} (bounds : ItemBody r body lo hi)
      (read : atoi step = some n) (pos : 0 < n) (lower : r.min ≤ lo) (upper : hi ≤ r.max) :
      Item r (body ++ '/' :: step) lo hi n

def WellFormed (r : FieldRange) (s : List Char) : Prop :=
  s = ['*'] ∨ ∀ part ∈ split ',' s, ∃ lo hi step, Item r part lo hi step

/-- The integers a field stands for; `*` alone is the wildcard and stands for all of them. -/
def Denotes (r : FieldRange) (s : List Char) (v : Int) : Prop :=
  s = ['*'] ∨ ∃ part ∈ split ',' s, ∃ lo hi step,
    Item r part lo hi step ∧ lo ≤ v ∧ v ≤ hi ∧ step ∣ v - lo

/-- The parser accepts exactly the grammar, matches exactly what the field stands for and stores
nothing outside the range. -/
def ParsedExactly (r : FieldRange) (s : List Char) : Prop :=
  ((∃ f, parseField s r = .ok f) ↔ WellFormed r s) ∧
    ∀ f, parseField s r = .ok f →
      (∀ v, f.matches v = true ↔ Denotes r s v) ∧ ∀ v ∈ f.values, r.min ≤ v ∧ v ≤ r.max

/-! ### Reading an item -/

section Items

variable {r : FieldRange} {body part : List Char} {lo hi step : Int}

theorem ItemBody.ne_nil (bounds : ItemBody r body lo hi) : body ≠ [] := by
  cases bounds with
  | star => simp
  | value read =>
    obtain ⟨c, rest, rfl, -, -⟩ := digit_of_atoi read
    simp
  | range first last ordered => simp

theorem ItemBody.head_append (bounds : ItemBody r body lo hi) (rest : List Char) :
    (body ++ rest).head? = body.head? := by
  obtain ⟨c, more, rfl⟩ := List.exists_cons_of_ne_nil bounds.ne_nil
  rfl

theorem ItemBody.no_slash (bounds : ItemBody r body lo hi) : '/' ∉ body := by
  have absent {text : List Char} {n : Int} (read : atoi text = some n) : '/' ∉ text :=
    not_mem_of_atoi read (by decide) (by decide) (.inr (by decide))
  cases bounds with
  | star => simp
  | value read => exact absent read
  | range first last ordered => simp [absent first, absent last]

theorem ItemBody.le (order : r.min ≤ r.max) (bounds : ItemBody r body lo hi) : lo ≤ hi := by
  cases bounds with
  | star => exact order
  | value read => exact le_rfl
  | range first last ordered => exact ordered

theorem parseBody_ok_iff :
    parseBody r body = .ok (lo, hi) ↔ ItemBody r body lo hi ∧ body.head? ≠ some '-' := by
  constructor
  · intro parsed
    unfold parseBody at parsed
    split at parsed
    next star =>
      obtain ⟨rfl, rfl⟩ := Prod.mk.inj (Except.ok.inj parsed)
      exact ⟨star ▸ .star, by simp [star]⟩
    next =>
      split at parsed
      next start stop found =>
        obtain ⟨rfl, absent⟩ := cut_eq_some_iff.mp found
        split at parsed
        next => cases parsed
        next a first =>
          split at parsed
          next => cases parsed
          next b last =>
            split at parsed
            next => cases parsed
            next ordered =>
              obtain ⟨rfl, rfl⟩ := Prod.mk.inj (Except.ok.inj parsed)
              refine ⟨.range first last (not_lt.mp ordered), ?_⟩
              -- A number was read before the sign, so the item does not begin with it.
              obtain ⟨c, rest, rfl, -, -⟩ := digit_of_atoi first
              simp only [List.mem_cons, not_or] at absent
              simpa using Ne.symm absent.1
      next none =>
        split at parsed
        next => cases parsed
        next n read =>
          obtain ⟨rfl, rfl⟩ := Prod.mk.inj (Except.ok.inj parsed)
          refine ⟨.value read, fun front => ?_⟩
          exact cut_eq_none_iff.mp none (List.mem_of_mem_head? front)
  · rintro ⟨bounds, front⟩
    have unsigned {text : List Char} {n : Int} (read : atoi text = some n)
        (front : text.head? ≠ some '-') : '-' ∉ text :=
      not_mem_of_atoi read (by decide) (by decide) (.inl front)
    cases bounds with
    | star => simp [parseBody]
    | value read =>
      have other : body ≠ ['*'] := by
        rintro rfl
        cases read
      have none := cut_eq_none_iff.mpr (unsigned read front)
      simp [parseBody, other, none, read]
    | @range start stop a b first last ordered =>
      have other : start ++ '-' :: stop ≠ ['*'] := by
        simp [List.append_eq_singleton_iff]
      have front : start.head? ≠ some '-' := by
        obtain ⟨c, rest, rfl, -, -⟩ := digit_of_atoi first
        simpa using front
      have found := cut_append (unsigned first front) stop
      simp [parseBody, other, found, first, last, not_lt.mpr ordered]

theorem parseStep_ok_iff {n : Int} :
    parseStep part = .ok (body, n) ↔ part = body ∧ '/' ∉ part ∧ n = 1 ∨
      ∃ step, part = body ++ '/' :: step ∧ '/' ∉ body ∧ atoi step = some n ∧ 0 < n := by
  unfold parseStep
  cases found : cut '/' part with
  | none =>
    have absent := cut_eq_none_iff.mp found
    constructor
    · intro parsed
      obtain ⟨rfl, rfl⟩ := Prod.mk.inj (Except.ok.inj parsed)
      exact .inl ⟨rfl, absent, rfl⟩
    · rintro (⟨rfl, -, rfl⟩ | ⟨step, rfl, -⟩)
      · rfl
      · simp at absent
  | some halves =>
    obtain ⟨front, back⟩ := halves
    obtain ⟨rfl, absent⟩ := cut_eq_some_iff.mp found
    simp only
    constructor
    · intro parsed
      split at parsed
      next => cases parsed
      next m read =>
        split at parsed
        next => cases parsed
        next pos =>
          obtain ⟨rfl, rfl⟩ := Prod.mk.inj (Except.ok.inj parsed)
          exact .inr ⟨back, rfl, absent, read, not_le.mp pos⟩
    · rintro (⟨-, none, -⟩ | ⟨step, same, free, read, pos⟩)
      · simp at none
      · -- The first slash is where the body ends.
        have again := cut_append free step
        rw [← same, found] at again
        obtain ⟨rfl, rfl⟩ := Prod.mk.inj (Option.some.inj again)
        simp [read, not_le.mpr pos]

theorem parsePart_ok_iff {s : List Char} {values : List Int} :
    parsePart s r part = .ok values ↔ part.head? ≠ some '-' ∧
      ∃ lo hi step, Item r part lo hi step ∧ values = stepValues hi step 64 lo := by
  constructor
  · intro parsed
    unfold parsePart at parsed
    split at parsed
    next => cases parsed
    next filled =>
      obtain ⟨⟨body, n⟩, step, parsed⟩ := bind_ok parsed
      obtain ⟨⟨lo, hi⟩, bounds, parsed⟩ := bind_ok parsed
      obtain ⟨bounds, front⟩ := parseBody_ok_iff.mp bounds
      simp only at parsed
      split at parsed
      next => cases parsed
      next inside =>
        cases parsed
        simp only [Bool.or_eq_true, decide_eq_true_eq, not_or, not_lt, gt_iff_lt] at inside
        obtain ⟨rfl, -, rfl⟩ | ⟨text, rfl, -, read, pos⟩ := parseStep_ok_iff.mp step
        · exact ⟨front, lo, hi, 1, .plain bounds inside.1 inside.2, rfl⟩
        · rw [bounds.head_append]
          exact ⟨front, lo, hi, n, .stepped bounds read pos inside.1 inside.2, rfl⟩
  · rintro ⟨front, lo, hi, step, item, rfl⟩
    have assembled {body : List Char} (stepped : parseStep part = .ok (body, step))
        (bounds : ItemBody r body lo hi) (front : body.head? ≠ some '-') (filled : part ≠ [])
        (lower : r.min ≤ lo) (upper : hi ≤ r.max) :
        parsePart s r part = .ok (stepValues hi step 64 lo) := by
      have parsed := parseBody_ok_iff.mpr ⟨bounds, front⟩
      simp [parsePart, filled, stepped, parsed, bind, Except.bind, pure, Except.pure,
        not_lt.mpr lower, not_lt.mpr upper]
    cases item with
    | plain bounds lower upper =>
      exact assembled (parseStep_ok_iff.mpr (.inl ⟨rfl, bounds.no_slash, rfl⟩)) bounds front
        bounds.ne_nil lower upper
    | stepped bounds read pos lower upper =>
      refine assembled (parseStep_ok_iff.mpr (.inr ⟨_, rfl, bounds.no_slash, read, pos⟩)) bounds
        ?_ (by simp) lower upper
      rwa [bounds.head_append] at front

theorem Item.facts (order : r.min ≤ r.max) (item : Item r part lo hi step) :
    r.min ≤ lo ∧ lo ≤ hi ∧ hi ≤ r.max ∧ 0 < step ∧ step ≤ maxInt := by
  cases item with
  | plain bounds lower upper => exact ⟨lower, bounds.le order, upper, by decide, by decide⟩
  | stepped bounds read pos lower upper =>
    exact ⟨lower, bounds.le order, upper, pos, atoi_le read⟩

theorem Item.step_of_plain (absent : '/' ∉ part) (item : Item r part lo hi step) : step = 1 := by
  cases item with
  | plain bounds lower upper => rfl
  | stepped bounds read pos lower upper => simp at absent

end Items

/-! ### The values of an item -/

section Values

variable {hi step : Int}

theorem mem_stepValues_up (pos : 0 < step) (small : hi + step ≤ maxInt) (v : Int) (fuel : Nat)
    (start : Int) (nonneg : 0 ≤ start) (enough : hi - start < fuel) :
    v ∈ stepValues hi step fuel start ↔ start ≤ v ∧ v ≤ hi ∧ step ∣ v - start := by
  induction fuel generalizing start with
  | zero =>
    simp only [stepValues, List.not_mem_nil, false_iff]
    omega
  | succ fuel ih =>
    rw [stepValues]
    split
    next le =>
      rw [bmod_of_fits (by unfold maxInt; omega) (by omega), List.mem_cons,
        ih (start + step) (by omega) (by omega)]
      -- The value is the first, or it lies a whole number of steps behind the second.
      have shift : v - start = v - (start + step) + step := by omega
      constructor
      · rintro (rfl | ⟨lower, upper, multiple⟩)
        · exact ⟨le_rfl, le, by simp⟩
        · exact ⟨by omega, upper, shift ▸ Int.dvd_add multiple (Int.dvd_refl step)⟩
      · rintro ⟨lower, upper, multiple⟩
        by_cases first : v = start
        · exact .inl first
        · have far := Int.le_of_dvd (by omega) multiple
          rw [shift] at multiple
          exact .inr ⟨by omega, upper, (Int.dvd_add_left (Int.dvd_refl step)).mp multiple⟩
    next beyond =>
      simp only [List.not_mem_nil, false_iff]
      omega

theorem mem_stepValues {lo : Int} (nonneg : 0 ≤ lo) (ordered : lo ≤ hi) (small : hi ≤ 59)
    (pos : 0 < step) (fits : lo + step ≤ maxInt) (v : Int) :
    v ∈ stepValues hi step 64 lo ↔ lo ≤ v ∧ v ≤ hi ∧ step ∣ v - lo := by
  by_cases room : hi + step ≤ maxInt
  · exact mem_stepValues_up pos room v 64 lo nonneg (by omega)
  · -- So long a step leaves the range at once.
    have beyond : ¬ lo + step ≤ hi := by
      unfold maxInt at *
      omega
    have single : stepValues hi step 64 lo = [lo] := by
      simp only [stepValues, if_pos ordered,
        bmod_of_fits (show -maxInt - 1 ≤ lo + step by unfold maxInt; omega) fits, if_neg beyond]
    rw [single, List.mem_singleton]
    constructor
    · rintro rfl
      exact ⟨le_rfl, ordered, by simp⟩
    · rintro ⟨lower, upper, multiple⟩
      by_contra other
      have far := Int.le_of_dvd (by omega) multiple
      unfold maxInt at *
      omega

theorem wrapped_mem_stepValues {lo : Int} (ordered : lo ≤ hi) (small : hi ≤ 59)
    (wraps : maxInt < lo + step) (fits : step ≤ maxInt) :
    lo + step - 2 ^ 64 ∈ stepValues hi step 64 lo ∧ lo + step - 2 ^ 64 < 0 := by
  have negative : lo + step - 2 ^ 64 < 0 := by
    unfold maxInt at *
    omega
  refine ⟨?_, negative⟩
  rw [stepValues, if_pos ordered, bmod_of_wraps wraps (by unfold maxInt at *; omega), stepValues,
    if_pos (by unfold maxInt at *; omega)]
  simp

end Values

/-! ### Reading a field -/

theorem scan_iff {v : Int} {l : List Int} (sorted : l.Pairwise (· ≤ ·)) :
    scan v l = true ↔ v ∈ l := by
  induction l with
  | nil => simp [scan]
  | cons x rest ih =>
    obtain ⟨above, tail⟩ := List.pairwise_cons.mp sorted
    rw [scan, List.mem_cons]
    split
    next same => simp [same]
    next other =>
      split
      next greater =>
        -- Nothing behind a greater value can be equal.
        simp only [Bool.false_eq_true, false_iff, not_or]
        exact ⟨Ne.symm other, fun member => absurd (above v member) (by omega)⟩
      next => simp [ih tail, Ne.symm other]

variable {r : FieldRange} {s : List Char}

theorem star_item (r : FieldRange) :
    ∀ part ∈ split ',' ['*'], part = ['*'] ∧ Item r part r.min r.max 1 := by
  intro part member
  obtain rfl : part = ['*'] := by simpa [split] using member
  exact ⟨rfl, .plain .star le_rfl le_rfl⟩

theorem wellFormed_iff :
    WellFormed r s ↔ ∀ part ∈ split ',' s, ∃ lo hi step, Item r part lo hi step := by
  constructor
  · rintro (rfl | items)
    · exact fun part member => ⟨_, _, _, (star_item r part member).2⟩
    · exact items
  · exact .inr

theorem parseField_ok_iff {f : CronField} (other : s ≠ ['*']) :
    parseField s r = .ok f ↔ ∃ parts, (split ',' s).mapM (parsePart s r) = .ok parts ∧
      f = ⟨false, parts.flatten.dedup.insertionSort (· ≤ ·)⟩ := by
  by_cases empty : s = []
  · -- The empty field has one empty item, which is refused as well.
    have refused : ¬ ∃ parts, (split ',' []).mapM (parsePart [] r) = .ok parts := by
      rw [exists_mapM_ok]
      intro each
      obtain ⟨values, parsed⟩ := each [] (by simp [split])
      cases parsed
    subst empty
    constructor
    · intro parsed
      cases parsed
    · rintro ⟨parts, parsed, -⟩
      exact absurd ⟨parts, parsed⟩ refused
  · simp only [parseField, if_neg empty, if_neg other]
    constructor
    · intro parsed
      obtain ⟨parts, each, same⟩ := bind_ok parsed
      exact ⟨parts, each, (Except.ok.inj same).symm⟩
    · rintro ⟨parts, each, rfl⟩
      simp [each, bind, Except.bind, pure, Except.pure]

theorem parseField_accepts_iff :
    (∃ f, parseField s r = .ok f) ↔ ∀ part ∈ split ',' s,
      part.head? ≠ some '-' ∧ ∃ lo hi step, Item r part lo hi step := by
  have each (part : List Char) : (∃ values, parsePart s r part = .ok values) ↔
      part.head? ≠ some '-' ∧ ∃ lo hi step, Item r part lo hi step := by
    simp only [parsePart_ok_iff]
    constructor
    · rintro ⟨_, front, lo, hi, step, item, -⟩
      exact ⟨front, lo, hi, step, item⟩
    · rintro ⟨front, lo, hi, step, item⟩
      exact ⟨_, front, lo, hi, step, item, rfl⟩
  by_cases star : s = ['*']
  · subst star
    refine iff_of_true ⟨⟨true, []⟩, rfl⟩ fun part member => ?_
    obtain ⟨rfl, item⟩ := star_item r part member
    exact ⟨by simp, _, _, _, item⟩
  · simp only [parseField_ok_iff star, ← each, ← exists_mapM_ok]
    constructor
    · rintro ⟨_, parts, parsed, -⟩
      exact ⟨parts, parsed⟩
    · rintro ⟨parts, parsed⟩
      exact ⟨_, parts, parsed, rfl⟩

theorem parsed_values {f : CronField} (other : s ≠ ['*']) (parsed : parseField s r = .ok f) :
    (∀ v, f.matches v = true ↔ v ∈ f.values) ∧
      ∀ v, v ∈ f.values ↔ ∃ part ∈ split ',' s, ∃ lo hi step,
        Item r part lo hi step ∧ v ∈ stepValues hi step 64 lo := by
  have accepted := parseField_accepts_iff.mp ⟨f, parsed⟩
  obtain ⟨parts, each, rfl⟩ := (parseField_ok_iff other).mp parsed
  refine ⟨fun v => ?_, fun v => ?_⟩
  · simp only [CronField.matches, Bool.false_or]
    exact scan_iff (List.pairwise_insertionSort _ _)
  · simp only [List.mem_insertionSort, List.mem_dedup, List.mem_flatten, mem_of_mapM_ok each,
      parsePart_ok_iff]
    constructor
    · rintro ⟨_, ⟨part, member, -, lo, hi, step, item, rfl⟩, inside⟩
      exact ⟨part, member, lo, hi, step, item, inside⟩
    · rintro ⟨part, member, lo, hi, step, item, inside⟩
      exact ⟨_, ⟨part, member, (accepted part member).1, lo, hi, step, item, rfl⟩, inside⟩

/-! ### Where parser and grammar agree -/

/-- No item begins with a minus sign, and none adds up to more than the largest integer. -/
def Ordinary (r : FieldRange) (s : List Char) : Prop :=
  ∀ part ∈ split ',' s, part.head? ≠ some '-' ∧
    ∀ lo hi step, Item r part lo hi step → lo + step ≤ maxInt

theorem used_range (used : r ∈ [rngMinute, rngHour, rngDom, rngMon, rngDow]) :
    0 ≤ r.min ∧ r.min ≤ r.max ∧ r.max ≤ 59 := by
  simp only [List.mem_cons, List.not_mem_nil, or_false] at used
  rcases used with rfl | rfl | rfl | rfl | rfl <;> decide

theorem ParsedExactly.ordinary (bounds : 0 ≤ r.min ∧ r.min ≤ r.max ∧ r.max ≤ 59)
    (exactly : ParsedExactly r s) (formed : WellFormed r s) : Ordinary r s := by
  obtain ⟨nonneg, order, small⟩ := bounds
  obtain ⟨f, parsed⟩ := exactly.1.mpr formed
  intro part member
  refine ⟨(parseField_accepts_iff.mp ⟨f, parsed⟩ part member).1, fun lo hi step item => ?_⟩
  obtain ⟨lower, ordered, upper, pos, fits⟩ := item.facts order
  by_cases star : s = ['*']
  · subst star
    obtain ⟨rfl, -⟩ := star_item r part member
    rw [item.step_of_plain (by decide)]
    unfold maxInt
    omega
  · -- A loop that wraps around stores a negative value.
    by_contra wraps
    obtain ⟨stored, negative⟩ := wrapped_mem_stepValues ordered (by omega) (not_le.mp wraps) fits
    have inside := ((parsed_values star parsed).2 _).mpr ⟨part, member, lo, hi, step, item, stored⟩
    have range := (exactly.2 f parsed).2 _ inside
    omega

theorem Ordinary.exactly (bounds : 0 ≤ r.min ∧ r.min ≤ r.max ∧ r.max ≤ 59)
    (ordinary : WellFormed r s → Ordinary r s) : ParsedExactly r s := by
  obtain ⟨nonneg, order, small⟩ := bounds
  have accepts : (∃ f, parseField s r = .ok f) ↔ WellFormed r s := by
    rw [parseField_accepts_iff]
    constructor
    · exact fun accepted => wellFormed_iff.mpr fun part member => (accepted part member).2
    · exact fun formed part member =>
        ⟨(ordinary formed part member).1, wellFormed_iff.mp formed part member⟩
  refine ⟨accepts, fun f parsed => ?_⟩
  have regular := ordinary (accepts.mp ⟨f, parsed⟩)
  by_cases star : s = ['*']
  · subst star
    obtain rfl : (⟨true, []⟩ : CronField) = f := Except.ok.inj parsed
    exact ⟨fun v => iff_of_true rfl (.inl rfl), by simp⟩
  · obtain ⟨matching, stored⟩ := parsed_values star parsed
    have value (v : Int) : v ∈ f.values ↔ ∃ part ∈ split ',' s, ∃ lo hi step,
        Item r part lo hi step ∧ lo ≤ v ∧ v ≤ hi ∧ step ∣ v - lo := by
      rw [stored]
      refine exists_congr fun part => and_congr_right fun member => exists_congr fun lo =>
        exists_congr fun hi => exists_congr fun step => and_congr_right fun item => ?_
      obtain ⟨lower, ordered, upper, pos, -⟩ := item.facts order
      exact mem_stepValues (by omega) ordered (by omega) pos
        ((regular part member).2 lo hi step item) v
    refine ⟨fun v => ?_, fun v inside => ?_⟩
    · rw [matching, value, Denotes, or_iff_right star]
    · obtain ⟨part, member, lo, hi, step, item, above, below, -⟩ := (value v).mp inside
      obtain ⟨lower, -, upper, -, -⟩ := item.facts order
      exact ⟨by omega, by omega⟩

/-- In the ranges of a cron expression, a field is parsed exactly unless it is well formed and has
an item that begins with a minus sign or whose start and step add up to more than the largest
integer. -/
theorem parsedExactly_iff (used : r ∈ [rngMinute, rngHour, rngDom, rngMon, rngDow]) :
    ParsedExactly r s ↔ (WellFormed r s → Ordinary r s) :=
  ⟨ParsedExactly.ordinary (used_range used), Ordinary.exactly (used_range used)⟩

/-- Two items without a step or a sign are parsed exactly. -/
theorem plain_field_exact :
    rngMinute ∈ [rngMinute, rngHour, rngDom, rngMon, rngDow] ∧
      ParsedExactly rngMinute "1-3,10".toList ∧
      parseField "1-3,10".toList rngMinute = .ok ⟨false, [1, 2, 3, 10]⟩ := by
  refine ⟨by decide, (parsedExactly_iff (by decide)).mpr fun _ part member => ?_,
    by decide +kernel⟩
  have plain : ∀ part ∈ split ',' "1-3,10".toList, part.head? ≠ some '-' ∧ '/' ∉ part := by decide
  refine ⟨(plain part member).1, fun lo hi step item => ?_⟩
  have facts := item.facts (by decide)
  rw [item.step_of_plain (plain part member).2]
  simp only [rngMinute] at facts
  unfold maxInt
  omega

/-- From minute 5 in steps of the largest integer: the field matches minute 3 as well, and stores
a value below the range. -/
theorem wide_step_comes_back :
    let s := "5-59/9223372036854775807".toList
    WellFormed rngMinute s ∧ ∃ f, parseField s rngMinute = .ok f ∧
      f.matches 3 = true ∧ ¬ Denotes rngMinute s 3 ∧ -9223372036854775804 ∈ f.values := by
  intro s
  have parsed : parseField s rngMinute = .ok ⟨false, [-9223372036854775808,
      -9223372036854775806, -9223372036854775804, -1, 1, 3, 5]⟩ := by decide +kernel
  have accepted := parseField_accepts_iff.mp ⟨_, parsed⟩
  refine ⟨wellFormed_iff.mpr fun part member => (accepted part member).2, _, parsed, by decide,
    ?_, by decide⟩
  have whole : split ',' s = [s] := by decide +kernel
  have values : parsePart s rngMinute s = .ok [5, -9223372036854775804, 3, -9223372036854775806, 1,
      -9223372036854775808, -1] := by decide +kernel
  rintro (star | ⟨part, member, lo, hi, step, item, above, below, -⟩)
  · revert star
    decide
  · rw [whole, List.mem_singleton] at member
    subst member
    -- The first value of the only item is where it starts.
    have again : parsePart s rngMinute s = .ok (stepValues hi step 64 lo) := parsePart_ok_iff.mpr
      ⟨(accepted s (by simp [whole])).1, lo, hi, step, item, rfl⟩
    rw [values, Except.ok.injEq, stepValues, if_pos (above.trans below)] at again
    obtain ⟨rfl, -⟩ := List.cons.inj again
    omega

end NovaNas.Scheduler
