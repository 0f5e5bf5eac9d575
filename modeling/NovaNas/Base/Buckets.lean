import Mathlib.Data.Finset.Max

/-!
# Keeping the earliest of the newest buckets

A bucket function splits a linear order into stretches. `firsts` selects the least element
of every bucket a finite set meets, `newest n` the greatest `n` elements of a set. What the
selection drops never matters to a later selection: it may be repeated, or made after every
new greatest element, without changing its outcome.
-/
namespace NovaNas.Buckets

variable {α β : Type*} [LinearOrder α] [DecidableEq β]

/-- Buckets are stretches of the order. -/
def Stretches (bucket : α → β) : Prop :=
  ∀ x y z, x ≤ y → y ≤ z → bucket x = bucket z → bucket y = bucket x

def firsts (bucket : α → β) (H : Finset α) : Finset α :=
  H.filter fun x => ∀ y ∈ H, bucket y = bucket x → x ≤ y

def newest (n : Nat) (S : Finset α) : Finset α := S.filter fun x => (S.filter (x < ·)).card < n

variable {H : Finset α} {x : α}

theorem mem_firsts {bucket : α → β} :
    x ∈ firsts bucket H ↔ x ∈ H ∧ ∀ y ∈ H, bucket y = bucket x → x ≤ y := by
  simp [firsts]

omit [DecidableEq β] in
theorem mem_newest {n : Nat} {S : Finset α} :
    x ∈ newest n S ↔ x ∈ S ∧ (S.filter (x < ·)).card < n := by
  simp [newest]

theorem newest_subset (n : Nat) (S : Finset α) : newest n S ⊆ S := Finset.filter_subset _ _

theorem firsts_subset (bucket : α → β) (H : Finset α) : firsts bucket H ⊆ H :=
  Finset.filter_subset _ _

/-- Every bucket met has a first element. -/
theorem exists_first (bucket : α → β) (member : x ∈ H) :
    ∃ e ∈ firsts bucket H, bucket e = bucket x ∧ e ≤ x := by
  let own := H.filter fun y => bucket y = bucket x
  have here : x ∈ own := Finset.mem_filter.mpr ⟨member, rfl⟩
  refine ⟨own.min' ⟨x, here⟩, ?_, ?_, own.min'_le x here⟩
  · have inside := Finset.mem_filter.mp (own.min'_mem ⟨x, here⟩)
    refine mem_firsts.mpr ⟨inside.1, fun y hy same => ?_⟩
    exact own.min'_le y (Finset.mem_filter.mpr ⟨hy, same.trans inside.2⟩)
  · exact (Finset.mem_filter.mp (own.min'_mem ⟨x, here⟩)).2

theorem firsts_injective {bucket : α → β} {y : α} (hx : x ∈ firsts bucket H)
    (hy : y ∈ firsts bucket H) (same : bucket x = bucket y) : x = y := by
  obtain ⟨xH, xleast⟩ := mem_firsts.mp hx
  obtain ⟨yH, yleast⟩ := mem_firsts.mp hy
  exact le_antisymm (xleast y yH same.symm) (yleast x xH same)

theorem newest_insert_max (n : Nat) {S : Finset α} {a : α} (above : ∀ x ∈ S, x < a) :
    newest (n + 1) (insert a S) = insert a (newest n S) := by
  have fresh : a ∉ S := fun member => lt_irrefl a (above a member)
  -- `a` has nothing above it and stands above everything else, so each count grows by one.
  ext x
  simp only [mem_newest, Finset.mem_insert]
  constructor
  · rintro ⟨rfl | member, few⟩
    · exact .inl rfl
    · have count : ((insert a S).filter (x < ·)).card = (S.filter (x < ·)).card + 1 := by
        rw [Finset.filter_insert, if_pos (above x member),
          Finset.card_insert_of_notMem (by simp [fresh])]
      exact .inr ⟨member, by omega⟩
  · rintro (rfl | ⟨member, few⟩)
    · refine ⟨.inl rfl, ?_⟩
      have none : (insert x S).filter (x < ·) = ∅ := by
        ext y
        simp only [Finset.mem_filter, Finset.mem_insert, Finset.notMem_empty, iff_false, not_and]
        rintro (rfl | inside)
        · exact lt_irrefl y
        · exact (above y inside).not_gt
      rw [none]
      simp
    · refine ⟨.inr member, ?_⟩
      rw [Finset.filter_insert, if_pos (above x member),
        Finset.card_insert_of_notMem (by simp [fresh])]
      omega

/-- In an increasing list the newest elements stand last. -/
theorem mem_drop_iff_newest (n : Nat) {l : List α} (increasing : l.Pairwise (· < ·)) (x : α) :
    x ∈ l.drop (l.length - n) ↔ x ∈ newest n l.toFinset := by
  -- Induction from the end of the list: the last element is the greatest.
  induction l using List.reverseRecOn generalizing n with
  | nil => simp [newest]
  | append_singleton l a ih =>
    obtain ⟨rest, -, above⟩ := List.pairwise_append.mp increasing
    cases n with
    | zero => simp [newest]
    | succ n =>
      have below : ∀ y ∈ l.toFinset, y < a := fun y hy =>
        above y (List.mem_toFinset.mp hy) a (List.mem_singleton.mpr rfl)
      have set : (l ++ [a]).toFinset = insert a l.toFinset := by
        ext y
        simp
      rw [set, newest_insert_max n below, Finset.mem_insert, ← ih n rest, List.length_append,
        List.length_singleton, Nat.add_sub_add_right, List.drop_append_of_le_length (by omega),
        List.mem_append, List.mem_singleton, or_comm]

theorem card_newest (n : Nat) (S : Finset α) : min n S.card ≤ (newest n S).card := by
  -- Take the greatest element out: it is selected whenever anything is.
  induction S using Finset.induction_on_max generalizing n with
  | empty => simp
  | insert a S above ih =>
    have fresh : a ∉ S := fun member => lt_irrefl a (above a member)
    cases n with
    | zero => simp
    | succ n =>
      have apart : a ∉ newest n S := fun member => fresh (newest_subset n S member)
      rw [newest_insert_max n above, Finset.card_insert_of_notMem fresh,
        Finset.card_insert_of_notMem apart]
      have less := ih n
      omega

/-- An element that is not among the newest lies below `n` that are. -/
theorem newest_above {n : Nat} {S : Finset α} (member : x ∈ S) (dropped : x ∉ newest n S) :
    n ≤ (newest n S).card ∧ ∀ y ∈ newest n S, x < y := by
  have many : n ≤ (S.filter (x < ·)).card := by
    by_contra few
    exact dropped (mem_newest.mpr ⟨member, not_le.mp few⟩)
  have enough := many.trans (Finset.card_le_card (Finset.filter_subset _ S))
  refine ⟨by have := card_newest n S; omega, fun y hy => ?_⟩
  by_contra below
  -- Everything above `x` would lie above `y` as well.
  have more := Finset.card_le_card (show S.filter (x < ·) ⊆ S.filter (y < ·) from fun z hz => by
    simp only [Finset.mem_filter] at hz ⊢
    exact ⟨hz.1, (not_lt.mp below).trans_lt hz.2⟩)
  exact absurd (mem_newest.mp hy).2 (by omega)

/-- Dropping elements outside the selection leaves the selection as it is. -/
theorem newest_firsts_of_subset {bucket : α → β} (stretches : Stretches bucket) (n : Nat)
    {K : Finset α} (sub : K ⊆ H) (kept : newest n (firsts bucket H) ⊆ K) :
    newest n (firsts bucket K) = newest n (firsts bucket H) := by
  have still : newest n (firsts bucket H) ⊆ firsts bucket K := fun x hx =>
    mem_firsts.mpr ⟨kept hx, fun y hy => (mem_firsts.mp (newest_subset n _ hx)).2 y (sub hy)⟩
  -- A first of `K` outside the selection lies below `n` selected elements.
  have low : ∀ x ∈ firsts bucket K, x ∉ newest n (firsts bucket H) →
      n ≤ (newest n (firsts bucket H)).card ∧ ∀ y ∈ newest n (firsts bucket H), x < y := by
    intro x hx out
    obtain ⟨xK, xleast⟩ := mem_firsts.mp hx
    obtain ⟨e, he, same, le⟩ := exists_first bucket (sub xK)
    -- The first of the bucket in `H` is `x` itself if it was kept; if not, a selected element
    -- below `x` would lie between the two and share their bucket.
    by_cases selected : e ∈ newest n (firsts bucket H)
    · have equal := le_antisymm le (xleast e (kept selected) same)
      exact absurd (equal ▸ selected) out
    · obtain ⟨enough, above⟩ := newest_above he selected
      refine ⟨enough, fun y hy => ?_⟩
      by_contra notAbove
      have between := stretches e y x (above y hy).le (not_lt.mp notAbove) same
      exact absurd (firsts_injective (newest_subset n _ hy) he between) (above y hy).ne'
  -- Selected in `K` but not in `H` would mean `n` firsts of `K` above.
  ext x
  constructor
  · intro hx
    by_contra out
    obtain ⟨enough, above⟩ := low x (newest_subset n _ hx) out
    have many := Finset.card_le_card (show newest n (firsts bucket H) ⊆
        (firsts bucket K).filter (x < ·) from fun y hy =>
      Finset.mem_filter.mpr ⟨still hy, above y hy⟩)
    exact absurd (mem_newest.mp hx).2 (by omega)
  · intro hx
    refine mem_newest.mpr ⟨still hx, ?_⟩
    refine lt_of_le_of_lt (Finset.card_le_card fun y hy => ?_) (mem_newest.mp hx).2
    obtain ⟨hyK, above⟩ := Finset.mem_filter.mp hy
    have selected : y ∈ newest n (firsts bucket H) := by
      by_contra out
      exact absurd ((low y hyK out).2 x hx) above.not_gt
    exact Finset.mem_filter.mpr ⟨newest_subset n _ selected, above⟩

/-! ### Numbered buckets -/

section Numbered

variable {γ : Type*} [LinearOrder γ]

/-- The buckets have numbers that grow along the order. -/
structure Numbers (bucket : α → β) (number : α → γ) : Prop where
  mono : Monotone number
  same : ∀ x y, bucket x = bucket y ↔ number x = number y

variable {bucket : α → β} {number : α → γ}

omit [DecidableEq β] in
theorem Numbers.stretches (numbers : Numbers bucket number) : Stretches bucket := by
  intro x y z xy yz ends
  rw [numbers.same] at ends ⊢
  exact le_antisymm (ends ▸ numbers.mono yz) (numbers.mono xy)

/-- The firsts above a first stand for the later buckets that are met, one each. -/
theorem Numbers.card_above (numbers : Numbers bucket number) (first : x ∈ firsts bucket H) :
    ((firsts bucket H).filter (x < ·)).card =
      ((H.image number).filter (number x < ·)).card := by
  have later (y : α) (hy : y ∈ firsts bucket H) : x < y ↔ number x < number y := by
    refine ⟨fun less => lt_of_le_of_ne (numbers.mono less.le) fun equal => ?_,
      fun less => not_le.mp fun le => absurd (numbers.mono le) less.not_ge⟩
    exact less.ne (firsts_injective first hy ((numbers.same x y).mpr equal))
  have images : (H.image number).filter (number x < ·) =
      ((firsts bucket H).filter (x < ·)).image number := by
    ext n
    simp only [Finset.mem_filter, Finset.mem_image]
    constructor
    · rintro ⟨⟨y, hy, rfl⟩, less⟩
      -- A bucket that is met is met by its first element.
      obtain ⟨e, he, own, -⟩ := exists_first bucket hy
      have equal := (numbers.same e y).mp own
      exact ⟨e, ⟨he, (later e he).mpr (equal ▸ less)⟩, equal⟩
    · rintro ⟨y, ⟨hy, less⟩, rfl⟩
      exact ⟨⟨y, firsts_subset _ _ hy, rfl⟩, (later y hy).mp less⟩
  rw [images, Finset.card_image_of_injOn]
  intro y hy z hz equal
  have inside {w : α} (hw : w ∈ (firsts bucket H).filter (x < ·)) := (Finset.mem_filter.mp hw).1
  exact firsts_injective (inside hy) (inside hz) ((numbers.same y z).mpr equal)

end Numbered

/-- A new greatest element adds at most itself to the selection. -/
theorem newest_firsts_insert (bucket : α → β) (n : Nat) {a : α} (above : ∀ x ∈ H, x < a) :
    newest n (firsts bucket (insert a H)) ⊆ insert a (newest n (firsts bucket H)) := by
  intro x hx
  obtain ⟨first, few⟩ := mem_newest.mp hx
  obtain ⟨member, least⟩ := mem_firsts.mp first
  rcases Finset.mem_insert.mp member with rfl | old
  · exact Finset.mem_insert_self _ _
  · refine Finset.mem_insert_of_mem (mem_newest.mpr ⟨mem_firsts.mpr ⟨old, fun y hy => least y
      (Finset.mem_insert_of_mem hy)⟩, lt_of_le_of_lt (Finset.card_le_card fun y hy => ?_) few⟩)
    obtain ⟨yfirst, xy⟩ := Finset.mem_filter.mp hy
    obtain ⟨yH, yleast⟩ := mem_firsts.mp yfirst
    -- A first of the old set stays first: the new element is above it.
    refine Finset.mem_filter.mpr
      ⟨mem_firsts.mpr ⟨Finset.mem_insert_of_mem yH, fun z hz same => ?_⟩, xy⟩
    rcases Finset.mem_insert.mp hz with rfl | hz
    · exact (above y yH).le
    · exact yleast z hz same

/-! ### Several classes at once -/

/-- What a list of classes, each a bucket function with a count, keeps of a set. -/
def keep (classes : List ((α → β) × Nat)) (H : Finset α) : Finset α :=
  H.filter fun x => ∃ cls ∈ classes, x ∈ newest cls.2 (firsts cls.1 H)

theorem mem_keep {classes : List ((α → β) × Nat)} :
    x ∈ keep classes H ↔ ∃ cls ∈ classes, x ∈ newest cls.2 (firsts cls.1 H) := by
  simp only [keep, Finset.mem_filter, and_iff_right_iff_imp]
  rintro ⟨cls, -, selected⟩
  exact firsts_subset _ _ (newest_subset _ _ selected)

variable {classes : List ((α → β) × Nat)}

theorem keep_of_subset (stretches : ∀ cls ∈ classes, Stretches cls.1) {K : Finset α} (sub : K ⊆ H)
    (kept : keep classes H ⊆ K) : keep classes K = keep classes H := by
  ext x
  simp only [mem_keep]
  constructor
  · rintro ⟨cls, member, selected⟩
    refine ⟨cls, member, ?_⟩
    rwa [← newest_firsts_of_subset (stretches cls member) cls.2 sub
      (fun y hy => kept (mem_keep.mpr ⟨cls, member, hy⟩))]
  · rintro ⟨cls, member, selected⟩
    refine ⟨cls, member, ?_⟩
    rwa [newest_firsts_of_subset (stretches cls member) cls.2 sub
      (fun y hy => kept (mem_keep.mpr ⟨cls, member, hy⟩))]

/-- Keeping twice keeps the same. -/
theorem keep_keep (stretches : ∀ cls ∈ classes, Stretches cls.1) (H : Finset α) :
    keep classes (keep classes H) = keep classes H :=
  keep_of_subset stretches (Finset.filter_subset _ _) (fun _ hx => hx)

/-- It makes no difference to a new greatest element whether its predecessors were pruned. -/
theorem keep_insert_keep (stretches : ∀ cls ∈ classes, Stretches cls.1) {a : α}
    (above : ∀ x ∈ H, x < a) :
    keep classes (insert a (keep classes H)) = keep classes (insert a H) := by
  apply keep_of_subset stretches (Finset.insert_subset_insert a (Finset.filter_subset _ _))
  intro x hx
  obtain ⟨cls, member, selected⟩ := mem_keep.mp hx
  rcases Finset.mem_insert.mp (newest_firsts_insert cls.1 cls.2 above selected) with rfl | old
  · exact Finset.mem_insert_self _ _
  · exact Finset.mem_insert_of_mem (mem_keep.mpr ⟨cls, member, old⟩)

end NovaNas.Buckets
