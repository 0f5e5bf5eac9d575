import NovaNas.Base.Sorting

/-!
# Pages and cursors

A listing is read page by page. An answer has the rows of a page and a cursor, which is the text to
ask for the next page with; the empty text asks for the first page and ends the listing.
-/
namespace NovaNas.Paging

structure Page (α : Type) where
  items : List α
  nextCursor : List Char
  deriving DecidableEq, Repr

variable {α : Type} {fetch : List Char → Page α} {cursor : List Char} {rows rows' : List α}

/-- The requests from a cursor on come to an end, and the rows are those of all their pages. -/
inductive Follows (fetch : List Char → Page α) : List Char → List α → Prop
  | last {cursor : List Char} (ends : (fetch cursor).nextCursor = []) :
      Follows fetch cursor (fetch cursor).items
  | more {cursor : List Char} {rows : List α} (goes : (fetch cursor).nextCursor ≠ [])
      (rest : Follows fetch (fetch cursor).nextCursor rows) :
      Follows fetch cursor ((fetch cursor).items ++ rows)

theorem Follows.of_last (ends : (fetch cursor).nextCursor = [])
    (follows : Follows fetch cursor rows) : rows = (fetch cursor).items := by
  cases follows with
  | last _ => rfl
  | more goes _ => exact absurd ends goes

theorem Follows.of_more (goes : (fetch cursor).nextCursor ≠ [])
    (follows : Follows fetch cursor rows) : ∃ rest,
      rows = (fetch cursor).items ++ rest ∧ Follows fetch (fetch cursor).nextCursor rest := by
  cases follows with
  | last ends => exact absurd ends goes
  | more _ rest => exact ⟨_, rfl, rest⟩

theorem Follows.of_pages {next : List Char} {xs ys : List α} (first : fetch cursor = ⟨xs, next⟩)
    (goes : next ≠ []) (second : Follows fetch next ys) : Follows fetch cursor (xs ++ ys) := by
  have items : (fetch cursor).items = xs := by rw [first]
  have onward : (fetch cursor).nextCursor = next := by rw [first]
  exact items ▸ .more (onward ▸ goes) (onward ▸ second)

theorem Follows.of_page {xs : List α} (only : fetch cursor = ⟨xs, []⟩) :
    Follows fetch cursor xs := by
  have items : (fetch cursor).items = xs := by rw [only]
  exact items ▸ .last (by rw [only])

theorem Follows.items_subset (follows : Follows fetch cursor rows) :
    ∀ row ∈ (fetch cursor).items, row ∈ rows := by
  cases follows with
  | last _ => exact fun _ member => member
  | more _ _ => exact fun _ member => List.mem_append_left _ member

theorem Follows.unique (first : Follows fetch cursor rows) (second : Follows fetch cursor rows') :
    rows = rows' := by
  induction first generalizing rows' with
  | last ends => exact (second.of_last ends).symm
  | more goes _ ih =>
    obtain ⟨rest, rfl, follows⟩ := second.of_more goes
    rw [ih follows]

theorem Follows.of_same_page {cursor' : List Char} (same : fetch cursor = fetch cursor')
    (follows : Follows fetch cursor rows) : Follows fetch cursor' rows := by
  cases follows with
  | last ends => exact same ▸ .last (same ▸ ends)
  | more goes rest => exact same ▸ .more (same ▸ goes) (same ▸ rest)

/-- Requests that never leave a set of cursors do not come to an end. -/
theorem not_follows (closed : List Char → Prop)
    (step : ∀ c, closed c → (fetch c).nextCursor ≠ [] ∧ closed (fetch c).nextCursor)
    (start : closed cursor) : ¬Follows fetch cursor rows := by
  intro follows
  induction follows with
  | last ends => exact (step _ start).1 ends
  | more _ _ ih => exact ih (step _ start).2

/-- The requests yield the rows that a cursor stands for, if each page is made of the first of them
and its cursor stands for the others. -/
theorem Follows.of_stands (stands : List Char → List α → Prop)
    (step : ∀ c rest, stands c rest →
      ((fetch c).nextCursor = [] ∧ rest = (fetch c).items) ∨
      ((fetch c).nextCursor ≠ [] ∧ (fetch c).items ≠ [] ∧ ∃ rest',
        rest = (fetch c).items ++ rest' ∧ stands (fetch c).nextCursor rest'))
    (start : stands cursor rows) : Follows fetch cursor rows := by
  -- Each page but the last has rows, so that fewer and fewer are left.
  induction size : rows.length using Nat.strong_induction_on generalizing cursor rows with
  | _ n ih =>
    rcases step cursor rows start with ⟨ends, rfl⟩ | ⟨goes, some, rest, rfl, stands⟩
    · exact .last ends
    · refine .more goes (ih rest.length ?_ stands rfl)
      have pos := List.length_pos_iff.mpr some
      rw [← size, List.length_append]
      omega

/-- The cursors that are given out are answered without an error. -/
def Answers {ε : Type} (request : List Char → Except ε (Page α)) (fetch : List Char → Page α)
    (issued : List Char → Prop) : Prop :=
  issued [] ∧ ∀ cursor, issued cursor → request cursor = .ok (fetch cursor) ∧
    ((fetch cursor).nextCursor ≠ [] → issued (fetch cursor).nextCursor)

/-- Requests with the cursors that are answered without an error, up to the end. -/
def Yields {ε : Type} (request : List Char → Except ε (Page α)) (rows : List α) : Prop :=
  ∃ fetch issued, Answers request fetch issued ∧ Follows fetch [] rows

theorem Answers.yields_iff {ε : Type} {request : List Char → Except ε (Page α)}
    {issued : List Char → Prop} (answers : Answers request fetch issued) :
    Yields request rows ↔ Follows fetch [] rows := by
  constructor
  · rintro ⟨fetch', issued', answers', follows⟩
    -- Both name the same page for a cursor that is given out.
    suffices general : ∀ cursor, issued cursor → issued' cursor → Follows fetch' cursor rows →
        Follows fetch cursor rows from general [] answers.1 answers'.1 follows
    intro cursor given given' follows
    clear * - answers answers' given given' follows
    induction follows with
    | @last cursor ends =>
      have same : fetch' cursor = fetch cursor := Except.ok.inj
        ((answers'.2 cursor given').1.symm.trans (answers.2 cursor given).1)
      rw [same] at ends ⊢
      exact .last ends
    | @more cursor rows goes _ ih =>
      have same : fetch' cursor = fetch cursor := Except.ok.inj
        ((answers'.2 cursor given').1.symm.trans (answers.2 cursor given).1)
      have next' := (answers'.2 cursor given').2 goes
      rw [same] at goes ih next' ⊢
      exact .more goes (ih ((answers.2 cursor given).2 goes) next')
  · exact fun follows => ⟨fetch, issued, answers, follows⟩

theorem yields_iff {ε : Type} {request : List Char → Except ε (Page α)}
    (answered : ∀ cursor, request cursor = .ok (fetch cursor)) :
    Yields request rows ↔ Follows fetch [] rows := by
  have answers : Answers request fetch fun _ => True :=
    ⟨trivial, fun cursor _ => ⟨answered cursor, fun _ => trivial⟩⟩
  exact answers.yields_iff

/-! ### Rows after a row -/

section Keyset

variable {κ : Type} [LinearOrder κ] {key : α → κ} {front back : List α} {row : α}

/-- The rows with their keys in descending order. -/
def Descending (key : α → κ) (rows : List α) : Prop := rows.Pairwise fun a b => key b < key a

theorem Descending.filter (descending : Descending key rows) (p : α → Bool) :
    Descending key (rows.filter p) := List.Pairwise.filter p descending

theorem Descending.eq_of_perm (descending : Descending key rows)
    (descending' : Descending key rows') (perm : rows.Perm rows') : rows = rows' :=
  perm.eq_of_pairwise (fun _ _ _ _ less greater => absurd less greater.asymm) descending
    descending'

/-- `ORDER BY key DESC` -/
def newestFirst (key : α → κ) (rows : List α) : List α :=
  Sorting.sortBy (fun row => OrderDual.toDual (key row)) rows

theorem newestFirst_perm (key : α → κ) (rows : List α) : (newestFirst key rows).Perm rows :=
  Sorting.sortBy_perm _ _

theorem descending_newestFirst (distinct : (rows.map key).Nodup) :
    Descending key (newestFirst key rows) := by
  have sorted := Sorting.pairwise_sortBy (fun row => OrderDual.toDual (key row)) rows
  have nodup : ((newestFirst key rows).map key).Nodup :=
    ((newestFirst_perm key rows).map key).nodup_iff.mpr distinct
  refine (sorted.and (List.pairwise_map.mp nodup)).imp fun both => ?_
  exact lt_of_le_of_ne (OrderDual.toDual_le_toDual.mp both.1) both.2.symm

/-- It does not matter whether the rows are chosen before they are put in order or after. -/
theorem newestFirst_filter (distinct : (rows.map key).Nodup) (p : α → Bool) :
    newestFirst key (rows.filter p) = (newestFirst key rows).filter p := by
  have fewer : ((rows.filter p).map key).Nodup := distinct.sublist (List.filter_sublist.map key)
  refine (descending_newestFirst fewer).eq_of_perm ((descending_newestFirst distinct).filter p) ?_
  exact (newestFirst_perm key _).trans ((newestFirst_perm key rows).filter p).symm

/-- In descending order, the rows with keys below that of one are those after it. -/
theorem Descending.below (descending : Descending key (front ++ row :: back)) :
    (front ++ row :: back).filter (fun r => key r < key row) = back := by
  obtain ⟨-, right, across⟩ := List.pairwise_append.mp descending
  obtain ⟨below, -⟩ := List.pairwise_cons.mp right
  have gone : front.filter (fun r => key r < key row) = [] := by
    refine List.filter_eq_nil_iff.mpr fun r member => ?_
    simpa using (across r member row List.mem_cons_self).le
  have kept : back.filter (fun r => key r < key row) = back := by
    refine List.filter_eq_self.mpr fun r member => ?_
    simpa using below r member
  rw [List.filter_append, gone, List.nil_append, List.filter_cons_of_neg (by simp), kept]

end Keyset

/-! ### Pages of rows that are looked through

A page looks at the next `window` rows and takes the first `size` of those to be shown. Its cursor
is that of its last row, if it is full. A cursor that the server does not understand asks for the
first page. -/

section Window

variable (shown : α → Bool) (size window : Nat) (cursorOf : α → List Char) (understood : α → Bool)

def pageFrom (rest : List α) : Page α :=
  let items := ((rest.take window).filter shown).take size
  ⟨items, if items.length = size then (items.getLast?.map cursorOf).getD [] else []⟩

/-- The answers are pages of the rows, from the first row or from the one after a cursor's. -/
structure Serves (fetch : List Char → Page α) (all : List α) : Prop where
  first : fetch [] = pageFrom shown size window cursorOf all
  next : ∀ front row back, all = front ++ row :: back → shown row = true →
    cursorOf row ≠ [] ∧ fetch (cursorOf row) =
      if understood row then pageFrom shown size window cursorOf back else fetch []

/-- The rows after the first `n` that are shown. -/
def afterShown : Nat → List α → List α
  | 0, rows => rows
  | _ + 1, [] => []
  | n + 1, row :: rows => if shown row then afterShown n rows else afterShown (n + 1) rows

/-- The next rows to be shown, as many as a page has, are among those looked at. -/
def Near (rest : List α) : Prop :=
  (rest.filter shown).take size = ((rest.take window).filter shown).take size

/-- Every page finds its rows. -/
def AllNear (rest : List α) : Prop :=
  ∀ pages, Near shown size window (afterShown shown (pages * size) rest)

/-- The cursors of the rows that end a full page are understood. -/
def Marked (rows : List α) : Prop :=
  ∀ pages row, rows[pages * size + (size - 1)]? = some row → understood row = true

variable {shown size window cursorOf understood} {all rest front : List α}

theorem afterShown_nil (n : Nat) : afterShown shown n [] = [] := by
  cases n <;> rfl

theorem afterShown_add (m n : Nat) (rows : List α) :
    afterShown shown (m + n) rows = afterShown shown n (afterShown shown m rows) := by
  induction rows generalizing m with
  | nil => simp [afterShown_nil]
  | cons row rows ih =>
    cases m with
    | zero => simp [afterShown]
    | succ m =>
      have next : m + 1 + n = m + n + 1 := by omega
      rw [next, afterShown, afterShown]
      split
      · exact ih m
      · rw [← next]
        exact ih (m + 1)

/-- With fewer rows to be shown there is nothing after them. -/
theorem afterShown_of_few {n : Nat} (few : (rest.filter shown).length < n) :
    afterShown shown n rest = [] := by
  induction rest generalizing n with
  | nil => exact afterShown_nil n
  | cons row rest ih =>
    cases n with
    | zero => simp at few
    | succ n =>
      rw [afterShown]
      split
      next visible =>
        rw [List.filter_cons_of_pos visible, List.length_cons] at few
        exact ih (by omega)
      next hidden =>
        rw [List.filter_cons_of_neg hidden] at few
        exact ih few

/-- The rows that are shown come to an end with some row, after which the others are. -/
theorem split_shown {n : Nat} (enough : n < (rest.filter shown).length) : ∃ front row,
    rest = front ++ row :: afterShown shown (n + 1) rest ∧ shown row = true ∧
      (rest.filter shown).take (n + 1) = front.filter shown ++ [row] := by
  induction rest generalizing n with
  | nil => simp at enough
  | cons first rest ih =>
    by_cases visible : shown first = true
    · rw [List.filter_cons_of_pos visible] at enough ⊢
      cases n with
      | zero => exact ⟨[], first, by simp [afterShown, visible], visible, by simp⟩
      | succ n =>
        obtain ⟨front, row, split, last, taken⟩ := ih (by simpa using enough)
        refine ⟨first :: front, row, ?_, last, ?_⟩
        · rw [afterShown, if_pos visible, List.cons_append, ← split]
        · rw [List.take_succ_cons, taken, List.filter_cons_of_pos visible, List.cons_append]
    · rw [List.filter_cons_of_neg visible] at enough ⊢
      obtain ⟨front, row, split, last, taken⟩ := ih enough
      refine ⟨first :: front, row, ?_, last, ?_⟩
      · rw [afterShown, if_neg visible, List.cons_append, ← split]
      · rw [taken, List.filter_cons_of_neg visible]

theorem allNear_iff : AllNear shown size window rest ↔
    Near shown size window rest ∧ AllNear shown size window (afterShown shown size rest) := by
  have shift (pages : Nat) : afterShown shown ((pages + 1) * size) rest =
      afterShown shown (pages * size) (afterShown shown size rest) := by
    rw [← afterShown_add, Nat.succ_mul, Nat.add_comm]
  constructor
  · intro near
    refine ⟨by simpa [afterShown] using near 0, fun pages => ?_⟩
    rw [← shift]
    exact near (pages + 1)
  · rintro ⟨here, later⟩ pages
    cases pages with
    | zero => simpa [afterShown] using here
    | succ pages =>
      rw [shift]
      exact later pages

/-- A full page has found its rows. -/
theorem near_of_full (full : (((rest.take window).filter shown).take size).length = size) :
    Near shown size window rest := by
  have first : (rest.take window).filter shown <+: rest.filter shown :=
    (List.take_prefix window rest).filter shown
  rw [Near, List.prefix_iff_eq_take.mp first, List.take_take, Nat.min_eq_left]
  rw [List.length_take] at full
  omega

/-- A page that is not full has all rows to be shown exactly if it has found those it could have. -/
theorem allNear_of_short
    (short : (((rest.take window).filter shown).take size).length < size) :
    AllNear shown size window rest ↔
      rest.filter shown = ((rest.take window).filter shown).take size := by
  rw [allNear_iff]
  constructor
  · rintro ⟨near, -⟩
    rw [← near, List.length_take] at short
    rw [← near, List.take_of_length_le (by omega)]
  · intro whole
    have few : (rest.filter shown).length < size := whole ▸ short
    refine ⟨by rw [Near, ← whole, List.take_of_length_le few.le], fun pages => ?_⟩
    rw [afterShown_of_few few, afterShown_nil]
    simp [Near]

theorem marked_of_short (short : rows.length < size) : Marked size understood rows := by
  intro pages row last
  have bound := (List.getElem?_eq_some_iff.mp last).1
  have := Nat.le_add_left (size - 1) (pages * size)
  omega

/-- The row that ends the first page, and those of the others. -/
theorem marked_append {page : List α} {row : α} (length : (page ++ [row]).length = size) :
    Marked size understood (page ++ [row] ++ rest) ↔
      understood row = true ∧ Marked size understood rest := by
  have later (pages : Nat) : (page ++ [row] ++ rest)[(pages + 1) * size + (size - 1)]? =
      rest[pages * size + (size - 1)]? := by
    rw [Nat.succ_mul, Nat.add_right_comm, ← length, List.getElem?_append_right (by omega),
      Nat.add_sub_cancel]
  have first : (page ++ [row] ++ rest)[0 * size + (size - 1)]? = some row := by
    rw [← length]
    simp
  constructor
  · intro marked
    exact ⟨marked 0 row first, fun pages row' last => marked (pages + 1) row' (later pages ▸ last)⟩
  · rintro ⟨here, marked⟩ pages row' last
    cases pages with
    | zero =>
      cases first.symm.trans last
      exact here
    | succ pages => exact marked pages row' (later pages ▸ last)

variable (cursorOf) in
/-- A page is full and found its rows, or it is the last one. -/
theorem pageFrom_cases (pos : 0 < size) (rest : List α) :
    (∃ front row, Near shown size window rest ∧ shown row = true ∧
      rest = front ++ row :: afterShown shown size rest ∧
      (front.filter shown ++ [row]).length = size ∧
      pageFrom shown size window cursorOf rest = ⟨front.filter shown ++ [row], cursorOf row⟩) ∨
    ((((rest.take window).filter shown).take size).length < size ∧
      pageFrom shown size window cursorOf rest =
        ⟨((rest.take window).filter shown).take size, []⟩) := by
  by_cases full : (((rest.take window).filter shown).take size).length = size
  · left
    have near := near_of_full full
    rw [pageFrom, if_pos full, ← near]
    rw [← near] at full
    have enough : size - 1 < (rest.filter shown).length := by
      rw [List.length_take] at full
      omega
    obtain ⟨front, row, parts, visible, taken⟩ := split_shown enough
    rw [Nat.sub_add_cancel pos] at parts taken
    rw [taken] at full ⊢
    exact ⟨front, row, near, visible, parts, full, by simp⟩
  · right
    exact ⟨lt_of_le_of_ne (List.length_take_le _ _) full, by rw [pageFrom, if_neg full]⟩

/-- The pages have all rows to be shown exactly when every page finds its rows and its cursor is
understood. -/
theorem Serves.follows_iff (serves : Serves shown size window cursorOf understood fetch all)
    (pos : 0 < size) :
    Follows fetch [] (all.filter shown) ↔
      AllNear shown size window all ∧ Marked size understood (all.filter shown) := by
  -- The induction is on the rows a page starts with, whatever its cursor. A cursor that is not
  -- understood would make the listing a part of itself.
  suffices general : ∀ n rest front cursor, rest.length = n → all = front ++ rest →
      fetch cursor = pageFrom shown size window cursorOf rest →
      (AllNear shown size window rest ∧ Marked size understood (rest.filter shown) →
        Follows fetch cursor (rest.filter shown)) ∧
      (Follows fetch [] (all.filter shown) → Follows fetch cursor (rest.filter shown) →
        AllNear shown size window rest ∧ Marked size understood (rest.filter shown)) by
    obtain ⟨enough, needed⟩ := general _ all [] [] rfl rfl serves.first
    exact ⟨fun follows => needed follows follows, enough⟩
  intro n
  induction n using Nat.strong_induction_on with
  | _ n ih =>
    rintro rest front cursor rfl split page
    rcases pageFrom_cases cursorOf pos rest with
      ⟨front', row, near, visible, parts, length, full⟩ | ⟨short, last⟩
    · rw [allNear_iff]
      generalize afterShown shown size rest = back at parts ⊢
      obtain ⟨goes, next⟩ := serves.next (front ++ front') row back
        (by rw [split, List.append_assoc, ← parts]) visible
      have fewer : back.length < rest.length := by
        rw [parts, List.length_append, List.length_cons]
        omega
      have items : rest.filter shown = front'.filter shown ++ [row] ++ back.filter shown := by
        rw [parts]
        simp [visible]
      rw [full] at page
      rw [items, marked_append length]
      by_cases read : understood row = true
      · rw [if_pos read] at next
        obtain ⟨enough, needed⟩ := ih back.length fewer back (front ++ front' ++ [row])
          (cursorOf row) rfl (by simp [split, parts]) next
        constructor
        · rintro ⟨⟨-, later⟩, -, marked⟩
          exact .of_pages page goes (enough ⟨later, marked⟩)
        · intro whole follows
          obtain ⟨others, same, onward⟩ := follows.of_more (by rw [page]; exact goes)
          rw [page] at same onward
          obtain ⟨later, marked⟩ := needed whole (List.append_cancel_left same ▸ onward)
          exact ⟨⟨near, later⟩, read, marked⟩
      · rw [if_neg read] at next
        refine ⟨fun ⟨_, marked, _⟩ => absurd marked read, fun whole follows => ?_⟩
        obtain ⟨others, same, onward⟩ := follows.of_more (by rw [page]; exact goes)
        rw [page] at same onward
        -- The rows after this one would be all rows.
        have again := (onward.of_same_page next).unique whole
        rw [← List.append_cancel_left same, split, List.filter_append, items] at again
        have lengths := congrArg List.length again
        simp only [List.length_append, List.length_singleton] at lengths
        omega
    · rw [last] at page
      rw [allNear_of_short short]
      constructor
      · rintro ⟨whole, -⟩
        rw [whole]
        exact .of_page page
      · intro _ follows
        have same := follows.of_last (by rw [page])
        rw [page] at same
        exact ⟨same, marked_of_short (same ▸ short)⟩

/-- Every full page of the rows as they are has only rows to be shown, or none to be shown is behind
it. -/
def Unbroken (shown : α → Bool) (size : Nat) (all : List α) : Prop :=
  ∀ front page back, all = front ++ (page ++ back) → size ∣ front.length → page.length = size →
    (∀ row ∈ page, shown row = true) ∨ ∀ row ∈ back, shown row = false

theorem afterShown_of_shown (visible : ∀ row ∈ front, shown row = true) :
    afterShown shown front.length (front ++ rest) = rest := by
  induction front with
  | nil => simp [afterShown]
  | cons row front ih =>
    obtain ⟨first, later⟩ := List.forall_mem_cons.mp visible
    rw [List.length_cons, List.cons_append, afterShown, if_pos first, ih later]

theorem unbroken_append (visible : ∀ row ∈ front, shown row = true) (length : front.length = size) :
    Unbroken shown size (front ++ rest) ↔ Unbroken shown size rest := by
  constructor
  · intro unbroken front' page back split whole
    exact unbroken (front ++ front') page back (by rw [split, List.append_assoc])
      (by rw [List.length_append, length]; exact Nat.dvd_add (Nat.dvd_refl size) whole)
  · intro unbroken front' page back split whole full
    by_cases start : front'.length = 0
    · rw [List.length_eq_zero_iff.mp start, List.nil_append] at split
      obtain ⟨rfl, -⟩ := List.append_inj split (length.trans full.symm)
      exact .inl visible
    · obtain ⟨more, rfl, rest'⟩ :
          ∃ more, front' = front ++ more ∧ rest = more ++ (page ++ back) := by
        rcases List.append_eq_append_iff.mp split with ⟨more, same, rest⟩ | ⟨more, same, rest⟩
        · exact ⟨more, same, rest⟩
        have le := Nat.le_of_dvd (Nat.pos_of_ne_zero start) whole
        have short : more = [] := by
          have := congrArg List.length same
          rw [List.length_append, length] at this
          exact List.length_eq_zero_iff.mp (by omega)
        subst short
        exact ⟨[], by simpa using same.symm, by simpa using rest.symm⟩
      refine unbroken more page back rest' ?_ full
      rw [List.length_append, length] at whole
      exact (Nat.dvd_add_right (Nat.dvd_refl size)).mp whole

theorem unbroken_of_hidden (full : front.length = size)
    (hidden : ¬∀ row ∈ front, shown row = true) :
    Unbroken shown size (front ++ rest) ↔ ∀ row ∈ rest, shown row = false := by
  constructor
  · intro unbroken
    exact (unbroken [] front rest rfl (Nat.dvd_zero size) full).resolve_left hidden
  · intro none front' page back split _ length
    refine .inr fun row member => none row ?_
    -- What is behind a full page is behind the first one.
    have behind : back = rest.drop (front'.length + page.length - front.length) := by
      have := congrArg (List.drop (front'.length + page.length)) split
      rw [← List.append_assoc, ← List.length_append, List.drop_left, List.length_append,
        List.drop_append, List.drop_of_length_le (by omega), List.nil_append] at this
      exact this.symm
    exact List.mem_of_mem_drop (behind ▸ member)

/-- Where a page looks at no more rows than it has, the pages find their rows exactly if they are
unbroken. -/
theorem allNear_self_iff (pos : 0 < size) :
    AllNear shown size size all ↔ Unbroken shown size all := by
  induction length : all.length using Nat.strong_induction_on generalizing all with
  | _ n ih =>
    by_cases short : all.length < size
    · have few : ((all.filter shown).take size).length < size := by
        have := List.length_filter_le shown all
        rw [List.length_take]
        omega
      have whole : all.take size = all := List.take_of_length_le short.le
      refine iff_of_true ((allNear_of_short (by rw [whole]; exact few)).mpr ?_) ?_
      · rw [whole, List.take_of_length_le]
        have := List.length_filter_le shown all
        omega
      · intro front page back split _ full
        rw [split, List.length_append, List.length_append] at short
        omega
    · obtain ⟨page, rest, rfl, full⟩ : ∃ page rest, all = page ++ rest ∧ page.length = size :=
        ⟨all.take size, all.drop size, (List.take_append_drop _ _).symm,
          by rw [List.length_take]; omega⟩
      have taken : (page ++ rest).take size = page := List.take_left' full
      by_cases visible : ∀ row ∈ page, shown row = true
      · rw [unbroken_append visible full, allNear_iff, ← full, afterShown_of_shown visible, full,
          ih rest.length (by rw [← length, List.length_append]; omega) rfl]
        refine and_iff_right (near_of_full ?_)
        rw [taken, List.filter_eq_self.mpr visible, List.take_of_length_le full.le, full]
      · have few : (page.filter shown).length < size := by
          rw [← full]
          refine List.length_filter_lt_length_iff_exists.mpr ?_
          simpa using visible
        have short' : ((((page ++ rest).take size).filter shown).take size).length < size := by
          rw [taken, List.take_of_length_le few.le]
          exact few
        rw [allNear_of_short short', unbroken_of_hidden full visible, taken,
          List.take_of_length_le few.le, List.filter_append]
        simp [List.filter_eq_nil_iff]

end Window

end NovaNas.Paging
