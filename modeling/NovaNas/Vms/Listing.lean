import Mathlib.Data.List.Dedup
import Mathlib.Data.Prod.Lex
import NovaNas.Base.Paging
import NovaNas.Vms.Deletion

/-!
# Listing the VMs

The VMs are put in the order of their namespaces and names, and a page goes on with the first VM
whose key, namespace and name joined by a slash, is after the cursor. A dash sorts before the slash:
where one namespace is another one followed by a dash and more, the keys are in the opposite order,
and a cursor in between loses VMs or leads back to earlier ones.
-/
namespace NovaNas.Vms

open Paging

/-! ### The manager -/

def defaultPageSize : Nat := 50

def maxPageSize : Nat := 200

structure ListOptions where
  namespacePrefix : Name := []
  cursor : Name := []
  pageSize : Int := 0
  deriving DecidableEq, Repr

/-- What Kubernetes answers to the requests for namespaces with a prefix and for the VMs of one. -/
structure Listings where
  listNamespaces : Name → Except KubeError (List Name)
  listVMs : Name → Except KubeError (List VM)

inductive ListFailure where
  | namespaces (err : KubeError)
  | vms (ns : Name) (err : KubeError)
  deriving DecidableEq, Repr

def effectiveSize (given : Int) : Nat :=
  if given ≤ 0 then defaultPageSize
  else if given > maxPageSize then maxPageSize
  else given.toNat

def VM.cursorKey (vm : VM) : Name := vm.namespace_ ++ '/' :: vm.name

/-- The place of the first VM after the cursor. -/
def resume (cursor : Name) : List VM → Nat
  | [] => 0
  | vm :: rest => if cursor < vm.cursorKey then 0 else resume cursor rest + 1

def startOf (cursor : Name) (all : List VM) : Nat := if cursor ≠ [] then resume cursor all else 0

def pageOf (all : List VM) (pageSize : Nat) (cursor : Name) : Page VM :=
  let start := startOf cursor all
  let stop := min (start + pageSize) all.length
  let items := (all.drop start).take (stop - start)
  ⟨items, if stop < all.length then (items.getLast?.map VM.cursorKey).getD [] else []⟩

def inOrder (vms : List VM) : List VM := Sorting.sortBy (fun vm => toLex vm.key) vms

def Manager.listPrefix (m : Manager) (opts : ListOptions) : Name :=
  if opts.namespacePrefix = [] then m.nsPrefix else opts.namespacePrefix

def Manager.list (m : Manager) (k : Listings) (opts : ListOptions) :
    Except ListFailure (Page VM) := do
  let nss ← (k.listNamespaces (m.listPrefix opts)).mapError .namespaces
  let all ← (Sorting.sortNames nss).mapM fun ns => (k.listVMs ns).mapError (.vms ns)
  return pageOf (inOrder all.flatten) (effectiveSize opts.pageSize) opts.cursor

/-! ### What is asked of it -/

/-- A label of DNS: small letters, digits and dashes, with no dash at either end. -/
def isLabel (name : Name) : Bool :=
  name ≠ [] && name.length ≤ 63 && name.all (fun c => c == '-' || isAlphanumeric c) &&
    (name.head?.any isAlphanumeric) && (name.getLast?.any isAlphanumeric)

/-- The answers are those of the cluster, in any order. -/
structure Answers (c : Kube) (k : Listings) : Prop where
  namespaces : ∀ p, ∃ nss, k.listNamespaces p = .ok nss ∧ nss.Nodup ∧
    ∀ ns, ns ∈ nss ↔ ns ∈ c.namespaces ∧ p.isPrefixOf ns = true
  vms : ∀ ns, ∃ vms, k.listVMs ns = .ok vms ∧
    vms.Perm (c.objects.filter fun vm => vm.namespace_ = ns)

/-- Following the cursors of the listing ends with the rows. -/
def Lists (m : Manager) (k : Listings) (opts : ListOptions) (rows : List VM) : Prop :=
  Yields (fun cursor => m.list k { opts with cursor }) rows

/-- The second namespace is the first one followed by a dash and more. -/
def Extends (ns ns' : Name) : Prop := ∃ rest, ns' = ns ++ '-' :: rest

/-- Where a page ends before the last VM, the namespace of the next VM does not extend that of its
last one, and that of its last one extends none before it. -/
def Resumable (all : List VM) (size : Nat) : Prop :=
  ∀ front last next back, all = front ++ last :: next :: back → size ∣ front.length + 1 →
    ¬Extends last.namespace_ next.namespace_ ∧
      ∀ vm ∈ front, ¬Extends vm.namespace_ last.namespace_

/-! ### The two orders -/

theorem label_chars {name : Name} (label : isLabel name = true) :
    ∀ c ∈ name, c = '-' ∨ '/' < c := by
  intro c member
  simp only [isLabel, Bool.and_eq_true, List.all_eq_true] at label
  have one := label.1.1.2 c member
  simp only [Bool.or_eq_true, beq_iff_eq, isAlphanumeric, Bool.and_eq_true, decide_eq_true_eq]
    at one
  rcases one with dash | ⟨letter, -⟩ | ⟨digit, -⟩
  · exact .inl dash
  · exact .inr (lt_of_lt_of_le (by decide) letter)
  · exact .inr (lt_of_lt_of_le (by decide) digit)

theorem extends_cons {c c' : Char} {ns ns' : Name} :
    Extends (c :: ns) (c' :: ns') ↔ c = c' ∧ Extends ns ns' := by
  simp [Extends, eq_comm]

/-- Keys are in the order of the pairs unless one namespace extends the other. -/
theorem joined_lt_iff {ns ns' name name' : Name} (plain : ∀ c ∈ ns', c = '-' ∨ '/' < c)
    (before : ns < ns' ∨ ns = ns' ∧ name < name') :
    ns ++ '/' :: name < ns' ++ '/' :: name' ↔ ¬Extends ns ns' := by
  induction ns generalizing ns' with
  | nil =>
    cases ns' with
    | nil =>
      have names : name < name' := by simpa using before
      simp [Extends, names]
    | cons c ns' =>
      rcases plain c List.mem_cons_self with rfl | above
      · simp [Extends, List.cons_lt_cons_iff]
      · have other : c ≠ '-' := by
          rintro rfl
          exact absurd above (by decide)
        simp [Extends, List.cons_lt_cons_iff, above, other]
  | cons c ns ih =>
    cases ns' with
    | nil => simp at before
    | cons c' ns' =>
      rw [extends_cons, List.cons_append, List.cons_append, List.cons_lt_cons_iff]
      rw [List.cons_lt_cons_iff] at before
      by_cases same : c = c'
      · subst same
        have rest : ns < ns' ∨ ns = ns' ∧ name < name' := by simpa using before
        simpa using ih (fun d member => plain d (.tail c member)) rest
      · have less : c < c' := by simpa [same] using before
        simp [same, less]

theorem joined_gt_of_extends {ns ns' name name' : Name} (longer : Extends ns ns') :
    ns' ++ '/' :: name' < ns ++ '/' :: name := by
  obtain ⟨rest, rfl⟩ := longer
  induction ns with
  | nil => simp [List.cons_lt_cons_iff]
  | cons c ns ih => simpa [List.cons_lt_cons_iff] using ih

/-- VMs in the order of the listing, each with a label for its namespace. -/
structure Listed (all : List VM) : Prop where
  sorted : all.Pairwise fun a b => toLex a.key < toLex b.key
  labels : ∀ vm ∈ all, isLabel vm.namespace_ = true

section Walk

variable {all front back : List VM} {a b last next : VM} {cursor : Name} {size : Nat}

theorem Listed.key_lt_iff (listed : Listed all) (pair : [a, b].Sublist all) :
    a.cursorKey < b.cursorKey ↔ ¬Extends a.namespace_ b.namespace_ := by
  have before : toLex a.key < toLex b.key := by
    simpa using listed.sorted.sublist pair
  have label := listed.labels b (pair.subset (by simp))
  refine joined_lt_iff (label_chars label) ?_
  simpa [VM.key, Prod.Lex.toLex_lt_toLex] using before

theorem Listed.key_gt_iff (listed : Listed all) (pair : [a, b].Sublist all) :
    b.cursorKey < a.cursorKey ↔ Extends a.namespace_ b.namespace_ := by
  constructor
  · intro greater
    by_contra apart
    exact absurd ((listed.key_lt_iff pair).mpr apart) greater.asymm
  · exact joined_gt_of_extends

theorem Listed.nodup (listed : Listed all) : all.Nodup :=
  listed.sorted.imp fun less same => by simp [same] at less

/-! ### Where a page starts -/

theorem resume_le (cursor : Name) (all : List VM) : resume cursor all ≤ all.length := by
  induction all with
  | nil => exact le_rfl
  | cons vm rest ih =>
    rw [resume]
    split
    · exact Nat.zero_le _
    · exact Nat.succ_le_succ ih

/-- The VMs before the place are not after the cursor. -/
theorem not_lt_of_resume (all : List VM) {vm : VM} (member : vm ∈ all.take (resume cursor all)) :
    ¬cursor < vm.cursorKey := by
  induction all with
  | nil => simp at member
  | cons first rest ih =>
    rw [resume] at member
    split at member
    next => simp at member
    next early =>
      rw [List.take_succ_cons] at member
      rcases List.mem_cons.mp member with rfl | later
      · exact early
      · exact ih later

/-- The VM at the place is. -/
theorem lt_of_resume (all : List VM) {vm : VM} (found : all[resume cursor all]? = some vm) :
    cursor < vm.cursorKey := by
  induction all with
  | nil => simp at found
  | cons first rest ih =>
    rw [resume] at found
    split at found
    next after =>
      obtain rfl : first = vm := by simpa using found
      exact after
    next => exact ih (by simpa using found)

theorem resume_eq (early : ∀ vm ∈ front, ¬cursor < vm.cursorKey)
    (after : ∀ vm, back.head? = some vm → cursor < vm.cursorKey) :
    resume cursor (front ++ back) = front.length := by
  induction front with
  | nil =>
    cases back with
    | nil => rfl
    | cons vm back => simp [resume, after vm rfl]
  | cons vm front ih =>
    obtain ⟨first, later⟩ := List.forall_mem_cons.mp early
    rw [List.cons_append, resume, if_neg first, ih later, List.length_cons]

/-- A cursor leads to the next VM exactly if the keys around it are in order. -/
theorem Listed.resume_iff (listed : Listed (front ++ last :: next :: back)) :
    resume last.cursorKey (front ++ last :: next :: back) = front.length + 1 ↔
      ¬Extends last.namespace_ next.namespace_ ∧
        ∀ vm ∈ front, ¬Extends vm.namespace_ last.namespace_ := by
  have following : [last, next].Sublist (front ++ last :: next :: back) :=
    (List.sublist_append_left [last, next] back).trans (List.sublist_append_right _ _)
  have earlier {vm : VM} (member : vm ∈ front) :
      [vm, last].Sublist (front ++ last :: next :: back) :=
    (List.singleton_sublist.mpr member).append (List.singleton_sublist.mpr List.mem_cons_self)
  have parts : front ++ last :: next :: back = (front ++ [last]) ++ next :: back := by simp
  constructor
  · intro place
    refine ⟨(listed.key_lt_iff following).mp
      (lt_of_resume (front ++ last :: next :: back) ?_), fun vm member => ?_⟩
    · rw [place, parts, List.getElem?_append_right (by simp)]
      simp
    · rw [← listed.key_gt_iff (earlier member)]
      refine not_lt_of_resume (front ++ last :: next :: back) ?_
      rw [place, parts, List.take_left' (by simp)]
      exact List.mem_append_left _ member
  · rintro ⟨onward, inward⟩
    rw [parts, resume_eq]
    · simp
    · intro vm member
      rcases List.mem_append.mp member with before | same
      · exact (listed.key_gt_iff (earlier before)).not.mpr (inward vm before)
      · rw [List.mem_singleton.mp same]
        exact lt_irrefl _
    · rintro vm found
      obtain rfl : next = vm := by simpa using found
      exact (listed.key_lt_iff following).mpr onward

/-! ### Pages -/

theorem startOf_le (cursor : Name) (all : List VM) : startOf cursor all ≤ all.length := by
  rw [startOf]
  split
  · exact resume_le cursor all
  · exact Nat.zero_le _

theorem pageOf_items (all : List VM) (size : Nat) (cursor : Name) :
    (pageOf all size cursor).items = (all.drop (startOf cursor all)).take size := by
  have start := startOf_le cursor all
  simp only [pageOf]
  rw [List.take_eq_take_iff, List.length_drop]
  omega

theorem pageOf_last (ends : all.length ≤ startOf cursor all + size) :
    (pageOf all size cursor).nextCursor = [] := by
  simp only [pageOf]
  rw [if_neg (by omega)]

theorem pageOf_more (more : startOf cursor all + size < all.length) (pos : 0 < size)
    (found : all[startOf cursor all + size - 1]? = some last) :
    (pageOf all size cursor).nextCursor = last.cursorKey := by
  have items := pageOf_items all size cursor
  have final : (pageOf all size cursor).items.getLast? = some last := by
    rw [items, List.getLast?_eq_getElem?, List.length_take, List.length_drop, List.getElem?_take,
      if_pos (by omega), List.getElem?_drop, ← found]
    congr 1
    omega
  simp only [pageOf] at final ⊢
  rw [if_pos (by omega), final]
  rfl

theorem cursorKey_ne_nil (vm : VM) : vm.cursorKey ≠ [] := by simp [VM.cursorKey]

theorem exists_split (all : List VM) {i : Nat} (inside : i + 1 < all.length) : ∃ front last next back,
    all = front ++ last :: next :: back ∧ front.length = i := by
  refine ⟨all.take i, all[i], all[i + 1], all.drop (i + 2), ?_, ?_⟩
  · rw [← List.drop_eq_getElem_cons, ← List.drop_eq_getElem_cons, List.take_append_drop]
  · rw [List.length_take]
    omega

theorem startOf_cursorKey (vm : VM) : startOf vm.cursorKey all = resume vm.cursorKey all :=
  if_pos (cursorKey_ne_nil vm)

/-- If every page goes on where the one before it ended, the pages are all VMs. -/
theorem Listed.follows (listed : Listed all) (pos : 0 < size) (resumable : Resumable all size) :
    Follows (pageOf all size) [] all := by
  refine Follows.of_stands
    (fun cursor rest => size ∣ startOf cursor all ∧ rest = all.drop (startOf cursor all)) ?_
    ⟨⟨0, rfl⟩, rfl⟩
  rintro cursor _ ⟨whole, rfl⟩
  rw [pageOf_items]
  by_cases ends : all.length ≤ startOf cursor all + size
  · refine .inl ⟨pageOf_last ends, (List.take_of_length_le ?_).symm⟩
    rw [List.length_drop]
    omega
  · obtain ⟨front, last, next, back, split, length⟩ :=
      exists_split all (i := startOf cursor all + size - 1) (by omega)
    have found : all[startOf cursor all + size - 1]? = some last := by
      rw [← length, split]
      simp
    have cursorNext := pageOf_more (by omega) pos found
    have boundary : front.length + 1 = startOf cursor all + size := by omega
    have onward : size ∣ startOf cursor all + size := Nat.dvd_add whole (Nat.dvd_refl size)
    have place : startOf last.cursorKey all = startOf cursor all + size := by
      have good := resumable front last next back split (boundary ▸ onward)
      rw [startOf_cursorKey, ← boundary, split]
      exact (split ▸ listed).resume_iff.mpr good
    refine .inr ⟨cursorNext ▸ cursorKey_ne_nil last, ?_, all.drop (startOf cursor all + size), ?_, ?_⟩
    · rw [ne_eq, List.take_eq_nil_iff, List.drop_eq_nil_iff]
      omega
    · rw [← List.drop_drop, List.take_append_drop]
    · rw [cursorNext, place]
      exact ⟨onward, rfl⟩

/-- A page without any of the VMs so far does not start before their end. -/
theorem le_startOf (pos : 0 < size)
    (apart : ∀ vm ∈ (pageOf (front ++ back) size cursor).items, vm ∉ front) :
    front.length ≤ startOf cursor (front ++ back) := by
  by_contra early
  rw [not_le] at early
  rw [pageOf_items, List.drop_append_of_le_length early.le, List.drop_eq_getElem_cons early] at apart
  refine apart _ ?_ (List.getElem_mem early)
  rw [List.cons_append, List.take_cons pos]
  exact List.mem_cons_self

/-- A VM whose key is not after that of the one before it is on no page without earlier ones. -/
theorem Listed.not_on_page (listed : Listed (front ++ [last] ++ next :: back)) (pos : 0 < size)
    (reversed : ¬last.cursorKey < next.cursorKey)
    (apart : ∀ vm ∈ (pageOf (front ++ [last] ++ next :: back) size cursor).items,
      vm ∉ front ++ [last]) :
    next ∉ (pageOf (front ++ [last] ++ next :: back) size cursor).items := by
  intro member
  rw [pageOf_items] at member
  have place := List.mem_of_mem_take member
  rcases (le_startOf pos apart).lt_or_eq with late | same
  · rw [List.drop_append, List.drop_of_length_le late.le, List.nil_append,
      List.drop_cons (by omega)] at place
    have nodup := (List.nodup_append.mp listed.nodup).2.1
    exact (List.nodup_cons.mp nodup).1 (List.mem_of_mem_drop place)
  · have given : cursor ≠ [] := by
      rintro rfl
      simp [startOf] at same
    rw [startOf, if_pos given] at same
    have before : ¬cursor < last.cursorKey := by
      refine not_lt_of_resume (front ++ [last] ++ next :: back) ?_
      rw [← same, List.take_left]
      simp
    have after : cursor < next.cursorKey := by
      refine lt_of_resume (front ++ [last] ++ next :: back) ?_
      rw [← same]
      simp
    exact reversed ((not_lt.mp before).trans_lt after)

theorem Listed.not_listed_again (listed : Listed (front ++ [last] ++ next :: back))
    (pos : 0 < size) (reversed : ¬last.cursorKey < next.cursorKey) {rows : List VM}
    (follows : Follows (pageOf (front ++ [last] ++ next :: back) size) cursor rows)
    (apart : ∀ vm ∈ rows, vm ∉ front ++ [last]) : next ∉ rows := by
  induction follows with
  | last _ => exact listed.not_on_page pos reversed apart
  | more _ _ ih =>
    obtain ⟨here, later⟩ := List.forall_mem_append.mp apart
    rw [List.mem_append]
    rintro (member | member)
    · exact listed.not_on_page pos reversed here member
    · exact ih later member

/-- If the VMs so far and those of the pages to come are all VMs, the next page starts with the next
VM. -/
theorem Listed.resumes (listed : Listed (front ++ [last] ++ next :: back)) (pos : 0 < size)
    {rest : List VM}
    (follows : Follows (pageOf (front ++ [last] ++ next :: back) size) last.cursorKey rest)
    (perm : (front ++ [last] ++ rest).Perm (front ++ [last] ++ next :: back)) :
    startOf last.cursorKey (front ++ [last] ++ next :: back) = (front ++ [last]).length := by
  have perm : rest.Perm (next :: back) := (List.perm_append_left_iff _).mp perm
  have apart : ∀ vm ∈ rest, vm ∉ front ++ [last] := by
    intro vm member before
    exact (List.nodup_append.mp listed.nodup).2.2 vm before vm (perm.mem_iff.mp member) rfl
  have onward : last.cursorKey < next.cursorKey := by
    by_contra reversed
    exact listed.not_listed_again pos reversed follows apart (perm.mem_iff.mpr List.mem_cons_self)
  have least := le_startOf pos fun vm member => apart vm (follows.items_subset vm member)
  refine le_antisymm (not_lt.mp fun late => ?_) least
  -- A later start would mean that the next VM is not after the cursor.
  rw [startOf_cursorKey] at late
  refine not_lt_of_resume (front ++ [last] ++ next :: back) ?_ onward
  rw [List.take_append, List.take_cons (by omega)]
  simp

/-- The cursor after so many pages. -/
def cursorAt (all : List VM) (size pages : Nat) : Name :=
  if pages = 0 then [] else ((all[pages * size - 1]?).map VM.cursorKey).getD []

/-- If the pages have every VM once, each starts where the one before it ended. -/
theorem Listed.starts (listed : Listed all) (pos : 0 < size) {rows : List VM}
    (follows : Follows (pageOf all size) [] rows) (perm : rows.Perm all) {pages : Nat}
    (inside : pages * size < all.length) :
    startOf (cursorAt all size pages) all = pages * size ∧ ∃ rest,
      rows = all.take (pages * size) ++ rest ∧
        Follows (pageOf all size) (cursorAt all size pages) rest := by
  induction pages with
  | zero =>
    rw [Nat.zero_mul]
    exact ⟨rfl, rows, rfl, follows⟩
  | succ pages ih =>
    rw [Nat.succ_mul] at inside ⊢
    obtain ⟨start, rest, rfl, walk⟩ := ih (by omega)
    obtain ⟨front, last, next, back, split, length⟩ :=
      exists_split all (i := pages * size + size - 1) (by omega)
    have found : all[pages * size + size - 1]? = some last := by
      rw [← length, split]
      simp
    have cursorNext : (pageOf all size (cursorAt all size pages)).nextCursor = last.cursorKey :=
      pageOf_more (by omega) pos (start.symm ▸ found)
    have here : cursorAt all size (pages + 1) = last.cursorKey := by
      rw [cursorAt, if_neg (Nat.succ_ne_zero _), Nat.succ_mul, found]
      rfl
    obtain ⟨rest', rfl, onward⟩ := walk.of_more (cursorNext ▸ cursorKey_ne_nil last)
    rw [cursorNext] at onward
    rw [pageOf_items, start, ← List.append_assoc, ← List.take_add] at perm ⊢
    have whole : all = front ++ [last] ++ next :: back := by simpa using split
    have done : all.take (pages * size + size) = front ++ [last] := by
      rw [whole]
      exact List.take_left' (by rw [List.length_append, List.length_singleton]; omega)
    rw [here]
    refine ⟨?_, rest', rfl, onward⟩
    rw [done] at perm
    rw [whole] at listed onward perm ⊢
    rw [listed.resumes pos onward perm, List.length_append, List.length_singleton]
    omega

/-- If the pages have every VM once, the keys are in order where they meet. -/
theorem Listed.resumable (listed : Listed all) (pos : 0 < size) {rows : List VM}
    (follows : Follows (pageOf all size) [] rows) (perm : rows.Perm all) :
    Resumable all size := by
  rintro front last next back split ⟨pages, length⟩
  have inside : pages * size < all.length := by
    rw [split, Nat.mul_comm, ← length]
    simp
  have start := (listed.starts pos follows perm inside).1
  have here : cursorAt all size pages = last.cursorKey := by
    have some : pages ≠ 0 := by
      rintro rfl
      simp at length
    rw [cursorAt, if_neg some, Nat.mul_comm, ← length, split]
    simp
  rw [here, startOf_cursorKey, Nat.mul_comm, ← length, split] at start
  exact (split ▸ listed).resume_iff.mp start

end Walk

/-! ### The result -/

section Result

variable {m : Manager} {c : Kube} {k : Listings} {opts : ListOptions}

/-- The VMs of all namespaces with the prefix are those of the cluster. -/
theorem flatten_perm {nss : List Name} {vmsOf : Name → List VM} (nodup : nss.Nodup)
    (perm : ∀ ns, (vmsOf ns).Perm (c.objects.filter fun vm => vm.namespace_ = ns))
    (housed : ∀ vm ∈ c.objects, vm.namespace_ ∈ nss) : (nss.map vmsOf).flatten.Perm c.objects := by
  have distinct : c.objects.Nodup := c.distinct.of_map _
  have inside {ns : Name} {vm : VM} : vm ∈ vmsOf ns ↔ vm ∈ c.objects ∧ vm.namespace_ = ns := by
    simp [(perm ns).mem_iff]
  refine (List.perm_ext_iff_of_nodup ?_ distinct).mpr fun vm => ?_
  · refine List.nodup_flatten.mpr ⟨fun vms member => ?_, ?_⟩
    · obtain ⟨ns, -, rfl⟩ := List.mem_map.mp member
      exact (perm ns).nodup_iff.mpr (distinct.filter _)
    · refine List.pairwise_map.mpr (nodup.imp fun different vm one other => different ?_)
      exact (inside.mp one).2.symm.trans (inside.mp other).2
  · simp only [List.mem_flatten, List.mem_map, exists_exists_and_eq_and, inside]
    exact ⟨fun ⟨_, _, member, _⟩ => member, fun member => ⟨_, housed vm member, member, rfl⟩⟩

theorem list_eq (answers : Answers c k)
    (under : ∀ vm ∈ c.objects, (m.listPrefix opts).isPrefixOf vm.namespace_ = true) :
    m.list k opts =
      .ok (pageOf (inOrder c.objects) (effectiveSize opts.pageSize) opts.cursor) := by
  obtain ⟨nss, asked, nodup, member⟩ := answers.namespaces (m.listPrefix opts)
  choose vmsOf given perm using answers.vms
  have each : (fun ns => (k.listVMs ns).mapError (ListFailure.vms ns)) =
      fun ns => pure (vmsOf ns) := by
    funext ns
    rw [given ns]
    rfl
  have housed : ∀ vm ∈ c.objects, vm.namespace_ ∈ Sorting.sortNames nss := fun vm within =>
    Sorting.mem_sortNames.mpr ((member _).mpr ⟨c.housed vm within, under vm within⟩)
  have all := flatten_perm (Sorting.nodup_sortNames.mpr nodup) perm housed
  have keys : (c.objects.map fun vm => toLex vm.key).Nodup := by
    rw [← Function.comp_def, ← List.map_map]
    exact c.distinct.map toLex.injective
  have sorted : inOrder c.objects = inOrder ((Sorting.sortNames nss).map vmsOf).flatten :=
    Sorting.sortBy_eq_of_nodup keys all.symm
  have fetched : ((Sorting.sortNames nss).mapM fun ns =>
      (k.listVMs ns).mapError (ListFailure.vms ns)) = .ok ((Sorting.sortNames nss).map vmsOf) := by
    rw [each]
    exact List.mapM_pure
  rw [Manager.list, asked, sorted]
  change ((Sorting.sortNames nss).mapM (fun ns => (k.listVMs ns).mapError (ListFailure.vms ns)) >>=
    fun all => pure (pageOf (inOrder all.flatten) (effectiveSize opts.pageSize) opts.cursor)) = _
  rw [fetched]
  rfl

theorem listed_inOrder (labels : ∀ vm ∈ c.objects, isLabel vm.namespace_ = true) :
    Listed (inOrder c.objects) where
  sorted := by
    have sorted := Sorting.pairwise_sortBy (fun vm : VM => toLex vm.key) c.objects
    have nodup : ((inOrder c.objects).map VM.key).Nodup :=
      ((Sorting.sortBy_perm _ c.objects).map _).nodup_iff.mpr c.distinct
    exact (sorted.and (List.pairwise_map.mp nodup)).imp fun both => lt_of_le_of_ne both.1 both.2
  labels vm member := labels vm (Sorting.mem_sortBy.mp member)

theorem effectiveSize_pos (given : Int) : 0 < effectiveSize given := by
  unfold effectiveSize defaultPageSize maxPageSize
  split_ifs <;> omega

/-- The cursors lead to every VM of the cluster once exactly when the keys are in order wherever a
page ends. -/
theorem list_complete_iff (answers : Answers c k)
    (labels : ∀ vm ∈ c.objects, isLabel vm.namespace_ = true ∧ isLabel vm.name = true)
    (under : ∀ vm ∈ c.objects, (m.listPrefix opts).isPrefixOf vm.namespace_ = true) :
    (∃ rows, Lists m k opts rows ∧ rows.Perm c.objects) ↔
      Resumable (inOrder c.objects) (effectiveSize opts.pageSize) := by
  have listed := listed_inOrder fun vm member => (labels vm member).1
  have pos := effectiveSize_pos opts.pageSize
  have perm : (inOrder c.objects).Perm c.objects := Sorting.sortBy_perm _ _
  have pages (cursor : Name) : m.list k { opts with cursor } =
      .ok (pageOf (inOrder c.objects) (effectiveSize opts.pageSize) cursor) :=
    list_eq answers under
  constructor
  · rintro ⟨rows, lists, once⟩
    exact listed.resumable pos ((yields_iff pages).mp lists) (once.trans perm.symm)
  · intro resumable
    exact ⟨_, (yields_iff pages).mpr (listed.follows pos resumable), perm⟩

end Result

/-! ### Instances -/

/-- The answers of a cluster in the order it has. -/
def listings (c : Kube) : Listings where
  listNamespaces p := .ok (c.namespaces.dedup.filter p.isPrefixOf)
  listVMs ns := .ok (c.objects.filter fun vm => vm.namespace_ = ns)

theorem answers_listings (c : Kube) : Answers c (listings c) where
  namespaces p := ⟨_, rfl, (List.nodup_dedup _).filter _, by simp⟩
  vms ns := ⟨_, rfl, .refl _⟩

def smallVM (namespace_ name : String) : VM :=
  ⟨namespace_.toList, name.toList, 1, 1024, false, [], [], [], []⟩

theorem smallVMs_housed (first second : String) :
    ∀ vm ∈ [smallVM first "a", smallVM second "b"],
      vm.key.1 ∈ [first.toList, second.toList] := by
  simp [smallVM, VM.key]

theorem smallVMs_distinct (first second : String) :
    ([smallVM first "a", smallVM second "b"].map VM.key).Nodup := by
  simp [smallVM, VM.key]

/-- Two VMs, each in a namespace. -/
def twoVMs (first second : String) : Kube where
  namespaces := [first.toList, second.toList]
  objects := [smallVM first "a", smallVM second "b"]
  housed := smallVMs_housed first second
  distinct := smallVMs_distinct first second

theorem two_namespaces_listed : ∃ rows,
    Lists {} (listings (twoVMs "vm-a" "vm-b")) { pageSize := 1 } rows ∧
      rows.Perm (twoVMs "vm-a" "vm-b").objects := by
  refine (list_complete_iff (answers_listings _) (by decide) (by decide)).mpr ?_
  have order : inOrder (twoVMs "vm-a" "vm-b").objects =
      [smallVM "vm-a" "a", smallVM "vm-b" "b"] := by decide +kernel
  rw [order]
  rintro front last next back split -
  have alone : front = [] := by
    have length := congrArg List.length split
    simp only [List.length_append, List.length_cons, List.length_nil] at length
    exact List.length_eq_zero_iff.mp (by omega)
  subst alone
  obtain ⟨rfl, rfl, -⟩ : smallVM "vm-a" "a" = last ∧ smallVM "vm-b" "b" = next ∧ _ := by
    simpa using split
  refine ⟨?_, by simp⟩
  rintro ⟨rest, longer⟩
  simp [smallVM] at longer

/-- The namespace of the second VM extends that of the first one: with one VM on a page, the second
is never listed. -/
theorem extended_namespace_lost :
    Answers (twoVMs "vm-a" "vm-a-b") (listings (twoVMs "vm-a" "vm-a-b")) ∧
    (∀ vm ∈ (twoVMs "vm-a" "vm-a-b").objects, isLabel vm.namespace_ = true ∧
      isLabel vm.name = true ∧
      (Manager.listPrefix {} { pageSize := 1 }).isPrefixOf vm.namespace_ = true) ∧
    Lists {} (listings (twoVMs "vm-a" "vm-a-b")) { pageSize := 1 }
      [smallVM "vm-a" "a"] ∧
    (twoVMs "vm-a" "vm-a-b").objects =
      [smallVM "vm-a" "a", smallVM "vm-a-b" "b"] := by
  have under : ∀ vm ∈ (twoVMs "vm-a" "vm-a-b").objects,
      (Manager.listPrefix {} { pageSize := 1 }).isPrefixOf vm.namespace_ = true := by decide
  have answered (cursor : Name) : Manager.list {} (listings (twoVMs "vm-a" "vm-a-b"))
      { pageSize := 1, cursor := cursor } =
        .ok (pageOf (inOrder (twoVMs "vm-a" "vm-a-b").objects) (effectiveSize 1) cursor) :=
    list_eq (answers_listings _) under
  refine ⟨answers_listings _, by decide, (yields_iff answered).mpr ?_, rfl⟩
  have order : inOrder (twoVMs "vm-a" "vm-a-b").objects =
      [smallVM "vm-a" "a", smallVM "vm-a-b" "b"] := by decide +kernel
  rw [order]
  have first : pageOf [smallVM "vm-a" "a", smallVM "vm-a-b" "b"] (effectiveSize 1) [] =
      ⟨[smallVM "vm-a" "a"], "vm-a/a".toList⟩ := by decide +kernel
  have second : pageOf [smallVM "vm-a" "a", smallVM "vm-a-b" "b"] (effectiveSize 1)
      "vm-a/a".toList = ⟨[], []⟩ := by decide +kernel
  exact .of_pages first (by decide) (.of_page second)

end NovaNas.Vms
