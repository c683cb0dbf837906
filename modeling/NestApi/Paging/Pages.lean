import Mathlib.Data.List.Nodup
import Mathlib.Data.List.Pairwise
import Mathlib.Data.List.Perm.Basic
import Mathlib.Order.Lattice

/-!
# Pages of an order with ties

A list is cut into pages, and every page is cut from an answer of its own. The answers agree on
the order but not on how they arrange rows that tie. The pages hold every row once, whatever the
answers, exactly when no group of ties is spread over two pages.
-/

namespace NestApi.Paging

variable {α : Type} {size total : ℕ} {rows l : List α} {a b : α}

/-! ### Pages -/

/-- The page with index `k`. -/
def page (size k : ℕ) (l : List α) : List α := (l.drop (k * size)).take size

def pageCount (size total : ℕ) : ℕ := (total + size - 1) / size

/-- All pages, the page `k` cut from the answer `k`. -/
def pages (size total : ℕ) (answers : ℕ → List α) : List α :=
  (List.range (pageCount size total)).flatMap fun k => page size k (answers k)

theorem mem_page (hsize : 0 < size) {k : ℕ} :
    a ∈ page size k l ↔ ∃ i, l[i]? = some a ∧ i / size = k := by
  simp only [page, List.mem_iff_getElem?]
  constructor
  · rintro ⟨j, hj⟩
    rw [List.getElem?_take, Option.ite_none_right_eq_some, List.getElem?_drop] at hj
    obtain ⟨hjsize, hget⟩ := hj
    refine ⟨k * size + j, hget, ?_⟩
    rw [Nat.mul_comm, Nat.mul_add_div hsize, Nat.div_eq_of_lt hjsize, Nat.add_zero]
  · rintro ⟨i, hget, rfl⟩
    refine ⟨i % size, ?_⟩
    rw [List.getElem?_take_of_lt (Nat.mod_lt i hsize), List.getElem?_drop, Nat.mul_comm,
      Nat.div_add_mod]
    exact hget

theorem page_sublist {k : ℕ} : (page size k l).Sublist l :=
  (List.take_sublist _ _).trans (List.drop_sublist _ _)

theorem div_lt_pageCount (hsize : 0 < size) {i : ℕ} (hi : i < total) :
    i / size < pageCount size total := by
  unfold pageCount
  rw [Nat.lt_iff_add_one_le, Nat.le_div_iff_mul_le hsize, Nat.add_mul, Nat.one_mul]
  have hle := Nat.div_mul_le_self i size
  omega

theorem mem_pages {answers : ℕ → List α} :
    a ∈ pages size total answers ↔
      ∃ k < pageCount size total, a ∈ page size k (answers k) := by
  simp [pages]

/-- A row on two pages is answered twice. -/
theorem not_nodup_pages {answers : ℕ → List α} {k k' : ℕ} (hk : k < pageCount size total)
    (hk' : k' < pageCount size total) (hne : k ≠ k') (ha : a ∈ page size k (answers k))
    (ha' : a ∈ page size k' (answers k')) : ¬ (pages size total answers).Nodup := by
  intro hnodup
  obtain ⟨-, hpairs⟩ := List.nodup_flatMap.mp hnodup
  have hsymm : Std.Symm (Function.onFun List.Disjoint fun k => page size k (answers k)) :=
    ⟨fun _ _ h _ hb ha => h ha hb⟩
  exact hpairs.forall (List.mem_range.mpr hk) (List.mem_range.mpr hk') hne ha ha'

/-! ### Orders with ties -/

/-- A comparison under which different rows can tie. -/
structure Comparison (α : Type) where
  le : α → α → Bool
  total : ∀ a b, le a b = true ∨ le b a = true
  trans : ∀ a b c, le a b = true → le b c = true → le a c = true

namespace Comparison

variable (c : Comparison α)

/-- The opposite direction. -/
def reverse : Comparison α where
  le a b := c.le b a
  total a b := c.total b a
  trans a b d hab hbd := c.trans d b a hbd hab

/-- The comparison of a column. -/
def onKey {β : Type} [LinearOrder β] (f : α → β) : Comparison α where
  le a b := decide (f a ≤ f b)
  total a b := by simpa using le_total (f a) (f b)
  trans a b d := by simpa using le_trans

/-- `a` comes before `b` in every answer. -/
def before (a b : α) : Bool := !c.le b a

/-- The list is an answer: the rows in order, those that tie in any order. -/
structure Orders (rows l : List α) : Prop where
  perm : l.Perm rows
  sorted : l.Pairwise fun a b => c.le a b = true

/-- The rows that tie with a row take up places of one page. -/
def TiesTogether (size : ℕ) (rows : List α) : Prop :=
  ∀ a ∈ rows, rows.countP (c.before · a) / size = (rows.countP (c.le · a) - 1) / size

instance [DecidableEq α] : Decidable (c.TiesTogether size rows) :=
  inferInstanceAs (Decidable (∀ a ∈ rows, _ = _))

variable {c}

theorem le_refl (a : α) : c.le a a = true := (c.total a a).elim id id

theorem le_of_before (h : c.before a b = true) : c.le a b = true := by
  have hnot : ¬ c.le b a = true := by simpa [before] using h
  exact (c.total a b).resolve_right hnot

theorem before_self (a : α) : c.before a a = false := by
  simp [before, le_refl]

theorem countP_le_cons : (a :: l).countP (c.le · a) = l.countP (c.le · a) + 1 :=
  List.countP_cons_of_pos (le_refl a)

/-- The place of a row in an answer: behind the rows before it, within those up to it. -/
theorem Orders.place (h : c.Orders rows l) {i : ℕ} (hi : l[i]? = some a) :
    rows.countP (c.before · a) ≤ i ∧ i < rows.countP (c.le · a) := by
  obtain ⟨hlt, hget⟩ := List.getElem?_eq_some_iff.mp hi
  have hsplit : l.take i ++ l.drop i = l := List.take_append_drop i l
  have hsorted := h.sorted
  rw [← hsplit, List.pairwise_append] at hsorted
  have hdrop : l.drop i = a :: l.drop (i + 1) := by rw [List.drop_eq_getElem_cons hlt, hget]
  have htake : (l.take i).length = i := List.length_take_of_le (Nat.le_of_lt hlt)
  rw [← h.perm.countP_eq, ← h.perm.countP_eq, ← hsplit, List.countP_append, List.countP_append]
  constructor
  · -- what follows `a` is not before it
    have hnone : (l.drop i).countP (c.before · a) = 0 := by
      rw [List.countP_eq_zero]
      intro b hb
      have hle : c.le a b = true := by
        rw [hdrop] at hb hsorted
        rcases List.mem_cons.mp hb with rfl | hb
        · exact le_refl b
        · exact (List.pairwise_cons.mp hsorted.2.1).1 b hb
      simp [before, hle]
    have hbound := List.countP_le_length (p := (c.before · a)) (l := l.take i)
    omega
  · have hall : (l.take i).countP (c.le · a) = i := by
      rw [List.countP_eq_length.mpr, htake]
      intro b hb
      exact hsorted.2.2 b hb a (by rw [hdrop]; exact List.mem_cons_self)
    rw [hall, hdrop, countP_le_cons]
    omega

/-- Rows can be sorted. -/
theorem exists_orders (rows : List α) : ∃ l, c.Orders rows l :=
  ⟨rows.mergeSort c.le, List.mergeSort_perm rows c.le,
    List.pairwise_mergeSort c.trans (fun a b => by simpa using c.total a b) rows⟩

/-- Ties can be arranged so that a row comes right behind a set of rows that is closed
downwards. -/
theorem exists_orders_at [DecidableEq α] (hnodup : rows.Nodup) (ha : a ∈ rows) (p : α → Bool)
    (hp : ∀ b, p b = true → c.le b a = true) (hnot : ∀ b, p b = false → c.le a b = true)
    (hself : p a = false) :
    ∃ l, c.Orders rows l ∧ l[rows.countP p]? = some a := by
  obtain ⟨l, hl⟩ := c.exists_orders rows
  have hmem : a ∈ l := hl.perm.mem_iff.mpr ha
  have hrest : (l.filter fun b => !p b).Perm
      (a :: l.filter fun b => !p b && decide (b ≠ a)) := by
    have hin : a ∈ l.filter fun b => !p b := List.mem_filter.mpr ⟨hmem, by simp [hself]⟩
    have herase : (l.filter fun b => !p b).erase a =
        l.filter fun b => !p b && decide (b ≠ a) := by
      rw [((hl.perm.nodup_iff.mpr hnodup).filter _).erase_eq_filter, List.filter_filter]
      refine List.filter_congr fun b _ => ?_
      rw [Bool.and_comm]
      simp [bne, beq_eq_decide]
    rw [← herase]
    exact List.perm_cons_erase hin
  refine ⟨l.filter p ++ a :: l.filter fun b => !p b && decide (b ≠ a), ⟨?_, ?_⟩, ?_⟩
  · exact ((hrest.symm.append_left _).trans (List.filter_append_perm p l)).trans hl.perm
  · rw [List.pairwise_append, List.pairwise_cons]
    have hlate : ∀ b ∈ l.filter fun b => !p b && decide (b ≠ a), c.le a b = true := by
      intro b hb
      have hb' := (List.mem_filter.mp hb).2
      simp only [Bool.and_eq_true, Bool.not_eq_true'] at hb'
      exact hnot b hb'.1
    refine ⟨hl.sorted.filter _, ⟨hlate, hl.sorted.filter _⟩, fun b hb d hd => ?_⟩
    have hearly := hp b (List.mem_filter.mp hb).2
    rcases List.mem_cons.mp hd with rfl | hd
    · exact hearly
    · exact c.trans b a d hearly (hlate d hd)
  · rw [← hl.perm.countP_eq, List.countP_eq_length_filter,
      List.getElem?_append_right (Nat.le_refl _), Nat.sub_self, List.getElem?_cons_zero]

/-! ### When pages partition -/

/-- Where ties share a page, a row is on the page of its first possible place. -/
theorem TiesTogether.page_eq (h : c.TiesTogether size rows) (hl : c.Orders rows l) {i : ℕ}
    (hi : l[i]? = some a) : i / size = rows.countP (c.before · a) / size := by
  obtain ⟨hlow, hhigh⟩ := hl.place hi
  have hties := h a (hl.perm.mem_iff.mp (List.mem_of_getElem? hi))
  have hle := Nat.div_le_div_right hlow (c := size)
  have hge : i / size ≤ (rows.countP (c.le · a) - 1) / size := Nat.div_le_div_right (by omega)
  omega

/-- Where ties share a page, the pages hold every row once. -/
theorem TiesTogether.pages_perm (h : c.TiesTogether size rows) (hsize : 0 < size)
    (hnodup : rows.Nodup) {answers : ℕ → List α} (hanswers : ∀ k, c.Orders rows (answers k)) :
    (pages size rows.length answers).Perm rows := by
  have hplace : ∀ {k a}, a ∈ page size k (answers k) →
      a ∈ rows ∧ rows.countP (c.before · a) / size = k := by
    intro k a hmem
    have hrow := (hanswers k).perm.mem_iff.mp (page_sublist.subset hmem)
    obtain ⟨i, hi, rfl⟩ := (mem_page hsize).mp hmem
    exact ⟨hrow, (h.page_eq (hanswers _) hi).symm⟩
  refine (List.perm_ext_iff_of_nodup ?_ hnodup).mpr fun a => ?_
  · rw [pages, List.nodup_flatMap]
    refine ⟨fun k _ => ((hanswers k).perm.nodup_iff.mpr hnodup).sublist page_sublist, ?_⟩
    refine List.nodup_range.imp fun {k k'} hne a hk hk' => hne ?_
    exact (hplace hk).2.symm.trans (hplace hk').2
  · rw [mem_pages]
    constructor
    · rintro ⟨k, -, hmem⟩
      exact (hplace hmem).1
    · intro hrow
      obtain ⟨i, hi, hget⟩ := List.getElem_of_mem
        ((hanswers (rows.countP (c.before · a) / size)).perm.mem_iff.mpr hrow)
      have hget' := List.getElem?_eq_some_iff.mpr ⟨hi, hget⟩
      obtain ⟨hlow, -⟩ := (hanswers _).place hget'
      have hlength := (hanswers (rows.countP (c.before · a) / size)).perm.length_eq
      exact ⟨_, div_lt_pageCount hsize (by omega),
        (mem_page hsize).mpr ⟨i, hget', h.page_eq (hanswers _) hget'⟩⟩

/-- A row whose ties are spread over two pages is on both, when the first answer puts it first
and a later one last. -/
theorem exists_pages_of_spread [DecidableEq α] (hsize : 0 < size) (hnodup : rows.Nodup)
    (ha : a ∈ rows)
    (hspread : rows.countP (c.before · a) / size ≠ (rows.countP (c.le · a) - 1) / size) :
    ∃ answers : ℕ → List α, (∀ k, c.Orders rows (answers k)) ∧
      ¬ (pages size rows.length answers).Nodup := by
  obtain ⟨first, hfirst, hgetFirst⟩ := exists_orders_at (c := c) hnodup ha (c.before · a)
    (fun b hb => le_of_before hb) (fun b hb => by simpa [before] using hb) (before_self a)
  obtain ⟨last, hlast, hgetLast⟩ := exists_orders_at (c := c) hnodup ha
    (fun b => c.le b a && decide (b ≠ a)) (fun b hb => by simp_all) (fun b hb => by
      by_cases hba : b = a
      · exact hba ▸ le_refl b
      · have hnot : ¬ c.le b a = true := by simpa [hba] using hb
        exact (c.total a b).resolve_right hnot) (by simp)
  have hplaces : rows.countP (fun b => c.le b a && decide (b ≠ a)) =
      rows.countP (c.le · a) - 1 := by
    have hperm := List.perm_cons_erase ha
    rw [hperm.countP_eq, hperm.countP_eq, List.countP_cons_of_neg (by simp), countP_le_cons,
      Nat.add_sub_cancel]
    refine List.countP_congr fun b hb => ?_
    have hne := (hnodup.mem_erase_iff.mp hb).1
    simp [hne]
  rw [hplaces] at hgetLast
  have hlow : rows.countP (c.before · a) < rows.length := by
    rw [← hfirst.perm.length_eq]
    exact (List.getElem?_eq_some_iff.mp hgetFirst).1
  have hhigh : rows.countP (c.le · a) - 1 < rows.length := by
    rw [← hlast.perm.length_eq]
    exact (List.getElem?_eq_some_iff.mp hgetLast).1
  refine ⟨fun k => if k = rows.countP (c.before · a) / size then first else last,
    fun k => ?_, ?_⟩
  · dsimp only
    split
    · exact hfirst
    · exact hlast
  · refine not_nodup_pages (div_lt_pageCount hsize hlow) (div_lt_pageCount hsize hhigh) hspread
      (a := a) ?_ ?_
    · rw [if_pos rfl]
      exact (mem_page hsize).mpr ⟨_, hgetFirst, rfl⟩
    · rw [if_neg (Ne.symm hspread)]
      exact (mem_page hsize).mpr ⟨_, hgetLast, rfl⟩

/-- The pages hold every row once, whatever the answers, exactly when ties share a page. -/
theorem pages_perm_iff [DecidableEq α] (hsize : 0 < size) (hnodup : rows.Nodup) :
    (∀ answers : ℕ → List α, (∀ k, c.Orders rows (answers k)) →
      (pages size rows.length answers).Perm rows) ↔ c.TiesTogether size rows := by
  constructor
  · intro hall a ha
    by_contra hspread
    obtain ⟨answers, hanswers, hnot⟩ := exists_pages_of_spread hsize hnodup ha hspread
    exact hnot ((hall answers hanswers).nodup_iff.mpr hnodup)
  · exact fun h answers hanswers => h.pages_perm hsize hnodup hanswers

/-- Rows that never tie are partitioned. -/
theorem tiesTogether_of_antisymm [DecidableEq α] (hnodup : rows.Nodup)
    (hanti : ∀ a ∈ rows, ∀ b ∈ rows, c.le a b = true → c.le b a = true → a = b) :
    c.TiesTogether size rows := by
  intro a ha
  have hperm := List.perm_cons_erase ha
  have hrest : (rows.erase a).countP (c.before · a) = (rows.erase a).countP (c.le · a) := by
    refine List.countP_congr fun b hb => ?_
    obtain ⟨hne, hb⟩ := hnodup.mem_erase_iff.mp hb
    refine ⟨le_of_before, fun hle => ?_⟩
    have hnot : ¬ c.le a b = true := fun hge => hne (hanti b hb a ha hle hge)
    simpa [before] using hnot
  rw [hperm.countP_eq, hperm.countP_eq, List.countP_cons_of_neg (by simp [before_self]),
    countP_le_cons, Nat.add_sub_cancel, hrest]

end Comparison

end NestApi.Paging
