import Mathlib.Algebra.BigOperators.Group.Finset.Basic
import Mathlib.Algebra.Order.BigOperators.Group.Finset
import Mathlib.Data.Finset.Max
import Mathlib.Order.Interval.Finset.Nat

/-!
# Blocks of numbers with a common prefix

A block is the numbers of a given width that share their first bits. Two blocks are nested or
disjoint, so the numbers that a set of blocks covers are counted by its outermost blocks.
-/

namespace NestApi.Ranges

/-- A prefix of `length` bits of the numbers of a width. -/
structure PrefixBlock (width : ℕ) where
  length : ℕ
  bits : ℕ
  length_le : length ≤ width
  bits_lt : bits < 2 ^ length
deriving DecidableEq

namespace PrefixBlock

variable {width : ℕ}

/-- The number starts with the prefix. -/
def Covers (b : PrefixBlock width) (x : ℕ) : Prop := x / 2 ^ (width - b.length) = b.bits

instance (b : PrefixBlock width) (x : ℕ) : Decidable (b.Covers x) :=
  inferInstanceAs (Decidable (_ = _))

/-- How many numbers start with the prefix. -/
def size (b : PrefixBlock width) : ℕ := 2 ^ (width - b.length)

/-- The prefix of one block starts with that of the other. -/
def Contains (b c : PrefixBlock width) : Prop :=
  b.length ≤ c.length ∧ c.bits / 2 ^ (c.length - b.length) = b.bits

instance (b c : PrefixBlock width) : Decidable (b.Contains c) :=
  inferInstanceAs (Decidable (_ ∧ _))

/-- The blocks that no other block contains. -/
def outermost (blocks : Finset (PrefixBlock width)) : Finset (PrefixBlock width) :=
  blocks.filter fun c => ∀ b ∈ blocks, b.Contains c → b = c

variable {b c : PrefixBlock width} {x : ℕ}

/-! ### Nested or disjoint -/

/-- Cutting a number to fewer bits in two steps. -/
theorem div_div_of_length_le (h : b.length ≤ c.length) (x : ℕ) :
    x / 2 ^ (width - c.length) / 2 ^ (c.length - b.length) = x / 2 ^ (width - b.length) := by
  have hc := c.length_le
  rw [Nat.div_div_eq_div_mul, ← pow_add]
  congr 2
  omega

theorem Contains.covers (h : b.Contains c) (hx : c.Covers x) : b.Covers x := by
  unfold Covers at hx ⊢
  rw [← div_div_of_length_le h.1, hx, h.2]

/-- Two blocks with a common number are nested. -/
theorem contains_of_covers (hlength : b.length ≤ c.length) (hb : b.Covers x) (hc : c.Covers x) :
    b.Contains c := by
  refine ⟨hlength, ?_⟩
  unfold Covers at hb hc
  rw [← hc, div_div_of_length_le hlength, hb]

theorem Contains.refl (b : PrefixBlock width) : b.Contains b := ⟨le_rfl, by simp⟩

theorem Contains.trans {d : PrefixBlock width} (h : b.Contains c) (h' : c.Contains d) :
    b.Contains d := by
  refine ⟨h.1.trans h'.1, ?_⟩
  rw [← h.2, ← h'.2, Nat.div_div_eq_div_mul, ← pow_add]
  congr 2
  have := h.1
  have := h'.1
  omega

theorem Contains.eq_of_length_le (h : b.Contains c) (hlength : c.length ≤ b.length) : b = c := by
  obtain ⟨hle, hbits⟩ := h
  have hlength_eq : b.length = c.length := le_antisymm hle hlength
  rw [hlength_eq, Nat.sub_self, pow_zero, Nat.div_one] at hbits
  cases b
  cases c
  simp only at hlength_eq hbits
  subst hlength_eq hbits
  rfl

/-! ### The outermost blocks -/

/-- Every block is contained in an outermost one. -/
theorem exists_outermost_contains {blocks : Finset (PrefixBlock width)} (hc : c ∈ blocks) :
    ∃ b ∈ outermost blocks, b.Contains c := by
  obtain ⟨b, hb, hmin⟩ := Finset.exists_min_image (blocks.filter (·.Contains c)) length
    ⟨c, Finset.mem_filter.mpr ⟨hc, Contains.refl c⟩⟩
  obtain ⟨hb, hbc⟩ := Finset.mem_filter.mp hb
  refine ⟨b, Finset.mem_filter.mpr ⟨hb, fun d hd hdb => ?_⟩, hbc⟩
  exact hdb.eq_of_length_le (hmin d (Finset.mem_filter.mpr ⟨hd, hdb.trans hbc⟩))

/-- Two outermost blocks that share a number are the same. -/
theorem eq_of_outermost {blocks : Finset (PrefixBlock width)} (hb : b ∈ outermost blocks)
    (hc : c ∈ outermost blocks) (hbx : b.Covers x) (hcx : c.Covers x) : b = c := by
  obtain ⟨hbmem, hbout⟩ := Finset.mem_filter.mp hb
  obtain ⟨hcmem, hcout⟩ := Finset.mem_filter.mp hc
  rcases le_total b.length c.length with hle | hle
  · exact hcout b hbmem (contains_of_covers hle hbx hcx)
  · exact (hbout c hcmem (contains_of_covers hle hcx hbx)).symm

/-! ### Counting -/

/-- The numbers of a block. -/
def members (b : PrefixBlock width) : Finset ℕ :=
  Finset.Ico (b.bits * b.size) ((b.bits + 1) * b.size)

theorem size_pos (b : PrefixBlock width) : 0 < b.size := Nat.two_pow_pos _

theorem mem_members : x ∈ b.members ↔ b.Covers x := by
  rw [members, Finset.mem_Ico, Covers, ← size, ← Nat.le_div_iff_mul_le b.size_pos,
    ← Nat.div_lt_iff_lt_mul b.size_pos]
  omega

theorem card_members (b : PrefixBlock width) : b.members.card = b.size := by
  rw [members, Nat.card_Ico, Nat.add_mul, one_mul, Nat.add_sub_cancel_left]

theorem members_subset_range (b : PrefixBlock width) :
    b.members ⊆ Finset.range (2 ^ width) := by
  intro x hx
  have hend : (b.bits + 1) * b.size ≤ 2 ^ width := by
    calc (b.bits + 1) * b.size ≤ 2 ^ b.length * 2 ^ (width - b.length) :=
          Nat.mul_le_mul_right _ b.bits_lt
      _ = 2 ^ width := by rw [← pow_add, Nat.add_sub_cancel' b.length_le]
  exact Finset.mem_range.mpr ((Finset.mem_Ico.mp hx).2.trans_le hend)

/-- What a set of blocks covers has as many numbers as its outermost blocks together. -/
theorem card_biUnion_members (blocks : Finset (PrefixBlock width)) :
    (blocks.biUnion members).card = ∑ b ∈ outermost blocks, b.size := by
  have hunion : blocks.biUnion members = (outermost blocks).biUnion members := by
    ext x
    simp only [Finset.mem_biUnion, mem_members]
    constructor
    · rintro ⟨c, hc, hx⟩
      obtain ⟨b, hb, hbc⟩ := exists_outermost_contains hc
      exact ⟨b, hb, hbc.covers hx⟩
    · rintro ⟨b, hb, hx⟩
      exact ⟨b, (Finset.mem_filter.mp hb).1, hx⟩
  have hdisjoint : ((outermost blocks : Finset _) : Set (PrefixBlock width)).PairwiseDisjoint
      members := by
    intro b hb c hc hne
    rw [Function.onFun, Finset.disjoint_left]
    intro x hbx hcx
    exact hne (eq_of_outermost hb hc (mem_members.mp hbx) (mem_members.mp hcx))
  rw [hunion, Finset.card_biUnion hdisjoint]
  exact Finset.sum_congr rfl fun b _ => card_members b

/-- Some number is left out exactly when the outermost blocks are too small together. -/
theorem exists_not_covers_iff (blocks : Finset (PrefixBlock width)) :
    (∃ x < 2 ^ width, ∀ b ∈ blocks, ¬ b.Covers x) ↔
      ∑ b ∈ outermost blocks, b.size < 2 ^ width := by
  have hsubset : blocks.biUnion members ⊆ Finset.range (2 ^ width) :=
    Finset.biUnion_subset.mpr fun b _ => b.members_subset_range
  rw [← card_biUnion_members, ← Finset.card_range (2 ^ width)]
  constructor
  · rintro ⟨x, hx, hnot⟩
    refine Finset.card_lt_card ⟨hsubset, fun hall => ?_⟩
    obtain ⟨b, hb, hxb⟩ := Finset.mem_biUnion.mp (hall (Finset.mem_range.mpr (by simpa using hx)))
    exact hnot b hb (mem_members.mp hxb)
  · intro hlt
    obtain ⟨x, hx, hnot⟩ := Finset.exists_mem_notMem_of_card_lt_card hlt
    refine ⟨x, by simpa using hx, fun b hb hxb => hnot ?_⟩
    exact Finset.mem_biUnion.mpr ⟨b, hb, mem_members.mpr hxb⟩

end PrefixBlock

end NestApi.Ranges
