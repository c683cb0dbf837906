import Mathlib.Data.List.Basic

/-!
# Counting by keys

A limiter counts what it lets through under a key. What falls under few keys is bounded by them.
-/

namespace NestApi

variable {A K : Type} [DecidableEq K] {key : A → K} {n : ℕ} {l : List A}

/-- No more than `n` have the same key. -/
def WithinLimit (key : A → K) (n : ℕ) (l : List A) : Prop :=
  ∀ k, l.countP (fun a => key a = k) ≤ n

/-- Only the keys that occur count. -/
theorem withinLimit_iff :
    WithinLimit key n l ↔ ∀ a ∈ l, l.countP (fun b => key b = key a) ≤ n := by
  constructor
  · intro h a _
    exact h (key a)
  · intro h k
    by_cases hk : ∃ a ∈ l, key a = k
    · obtain ⟨a, ha, rfl⟩ := hk
      exact h a ha
    · have hzero : l.countP (fun a => decide (key a = k)) = 0 :=
        List.countP_eq_zero.mpr fun a ha => by
          rw [decide_eq_true_eq]
          exact fun heq => hk ⟨a, ha, heq⟩
      omega

instance : Decidable (WithinLimit key n l) := decidable_of_iff' _ withinLimit_iff

/-- A limit on the keys of a list is a limit on the keys of what is left of it. -/
theorem WithinLimit.filter (h : WithinLimit key n l) (p : A → Bool) :
    WithinLimit key n (l.filter p) := fun k => Nat.le_trans List.filter_sublist.countP_le (h k)

/-- What falls under the keys of a list. -/
theorem WithinLimit.length_le (h : WithinLimit key n l) {keys : List K}
    (hkeys : ∀ a ∈ l, key a ∈ keys) : l.length ≤ keys.length * n := by
  induction keys generalizing l with
  | nil =>
    have hnil : l = [] := List.eq_nil_iff_forall_not_mem.mpr fun a ha =>
      List.not_mem_nil (hkeys a ha)
    simp [hnil]
  | cons k keys ih =>
    have hrest := ih (h.filter fun a => ¬key a = k) fun a ha => by
      obtain ⟨hmem, hne⟩ := List.mem_filter.mp ha
      exact (List.mem_cons.mp (hkeys a hmem)).resolve_left (of_decide_eq_true hne)
    rw [← List.countP_eq_length_filter] at hrest
    have hfirst := h k
    have hsplit := List.length_eq_countP_add_countP (l := l) fun a => decide (key a = k)
    simp only [decide_eq_true_eq] at hsplit
    rw [List.length_cons, Nat.add_mul, Nat.one_mul]
    omega

end NestApi
