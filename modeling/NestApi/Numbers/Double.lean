import Mathlib.Algebra.Order.Ring.Nat
import Mathlib.Data.Nat.Log

/-!
# Natural numbers as doubles

Rounding keeps 53 significant bits. Numbers with fewer digits than that are told apart by the
doubles nearest to them.
-/

namespace NestApi

/-- The nearest double of a natural number: 53 significant bits, ties to even. -/
def nearestDouble (n : ℕ) : ℕ :=
  let unitInLastPlace := 2 ^ (n.log2 - 52)
  let rest := n % unitInLastPlace
  let kept := n / unitInLastPlace
  if unitInLastPlace < 2 * rest ∨ unitInLastPlace = 2 * rest ∧ kept % 2 = 1 then
    (kept + 1) * unitInLastPlace
  else kept * unitInLastPlace

/-- A natural number that is a double. -/
structure NaturalDouble where
  value : ℕ
  exact : nearestDouble value = value
  finite : value.log2 < 1024
deriving DecidableEq

variable {n s t k : ℕ}

theorem nearestDouble_eq_self (h : n < 2 ^ 53) : nearestDouble n = n := by
  have hlog : n.log2 - 52 = 0 := by
    rcases Nat.eq_zero_or_pos n with rfl | hpos
    · rfl
    · have hlt := (Nat.log2_lt hpos.ne').mpr h
      omega
  simp [nearestDouble, hlog, Nat.mod_one]

/-- Rounding moves a number by less than its share of 53 bits. -/
theorem nearestDouble_error (n : ℕ) : 2 ^ 53 * nearestDouble n ≤ 2 ^ 53 * n + n ∧
    2 ^ 53 * n ≤ 2 ^ 53 * nearestDouble n + n := by
  by_cases hsmall : n < 2 ^ 53
  · rw [nearestDouble_eq_self hsmall]
    omega
  have hne : n ≠ 0 := by omega
  set unitInLastPlace := 2 ^ (n.log2 - 52) with hunit
  have hlarge : 2 ^ 52 * unitInLastPlace ≤ n := by
    have hlog : 53 ≤ n.log2 := (Nat.le_log2 hne).mpr (by omega)
    calc 2 ^ 52 * unitInLastPlace = 2 ^ n.log2 := by
          rw [hunit, ← pow_add, Nat.add_sub_of_le (by omega)]
      _ ≤ n := Nat.log2_self_le hne
  have hsplit : n = n / unitInLastPlace * unitInLastPlace + n % unitInLastPlace :=
    (Nat.div_add_mod' n unitInLastPlace).symm
  have hrest : n % unitInLastPlace < unitInLastPlace := Nat.mod_lt _ (Nat.two_pow_pos _)
  unfold nearestDouble
  simp only [← hunit]
  split
  · next hup =>
    rw [Nat.add_mul, Nat.one_mul]
    omega
  · next hdown =>
    rw [not_or, not_lt] at hdown
    omega

/-- Two multiples of a number, one of them short, round to one double only when they are equal. -/
theorem eq_of_nearestDouble_eq (hs : s < 2 ^ 51) (hk : 0 < k)
    (h : nearestDouble (s * k) = nearestDouble (t * k)) : s = t := by
  obtain ⟨hsUp, hsDown⟩ := nearestDouble_error (s * k)
  obtain ⟨htUp, htDown⟩ := nearestDouble_error (t * k)
  rw [h] at hsUp hsDown
  have hle : (2 ^ 53 * s) * k ≤ (2 ^ 53 * t + t + s) * k := by
    calc (2 ^ 53 * s) * k = 2 ^ 53 * (s * k) := Nat.mul_assoc ..
      _ ≤ 2 ^ 53 * (t * k) + t * k + s * k := by omega
      _ = (2 ^ 53 * t + t + s) * k := by rw [Nat.add_mul, Nat.add_mul, Nat.mul_assoc]
  have hge : (2 ^ 53 * t) * k ≤ (2 ^ 53 * s + s + t) * k := by
    calc (2 ^ 53 * t) * k = 2 ^ 53 * (t * k) := Nat.mul_assoc ..
      _ ≤ 2 ^ 53 * (s * k) + s * k + t * k := by omega
      _ = (2 ^ 53 * s + s + t) * k := by rw [Nat.add_mul, Nat.add_mul, Nat.mul_assoc]
  have hle' := Nat.le_of_mul_le_mul_right hle hk
  have hge' := Nat.le_of_mul_le_mul_right hge hk
  omega

end NestApi
