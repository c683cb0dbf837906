import Mathlib.Data.Nat.Notation
import Mathlib.Data.Option.Basic
import Mathlib.Logic.Function.Basic

/-!
# Entries that expire

A map from keys to values with the time from which a value is gone. What is read at a time was
set, and its time has not come.
-/

namespace NestApi

/-- Values by key, each with its end. -/
abbrev ExpiringMap (K V : Type) := K → Option (V × ℕ)

namespace ExpiringMap

variable {K V : Type} {m : ExpiringMap K V} {now expiry t : ℕ} {k k' : K} {v w : V}

/-- What the map holds at a time. -/
def get? (m : ExpiringMap K V) (now : ℕ) (k : K) : Option V :=
  ((m k).filter fun entry => now < entry.2).map Prod.fst

theorem get?_eq_some : m.get? now k = some v ↔ ∃ expiry, m k = some (v, expiry) ∧ now < expiry := by
  simp only [get?, Option.map_eq_some_iff, Option.filter_eq_some_iff, decide_eq_true_eq]
  constructor
  · rintro ⟨entry, ⟨hentry, hlt⟩, rfl⟩
    exact ⟨entry.2, hentry, hlt⟩
  · rintro ⟨expiry, hentry, hlt⟩
    exact ⟨(v, expiry), ⟨hentry, hlt⟩, rfl⟩

variable [DecidableEq K]

def set (m : ExpiringMap K V) (k : K) (v : V) (expiry : ℕ) : ExpiringMap K V :=
  Function.update m k (some (v, expiry))

/-- An entry is deleted, or evicted to make room. -/
def evict (m : ExpiringMap K V) (k : K) : ExpiringMap K V := Function.update m k none

theorem of_set (h : m.set k v expiry k' = some (w, t)) :
    (k' = k ∧ w = v ∧ t = expiry) ∨ m k' = some (w, t) := by
  rw [set, Function.update_apply] at h
  split at h
  · next hk =>
    obtain ⟨rfl, rfl⟩ := Prod.mk.inj (Option.some.inj h)
    exact .inl ⟨hk, rfl, rfl⟩
  · exact .inr h

theorem of_evict (h : m.evict k k' = some (w, t)) : m k' = some (w, t) := by
  rw [evict, Function.update_apply] at h
  split at h
  · cases h
  · exact h

theorem get?_set_self : (m.set k v expiry).get? now k = if now < expiry then some v else none := by
  rw [get?, set, Function.update_self, Option.filter_some]
  split
  · next hlt => rw [if_pos (of_decide_eq_true hlt), Option.map_some]
  · next hlt => rw [if_neg (fun h => hlt (decide_eq_true h)), Option.map_none]

theorem get?_evict_self : (m.evict k).get? now k = none := by
  simp [get?, evict]

end ExpiringMap

end NestApi
