import Mathlib.Logic.ExistsUnique
import Mathlib.Logic.Function.Basic

/-!
# Exclusive references

Each owner refers to at most one thing. The references are exclusive when the things in use are
those that somebody refers to, and nobody shares one. An owner may exchange what it has for
something that is not in use.
-/

namespace NestApi.Txn

/-- Exactly the things in use are referred to, each by one owner. -/
structure ExclusiveRefs {ι κ : Type} (ref : ι → Option κ) (used : κ → Prop) : Prop where
  used_iff : ∀ x, used x ↔ ∃ i, ref i = some x
  unique : ∀ i j x, ref i = some x → ref j = some x → i = j

namespace ExclusiveRefs

variable {ι κ : Type} {ref ref' : ι → Option κ} {used used' : κ → Prop}

theorem of_ref (h : ExclusiveRefs ref used) {i : ι} {x : κ} (hi : ref i = some x) : used x :=
  (h.used_iff x).mpr ⟨i, hi⟩

theorem existsUnique_iff (h : ExclusiveRefs ref used) (x : κ) : used x ↔ ∃! i, ref i = some x := by
  rw [h.used_iff]
  constructor
  · rintro ⟨i, hi⟩
    exact ⟨i, hi, fun j hj => h.unique j i x hj hi⟩
  · rintro ⟨i, hi, -⟩
    exact ⟨i, hi⟩

theorem congr (h : ExclusiveRefs ref used) (href : ∀ i, ref' i = ref i)
    (hused : ∀ x, used' x ↔ used x) : ExclusiveRefs ref' used' := by
  obtain rfl : ref' = ref := funext href
  exact ⟨fun x => (hused x).trans (h.used_iff x), h.unique⟩

/-- One owner gives up what it has for something that is not in use. -/
theorem exchange (h : ExclusiveRefs ref used) {i : ι} {r : Option κ} (hi : ref' i = r)
    (hothers : ∀ j, j ≠ i → ref' j = ref j) (hfree : ∀ x, r = some x → ¬ used x)
    (hused : ∀ x, used' x ↔ r = some x ∨ used x ∧ ref i ≠ some x) : ExclusiveRefs ref' used' := by
  subst hi
  constructor
  · intro x
    rw [hused]
    constructor
    · rintro (htaken | ⟨hx, hkept⟩)
      · exact ⟨i, htaken⟩
      · obtain ⟨j, hj⟩ := (h.used_iff x).mp hx
        have hne : j ≠ i := fun heq => hkept (heq ▸ hj)
        exact ⟨j, (hothers j hne).trans hj⟩
    · rintro ⟨j, hj⟩
      by_cases hji : j = i
      · exact .inl (hji ▸ hj)
      · rw [hothers j hji] at hj
        exact .inr ⟨h.of_ref hj, fun hx => hji (h.unique j i x hj hx)⟩
  · -- what the owner takes was nobody's
    have hnew : ∀ j x, j ≠ i → ref' i = some x → ref' j ≠ some x := by
      intro j x hne hx hj
      rw [hothers j hne] at hj
      exact hfree x hx (h.of_ref hj)
    intro j k x hj hk
    by_cases hji : j = i
    · subst hji
      by_contra hne
      exact hnew k x (Ne.symm hne) hj hk
    · by_cases hki : k = i
      · subst hki
        exact absurd hj (hnew j x hji hk)
      · rw [hothers j hji] at hj
        rw [hothers k hki] at hk
        exact h.unique j k x hj hk

end ExclusiveRefs

end NestApi.Txn
