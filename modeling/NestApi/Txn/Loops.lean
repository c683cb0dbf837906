import Mathlib.Data.List.Basic

/-!
# Loops that stop at the first failure

A loop over a list carries a state from round to round. What every round keeps holds at the
end, and a loop whose rounds all succeed succeeds.
-/

namespace NestApi.Txn

variable {α β ε : Type} {f : β → α → Except ε β} {xs : List α} {s s' : β}

/-- A sequence that succeeds succeeds in both parts. -/
theorem ok_of_bind {γ : Type} {x : Except ε α} {k : α → Except ε γ} {c : γ}
    (h : (x >>= k) = .ok c) : ∃ a, x = .ok a ∧ k a = .ok c := by
  cases x with
  | error e => exact absurd h (by simp [bind, Except.bind])
  | ok a => exact ⟨a, rfl, h⟩

/-- What every successful round keeps holds when the loop has succeeded. -/
theorem foldlM_invariant {P : β → Prop}
    (hround : ∀ s x s', x ∈ xs → P s → f s x = .ok s' → P s') (hs : P s)
    (h : xs.foldlM f s = .ok s') : P s' := by
  induction xs generalizing s with
  | nil =>
    obtain rfl : s = s' := Except.ok.inj h
    exact hs
  | cons x xs ih =>
    obtain ⟨t, hfirst, hrest⟩ := ok_of_bind h
    refine ih (fun s x s' hx => hround s x s' (List.mem_cons_of_mem _ hx)) ?_ hrest
    exact hround s x t List.mem_cons_self hs hfirst

/-- A loop whose every round succeeds. `J` says what holds once the given elements are done. -/
theorem foldlM_progress (xs : List α) {J : List α → β → Prop} {done : List α}
    (hround : ∀ done s x, x ∈ xs → J done s → ∃ s', f s x = .ok s' ∧ J (x :: done) s')
    (hs : J done s) : ∃ s', xs.foldlM f s = .ok s' ∧ J (xs.reverse ++ done) s' := by
  induction xs generalizing s done with
  | nil => exact ⟨s, rfl, hs⟩
  | cons x xs ih =>
    obtain ⟨t, hfirst, ht⟩ := hround done s x List.mem_cons_self hs
    obtain ⟨s', hrest, hs'⟩ :=
      ih (fun done s y hy => hround done s y (List.mem_cons_of_mem _ hy)) ht
    refine ⟨s', ?_, by simpa using hs'⟩
    rw [List.foldlM_cons, hfirst]
    exact hrest

/-- A loop whose rounds change nothing. -/
theorem foldlM_fixed (hround : ∀ x ∈ xs, f s x = .ok s) : xs.foldlM f s = .ok s := by
  induction xs with
  | nil => rfl
  | cons x xs ih =>
    rw [List.foldlM_cons, hround x List.mem_cons_self]
    exact ih fun y hy => hround y (List.mem_cons_of_mem _ hy)

end NestApi.Txn
