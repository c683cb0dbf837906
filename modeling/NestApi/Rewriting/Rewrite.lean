import Mathlib.Data.List.Infix

/-!
# Rewriting a list from left to right

One pass over a list. Where a matcher recognises a piece, the piece is consumed and its
replacement written out. Everywhere else one element is kept. What was written is not read
again.
-/

namespace NestApi.Rewriting

variable {α β : Type}

/-- What a matcher finds at the front of a list: how many elements after the first it
consumes, and what to write instead. -/
abbrev Matcher (α β : Type) := List α → Option (ℕ × List β)

variable (m : Matcher α β) (keep : α → List β)

/-- The pass, with elements left to skip. -/
def rewriteAfter : ℕ → List α → List β
  | _, [] => []
  | skip + 1, _ :: t => rewriteAfter skip t
  | 0, a :: t =>
    match m (a :: t) with
    | some (n, out) => out ++ rewriteAfter n t
    | none => keep a ++ rewriteAfter 0 t

/-- The whole pass. -/
def rewrite (t : List α) : List β := rewriteAfter m keep 0 t

variable {m keep}

theorem rewriteAfter_eq_rewrite (skip : ℕ) (t : List α) :
    rewriteAfter m keep skip t = rewrite m keep (t.drop skip) := by
  induction skip generalizing t with
  | zero => rfl
  | succ skip ih =>
    cases t with
    | nil => rfl
    | cons a t => exact ih t

@[simp] theorem rewrite_nil : rewrite m keep [] = [] := rfl

/-- A piece is consumed as a whole. -/
theorem rewrite_hit {a : α} {t : List α} {n : ℕ} {out : List β}
    (h : m (a :: t) = some (n, out)) :
    rewrite m keep (a :: t) = out ++ rewrite m keep (t.drop n) := by
  rw [← rewriteAfter_eq_rewrite]
  unfold rewrite
  rw [rewriteAfter, h]

theorem rewrite_miss {a : α} {t : List α} (h : m (a :: t) = none) :
    rewrite m keep (a :: t) = keep a ++ rewrite m keep t := by
  unfold rewrite
  rw [rewriteAfter, h]

/-- To prove something of every list, follow the pass over it. -/
theorem rewrite_induction (m : Matcher α β) {P : List α → Prop} (nil : P [])
    (hit : ∀ a t n out, m (a :: t) = some (n, out) → P (t.drop n) → P (a :: t))
    (miss : ∀ a t, m (a :: t) = none → P t → P (a :: t)) (t : List α) : P t := by
  induction hlength : t.length using Nat.strong_induction_on generalizing t with
  | _ length ih =>
    cases t with
    | nil => exact nil
    | cons a t =>
      cases hm : m (a :: t) with
      | none => exact miss a t hm (ih t.length (by simp at hlength; omega) t rfl)
      | some found =>
        obtain ⟨n, out⟩ := found
        refine hit a t n out hm (ih (t.drop n).length ?_ _ rfl)
        simp at hlength ⊢
        omega

/-- A front part at which nothing is recognised is kept. -/
theorem rewrite_append {a t : List α} (h : ∀ s, s ≠ [] → s <:+ a → m (s ++ t) = none) :
    rewrite m keep (a ++ t) = a.flatMap keep ++ rewrite m keep t := by
  induction a with
  | nil => rfl
  | cons x a ih =>
    have hfront : m (x :: (a ++ t)) = none := h (x :: a) (by simp) (List.suffix_refl _)
    rw [List.cons_append, rewrite_miss hfront,
      ih fun s hs hsuffix => h s hs (hsuffix.trans (List.suffix_cons x a)), List.flatMap_cons,
      List.append_assoc]

/-- Where nothing is recognised, everything is kept. -/
theorem rewrite_of_forall_none {t : List α} (h : ∀ s, s ≠ [] → s <:+ t → m s = none) :
    rewrite m keep t = t.flatMap keep := by
  have happend : rewrite m keep (t ++ []) = t.flatMap keep ++ rewrite m keep [] :=
    rewrite_append (by simpa using h)
  simpa using happend

/-! ### Passes that shorten -/

/-- Every piece is longer than its replacement. -/
def Shortens (m : Matcher α α) : Prop :=
  ∀ t n out, m t = some (n, out) → out.length < n + 1 ∧ n + 1 ≤ t.length

variable {m : Matcher α α} {t : List α}

/-- The pass that keeps what it does not recognise. -/
def replaceAll (m : Matcher α α) (t : List α) : List α := rewrite m (fun a => [a]) t

@[simp] theorem replaceAll_nil : replaceAll m [] = [] := rfl

theorem replaceAll_hit {a : α} {n : ℕ} {out : List α} (h : m (a :: t) = some (n, out)) :
    replaceAll m (a :: t) = out ++ replaceAll m (t.drop n) := rewrite_hit h

theorem replaceAll_miss {a : α} (h : m (a :: t) = none) :
    replaceAll m (a :: t) = a :: replaceAll m t := rewrite_miss h

theorem replaceAll_append {a : List α} (h : ∀ s, s ≠ [] → s <:+ a → m (s ++ t) = none) :
    replaceAll m (a ++ t) = a ++ replaceAll m t := by
  rw [replaceAll, rewrite_append h]
  simp [replaceAll]

theorem replaceAll_of_forall_none (h : ∀ s, s ≠ [] → s <:+ t → m s = none) :
    replaceAll m t = t := by
  have happend := replaceAll_append (m := m) (a := t) (t := []) (by simpa using h)
  simpa using happend

/-- A matcher that needs a sign finds nothing where the sign is absent. -/
theorem replaceAll_of_not_mem {sign : α} (hm : ∀ a t, a ≠ sign → m (a :: t) = none)
    (h : sign ∉ t) : replaceAll m t = t := by
  refine replaceAll_of_forall_none fun s hs hsuffix => ?_
  obtain ⟨a, s, rfl⟩ := List.exists_cons_of_ne_nil hs
  exact hm a s (ne_of_mem_of_not_mem (hsuffix.subset List.mem_cons_self) h)

theorem length_replaceAll_le (hm : Shortens m) : (replaceAll m t).length ≤ t.length := by
  induction t using rewrite_induction m with
  | nil => rfl
  | hit a t n out hfound ih =>
    obtain ⟨hshort, hlong⟩ := hm _ n out hfound
    rw [replaceAll_hit hfound]
    simp only [List.length_append, List.length_drop, List.length_cons] at *
    omega
  | miss a t hnone ih =>
    rw [replaceAll_miss hnone]
    simpa using ih

/-- A pass that recognises anything makes the list shorter. -/
theorem forall_none_of_length_replaceAll (hm : Shortens m)
    (h : t.length ≤ (replaceAll m t).length) : ∀ s, s ≠ [] → s <:+ t → m s = none := by
  induction t using rewrite_induction m with
  | nil =>
    intro s hs hsuffix
    exact absurd (List.suffix_nil.mp hsuffix) hs
  | hit a t n out hfound ih =>
    obtain ⟨hshort, hlong⟩ := hm _ n out hfound
    have hrest := length_replaceAll_le hm (t := t.drop n)
    rw [replaceAll_hit hfound] at h
    simp only [List.length_append, List.length_drop, List.length_cons] at *
    omega
  | miss a t hnone ih =>
    rw [replaceAll_miss hnone] at h
    intro s hs hsuffix
    rcases List.suffix_cons_iff.mp hsuffix with rfl | hsuffix
    · exact hnone
    · exact ih (by simpa using h) s hs hsuffix

end NestApi.Rewriting
