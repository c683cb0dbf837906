import Mathlib.Data.List.Infix

/-!
# Patterns with wildcards

A pattern is a list of signs. One sign stands for any list, one for any single sign, and one
takes the sign behind it literally. Signs are compared by what a folding makes of them.
-/

namespace NestApi.Patterns

variable {α : Type} [DecidableEq α]

/-- The three signs of the pattern language. -/
structure LikeSigns (α : Type) where
  anyList : α
  anySign : α
  escape : α
  anyList_ne_anySign : anyList ≠ anySign
  anyList_ne_escape : anyList ≠ escape

/-- The signs that do not stand for themselves. -/
def LikeSigns.IsSpecial (signs : LikeSigns α) (a : α) : Prop :=
  a = signs.anyList ∨ a = signs.anySign ∨ a = signs.escape

instance (signs : LikeSigns α) : DecidablePred signs.IsSpecial := fun _ =>
  inferInstanceAs (Decidable (_ ∨ _ ∨ _))

inductive LikeToken (α : Type)
  | anyList
  | anySign
  | literal (a : α)

/-- What a pattern asks for, from left to right. -/
def likeTokens (signs : LikeSigns α) : List α → List (LikeToken α)
  | [] => []
  | a :: pattern =>
    if a = signs.escape then
      match pattern with
      | [] => [.literal a]
      | b :: pattern => .literal b :: likeTokens signs pattern
    else if a = signs.anyList then .anyList :: likeTokens signs pattern
    else if a = signs.anySign then .anySign :: likeTokens signs pattern
    else .literal a :: likeTokens signs pattern

/-- The whole list is what the tokens ask for. -/
def likeMatches (fold : α → α) : List (LikeToken α) → List α → Bool
  | [], s => s.isEmpty
  | .anyList :: tokens, s => s.tails.any (likeMatches fold tokens)
  | .anySign :: tokens, s =>
    match s with
    | [] => false
    | _ :: s => likeMatches fold tokens s
  | .literal a :: tokens, s =>
    match s with
    | [] => false
    | b :: s => decide (fold a = fold b) && likeMatches fold tokens s

/-- A list occurs in another, sign by sign up to the folding. -/
def ContainsFolded (fold : α → α) (term s : List α) : Prop := term.map fold <:+: s.map fold

instance (fold : α → α) (term s : List α) : Decidable (ContainsFolded fold term s) :=
  inferInstanceAs (Decidable (_ <:+: _))

variable {signs : LikeSigns α} {fold : α → α} {tokens : List (LikeToken α)} {term s : List α}
  {a : α}

theorem likeTokens_cons_of_not_special {pattern : List α} (h : ¬ signs.IsSpecial a) :
    likeTokens signs (a :: pattern) = .literal a :: likeTokens signs pattern := by
  simp only [LikeSigns.IsSpecial, not_or] at h
  rw [likeTokens.eq_def]
  simp [h.1, h.2.1, h.2.2]

theorem likeTokens_anyList {pattern : List α} :
    likeTokens signs (signs.anyList :: pattern) = .anyList :: likeTokens signs pattern := by
  rw [likeTokens.eq_def]
  simp [signs.anyList_ne_escape]

theorem likeMatches_anyList :
    likeMatches fold (.anyList :: tokens) s = true ↔
      ∃ front back, s = front ++ back ∧ likeMatches fold tokens back = true := by
  rw [likeMatches, List.any_eq_true]
  constructor
  · rintro ⟨back, hback, hmatch⟩
    obtain ⟨front, rfl⟩ := (List.mem_tails _ _).mp hback
    exact ⟨front, back, rfl, hmatch⟩
  · rintro ⟨front, back, rfl, hmatch⟩
    exact ⟨back, (List.mem_tails _ _).mpr (List.suffix_append _ _), hmatch⟩

/-- Literal tokens ask for a list that is folded to the same. -/
theorem likeMatches_literals :
    likeMatches fold (term.map .literal ++ tokens) s = true ↔
      ∃ front back, s = front ++ back ∧ front.map fold = term.map fold ∧
        likeMatches fold tokens back = true := by
  induction term generalizing s with
  | nil => simp
  | cons a term ih =>
    cases s with
    | nil => simp [likeMatches]
    | cons b s =>
      simp only [List.map_cons, List.cons_append, likeMatches, Bool.and_eq_true,
        decide_eq_true_eq, ih]
      constructor
      · rintro ⟨hab, front, back, rfl, hfront, hmatch⟩
        exact ⟨b :: front, back, rfl, by simp [hab, hfront], hmatch⟩
      · rintro ⟨front, back, heq, hfront, hmatch⟩
        cases front with
        | nil => simp at hfront
        | cons c front =>
          obtain ⟨rfl, rfl⟩ := List.cons.inj heq
          obtain ⟨hab, hfront⟩ := List.cons.inj hfront
          exact ⟨hab.symm, front, back, rfl, hfront, hmatch⟩

theorem likeTokens_append_of_plain (h : ∀ a ∈ term, ¬ signs.IsSpecial a) (pattern : List α) :
    likeTokens signs (term ++ pattern) = term.map .literal ++ likeTokens signs pattern := by
  induction term with
  | nil => rfl
  | cons a term ih =>
    rw [List.cons_append, likeTokens_cons_of_not_special (h a List.mem_cons_self),
      ih fun b hb => h b (List.mem_cons_of_mem _ hb)]
    rfl

/-- The pattern of the lists that contain a term, with nothing escaped. -/
def containsPattern (signs : LikeSigns α) (term : List α) : List α :=
  signs.anyList :: (term ++ [signs.anyList])

/-- Without special signs the pattern says what it should. -/
theorem containsPattern_matches_iff (h : ∀ a ∈ term, ¬ signs.IsSpecial a) :
    likeMatches fold (likeTokens signs (containsPattern signs term)) s = true ↔
      ContainsFolded fold term s := by
  rw [containsPattern, likeTokens_anyList, likeMatches_anyList, likeTokens_append_of_plain h,
    likeTokens_anyList]
  simp only [likeMatches_literals, likeMatches_anyList]
  constructor
  · rintro ⟨front, _, rfl, middle, _, rfl, hmiddle, back, last, rfl, -⟩
    refine ⟨front.map fold, (back ++ last).map fold, ?_⟩
    rw [← hmiddle, List.append_assoc, ← List.map_append, ← List.map_append]
  · rintro ⟨front, back, heq⟩
    obtain ⟨rest, last, rfl, hrest, rfl⟩ := List.map_eq_append_iff.mp heq.symm
    obtain ⟨first, middle, rfl, rfl, hmiddle⟩ := List.map_eq_append_iff.mp hrest
    exact ⟨first, _, List.append_assoc _ _ _, middle, last, rfl, hmiddle, last, [],
      (List.append_nil _).symm, rfl⟩

/-! ### A term with a special sign -/

/-- A list that the pattern of a term matches: nothing for any list, a given sign for any
single one, and what is escaped as it is. An escape at the end takes the sign that closes the
pattern. -/
def resolved (signs : LikeSigns α) (other : α) : List α → List α
  | [] => []
  | a :: term =>
    if a = signs.escape then
      match term with
      | [] => [signs.anyList]
      | b :: term => b :: resolved signs other term
    else if a = signs.anyList then resolved signs other term
    else if a = signs.anySign then other :: resolved signs other term
    else a :: resolved signs other term

theorem resolved_matches (other : α) (term : List α) :
    likeMatches fold (likeTokens signs (term ++ [signs.anyList])) (resolved signs other term) =
      true := by
  fun_induction resolved signs other term with
  | case1 =>
    rw [List.nil_append, likeTokens_anyList, likeMatches_anyList]
    exact ⟨[], [], rfl, rfl⟩
  | case2 => simp [likeTokens, likeMatches]
  | case3 b term ih => simp [likeTokens, likeMatches, ih]
  | case4 term hne ih =>
    rw [List.cons_append, likeTokens_anyList, likeMatches_anyList]
    exact ⟨[], _, rfl, ih⟩
  | case5 term hescape hlist ih =>
    rw [List.cons_append, likeTokens.eq_def]
    simpa [hescape, hlist, likeMatches] using ih
  | case6 a term hescape hlist hsign ih =>
    rw [List.cons_append,
      likeTokens_cons_of_not_special (by simp [LikeSigns.IsSpecial, hescape, hlist, hsign])]
    simpa [likeMatches] using ih

/-- The list is no longer than the term, and where it is folded to the same nothing in the term
is special. -/
theorem resolved_spec {other : α} (hother : fold other ≠ fold signs.anySign)
    (hclose : fold signs.anyList ≠ fold signs.escape) (term : List α) :
    (resolved signs other term).length ≤ term.length ∧
      ((resolved signs other term).map fold = term.map fold →
        ∀ a ∈ term, ¬ signs.IsSpecial a) := by
  fun_induction resolved signs other term with
  | case1 => simp
  | case2 => simp [hclose]
  | case3 b term ih =>
    refine ⟨by simp; omega, fun heq => ?_⟩
    have hlength := congrArg List.length heq
    simp only [List.map_cons, List.length_cons, List.length_map] at hlength
    omega
  | case4 term hne ih =>
    refine ⟨by simp; omega, fun heq => ?_⟩
    have hlength := congrArg List.length heq
    simp only [List.map_cons, List.length_cons, List.length_map] at hlength
    omega
  | case5 term hescape hlist ih =>
    refine ⟨by simpa using ih.1, fun heq => ?_⟩
    exact absurd (List.cons.inj heq).1 hother
  | case6 a term hescape hlist hsign ih =>
    refine ⟨by simpa using ih.1, fun heq b hb => ?_⟩
    rcases List.mem_cons.mp hb with rfl | hb
    · simp [LikeSigns.IsSpecial, hescape, hlist, hsign]
    · exact ih.2 (List.cons.inj heq).2 b hb

/-- With a special sign the pattern finds what does not contain the term. -/
theorem exists_matches_not_contains {other : α} (hother : fold other ≠ fold signs.anySign)
    (hclose : fold signs.anyList ≠ fold signs.escape) (h : ∃ a ∈ term, signs.IsSpecial a) :
    ∃ s, likeMatches fold (likeTokens signs (containsPattern signs term)) s = true ∧
      ¬ ContainsFolded fold term s := by
  refine ⟨resolved signs other term, ?_, fun hcontains => ?_⟩
  · rw [containsPattern, likeTokens_anyList, likeMatches_anyList]
    exact ⟨[], _, rfl, resolved_matches other term⟩
  · obtain ⟨hlength, hplain⟩ := resolved_spec hother hclose term
    have heq := List.IsInfix.eq_of_length_le hcontains (by simpa using hlength)
    obtain ⟨a, ha, hspecial⟩ := h
    exact hplain heq.symm a ha hspecial

end NestApi.Patterns
