import NestApi.Common.Text

/-!
# Characters of a text

A text is a list of code units, and a character is one unit or a surrogate pair. A text is
well-formed when no half of a pair stands alone. Cutting a text at a unit that is no half
of a pair leaves its parts well-formed.
-/

namespace NestApi

def isHighSurrogate (u : CodeUnit) : Bool := 0xD800 ≤ u && u ≤ 0xDBFF

def isLowSurrogate (u : CodeUnit) : Bool := 0xDC00 ≤ u && u ≤ 0xDFFF

def isSurrogate (u : CodeUnit) : Bool := isHighSurrogate u || isLowSurrogate u

/-- The characters of a text, as `Array.from` has them: a half that stands alone is a
character of its own. -/
def characters : Text → List Text
  | [] => []
  | [u] => [[u]]
  | u :: v :: t =>
    if isHighSurrogate u && isLowSurrogate v then [u, v] :: characters t
    else [u] :: characters (v :: t)

/-- A unit that is no half of a pair, or a whole pair. -/
def isCharacter : Text → Bool
  | [u] => !isSurrogate u
  | [u, v] => isHighSurrogate u && isLowSurrogate v
  | _ => false

/-- `isWellFormed`. -/
def WellFormed (t : Text) : Prop := ∀ c ∈ characters t, isCharacter c = true

instance : DecidablePred WellFormed := fun t =>
  inferInstanceAs (Decidable (∀ c ∈ characters t, isCharacter c = true))

theorem isCharacter_iff {c : Text} : isCharacter c = true ↔
    (∃ u, c = [u] ∧ isSurrogate u = false) ∨
      ∃ u v, c = [u, v] ∧ isHighSurrogate u = true ∧ isLowSurrogate v = true := by
  match c with
  | [] => simp [isCharacter]
  | [u] => simp [isCharacter]
  | [u, v] => simp [isCharacter]
  | _ :: _ :: _ :: _ => simp [isCharacter]

theorem isSurrogate_of_high {u : CodeUnit} (h : isHighSurrogate u = true) :
    isSurrogate u = true := by
  simp [isSurrogate, h]

theorem isSurrogate_of_low {u : CodeUnit} (h : isLowSurrogate u = true) :
    isSurrogate u = true := by
  simp [isSurrogate, h]

@[simp] theorem characters_nil : characters [] = [] := rfl

theorem characters_cons_of_not_high {u : CodeUnit} {t : Text} (h : isHighSurrogate u = false) :
    characters (u :: t) = [u] :: characters t := by
  cases t with
  | nil => rfl
  | cons v t => simp [characters, h]

/-- A character in front is read as one. -/
theorem characters_append {c t : Text} (h : isCharacter c = true) :
    characters (c ++ t) = c :: characters t := by
  rcases isCharacter_iff.mp h with ⟨u, rfl, hu⟩ | ⟨u, v, rfl, hu, hv⟩
  · simp only [isSurrogate, Bool.or_eq_false_iff] at hu
    exact characters_cons_of_not_high hu.1
  · simp [characters, hu, hv]

theorem characters_flatten {cs : List Text} (h : ∀ c ∈ cs, isCharacter c = true) :
    characters cs.flatten = cs := by
  induction cs with
  | nil => rfl
  | cons c cs ih =>
    rw [List.flatten_cons, characters_append (h c List.mem_cons_self),
      ih fun d hd => h d (List.mem_cons_of_mem _ hd)]

/-- No unit is lost. -/
@[simp] theorem flatten_characters (t : Text) : (characters t).flatten = t := by
  fun_induction characters t with
  | case1 => rfl
  | case2 => rfl
  | case3 u v t hpair ih => simp [ih]
  | case4 u v t hpair ih => simp [ih]

/-- A well-formed text is spelled by characters. -/
theorem wellFormed_iff {t : Text} :
    WellFormed t ↔ ∃ cs : List Text, (∀ c ∈ cs, isCharacter c = true) ∧ t = cs.flatten := by
  constructor
  · intro h
    exact ⟨characters t, h, (flatten_characters t).symm⟩
  · rintro ⟨cs, hcs, rfl⟩
    rw [WellFormed, characters_flatten hcs]
    exact hcs

theorem wellFormed_flatten {cs : List Text} (h : ∀ c ∈ cs, isCharacter c = true) :
    WellFormed cs.flatten :=
  wellFormed_iff.mpr ⟨cs, h, rfl⟩

theorem wellFormed_nil : WellFormed [] := by simp [WellFormed]

theorem WellFormed.append {a b : Text} (ha : WellFormed a) (hb : WellFormed b) :
    WellFormed (a ++ b) := by
  obtain ⟨cs, hcs, rfl⟩ := wellFormed_iff.mp ha
  obtain ⟨ds, hds, rfl⟩ := wellFormed_iff.mp hb
  rw [← List.flatten_append]
  refine wellFormed_flatten fun c hc => ?_
  rcases List.mem_append.mp hc with hc | hc
  · exact hcs c hc
  · exact hds c hc

theorem wellFormed_singleton {u : CodeUnit} (h : isSurrogate u = false) : WellFormed [u] := by
  simp [WellFormed, characters, isCharacter, h]

theorem wellFormed_pair {u v : CodeUnit} (hu : isHighSurrogate u = true)
    (hv : isLowSurrogate v = true) : WellFormed [u, v] := by
  simp [WellFormed, characters, isCharacter, hu, hv]

/-- A text of units that are no halves is well-formed. -/
theorem wellFormed_of_forall {t : Text} (h : ∀ u ∈ t, isSurrogate u = false) : WellFormed t := by
  induction t with
  | nil => exact wellFormed_nil
  | cons u t ih =>
    exact (wellFormed_singleton (h u List.mem_cons_self)).append
      (ih fun v hv => h v (List.mem_cons_of_mem _ hv))

/-- To prove something of every well-formed text, follow its characters. -/
theorem WellFormed.induction {P : (t : Text) → WellFormed t → Prop} (nil : P [] wellFormed_nil)
    (single : ∀ u t (hu : isSurrogate u = false) (ht : WellFormed t), P t ht →
      P (u :: t) ((wellFormed_singleton hu).append ht))
    (pair : ∀ u v t (hu : isHighSurrogate u = true) (hv : isLowSurrogate v = true)
      (ht : WellFormed t), P t ht → P (u :: v :: t) ((wellFormed_pair hu hv).append ht))
    {t : Text} (h : WellFormed t) : P t h := by
  obtain ⟨cs, hcs, rfl⟩ := wellFormed_iff.mp h
  induction cs with
  | nil => exact nil
  | cons c cs ih =>
    have hrest : ∀ d ∈ cs, isCharacter d = true := fun d hd => hcs d (List.mem_cons_of_mem _ hd)
    rcases isCharacter_iff.mp (hcs c List.mem_cons_self) with ⟨u, rfl, hu⟩ | ⟨u, v, rfl, hu, hv⟩
    · exact single u cs.flatten hu (wellFormed_flatten hrest) (ih hrest _)
    · exact pair u v cs.flatten hu hv (wellFormed_flatten hrest) (ih hrest _)

/-! ### Cutting and removing -/

/-- A unit that is no half of a pair cuts a well-formed text into well-formed ones. -/
theorem WellFormed.cut {a b : Text} {u : CodeUnit} (hu : isSurrogate u = false)
    (h : WellFormed (a ++ u :: b)) : WellFormed a ∧ WellFormed b := by
  generalize ht : a ++ u :: b = t at h
  induction h using WellFormed.induction generalizing a with
  | nil => simp at ht
  | single v t hv hrest ih =>
    match a with
    | [] =>
      obtain ⟨-, rfl⟩ := List.cons.inj ht
      exact ⟨wellFormed_nil, hrest⟩
    | x :: a =>
      obtain ⟨rfl, htail⟩ := List.cons.inj ht
      obtain ⟨ha, hb⟩ := ih htail
      exact ⟨(wellFormed_singleton hv).append ha, hb⟩
  | pair v w t hv hw hrest ih =>
    -- The unit is neither half of the pair in front.
    match a with
    | [] =>
      obtain ⟨rfl, -⟩ := List.cons.inj ht
      simp [isSurrogate_of_high hv] at hu
    | [x] =>
      obtain ⟨-, htail⟩ := List.cons.inj ht
      obtain ⟨rfl, -⟩ := List.cons.inj htail
      simp [isSurrogate_of_low hw] at hu
    | x :: y :: a =>
      obtain ⟨rfl, htail⟩ := List.cons.inj ht
      obtain ⟨rfl, hrest⟩ := List.cons.inj htail
      obtain ⟨ha, hb⟩ := ih hrest
      exact ⟨(wellFormed_pair hv hw).append ha, hb⟩

theorem WellFormed.filter {p : CodeUnit → Bool} (hp : ∀ u, isSurrogate u = true → p u = true)
    {t : Text} (h : WellFormed t) : WellFormed (t.filter p) := by
  induction h using WellFormed.induction with
  | nil => exact wellFormed_nil
  | single u t hu _ ih =>
    rw [List.filter_cons]
    split
    · exact (wellFormed_singleton hu).append ih
    · exact ih
  | pair u v t hu hv _ ih =>
    rw [List.filter_cons_of_pos (hp u (isSurrogate_of_high hu)),
      List.filter_cons_of_pos (hp v (isSurrogate_of_low hv))]
    exact (wellFormed_pair hu hv).append ih

theorem not_isSurrogate_of_isWhiteSpace {u : CodeUnit} (h : isWhiteSpace u = true) :
    isSurrogate u = false := by
  simp only [isWhiteSpace, isSurrogate, isHighSurrogate, isLowSurrogate, Bool.or_eq_true,
    Bool.and_eq_true, decide_eq_true_eq, Bool.or_eq_false_iff, Bool.and_eq_false_iff,
    decide_eq_false_iff_not, UInt16.le_iff_toNat_le, ← UInt16.toNat_inj] at h ⊢
  simp only [UInt16.reduceToNat] at h ⊢
  omega

theorem WellFormed.trim {t : Text} (h : WellFormed t) : WellFormed (NestApi.trim t) := by
  have hfront : WellFormed (t.dropWhile isWhiteSpace) := by
    induction t with
    | nil => exact h
    | cons u t ih =>
      rw [List.dropWhile_cons]
      split
      · next hu =>
        exact ih (WellFormed.cut (a := []) (not_isSurrogate_of_isWhiteSpace hu) h).2
      · exact h
  unfold NestApi.trim
  generalize t.dropWhile isWhiteSpace = s at hfront
  induction s using List.reverseRecOn with
  | nil => exact wellFormed_nil
  | append_singleton s u ih =>
    by_cases hu : isWhiteSpace u = true
    · rw [List.rdropWhile_concat_pos _ _ _ hu]
      exact ih (WellFormed.cut (b := []) (not_isSurrogate_of_isWhiteSpace hu) hfront).1
    · rw [List.rdropWhile_concat_neg _ _ _ hu]
      exact hfront

theorem WellFormed.characters_append {a b : Text} (ha : WellFormed a) (hb : WellFormed b) :
    characters (a ++ b) = characters a ++ characters b := by
  obtain ⟨cs, hcs, rfl⟩ := wellFormed_iff.mp ha
  obtain ⟨ds, hds, rfl⟩ := wellFormed_iff.mp hb
  rw [← List.flatten_append, characters_flatten hcs, characters_flatten hds, characters_flatten]
  intro c hc
  rcases List.mem_append.mp hc with hc | hc
  · exact hcs c hc
  · exact hds c hc

/-- Trimming takes white space off both ends. -/
theorem exists_append_trim (t : Text) : ∃ a b, t = a ++ NestApi.trim t ++ b ∧
    (∀ u ∈ a, isWhiteSpace u = true) ∧ ∀ u ∈ b, isWhiteSpace u = true := by
  refine ⟨t.takeWhile isWhiteSpace, (t.dropWhile isWhiteSpace).rtakeWhile isWhiteSpace, ?_,
    fun u hu => List.mem_takeWhile_imp hu, fun u hu => List.mem_rtakeWhile_imp hu⟩
  rw [NestApi.trim, List.append_assoc, List.rdropWhile_append_rtakeWhile,
    List.takeWhile_append_dropWhile]

theorem length_characters_trim_le {t : Text} (h : WellFormed t) :
    (characters (NestApi.trim t)).length ≤ (characters t).length := by
  obtain ⟨a, b, heq, ha, hb⟩ := exists_append_trim t
  have hwhite : ∀ s : Text, (∀ u ∈ s, isWhiteSpace u = true) → WellFormed s := fun s hs =>
    wellFormed_of_forall fun u hu => not_isSurrogate_of_isWhiteSpace (hs u hu)
  conv_rhs => rw [heq]
  rw [((hwhite a ha).append h.trim).characters_append (hwhite b hb),
    (hwhite a ha).characters_append h.trim]
  simp only [List.length_append]
  omega

/-- Cutting by characters, not by units. -/
theorem WellFormed.take {t : Text} (h : WellFormed t) (n : ℕ) :
    WellFormed ((characters t).take n).flatten :=
  wellFormed_flatten fun c hc => h c (List.mem_of_mem_take hc)

theorem trim_eq_self {t : Text} (hfirst : ∀ u ∈ t.head?, isWhiteSpace u = false)
    (hlast : ∀ u ∈ t.getLast?, isWhiteSpace u = false) : trim t = t := by
  have hdrop : t.dropWhile isWhiteSpace = t := by
    cases t with
    | nil => rfl
    | cons u t => rw [List.dropWhile_cons_of_neg (by simpa using hfirst)]
  rw [trim, hdrop, List.rdropWhile_eq_self_iff]
  intro hne
  simp [hlast _ (List.getLast?_eq_some_getLast hne)]

theorem mem_trim {u : CodeUnit} {t : Text} (h : u ∈ trim t) : u ∈ t :=
  (List.dropWhile_sublist _).subset ((List.rdropWhile_prefix _ _).subset h)

theorem mem_take_characters {u : CodeUnit} {t : Text} {n : ℕ}
    (h : u ∈ ((characters t).take n).flatten) : u ∈ t := by
  obtain ⟨c, hc, hu⟩ := List.mem_flatten.mp h
  rw [← flatten_characters t]
  exact List.mem_flatten.mpr ⟨c, List.mem_of_mem_take hc, hu⟩

end NestApi
