import Mathlib.Data.List.Basic
import NestApi.Common.Text

/-!
# Lines of keys and values

A line is a list of fields `key=value` with blanks between them. A value with white space or a
quotation mark stands in quotation marks, and its own ones become apostrophes. A reader gets every
field back, since no value can end early.
-/

namespace NestApi

def quotationMark : CodeUnit := 0x22

def apostrophe : CodeUnit := 0x27

/-! ### Writing -/

/-- `/[\s"]/`. -/
def needsQuotes (value : Text) : Bool := value.any fun u => isWhiteSpace u || u = quotationMark

def replaceQuotes (value : Text) : Text :=
  value.map fun u => if u = quotationMark then apostrophe else u

def renderValue (value : Text) : Text :=
  if needsQuotes value then quotationMark :: (replaceQuotes value ++ [quotationMark]) else value

def renderField (field : Text × Text) : Text := field.1 ++ unit '=' :: renderValue field.2

def renderLine : List (Text × Text) → Text
  | [] => []
  | [field] => renderField field
  | field :: next :: rest => renderField field ++ unit ' ' :: renderLine (next :: rest)

/-! ### Reading -/

/-- The value at the head of a text, and what follows the blank behind it. -/
def readValue : Text → Option (Text × Option Text)
  | [] => some ([], none)
  | u :: t =>
    if u = quotationMark then
      match cut quotationMark t with
      | none => none
      | some (value, []) => some (value, none)
      | some (value, v :: rest) => if v = unit ' ' then some (value, some rest) else none
    else
      match cut (unit ' ') (u :: t) with
      | none => some (u :: t, none)
      | some (value, rest) => some (value, some rest)

/-- The fields of a text, at most so many. -/
def readFields : ℕ → Text → Option (List (Text × Text))
  | 0, _ => none
  | bound + 1, t =>
    match cut (unit '=') t with
    | none => none
    | some (key, t) =>
      match readValue t with
      | none => none
      | some (value, none) => some [(key, value)]
      | some (value, some rest) => (readFields bound rest).map ((key, value) :: ·)

def readLine (t : Text) : Option (List (Text × Text)) :=
  if t = [] then some [] else readFields t.length t

/-! ### Reading back -/

variable {value key : Text} {u : CodeUnit}

theorem not_mem_replaceQuotes : quotationMark ∉ replaceQuotes value := by
  intro hmem
  obtain ⟨u, -, hu⟩ := List.mem_map.mp hmem
  by_cases hquote : u = quotationMark
  · rw [if_pos hquote] at hu
    exact absurd hu (by decide)
  · rw [if_neg hquote] at hu
    exact hquote hu

theorem not_mem_of_not_needsQuotes (h : needsQuotes value = false) (hu : u ∈ value) :
    isWhiteSpace u = false ∧ u ≠ quotationMark := by
  have hnone := List.any_eq_false.mp h u hu
  simpa using hnone

/-- A value without quotes has no quotation mark to replace. -/
theorem replaceQuotes_eq_self (h : needsQuotes value = false) : replaceQuotes value = value := by
  have hmap : replaceQuotes value = value.map id :=
    List.map_congr_left fun u hu => if_neg (not_mem_of_not_needsQuotes h hu).2
  rw [hmap, List.map_id]

theorem blank_not_mem (h : needsQuotes value = false) : unit ' ' ∉ value := by
  intro hmem
  have hwhite := (not_mem_of_not_needsQuotes h hmem).1
  exact absurd hwhite (by decide)

theorem readValue_of_ne {t : Text} (hu : u ≠ quotationMark) : readValue (u :: t) =
    match cut (unit ' ') (u :: t) with
    | none => some (u :: t, none)
    | some (value, rest) => some (value, some rest) := if_neg hu

/-- The last value of a line. -/
theorem readValue_renderValue (value : Text) :
    readValue (renderValue value) = some (replaceQuotes value, none) := by
  by_cases hquotes : needsQuotes value
  · simp [renderValue, readValue, hquotes, cut_append not_mem_replaceQuotes]
  · have hplain : needsQuotes value = false := Bool.eq_false_iff.mpr hquotes
    rw [renderValue, if_neg hquotes, replaceQuotes_eq_self hplain]
    cases value with
    | nil => rfl
    | cons u t =>
      have hne := (not_mem_of_not_needsQuotes hplain (List.mem_cons_self)).2
      rw [readValue_of_ne hne, cut_eq_none.mpr (blank_not_mem hplain)]

/-- A value before others. -/
theorem readValue_renderValue_append (value rest : Text) :
    readValue (renderValue value ++ unit ' ' :: rest) = some (replaceQuotes value, some rest) := by
  by_cases hquotes : needsQuotes value
  · simp [renderValue, readValue, hquotes, cut_append not_mem_replaceQuotes]
  · have hplain : needsQuotes value = false := Bool.eq_false_iff.mpr hquotes
    have hcut := cut_append (b := rest) (blank_not_mem hplain)
    rw [renderValue, if_neg hquotes, replaceQuotes_eq_self hplain]
    cases value with
    | nil =>
      rw [List.nil_append] at hcut ⊢
      rw [readValue_of_ne (by decide), hcut]
    | cons u t =>
      have hne := (not_mem_of_not_needsQuotes hplain (List.mem_cons_self)).2
      rw [List.cons_append] at hcut ⊢
      rw [readValue_of_ne hne, hcut]

/-- What a reader has of a field. -/
def shownField (field : Text × Text) : Text × Text := (field.1, replaceQuotes field.2)

theorem cut_renderField {field : Text × Text} (h : unit '=' ∉ field.1) (t : Text) :
    cut (unit '=') (renderField field ++ t) = some (field.1, renderValue field.2 ++ t) := by
  rw [renderField, List.append_assoc, List.cons_append, cut_append h]

theorem readFields_renderLine {fields : List (Text × Text)} (hne : fields ≠ [])
    (hkeys : ∀ field ∈ fields, unit '=' ∉ field.1) {bound : ℕ} (hbound : fields.length ≤ bound) :
    readFields bound (renderLine fields) = some (fields.map shownField) := by
  induction fields generalizing bound with
  | nil => exact absurd rfl hne
  | cons field rest ih =>
    obtain ⟨bound, rfl⟩ : ∃ n, bound = n + 1 := Nat.exists_eq_add_one.mpr (by grind)
    have hkey := hkeys field List.mem_cons_self
    cases rest with
    | nil =>
      have hcut := cut_renderField hkey []
      rw [List.append_nil, List.append_nil] at hcut
      rw [renderLine, readFields, hcut]
      simp only [readValue_renderValue]
      rfl
    | cons next rest =>
      have hrest : ∀ f ∈ next :: rest, unit '=' ∉ f.1 := fun f hf =>
        hkeys f (List.mem_cons_of_mem _ hf)
      have hlength : (next :: rest).length ≤ bound := by
        simpa using hbound
      rw [renderLine, readFields, cut_renderField hkey]
      simp only [readValue_renderValue_append, ih (List.cons_ne_nil _ _) hrest hlength]
      rfl

theorem length_le_renderLine (fields : List (Text × Text)) :
    fields.length ≤ (renderLine fields).length := by
  induction fields with
  | nil => exact Nat.zero_le 0
  | cons field rest ih =>
    cases rest with
    | nil =>
      simp only [renderLine, renderField, List.length_append, List.length_cons, List.length_nil]
      omega
    | cons next rest =>
      simp only [renderLine, renderField, List.length_append, List.length_cons] at ih ⊢
      omega

/-- A line reads back as its fields, their quotation marks as apostrophes. -/
theorem readLine_renderLine {fields : List (Text × Text)}
    (hkeys : ∀ field ∈ fields, unit '=' ∉ field.1) :
    readLine (renderLine fields) = some (fields.map shownField) := by
  cases fields with
  | nil => rfl
  | cons field rest =>
    have hlength := length_le_renderLine (field :: rest)
    have hne : renderLine (field :: rest) ≠ [] := by
      intro hnil
      rw [hnil] at hlength
      simp at hlength
    rw [readLine, if_neg hne]
    exact readFields_renderLine (List.cons_ne_nil _ _) hkeys hlength

end NestApi
