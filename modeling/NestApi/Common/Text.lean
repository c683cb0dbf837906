import Mathlib.Data.List.DropRight

/-!
# Texts

A string of the language is a list of UTF-16 code units. A unit of a surrogate pair can
stand alone.
-/

namespace NestApi

abbrev CodeUnit := UInt16

/-- A string as the language has it. -/
abbrev Text := List CodeUnit

instance : LawfulBEq Text := inferInstance

/-- The code unit of a character of the basic plane. -/
def unit (c : Char) : CodeUnit := c.val.toUInt16

/-- The code units of a code point. -/
def codeUnits (point : ℕ) : Text :=
  if point < 0x10000 then [point.toUInt16]
  else
    [(0xD800 + (point - 0x10000) / 0x400).toUInt16, (0xDC00 + (point - 0x10000) % 0x400).toUInt16]

/-- A text written out. -/
def text (s : String) : Text := s.toList.flatMap fun c => codeUnits c.toNat

/-! ### Classes of units -/

def isDigit (u : CodeUnit) : Bool := unit '0' ≤ u && u ≤ unit '9'

def isAsciiUpper (u : CodeUnit) : Bool := unit 'A' ≤ u && u ≤ unit 'Z'

def isAsciiLetter (u : CodeUnit) : Bool := isAsciiUpper u || (unit 'a' ≤ u && u ≤ unit 'z')

/-- The lower case of an ASCII letter. Every other unit stays. -/
def asciiLower (u : CodeUnit) : CodeUnit := if isAsciiUpper u then u + 0x20 else u

/-- The value of a hexadecimal digit. -/
def hexValue (u : CodeUnit) : Option ℕ :=
  if isDigit u then some (u.toNat - 0x30)
  else if unit 'a' ≤ asciiLower u && asciiLower u ≤ unit 'f' then
    some ((asciiLower u).toNat - 0x57)
  else none

/-- The units that `trim` removes and `\s` matches: white space and line terminators. -/
def isWhiteSpace (u : CodeUnit) : Bool :=
  (0x9 ≤ u && u ≤ 0xD) || u = 0x20 || u = 0xA0 || u = 0x1680 || (0x2000 ≤ u && u ≤ 0x200A) ||
    u = 0x2028 || u = 0x2029 || u = 0x202F || u = 0x205F || u = 0x3000 || u = 0xFEFF

def trim (t : Text) : Text := (t.dropWhile isWhiteSpace).rdropWhile isWhiteSpace

/-- The number that a run of decimal digits spells. -/
def decimalValue (t : Text) : ℕ := t.foldl (fun n u => 10 * n + (u.toNat - 0x30)) 0

/-! ### Cutting at the first separator -/

/-- What stands before the first occurrence of a unit and what stands after it, by
`indexOf` and two slices. -/
def cut (u : CodeUnit) (t : Text) : Option (Text × Text) :=
  (t.idxOf? u).map fun i => (t.take i, t.drop (i + 1))

variable {u : CodeUnit} {t a b : Text}

theorem cut_eq_none : cut u t = none ↔ u ∉ t := by
  simp [cut]

theorem cut_append (ha : u ∉ a) : cut u (a ++ u :: b) = some (a, b) := by
  have hindex : (a ++ u :: b).idxOf? u = some a.length := by
    refine List.idxOf?_eq_some_iff.mpr ⟨by simp, by simp, fun j hj hju => ha ?_⟩
    rw [List.getElem_append_left hj] at hju
    exact hju ▸ List.getElem_mem hj
  simp [cut, hindex]

theorem cut_eq_some : cut u t = some (a, b) ↔ t = a ++ u :: b ∧ u ∉ a := by
  constructor
  · intro h
    have hmem : u ∈ t := by
      by_contra hnot
      simp [cut_eq_none.mpr hnot] at h
    obtain ⟨a', b', rfl, ha'⟩ := List.eq_append_cons_of_mem hmem
    obtain ⟨rfl, rfl⟩ := Prod.mk.inj (Option.some_inj.mp ((cut_append ha').symm.trans h))
    exact ⟨rfl, ha'⟩
  · rintro ⟨rfl, ha⟩
    exact cut_append ha

/-- Two texts split alike at their first separator. -/
theorem split_inj {a' b' : Text} (ha : u ∉ a) (ha' : u ∉ a')
    (h : a ++ u :: b = a' ++ u :: b') : a = a' ∧ b = b' := by
  have hcut := cut_append (b := b) ha
  rw [h, cut_append ha', Option.some_inj, Prod.mk.injEq] at hcut
  exact ⟨hcut.1.symm, hcut.2.symm⟩

/-! ### Cutting at the last separator -/

/-- What stands before the last occurrence of a unit and what stands after it, by
`lastIndexOf` and two slices. -/
def cutLast (u : CodeUnit) (t : Text) : Option (Text × Text) :=
  (cut u t.reverse).map fun parts => (parts.2.reverse, parts.1.reverse)

theorem cutLast_eq_some : cutLast u t = some (a, b) ↔ t = a ++ u :: b ∧ u ∉ b := by
  have hreverse : t.reverse = b.reverse ++ u :: a.reverse ↔ t = a ++ u :: b := by
    rw [← List.reverse_inj]
    simp
  have hcut : cutLast u t = some (a, b) ↔ cut u t.reverse = some (b.reverse, a.reverse) := by
    simp only [cutLast, Option.map_eq_some_iff, Prod.exists, Prod.mk.injEq]
    constructor
    · rintro ⟨x, y, h, rfl, rfl⟩
      simpa using h
    · intro h
      exact ⟨_, _, h, by simp⟩
  rw [hcut, cut_eq_some, hreverse, List.mem_reverse]

theorem cutLast_append (hb : u ∉ b) : cutLast u (a ++ u :: b) = some (a, b) :=
  cutLast_eq_some.mpr ⟨rfl, hb⟩

/-- Two texts split alike at their last separator. -/
theorem splitLast_inj {a' b' : Text} (hb : u ∉ b) (hb' : u ∉ b')
    (h : a ++ u :: b = a' ++ u :: b') : a = a' ∧ b = b' := by
  have hcut := cutLast_append (a := a) hb
  rw [h, cutLast_append hb', Option.some_inj, Prod.mk.injEq] at hcut
  exact ⟨hcut.1.symm, hcut.2.symm⟩

/-! ### Lower case -/

/-- Signs without case that no case mapping looks across. -/
def caseBoundaries : Text := [unit '@', unit '%', unit '+', unit ' ']

/-- `toLowerCase` follows the tables of Unicode. What is used of them: a boundary stays and
separates what is mapped before it from what is mapped after it, nothing else is mapped to a
boundary, and nothing is mapped away. -/
structure LowerCase where
  toLowerCase : Text → Text
  boundary : ∀ u ∈ caseBoundaries, ∀ a b,
    toLowerCase (a ++ u :: b) = toLowerCase a ++ u :: toLowerCase b
  of_mem : ∀ u ∈ caseBoundaries, ∀ t, u ∈ toLowerCase t → u ∈ t
  eq_nil_iff : ∀ t, toLowerCase t = [] ↔ t = []

theorem LowerCase.mem_iff (case : LowerCase) {u : CodeUnit} (hu : u ∈ caseBoundaries) {t : Text} :
    u ∈ case.toLowerCase t ↔ u ∈ t := by
  refine ⟨case.of_mem u hu t, fun hmem => ?_⟩
  obtain ⟨a, b, rfl⟩ := List.append_of_mem hmem
  rw [case.boundary u hu]
  simp

theorem asciiLower_eq_boundary : ∀ u ∈ caseBoundaries, asciiLower u = u :=
  List.forall_iff_forall_mem.mp (by decide)

theorem eq_of_asciiLower_eq {v : CodeUnit} (hu : u ∈ caseBoundaries) (h : asciiLower v = u) :
    v = u := by
  unfold asciiLower at h
  split at h
  · next hupper =>
    -- A capital letter is mapped to a small one, and no boundary is a letter.
    have hsmall : ∀ u ∈ caseBoundaries, isAsciiUpper (u - 0x20) = false :=
      List.forall_iff_forall_mem.mp (by decide)
    have hv : v = u - 0x20 := by rw [← h, UInt16.add_sub_cancel]
    rw [hv, hsmall u hu] at hupper
    cases hupper
  · exact h

/-- The mapping of the ASCII letters alone. -/
def asciiLowerCase : LowerCase where
  toLowerCase t := t.map asciiLower
  boundary u hu a b := by simp [asciiLower_eq_boundary u hu]
  of_mem u hu t h := by
    obtain ⟨v, hv, hlower⟩ := List.mem_map.mp h
    exact eq_of_asciiLower_eq hu hlower ▸ hv
  eq_nil_iff t := List.map_eq_nil_iff

end NestApi
