import NestApi.Common.Unicode
import NestApi.Common.Percent

/-!
# The encoder of `encodeURIComponent`

A character that is neither a letter, a digit nor one of a few signs is written as the bytes
of its UTF-8 form, each behind a percent sign. A half of a surrogate pair has no such form,
and the encoder throws. What it writes is read back by the decoder.
-/

namespace NestApi

/-- The code point of a character. Half of a pair has none. -/
def codePoint : Text → Option ℕ
  | [u] => if isSurrogate u then none else some u.toNat
  | [u, v] => some (0x10000 + (u.toNat - 0xD800) * 0x400 + (v.toNat - 0xDC00))
  | _ => none

/-- The code points that UTF-8 encodes. -/
def IsScalar (n : ℕ) : Prop := n < 0xD800 ∨ 0xE000 ≤ n ∧ n < 0x110000

/-- The UTF-8 form of a code point. -/
def utf8Bytes (n : ℕ) : List ℕ :=
  if n < 0x80 then [n]
  else if n < 0x800 then [0xC0 + n / 0x40, 0x80 + n % 0x40]
  else if n < 0x10000 then [0xE0 + n / 0x1000, 0x80 + n / 0x40 % 0x40, 0x80 + n % 0x40]
  else [0xF0 + n / 0x40000, 0x80 + n / 0x1000 % 0x40, 0x80 + n / 0x40 % 0x40, 0x80 + n % 0x40]

/-- A hexadecimal digit, a capital letter from ten on. -/
def hexDigit (n : ℕ) : CodeUnit := if n < 10 then (0x30 + n).toUInt16 else (0x37 + n).toUInt16

/-- A byte behind a percent sign. -/
def percentEscape (byte : ℕ) : Text := [unit '%', hexDigit (byte / 16), hexDigit (byte % 16)]

/-- The units that `encodeURIComponent` leaves as they are. -/
def isUnescaped (u : CodeUnit) : Bool :=
  isAsciiLetter u || isDigit u || u ∈ text "-_.!~*'()"

/-- What one character is written as. -/
def encodeCharacter (c : Text) : Option Text :=
  if c.all isUnescaped then some c
  else (codePoint c).map fun n => (utf8Bytes n).flatMap percentEscape

/-- `encodeURIComponent`. Half of a surrogate pair is a `URIError`. -/
def encodeURIComponent (t : Text) : Option Text :=
  ((characters t).mapM encodeCharacter).map List.flatten

/-! ### One code point -/

theorem exists_codePoint {c : Text} (h : isCharacter c = true) :
    ∃ n, codePoint c = some n ∧ IsScalar n ∧ codeUnits n = c := by
  rcases isCharacter_iff.mp h with ⟨u, rfl, hu⟩ | ⟨u, v, rfl, hu, hv⟩
  · refine ⟨u.toNat, by simp [codePoint, hu], ?_, ?_⟩
    · have hlt := u.toNat_lt
      simp only [isSurrogate, isHighSurrogate, isLowSurrogate, Bool.or_eq_false_iff,
        Bool.and_eq_false_iff, decide_eq_false_iff_not, UInt16.le_iff_toNat_le,
        UInt16.reduceToNat] at hu
      unfold IsScalar
      omega
    · have hlt : u.toNat < 0x10000 := u.toNat_lt
      simp [codeUnits, hlt]
  · simp only [isHighSurrogate, isLowSurrogate, Bool.and_eq_true, decide_eq_true_eq,
      UInt16.le_iff_toNat_le, UInt16.reduceToNat] at hu hv
    refine ⟨_, rfl, Or.inr (by omega), ?_⟩
    have hhigh : 0xD800 + (0x10000 + (u.toNat - 0xD800) * 0x400 + (v.toNat - 0xDC00) - 0x10000) /
        0x400 = u.toNat := by omega
    have hlow : 0xDC00 + (0x10000 + (u.toNat - 0xD800) * 0x400 + (v.toNat - 0xDC00) - 0x10000) %
        0x400 = v.toNat := by omega
    rw [codeUnits, if_neg (by omega), hhigh, hlow]
    simp

theorem hexValue_hexDigit {n : ℕ} (h : n < 16) : hexValue (hexDigit n) = some n := by
  have hall : ∀ n < 16, hexValue (hexDigit n) = some n := by decide
  exact hall n h

theorem utf8Bytes_lt {n : ℕ} (h : IsScalar n) : ∀ byte ∈ utf8Bytes n, byte < 0x100 := by
  unfold IsScalar at h
  unfold utf8Bytes
  intro byte hmem
  split at hmem
  · simp at hmem
    omega
  split at hmem
  · simp at hmem
    omega
  split at hmem
  · simp at hmem
    omega
  · simp at hmem
    omega

/-- The decoder reads the bytes of a code point as that code point. -/
theorem decodePieces_utf8Bytes {n : ℕ} (h : IsScalar n) (rest : List Piece) :
    decodePieces none ((utf8Bytes n).map .inr ++ rest) = .point n :: decodePieces none rest := by
  unfold IsScalar at h
  by_cases h1 : n < 0x80
  · simp [utf8Bytes, h1, decodePieces, utf8Start]
  by_cases h2 : n < 0x800
  · have hstart : utf8Start (0xC0 + n / 0x40) = ([], some ⟨n / 0x40, 1, 0x80, 0xBF⟩) := by
      rw [utf8Start, if_neg (by omega), if_pos (by omega)]
      simp
    have hnext : utf8Next ⟨n / 0x40, 1, 0x80, 0xBF⟩ (0x80 + n % 0x40) = ([.point n], none) := by
      rw [utf8Next, if_pos (by simp; omega)]
      simp
      omega
    simp [utf8Bytes, h1, h2, decodePieces, hstart, hnext]
  by_cases h3 : n < 0x10000
  · obtain ⟨lower, upper, hstart, hin⟩ : ∃ lower upper,
        utf8Start (0xE0 + n / 0x1000) = ([], some ⟨n / 0x1000, 2, lower, upper⟩) ∧
          lower ≤ 0x80 + n / 0x40 % 0x40 ∧ 0x80 + n / 0x40 % 0x40 ≤ upper := by
      rw [utf8Start, if_neg (by omega), if_neg (by omega), if_pos (by omega)]
      refine ⟨_, _, by rw [Nat.add_sub_cancel_left], ?_, ?_⟩
      · split <;> omega
      · split <;> omega
    have hnext : utf8Next ⟨n / 0x1000, 2, lower, upper⟩ (0x80 + n / 0x40 % 0x40) =
        ([], some ⟨n / 0x40, 1, 0x80, 0xBF⟩) := by
      rw [utf8Next, if_pos hin]
      simp
      omega
    have hlast : utf8Next ⟨n / 0x40, 1, 0x80, 0xBF⟩ (0x80 + n % 0x40) = ([.point n], none) := by
      rw [utf8Next, if_pos (by simp; omega)]
      simp
      omega
    simp [utf8Bytes, h1, h2, h3, decodePieces, hstart, hnext, hlast]
  · obtain ⟨lower, upper, hstart, hin⟩ : ∃ lower upper,
        utf8Start (0xF0 + n / 0x40000) = ([], some ⟨n / 0x40000, 3, lower, upper⟩) ∧
          lower ≤ 0x80 + n / 0x1000 % 0x40 ∧ 0x80 + n / 0x1000 % 0x40 ≤ upper := by
      rw [utf8Start, if_neg (by omega), if_neg (by omega), if_neg (by omega), if_pos (by omega)]
      refine ⟨_, _, by rw [Nat.add_sub_cancel_left], ?_, ?_⟩
      · split <;> omega
      · split <;> omega
    have hnext : utf8Next ⟨n / 0x40000, 3, lower, upper⟩ (0x80 + n / 0x1000 % 0x40) =
        ([], some ⟨n / 0x1000, 2, 0x80, 0xBF⟩) := by
      rw [utf8Next, if_pos hin]
      simp
      omega
    have hthird : utf8Next ⟨n / 0x1000, 2, 0x80, 0xBF⟩ (0x80 + n / 0x40 % 0x40) =
        ([], some ⟨n / 0x40, 1, 0x80, 0xBF⟩) := by
      rw [utf8Next, if_pos (by simp; omega)]
      simp
      omega
    have hlast : utf8Next ⟨n / 0x40, 1, 0x80, 0xBF⟩ (0x80 + n % 0x40) = ([.point n], none) := by
      rw [utf8Next, if_pos (by simp; omega)]
      simp
      omega
    simp [utf8Bytes, h1, h2, h3, decodePieces, hstart, hnext, hthird, hlast]

/-! ### Pieces of an encoded text -/

theorem pieces_cons_of_ne {u : CodeUnit} {t : Text} (h : u ≠ unit '%') :
    pieces (u :: t) = .inl u :: pieces t := by
  have hnone : escapedByte (u :: t) = none := by
    match t with
    | [] => rfl
    | [_] => rfl
    | x :: y :: t => simp [escapedByte, h]
  exact Rewriting.rewrite_miss hnone

theorem pieces_percentEscape {byte : ℕ} (h : byte < 0x100) (t : Text) :
    pieces (percentEscape byte ++ t) = .inr byte :: pieces t := by
  have hfound : escapedByte (unit '%' :: (hexDigit (byte / 16) :: hexDigit (byte % 16) :: t)) =
      some (2, [.inr byte]) := by
    simp only [escapedByte, if_true, hexValue_hexDigit (show byte / 16 < 16 by omega),
      hexValue_hexDigit (show byte % 16 < 16 by omega)]
    rw [Nat.div_add_mod]
  exact Rewriting.rewrite_hit hfound

theorem pieces_flatMap_percentEscape {bytes : List ℕ} (h : ∀ byte ∈ bytes, byte < 0x100)
    (t : Text) : pieces (bytes.flatMap percentEscape ++ t) = bytes.map .inr ++ pieces t := by
  induction bytes with
  | nil => rfl
  | cons byte bytes ih =>
    rw [List.flatMap_cons, List.append_assoc, pieces_percentEscape (h byte List.mem_cons_self),
      ih fun b hb => h b (List.mem_cons_of_mem _ hb), List.map_cons, List.cons_append]

/-! ### Reading back -/

/-- The decoder reads an encoding as a text: no sequence is malformed, no percent sign is left
over, and the units are those of the text. -/
def ReadsAs (encoded t : Text) : Prop :=
  ∀ rest, ∃ decoded : List Decoded,
    decodePieces none (pieces (encoded ++ rest)) = decoded ++ decodePieces none (pieces rest) ∧
      .malformed ∉ decoded ∧ .plain (unit '%') ∉ decoded ∧ decoded.flatMap Decoded.units = t

theorem ReadsAs.nil : ReadsAs [] [] := fun _ => ⟨[], rfl, by simp, by simp, rfl⟩

theorem ReadsAs.append {e f s t : Text} (he : ReadsAs e s) (hf : ReadsAs f t) :
    ReadsAs (e ++ f) (s ++ t) := by
  intro rest
  obtain ⟨decoded, heq, hok, hpercent, hunits⟩ := he (f ++ rest)
  obtain ⟨decoded', heq', hok', hpercent', hunits'⟩ := hf rest
  refine ⟨decoded ++ decoded', ?_, by simp [hok, hok'], by simp [hpercent, hpercent'], ?_⟩
  · rw [List.append_assoc, heq, heq', List.append_assoc]
  · rw [List.flatMap_append, hunits, hunits']

theorem ReadsAs.unit_of_ne {u : CodeUnit} (h : u ≠ unit '%') : ReadsAs [u] [u] := by
  intro rest
  refine ⟨[.plain u], ?_, by simp, by simpa using Ne.symm h, rfl⟩
  rw [List.singleton_append, pieces_cons_of_ne h]
  simp [decodePieces, brokenOff]

theorem ReadsAs.of_scalar {n : ℕ} (h : IsScalar n) :
    ReadsAs ((utf8Bytes n).flatMap percentEscape) (codeUnits n) := by
  intro rest
  refine ⟨[.point n], ?_, by simp, by simp, by simp [Decoded.units]⟩
  rw [pieces_flatMap_percentEscape (utf8Bytes_lt h), decodePieces_utf8Bytes h]
  rfl

theorem ReadsAs.decodeURIComponent {e t : Text} (h : ReadsAs e t) :
    NestApi.decodeURIComponent e = some t := by
  obtain ⟨decoded, heq, hok, hpercent, hunits⟩ := h []
  have hdecoded : decodePieces none (pieces e) = decoded := by
    simpa [pieces, decodePieces, brokenOff] using heq
  rw [NestApi.decodeURIComponent, hdecoded, if_neg (by simp [hok, hpercent]), hunits]

/-! ### The encoder -/

theorem ne_percent_of_isUnescaped {u : CodeUnit} (h : isUnescaped u = true) : u ≠ unit '%' := by
  rintro rfl
  exact absurd h (by decide)

/-- A character is left as it is, or its code point is written in escapes. -/
theorem encodeCharacter_cases {c : Text} (h : isCharacter c = true) :
    (encodeCharacter c = some c ∧ ∀ u ∈ c, isUnescaped u = true) ∨
      ∃ n, IsScalar n ∧ codeUnits n = c ∧
        encodeCharacter c = some ((utf8Bytes n).flatMap percentEscape) := by
  by_cases hplain : c.all isUnescaped = true
  · exact .inl ⟨by simp [encodeCharacter, hplain], List.all_eq_true.mp hplain⟩
  · obtain ⟨n, hpoint, hscalar, hunits⟩ := exists_codePoint h
    exact .inr ⟨n, hscalar, hunits, by simp [encodeCharacter, hplain, hpoint]⟩

/-- The encoder does not throw on a well-formed text. What holds of each character and is kept
by appending holds of the text. -/
theorem exists_encodeURIComponent {P : Text → Text → Prop} (nil : P [] [])
    (append : ∀ c e t f, P c e → P t f → P (c ++ t) (e ++ f))
    (character : ∀ c, isCharacter c = true → ∃ e, encodeCharacter c = some e ∧ P c e)
    {t : Text} (h : WellFormed t) : ∃ e, encodeURIComponent t = some e ∧ P t e := by
  obtain ⟨cs, hcs, rfl⟩ := wellFormed_iff.mp h
  have hchars : ∃ es, cs.mapM encodeCharacter = some es ∧ P cs.flatten es.flatten := by
    clear h
    induction cs with
    | nil => exact ⟨[], by simp, nil⟩
    | cons c cs ih =>
      obtain ⟨e, he, hP⟩ := character c (hcs c List.mem_cons_self)
      obtain ⟨es, hes, hrest⟩ := ih fun d hd => hcs d (List.mem_cons_of_mem _ hd)
      exact ⟨e :: es, by simp [he, hes], append c e _ _ hP hrest⟩
  obtain ⟨es, hes, hP⟩ := hchars
  exact ⟨es.flatten, by simp [encodeURIComponent, characters_flatten hcs, hes], hP⟩

end NestApi
