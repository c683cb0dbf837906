import NestApi.Common.Text
import NestApi.Numbers.Double

/-!
# The decimal spelling of a number

A number is written with the fewest decimal digits that round to it. From twenty-two digits on the
spelling has an exponent, and a dot when there is more than one digit before the exponent.
-/

namespace NestApi

/-! ### Decimal digits -/

/-- The decimal digits of a natural number. -/
def decimalText (n : ℕ) : Text := (Nat.toDigits 10 n).map unit

theorem toNat_unit_of_isDigit {c : Char} (h : c.isDigit = true) : (unit c).toNat = c.toNat := by
  have hlt : c.toNat < 2 ^ 16 := by
    simp only [Char.isDigit, Bool.and_eq_true, decide_eq_true_eq] at h
    have hle : c.val.toNat ≤ 57 := UInt32.le_iff_toNat_le.mp h.2
    exact lt_of_le_of_lt hle (by decide)
  exact Nat.mod_eq_of_lt hlt

theorem isDigit_of_mem_decimalText {n : ℕ} {u : CodeUnit} (h : u ∈ decimalText n) :
    isDigit u = true := by
  obtain ⟨c, hc, rfl⟩ := List.mem_map.mp h
  have hdigit := Nat.isDigit_of_mem_toDigits (by decide) (by decide) hc
  have hvalue := toNat_unit_of_isDigit hdigit
  simp only [Char.isDigit, Bool.and_eq_true, decide_eq_true_eq, ge_iff_le,
    UInt32.le_iff_toNat_le] at hdigit
  simp only [isDigit, Bool.and_eq_true, decide_eq_true_eq, UInt16.le_iff_toNat_le, hvalue]
  exact hdigit

theorem isDigit_of_decimalText {n : ℕ} {t : Text} (h : decimalText n = t) :
    ∀ u ∈ t, isDigit u = true := fun _ hu => isDigit_of_mem_decimalText (h ▸ hu)

theorem not_mem_of_digits {u : CodeUnit} {t : Text} (h : ∀ v ∈ t, isDigit v = true)
    (hu : isDigit u = false) : u ∉ t := by
  intro hmem
  rw [h u hmem] at hu
  cases hu

theorem not_mem_decimalText {u : CodeUnit} {n : ℕ} (h : isDigit u = false) :
    u ∉ decimalText n := not_mem_of_digits (isDigit_of_decimalText rfl) h

theorem decimalText_ne_nil (n : ℕ) : decimalText n ≠ [] := by
  simp [decimalText, Nat.toDigits_ne_nil]

theorem decimalValue_append (a b : Text) :
    decimalValue (a ++ b) = b.foldl (fun n u => 10 * n + (u.toNat - 0x30)) (decimalValue a) :=
  List.foldl_append

/-- The digits of a number read back as the number. -/
@[simp] theorem decimalValue_decimalText (n : ℕ) : decimalValue (decimalText n) = n := by
  have hread : ∀ (cs : List Char) (start : ℕ), (∀ c ∈ cs, c.isDigit = true) →
      (cs.map unit).foldl (fun n u => 10 * n + (u.toNat - 0x30)) start =
        Nat.ofDigitChars 10 cs start := by
    intro cs
    induction cs with
    | nil => intro start _; rfl
    | cons c cs ih =>
      intro start h
      rw [List.map_cons, List.foldl_cons, Nat.ofDigitChars_cons,
        toNat_unit_of_isDigit (h c List.mem_cons_self)]
      exact ih _ fun d hd => h d (List.mem_cons_of_mem _ hd)
  calc decimalValue (decimalText n)
      = Nat.ofDigitChars 10 (Nat.toDigits 10 n) 0 :=
        hread _ 0 fun c hc => Nat.isDigit_of_mem_toDigits (by decide) (by decide) hc
    _ = n := Nat.ofDigitChars_ten_toDigits

theorem decimalText_injective : Function.Injective decimalText := by
  intro n m h
  rw [← decimalValue_decimalText n, h, decimalValue_decimalText]

theorem decimalValue_zeros (t : Text) (j : ℕ) :
    decimalValue (t ++ List.replicate j (unit '0')) = decimalValue t * 10 ^ j := by
  induction j with
  | zero => simp
  | succ j ih =>
    have hzero : (unit '0').toNat - 0x30 = 0 := by decide
    rw [List.replicate_succ', ← List.append_assoc, decimalValue_append, List.foldl_cons,
      List.foldl_nil, ih, hzero, Nat.add_zero, pow_succ]
    exact (Nat.mul_comm ..).trans (Nat.mul_assoc ..)

/-! ### The shortest decimal -/

/-- Digits and the zeros behind them. -/
structure Decimal where
  digits : ℕ
  zeros : ℕ
deriving DecidableEq

/-- The multiple of a power of ten rounds to the number. -/
def roundsTo (x j s : ℕ) : Bool := s ≠ 0 && nearestDouble (s * 10 ^ j) = x

/-- Which of the two multiples of `10 ^ j` around a number rounds to it. Of two the nearer one is
taken, and the even one when they are equally near. -/
def digitsAt (x j : ℕ) : Option ℕ :=
  let below := x / 10 ^ j
  let rest := x % 10 ^ j
  if roundsTo x j below && (!roundsTo x j (below + 1) || 2 * rest < 10 ^ j ||
      (2 * rest = 10 ^ j && below % 2 = 0)) then some below
  else if roundsTo x j (below + 1) then some (below + 1)
  else none

/-- The digits at the greatest power of ten, up to a bound, that has some. -/
def shortestUpTo (x : ℕ) : ℕ → Option Decimal
  | 0 => (digitsAt x 0).map fun s => ⟨s, 0⟩
  | j + 1 =>
    match digitsAt x (j + 1) with
    | some s => some ⟨s, j + 1⟩
    | none => shortestUpTo x j

def shortestDecimal (x : ℕ) : Option Decimal := shortestUpTo x (decimalText x).length

/-- Digits with an exponent, and with a dot behind the first digit when there are more. -/
def exponentForm (first : CodeUnit) (rest : Text) (zeros : ℕ) : Text :=
  first :: ((if rest = [] then [] else unit '.' :: rest) ++ text "e+" ++
    decimalText (rest.length + zeros))

/-- `Number::toString` of a natural number. -/
def numberToString (x : ℕ) : Text :=
  match shortestDecimal x with
  | none => decimalText x
  | some decimal =>
    match decimalText decimal.digits with
    | [] => []
    | first :: rest =>
      if rest.length + 1 + decimal.zeros ≤ 21 then
        first :: (rest ++ List.replicate decimal.zeros (unit '0'))
      else exponentForm first rest decimal.zeros

variable {x s i j bound : ℕ} {decimal : Decimal} {u first : CodeUnit} {t rest : Text}

theorem roundsTo_iff : roundsTo x j s = true ↔ s ≠ 0 ∧ nearestDouble (s * 10 ^ j) = x := by
  simp [roundsTo]

theorem digitsAt_spec (h : digitsAt x j = some s) : s ≠ 0 ∧ nearestDouble (s * 10 ^ j) = x := by
  simp only [digitsAt] at h
  split at h
  · next hbelow =>
    obtain rfl := Option.some.inj h
    exact roundsTo_iff.mp (Bool.and_eq_true _ _ ▸ hbelow).1
  · split at h
    · next habove =>
      obtain rfl := Option.some.inj h
      exact roundsTo_iff.mp habove
    · cases h

theorem shortestUpTo_spec (h : shortestUpTo x bound = some decimal) :
    decimal.digits ≠ 0 ∧ nearestDouble (decimal.digits * 10 ^ decimal.zeros) = x := by
  induction bound with
  | zero =>
    obtain ⟨s, hs, rfl⟩ := Option.map_eq_some_iff.mp h
    exact digitsAt_spec hs
  | succ j ih =>
    simp only [shortestUpTo] at h
    split at h
    · next s hs =>
      obtain rfl := Option.some.inj h
      exact digitsAt_spec hs
    · exact ih h

theorem shortestUpTo_eq (h : digitsAt x j = some s) (habove : ∀ i, j < i → digitsAt x i = none)
    (hle : j ≤ bound) : shortestUpTo x bound = some ⟨s, j⟩ := by
  induction bound with
  | zero =>
    obtain rfl := Nat.le_zero.mp hle
    rw [shortestUpTo, h]
    rfl
  | succ b ih =>
    rcases Nat.lt_or_eq_of_le hle with hlt | rfl
    · rw [shortestUpTo, habove _ hlt]
      exact ih (Nat.le_of_lt_succ hlt)
    · rw [shortestUpTo, h]

/-- Short digits are the only ones at their power of ten. -/
theorem digitsAt_of_short (hs : s < 2 ^ 51) (hne : s ≠ 0) :
    digitsAt (nearestDouble (s * 10 ^ j)) j = some s := by
  have hpow : 0 < 10 ^ j := Nat.pow_pos (by decide)
  set x := nearestDouble (s * 10 ^ j) with hx
  have honly : ∀ t, roundsTo x j t = true → t = s := fun t ht =>
    (eq_of_nearestDouble_eq hs hpow (hx.symm.trans (roundsTo_iff.mp ht).2.symm)).symm
  have hround : roundsTo x j s = true := roundsTo_iff.mpr ⟨hne, rfl⟩
  -- The double is less than one multiple away.
  have hnear : x / 10 ^ j = s ∨ x / 10 ^ j + 1 = s := by
    obtain ⟨hup, hdown⟩ := nearestDouble_error (s * 10 ^ j)
    have hshare : s * 10 ^ j < 2 ^ 51 * 10 ^ j := Nat.mul_lt_mul_of_pos_right hs hpow
    obtain ⟨p, hp⟩ := Nat.exists_eq_add_one_of_ne_zero hne
    have hbefore : s * 10 ^ j = p * 10 ^ j + 10 ^ j := by rw [hp, Nat.succ_mul]
    by_cases hle : s * 10 ^ j ≤ x
    · have hnext : (s + 1) * 10 ^ j = s * 10 ^ j + 10 ^ j := Nat.succ_mul ..
      exact .inl (Nat.div_eq_of_lt_le hle (by omega))
    · have hlast : x / 10 ^ j = p := Nat.div_eq_of_lt_le (by omega) (by rw [Nat.succ_mul]; omega)
      exact .inr (by omega)
  rcases hnear with hbelow | habove
  · have hother : roundsTo x j (s + 1) = false := by
      by_contra htrue
      exact absurd (honly _ (by simpa using htrue)) (by omega)
    simp [digitsAt, hbelow, hround, hother]
  · have hother : roundsTo x j (x / 10 ^ j) = false := by
      by_contra htrue
      exact absurd (honly _ (by simpa using htrue)) (by omega)
    simp [digitsAt, hother, habove, hround]

/-- No greater power of ten has digits for a short decimal without zeros behind it. -/
theorem digitsAt_above_short (hs : s < 2 ^ 51) (hzero : ¬ 10 ∣ s) (hij : j < i) :
    digitsAt (nearestDouble (s * 10 ^ j)) i = none := by
  by_contra hsome
  obtain ⟨t, ht⟩ := Option.ne_none_iff_exists'.mp hsome
  have hround := (digitsAt_spec ht).2
  obtain ⟨k, rfl⟩ := Nat.exists_eq_add_of_lt hij
  have hsplit : t * 10 ^ (j + k + 1) = (t * 10 ^ k * 10) * 10 ^ j := by
    rw [Nat.add_assoc, pow_add, pow_succ, Nat.mul_comm (10 ^ j), ← Nat.mul_assoc, ← Nat.mul_assoc]
  rw [hsplit] at hround
  have heq := eq_of_nearestDouble_eq hs (Nat.pow_pos (by decide)) hround.symm
  exact hzero ⟨t * 10 ^ k, heq.trans (Nat.mul_comm ..)⟩

/-- A short decimal without zeros behind it is the shortest one of the double nearest to it. -/
theorem shortestDecimal_of_short (hs : s < 2 ^ 51) (hzero : ¬ 10 ∣ s) :
    shortestDecimal (nearestDouble (s * 10 ^ j)) = some ⟨s, j⟩ := by
  have hne : s ≠ 0 := by
    rintro rfl
    exact hzero (Nat.dvd_zero 10)
  have hbounded : j ≤ (decimalText (nearestDouble (s * 10 ^ j))).length := by
    by_contra hshort
    have hlength : (Nat.toDigits 10 (nearestDouble (s * 10 ^ j))).length ≤ j - 1 := by
      simp only [decimalText, List.length_map] at hshort
      omega
    have hj : 0 < j - 1 := lt_of_lt_of_le Nat.length_toDigits_pos hlength
    rw [Nat.length_toDigits_le_iff (by decide) hj] at hlength
    have hpow : 10 ^ j = 10 ^ (j - 1) * 10 := by rw [← pow_succ, Nat.sub_add_cancel (by omega)]
    have hle : 10 ^ j ≤ s * 10 ^ j := Nat.le_mul_of_pos_left _ (Nat.pos_of_ne_zero hne)
    have herror := (nearestDouble_error (s * 10 ^ j)).2
    omega
  exact shortestUpTo_eq (digitsAt_of_short hs hne) (fun i hij => digitsAt_above_short hs hzero hij)
    hbounded

/-! ### Reading a spelling -/

/-- What a spelling stands for: digits, or digits around a dot with an exponent behind them. -/
def readNumber (t : Text) : ℕ :=
  match cut (unit 'e') t with
  | none => nearestDouble (decimalValue t)
  | some (mantissa, exponent) =>
    let digits := mantissa.filter (· ≠ unit '.')
    nearestDouble (decimalValue digits * 10 ^ (decimalValue exponent.tail + 1 - digits.length))

/-- A spelling is all digits, or has an exponent of at least 21. -/
theorem numberToString_cases (h : nearestDouble x = x) :
    (∀ u ∈ numberToString x, isDigit u = true) ∧
        nearestDouble (decimalValue (numberToString x)) = x ∨
      ∃ s j first rest, s ≠ 0 ∧ nearestDouble (s * 10 ^ j) = x ∧ decimalText s = first :: rest ∧
        21 ≤ rest.length + j ∧ numberToString x = exponentForm first rest j := by
  unfold numberToString
  split
  · exact .inl ⟨isDigit_of_decimalText rfl, by rw [decimalValue_decimalText, h]⟩
  · next decimal hdecimal =>
    obtain ⟨hne, hround⟩ := shortestUpTo_spec hdecimal
    split
    · next hnil => exact absurd hnil (decimalText_ne_nil _)
    · next first rest hdigits =>
      split
      · refine .inl ⟨fun u hu => ?_, ?_⟩
        · rw [← List.cons_append, ← hdigits, List.mem_append] at hu
          rcases hu with hu | hu
          · exact isDigit_of_mem_decimalText hu
          · obtain rfl := List.eq_of_mem_replicate hu
            decide
        · rw [← List.cons_append, ← hdigits, decimalValue_zeros, decimalValue_decimalText, hround]
      · exact .inr ⟨_, _, first, rest, hne, hround, hdigits, by omega, rfl⟩

/-- The exponent form is cut at the sign of its exponent. -/
theorem cut_exponentForm (h : ∀ v ∈ first :: rest, isDigit v = true) :
    cut (unit 'e') (exponentForm first rest j) =
      some (first :: (if rest = [] then [] else unit '.' :: rest),
        unit '+' :: decimalText (rest.length + j)) := by
  have hsplit : exponentForm first rest j =
      first :: (if rest = [] then [] else unit '.' :: rest) ++
        unit 'e' :: unit '+' :: decimalText (rest.length + j) := by
    have htext : text "e+" = [unit 'e', unit '+'] := by decide
    simp [exponentForm, htext]
  have hdigits : unit 'e' ∉ first :: rest := not_mem_of_digits h (by decide)
  rw [hsplit]
  refine cut_append fun hmem => hdigits ?_
  split at hmem
  · next hrest => rwa [hrest]
  · simpa [show unit 'e' ≠ unit '.' by decide] using hmem

/-- A double is read back from its spelling. -/
theorem readNumber_numberToString (h : nearestDouble x = x) :
    readNumber (numberToString x) = x := by
  rcases numberToString_cases h with ⟨hdigits, hvalue⟩ | ⟨s, j, first, rest, -, hround, hs, -, heq⟩
  · rw [readNumber, cut_eq_none.mpr (not_mem_of_digits hdigits (by decide)), hvalue]
  · have hdigits := isDigit_of_decimalText hs
    have hfilter : (first :: (if rest = [] then [] else unit '.' :: rest)).filter
        (· ≠ unit '.') = first :: rest := by
      have hdot : unit '.' ∉ first :: rest := not_mem_of_digits hdigits (by decide)
      obtain ⟨hfirst, hrest⟩ := List.ne_and_not_mem_of_not_mem_cons hdot
      have hkept : rest.filter (· ≠ unit '.') = rest :=
        List.filter_eq_self.mpr fun u hu => decide_eq_true fun heq => hrest (heq ▸ hu)
      rw [List.filter_cons_of_pos (by simpa using hfirst.symm)]
      split
      · next hnil => rw [hnil, List.filter_nil]
      · rw [List.filter_cons_of_neg (by simp), hkept]
    rw [heq, readNumber, cut_exponentForm hdigits]
    simp only [hfilter, List.tail_cons, decimalValue_decimalText, List.length_cons]
    rw [← hs, decimalValue_decimalText, Nat.add_right_comm, Nat.add_sub_cancel_left, hround]

/-- Two doubles are told apart by their spellings. -/
theorem numberToString_inj {y : ℕ} (hx : nearestDouble x = x) (hy : nearestDouble y = y)
    (h : numberToString x = numberToString y) : x = y := by
  rw [← readNumber_numberToString hx, h, readNumber_numberToString hy]

/-! ### Dots -/

/-- A digit is the spelling of its value. -/
theorem decimalText_of_isDigit (h : isDigit u = true) :
    decimalValue [u] < 10 ∧ decimalText (decimalValue [u]) = [u] := by
  have hvalue : decimalValue [u] = u.toNat - 48 := by simp [decimalValue]
  simp only [isDigit, Bool.and_eq_true, decide_eq_true_eq, UInt16.le_iff_toNat_le] at h
  have hbounds : (unit '0').toNat = 48 ∧ (unit '9').toNat = 57 := by decide
  rw [hbounds.1, hbounds.2] at h
  have hspelled : ∀ n < 10, (decimalText n).map UInt16.toNat = [48 + n] := by decide
  have hlt : u.toNat - 48 < 10 := by omega
  rw [hvalue]
  refine ⟨hlt, List.map_injective_iff.mpr (fun v w => UInt16.toNat_inj.mp) ?_⟩
  rw [hspelled _ hlt, List.map_singleton, Nat.add_sub_cancel' h.1]

/-- The spelling of a short decimal. -/
theorem numberToString_of_short (hs : s < 2 ^ 51) (hzero : ¬ 10 ∣ s)
    (hdigits : decimalText s = first :: rest) (hlarge : 21 ≤ rest.length + j) :
    numberToString (nearestDouble (s * 10 ^ j)) = exponentForm first rest j := by
  simp only [numberToString, shortestDecimal_of_short hs hzero, hdigits]
  rw [if_neg (by omega)]

/-- What follows the dot of a spelling. -/
def behindDot (rest : Text) (zeros : ℕ) : Text :=
  rest ++ unit 'e' :: unit '+' :: decimalText (rest.length + zeros)

theorem exponentForm_nil (first : CodeUnit) (zeros : ℕ) :
    exponentForm first [] zeros = first :: behindDot [] zeros := by
  have htext : text "e+" = [unit 'e', unit '+'] := by decide
  simp [exponentForm, behindDot, htext]

theorem exponentForm_of_ne_nil (h : rest ≠ []) :
    exponentForm first rest j = first :: unit '.' :: behindDot rest j := by
  have htext : text "e+" = [unit 'e', unit '+'] := by decide
  simp [exponentForm, behindDot, htext, h]

theorem cut_behindDot (h : ∀ u ∈ rest, isDigit u = true) :
    cut (unit 'e') (behindDot rest j) = some (rest, unit '+' :: decimalText (rest.length + j)) :=
  cut_append (not_mem_of_digits h (by decide))

theorem dot_not_mem_behindDot (h : ∀ u ∈ rest, isDigit u = true) :
    unit '.' ∉ behindDot rest j := by
  have hrest : unit '.' ∉ rest := not_mem_of_digits h (by decide)
  have hexponent : unit '.' ∉ decimalText (rest.length + j) := not_mem_decimalText (by decide)
  have hsigns : unit '.' ≠ unit 'e' ∧ unit '.' ≠ unit '+' := by decide
  simp [behindDot, hrest, hexponent, hsigns]

end NestApi
