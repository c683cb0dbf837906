import NestApi.Common.TrustedProxy

/-!
# Nobody is trusted by everyone

An accepted list should leave some IPv4 peer outside. Every single range does, but the ranges
together may not: their outermost blocks are counted against the size of the address space.
-/

namespace NestApi.TrustedProxy

open Ranges

variable {parseAddress : Text → Option IpAddress} {range : CidrRange} {value entry : Text} {x : ℕ}

/-! ### The IPv4 block of a range -/

theorem CidrRange.bits_lt (range : CidrRange) (value : BitVec 32) (h : range.bits ≤ 32) :
    value.toNat / 2 ^ (32 - range.bits) < 2 ^ range.bits := by
  rw [Nat.div_lt_iff_lt_mul (Nat.two_pow_pos _), ← pow_add, Nat.add_sub_cancel' h]
  exact value.isLt

/-- The range lies in the mapped block. -/
def CidrRange.IsMapped (range : CidrRange) (value : BitVec 128) : Prop :=
  96 ≤ range.bits ∧ range.bits ≤ 128 ∧ value.toNat / 2 ^ 32 = 0xFFFF

instance (range : CidrRange) (value : BitVec 128) : Decidable (range.IsMapped value) :=
  inferInstanceAs (Decidable (_ ∧ _))

theorem CidrRange.IsMapped.length_le {range : CidrRange} {value : BitVec 128}
    (h : range.IsMapped value) : range.bits - 96 ≤ 32 := Nat.sub_le_sub_right h.2.1 96

theorem CidrRange.IsMapped.bits_lt {range : CidrRange} {value : BitVec 128}
    (h : range.IsMapped value) :
    value.toNat % 2 ^ 32 / 2 ^ (128 - range.bits) < 2 ^ (range.bits - 96) := by
  obtain ⟨hlong, hshort, -⟩ := h
  have hbits : range.bits - 96 + (128 - range.bits) = 32 := by omega
  rw [Nat.div_lt_iff_lt_mul (Nat.two_pow_pos _), ← pow_add, hbits]
  exact Nat.mod_lt _ (Nat.two_pow_pos _)

/-- The IPv4 addresses of a range. An IPv6 range has some when it lies in the mapped block. -/
def CidrRange.ipv4Block (range : CidrRange) : Option (PrefixBlock 32) :=
  match range.address with
  | .v4 value =>
    if h : range.bits ≤ 32 then
      some ⟨range.bits, value.toNat / 2 ^ (32 - range.bits), h, range.bits_lt value h⟩
    else none
  | .v6 value =>
    if h : range.IsMapped value then
      some ⟨range.bits - 96, value.toNat % 2 ^ 32 / 2 ^ (128 - range.bits), h.length_le, h.bits_lt⟩
    else none

theorem ipv4Block_of_mapped {value : BitVec 128} {bits : ℕ}
    (h : (CidrRange.mk (.v6 value) bits).IsMapped value) :
    (CidrRange.mk (.v6 value) bits).ipv4Block = some ⟨bits - 96,
      value.toNat % 2 ^ 32 / 2 ^ (128 - bits), h.length_le, h.bits_lt⟩ := dif_pos h

theorem ipv4Block_of_not_mapped {value : BitVec 128} {bits : ℕ}
    (h : ¬ (CidrRange.mk (.v6 value) bits).IsMapped value) :
    (CidrRange.mk (.v6 value) bits).ipv4Block = none := dif_neg h

/-- What an accepted entry names: a prefix length in its bounds, and not every IPv4 address. -/
def CidrRange.IsAccepted (range : CidrRange) : Prop :=
  1 ≤ range.bits ∧ range.bits ≤ range.address.width ∧
    ∀ value, range.address = .v6 value → coversEveryIpv4Address value range.bits = false

/-- A prefix that reaches into the last 32 bits is compared in two parts. -/
theorem div_eq_div_iff {a b k : ℕ} (hk : k ≤ 32) :
    a / 2 ^ k = b / 2 ^ k ↔
      a / 2 ^ 32 = b / 2 ^ 32 ∧ a % 2 ^ 32 / 2 ^ k = b % 2 ^ 32 / 2 ^ k := by
  have hpow : 2 ^ 32 = 2 ^ k * 2 ^ (32 - k) := by rw [← pow_add, Nat.add_sub_cancel' hk]
  have hhigh : ∀ n : ℕ, n / 2 ^ 32 = n / 2 ^ k / 2 ^ (32 - k) := fun n => by
    rw [Nat.div_div_eq_div_mul, ← hpow]
  have hlow : ∀ n : ℕ, n % 2 ^ 32 / 2 ^ k = n / 2 ^ k % 2 ^ (32 - k) := fun n => by
    rw [hpow, Nat.mod_mul_right_div_self]
  rw [hhigh, hhigh, hlow, hlow]
  constructor
  · intro h
    rw [h]
    exact ⟨rfl, rfl⟩
  · rintro ⟨hquotient, hrest⟩
    rw [← Nat.div_add_mod (a / 2 ^ k) (2 ^ (32 - k)), hquotient, hrest, Nat.div_add_mod]

theorem mapped_div (hx : x < 2 ^ 32) : mapped x / 2 ^ 32 = 0xFFFF := by
  rw [mapped, Nat.mul_comm, Nat.mul_add_div (Nat.two_pow_pos _), Nat.div_eq_of_lt hx, Nat.add_zero]

theorem mapped_mod (hx : x < 2 ^ 32) : mapped x % 2 ^ 32 = x := by
  rw [mapped, Nat.mul_comm, Nat.mul_add_mod, Nat.mod_eq_of_lt hx]

/-- A short prefix holds all mapped addresses or none. -/
theorem mapped_div_of_short {bits : ℕ} (hbits : bits < 96) (hx : x < 2 ^ 32) :
    mapped x / 2 ^ (128 - bits) = 0xFFFF / 2 ^ (96 - bits) := by
  have hpow : 2 ^ (128 - bits) = 2 ^ 32 * 2 ^ (96 - bits) := by
    rw [← pow_add]
    congr 1
    omega
  rw [hpow, ← Nat.div_div_eq_div_mul, mapped_div hx]

/-- An accepted range has the IPv4 addresses of its block. -/
theorem coversIpv4_iff (h : range.IsAccepted) (hx : x < 2 ^ 32) :
    range.CoversIpv4 x ↔ ∃ block ∈ range.ipv4Block, block.Covers x := by
  obtain ⟨-, hwidth, hrefused⟩ := h
  obtain ⟨address, bits⟩ := range
  cases address with
  | v4 value =>
    have hbits : bits ≤ 32 := hwidth
    simp [CidrRange.CoversIpv4, CidrRange.ipv4Block, hbits, PrefixBlock.Covers]
  | v6 value =>
    have hbits : bits ≤ 128 := hwidth
    by_cases hlong : 96 ≤ bits
    · have hlength : 32 - (bits - 96) = 128 - bits := by omega
      have hsplit : (CidrRange.mk (.v6 value) bits).CoversIpv4 x ↔
          value.toNat / 2 ^ 32 = 0xFFFF ∧
            x / 2 ^ (128 - bits) = value.toNat % 2 ^ 32 / 2 ^ (128 - bits) := by
        simp only [CidrRange.CoversIpv4]
        rw [div_eq_div_iff (by omega), mapped_div hx, mapped_mod hx,
          eq_comm (a := 0xFFFF)]
      rw [hsplit]
      by_cases hmapped : value.toNat / 2 ^ 32 = 0xFFFF
      · have hin : (CidrRange.mk (.v6 value) bits).IsMapped value := ⟨hlong, hbits, hmapped⟩
        rw [ipv4Block_of_mapped hin]
        simp only [hmapped, true_and, Option.mem_some_iff, exists_eq_left', PrefixBlock.Covers,
          hlength]
      · rw [ipv4Block_of_not_mapped fun hin => hmapped hin.2.2]
        simp only [hmapped, false_and, Option.not_mem_none, exists_false]
    · -- Such a range was refused if it had any IPv4 address.
      rw [ipv4Block_of_not_mapped fun hin => hlong hin.1]
      refine iff_of_false (fun hcovers => ?_) (by simp)
      have hall : ∀ y < 2 ^ 32, (CidrRange.mk (.v6 value) bits).CoversIpv4 y := by
        intro y hy
        simp only [CidrRange.CoversIpv4] at hcovers ⊢
        rw [mapped_div_of_short (by omega) hy, ← hcovers, mapped_div_of_short (by omega) hx]
      have hevery : coversEveryIpv4Address value bits = true := by
        simp only [coversEveryIpv4Address, Bool.and_eq_true, decide_eq_true_eq]
        exact ⟨hall 0 (by decide), hall _ (by decide)⟩
      have hfalse := hrefused value rfl
      rw [hevery] at hfalse
      cases hfalse

/-! ### Entries -/

/-- An IPv6 address alone is no range over the mapped block. -/
theorem not_coversEvery_of_address (value : BitVec 128) :
    coversEveryIpv4Address value 128 = false := by
  by_contra hevery
  simp only [Bool.not_eq_false, coversEveryIpv4Address, Bool.and_eq_true, decide_eq_true_eq,
    CidrRange.CoversIpv4, Nat.sub_self, pow_zero, Nat.div_one, mapped] at hevery
  omega

/-- An entry that is accepted names a range. -/
theorem isAddressOrRange_spec (h : isAddressOrRange parseAddress entry = true) :
    ∃ range, entryRange parseAddress entry = some range ∧ range.IsAccepted := by
  unfold isAddressOrRange at h
  unfold entryRange
  split at h
  · next address _ =>
    obtain ⟨ip, hip⟩ := Option.isSome_iff_exists.mp h
    refine ⟨⟨ip, ip.width⟩, by simp [hip], ?_, le_rfl, ?_⟩
    · cases ip <;> simp [IpAddress.width]
    · rintro value rfl
      exact not_coversEvery_of_address value
  · next address prefixLength _ =>
    split at h
    · cases h
    · next ip hip =>
      split at h
      · dsimp only at h
        split at h
        · cases h
        · next hbits =>
          simp only [not_or, not_lt] at hbits
          refine ⟨⟨ip, decimalValue prefixLength⟩, by simp [hip], hbits.1, hbits.2, ?_⟩
          rintro value rfl
          simpa using h
      · cases h
  · cases h

/-- The IPv4 blocks of a list. -/
def ipv4Blocks (parseAddress : Text → Option IpAddress) (value : Text) :
    Finset (PrefixBlock 32) :=
  ((trustedRanges parseAddress value).filterMap CidrRange.ipv4Block).toFinset

/-- A list that is accepted leaves some IPv4 peer outside exactly when its outermost blocks have
fewer addresses together than there are. -/
theorem acceptedList_leavesOut_iff (parseAddress : Text → Option IpAddress) (value : Text)
    (haccepted : isTrustedProxyList parseAddress value = true) :
    (∃ x < 2 ^ 32, ∀ range ∈ trustedRanges parseAddress value, ¬ range.CoversIpv4 x) ↔
      ∑ block ∈ PrefixBlock.outermost (ipv4Blocks parseAddress value), block.size < 2 ^ 32 := by
  simp only [isTrustedProxyList, Bool.and_eq_true, List.all_eq_true] at haccepted
  have hranges : ∀ range ∈ trustedRanges parseAddress value, range.IsAccepted := by
    intro range hrange
    obtain ⟨entry, hentry, hnamed⟩ := List.mem_filterMap.mp hrange
    obtain ⟨range', hnamed', hok⟩ := isAddressOrRange_spec (haccepted.2 entry hentry)
    obtain rfl := Option.some.inj (hnamed.symm.trans hnamed')
    exact hok
  rw [← PrefixBlock.exists_not_covers_iff]
  refine exists_congr fun x => and_congr_right fun hx => ?_
  constructor
  · intro hout block hblock hcovers
    obtain ⟨range, hrange, hmem⟩ := List.mem_filterMap.mp (List.mem_toFinset.mp hblock)
    exact hout range hrange ((coversIpv4_iff (hranges range hrange) hx).mpr ⟨block, hmem, hcovers⟩)
  · intro hout range hrange hcovers
    obtain ⟨block, hmem, hblock⟩ := (coversIpv4_iff (hranges range hrange) hx).mp hcovers
    exact hout block (List.mem_toFinset.mpr (List.mem_filterMap.mpr ⟨range, hrange, hmem⟩)) hblock

/-! ### Two halves -/

/-- A number up to 255 without a leading zero. -/
def parseOctet (t : Text) : Option ℕ :=
  if t ≠ [] ∧ t.all isDigit ∧ t.length ≤ 3 ∧ (t.length = 1 ∨ t.head? ≠ some (unit '0')) ∧
      decimalValue t ≤ 255 then some (decimalValue t)
  else none

/-- A parser of dotted addresses, without the IPv6 forms. -/
def parseIpv4 (t : Text) : Option IpAddress :=
  match (t.splitOn (unit '.')).mapM parseOctet with
  | some [a, b, c, d] => some (.v4 (BitVec.ofNat 32 (((a * 256 + b) * 256 + c) * 256 + d)))
  | _ => none

/-- A list of private hops. -/
theorem privateHops_leaveOut :
    ∃ x < 2 ^ 32, ∀ range ∈ trustedRanges parseIpv4 (text "172.30.0.10, 10.0.0.0/8"),
      ¬ range.CoversIpv4 x :=
  (acceptedList_leavesOut_iff parseIpv4 (text "172.30.0.10, 10.0.0.0/8") (by decide)).mpr
    (by decide)

/-- Two ranges of half the addresses are accepted, and trust every IPv4 peer. -/
theorem twoHalves_accepted :
    isTrustedProxyList parseIpv4 (text "0.0.0.0/1,128.0.0.0/1") = true ∧
      ¬ ∃ x < 2 ^ 32, ∀ range ∈ trustedRanges parseIpv4 (text "0.0.0.0/1,128.0.0.0/1"),
        ¬ range.CoversIpv4 x := by
  refine ⟨by decide, ?_⟩
  rintro ⟨x, hx, hout⟩
  have hranges : trustedRanges parseIpv4 (text "0.0.0.0/1,128.0.0.0/1") =
      [⟨.v4 0, 1⟩, ⟨.v4 (BitVec.ofNat 32 (2 ^ 31)), 1⟩] := by decide
  rw [hranges] at hout
  simp only [List.mem_cons, List.not_mem_nil, or_false, forall_eq_or_imp, forall_eq,
    CidrRange.CoversIpv4] at hout
  have hhalves : (0 : BitVec 32).toNat = 0 ∧ (BitVec.ofNat 32 (2 ^ 31)).toNat = 2 ^ 31 := by decide
  rw [hhalves.1, hhalves.2] at hout
  omega

end NestApi.TrustedProxy
