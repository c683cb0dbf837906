import NestApi.Common.Text
import NestApi.Ranges.PrefixBlocks

/-!
# Trusted hops

A list of addresses and ranges names the hops whose forwarded header is believed. Entries are
judged one at a time.
-/

namespace NestApi.TrustedProxy

/-- An address by its number. -/
inductive IpAddress
  | v4 (value : BitVec 32)
  | v6 (value : BitVec 128)
deriving DecidableEq

def IpAddress.width : IpAddress → ℕ
  | v4 _ => 32
  | v6 _ => 128

/-- The IPv6 form `::ffff:a.b.c.d` of an IPv4 address. -/
def mapped (x : ℕ) : ℕ := 0xFFFF * 2 ^ 32 + x

/-- An address of a range, and how many of its first bits the range shares. -/
structure CidrRange where
  address : IpAddress
  bits : ℕ
deriving DecidableEq

/-- The peer has the first bits of the range. An IPv4 peer meets an IPv6 range in its mapped
form. -/
def CidrRange.CoversIpv4 (range : CidrRange) (x : ℕ) : Prop :=
  match range.address with
  | .v4 value => x / 2 ^ (32 - range.bits) = value.toNat / 2 ^ (32 - range.bits)
  | .v6 value => mapped x / 2 ^ (128 - range.bits) = value.toNat / 2 ^ (128 - range.bits)

instance (range : CidrRange) (x : ℕ) : Decidable (range.CoversIpv4 x) := by
  unfold CidrRange.CoversIpv4
  cases range.address
  · exact inferInstanceAs (Decidable (_ = _))
  · exact inferInstanceAs (Decidable (_ = _))

/-- The subnet of a block list holds the first and the last mapped address. -/
def coversEveryIpv4Address (value : BitVec 128) (bits : ℕ) : Bool :=
  decide ((CidrRange.mk (.v6 value) bits).CoversIpv4 0) &&
    decide ((CidrRange.mk (.v6 value) bits).CoversIpv4 (2 ^ 32 - 1))

variable (parseAddress : Text → Option IpAddress)

/-- An address, or an address and a prefix length. `parseAddress` is `isIP` and the number that
the address stands for. -/
def isAddressOrRange (entry : Text) : Bool :=
  match entry.splitOn (unit '/') with
  | [address] => (parseAddress address).isSome
  | [address, prefixLength] =>
    match parseAddress address with
    | none => false
    | some ip =>
      if prefixLength.all isDigit && 1 ≤ prefixLength.length && prefixLength.length ≤ 3 then
        let bits := decimalValue prefixLength
        if bits < 1 ∨ ip.width < bits then false
        else
          match ip with
          | .v4 _ => true
          | .v6 value => !coversEveryIpv4Address value bits
      else false
  | _ => false

def proxyEntries (value : Text) : List Text := (value.splitOn (unit ',')).map trim

def isTrustedProxyList (value : Text) : Bool :=
  let entries := proxyEntries value
  0 < entries.length && entries.all (isAddressOrRange parseAddress)

/-- The range that an entry names: an address alone is a range of its own. -/
def entryRange (entry : Text) : Option CidrRange :=
  match entry.splitOn (unit '/') with
  | [address] => (parseAddress address).map fun ip => ⟨ip, ip.width⟩
  | [address, prefixLength] =>
    (parseAddress address).map fun ip => ⟨ip, decimalValue prefixLength⟩
  | _ => none

/-- The ranges of a list. -/
def trustedRanges (value : Text) : List CidrRange :=
  (proxyEntries value).filterMap (entryRange parseAddress)

end NestApi.TrustedProxy
