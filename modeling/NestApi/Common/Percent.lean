import NestApi.Common.Text
import NestApi.Rewriting.Rewrite

/-!
# Percent-encoding

A percent sign with two hexadecimal digits spells a byte, and the bytes spell code points in
UTF-8. The decoder reports every malformed sequence: `decodeURIComponent` throws on one, a
query parser puts the replacement character in its place.
-/

namespace NestApi

open Rewriting

/-- A unit that stands for itself, or an escaped byte. -/
abbrev Piece := CodeUnit ⊕ ℕ

/-- A percent sign with two digits, and the byte they spell. -/
def escapedByte : Matcher CodeUnit Piece
  | u :: x :: y :: _ =>
    if u = unit '%' then
      match hexValue x, hexValue y with
      | some high, some low => some (2, [.inr (16 * high + low)])
      | _, _ => none
    else none
  | _ => none

/-- The pieces of a percent-encoded text. A percent sign without two digits is itself. -/
def pieces (t : Text) : List Piece := rewrite escapedByte (fun u => [.inl u]) t

/-- What decoding gives: a unit as it stood, a code point, or a malformed sequence. -/
inductive Decoded
  | plain (u : CodeUnit)
  | point (n : ℕ)
  | malformed
deriving DecidableEq

/-- A UTF-8 sequence under way: the bits so far, the bytes that are missing, and the range of
the next byte. -/
structure Utf8Sequence where
  bits : ℕ
  missing : ℕ
  lower : ℕ
  upper : ℕ

/-- The first byte of a sequence. Overlong forms, surrogates and what lies beyond the last
code point are cut off by the range of the second byte. -/
def utf8Start (byte : ℕ) : List Decoded × Option Utf8Sequence :=
  if byte < 0x80 then ([.point byte], none)
  else if 0xC2 ≤ byte ∧ byte ≤ 0xDF then ([], some ⟨byte - 0xC0, 1, 0x80, 0xBF⟩)
  else if 0xE0 ≤ byte ∧ byte ≤ 0xEF then
    ([], some ⟨byte - 0xE0, 2, if byte = 0xE0 then 0xA0 else 0x80,
      if byte = 0xED then 0x9F else 0xBF⟩)
  else if 0xF0 ≤ byte ∧ byte ≤ 0xF4 then
    ([], some ⟨byte - 0xF0, 3, if byte = 0xF0 then 0x90 else 0x80,
      if byte = 0xF4 then 0x8F else 0xBF⟩)
  else ([.malformed], none)

/-- One more byte. A byte that does not continue the sequence starts a new one. -/
def utf8Next (sequence : Utf8Sequence) (byte : ℕ) : List Decoded × Option Utf8Sequence :=
  if sequence.lower ≤ byte ∧ byte ≤ sequence.upper then
    let bits := 64 * sequence.bits + (byte - 0x80)
    if sequence.missing = 1 then ([.point bits], none)
    else ([], some ⟨bits, sequence.missing - 1, 0x80, 0xBF⟩)
  else (.malformed :: (utf8Start byte).1, (utf8Start byte).2)

/-- The report of a sequence that is broken off. -/
def brokenOff : Option Utf8Sequence → List Decoded
  | none => []
  | some _ => [.malformed]

/-- Decode the pieces, with a sequence under way. -/
def decodePieces : Option Utf8Sequence → List Piece → List Decoded
  | underWay, [] => brokenOff underWay
  | underWay, .inl u :: rest => brokenOff underWay ++ .plain u :: decodePieces none rest
  | none, .inr byte :: rest => (utf8Start byte).1 ++ decodePieces (utf8Start byte).2 rest
  | some sequence, .inr byte :: rest =>
    (utf8Next sequence byte).1 ++ decodePieces (utf8Next sequence byte).2 rest

/-- The units of a decoded item, with the replacement character for a malformed one. -/
def Decoded.units : Decoded → Text
  | .plain u => [u]
  | .point n => codeUnits n
  | .malformed => [0xFFFD]

/-- `decodeURIComponent`. A malformed escape or sequence is a `URIError`. -/
def decodeURIComponent (t : Text) : Option Text :=
  let decoded := decodePieces none (pieces t)
  if .malformed ∈ decoded ∨ .plain (unit '%') ∈ decoded then none
  else some (decoded.flatMap Decoded.units)

/-- The name or value of a parameter as a query parser reads it: a plus sign is a space, the
escapes are decoded, and what is malformed is replaced. -/
def decodeQueryComponent (t : Text) : Text :=
  (decodePieces none (pieces (t.map fun u => if u = unit '+' then unit ' ' else u))).flatMap
    Decoded.units

/-- A text without a percent sign has no escapes. -/
theorem pieces_eq_map {t : Text} (h : unit '%' ∉ t) : pieces t = t.map .inl := by
  have hnone : ∀ s, s ≠ [] → s <:+ t → escapedByte s = none := by
    intro s _ hsuffix
    unfold escapedByte
    split
    · next u x y rest _ =>
      have hu : u ≠ unit '%' := fun hu => h (hu ▸ hsuffix.subset (by simp))
      simp [hu]
    · rfl
  rw [pieces, rewrite_of_forall_none hnone]
  exact List.flatMap_pure_eq_map _ _

/-- Units alone decode to themselves. -/
theorem decodePieces_map_inl (t : Text) :
    (decodePieces none (t.map .inl)).flatMap Decoded.units = t := by
  induction t with
  | nil => rfl
  | cons u t ih => simpa [decodePieces, brokenOff, Decoded.units] using ih

/-- Only escapes and plus signs are decoded. -/
theorem decodeQueryComponent_of_plain {t : Text} (hpercent : unit '%' ∉ t) :
    decodeQueryComponent t = t.map fun u => if u = unit '+' then unit ' ' else u := by
  unfold decodeQueryComponent
  rw [pieces_eq_map, decodePieces_map_inl]
  simp only [List.mem_map, not_exists, not_and]
  intro u hu heq
  split at heq
  · exact absurd heq (by decide)
  · exact hpercent (heq ▸ hu)

end NestApi
