import Mathlib.Data.Nat.Notation

/-!
# Times as texts
-/

namespace NestApi

/-- `toISOString`, and what the `Date` constructor makes of a text. Times are milliseconds. -/
structure IsoDates where
  toISOString : ℕ → String
  parse : String → Option ℕ
  parse_toISOString : ∀ time, parse (toISOString time) = some time
  parse_empty : parse "" = none

/-- Times as digits, but for the one that the samples write. -/
def sampleDates : IsoDates where
  toISOString time :=
    if time = 300000 then "1970-01-01T00:05:00.000Z" else String.ofList (Nat.toDigits 10 time)
  parse text :=
    if text = "1970-01-01T00:05:00.000Z" then some 300000
    else if text = "" then none
    else some (Nat.ofDigitChars 10 text.toList 0)
  parse_toISOString time := by
    by_cases htime : time = 300000
    · simp [htime]
    · have hdigits : String.ofList (Nat.toDigits 10 time) ≠ "1970-01-01T00:05:00.000Z" := by
        intro htext
        have hlist := congrArg String.toList htext
        rw [String.toList_ofList] at hlist
        have hdash : '-' ∈ Nat.toDigits 10 time := by
          rw [hlist]
          decide
        exact absurd (Nat.isDigit_of_mem_toDigits (by decide) (by decide) hdash) (by decide)
      have hempty : String.ofList (Nat.toDigits 10 time) ≠ "" := by
        intro htext
        have hlist := congrArg String.toList htext
        rw [String.toList_ofList] at hlist
        exact Nat.toDigits_ne_nil hlist
      simp only [htime, hdigits, hempty, if_false, String.toList_ofList,
        Nat.ofDigitChars_ten_toDigits]
  parse_empty := by decide

end NestApi
