import Mathlib.Data.Nat.Notation

/-!
# The circuit breaker of the bot check

Three consecutive no-answers of the provider open the breaker for a while. Times are in
milliseconds.
-/

namespace NestApi

/-- `PROVIDER_FAILURE_THRESHOLD`. -/
def providerFailureThreshold : ℕ := 3

/-- `OPEN_WINDOW_MILLISECONDS`. -/
def openWindowMilliseconds : ℕ := 30000

/-- `FAILURE_MEMORY_MILLISECONDS`. -/
def failureMemoryMilliseconds : ℕ := 2 * openWindowMilliseconds

structure ProviderFailureOutcome where
  isBypassActive : Bool
  isNewlyOpened : Bool
deriving DecidableEq

structure TurnstileCircuitBreaker where
  consecutiveProviderFailures : ℕ := 0
  lastFailureMilliseconds : Option ℕ := none
  openUntilMilliseconds : Option ℕ := none
deriving DecidableEq

namespace TurnstileCircuitBreaker

variable (b : TurnstileCircuitBreaker) (nowMilliseconds : ℕ)

def shouldBypass : Bool := b.openUntilMilliseconds.any fun openUntil => nowMilliseconds < openUntil

/-- The breaker after a verdict, and whether it was open. -/
def recordProviderSuccess : TurnstileCircuitBreaker × Bool :=
  ({}, b.openUntilMilliseconds.isSome)

/-- A no-answer that comes too late to be consecutive starts over. -/
def forget : TurnstileCircuitBreaker :=
  match b.lastFailureMilliseconds with
  | some lastFailure =>
    let lastEvidence := max lastFailure (b.openUntilMilliseconds.getD 0)
    if nowMilliseconds - lastEvidence > failureMemoryMilliseconds then
      b.recordProviderSuccess.1
    else b
  | none => b

/-- The breaker after a no-answer, and what the caller is told. -/
def recordProviderFailure : TurnstileCircuitBreaker × ProviderFailureOutcome :=
  let b := b.forget nowMilliseconds
  let failures := b.consecutiveProviderFailures + 1
  if failures < providerFailureThreshold then
    ({ b with
        consecutiveProviderFailures := failures
        lastFailureMilliseconds := some nowMilliseconds }, ⟨false, false⟩)
  else
    (⟨failures, some nowMilliseconds, some (nowMilliseconds + openWindowMilliseconds)⟩,
      ⟨true, failures = providerFailureThreshold⟩)

end TurnstileCircuitBreaker

end NestApi
