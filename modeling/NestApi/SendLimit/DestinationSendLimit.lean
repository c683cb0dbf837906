import Mathlib.Data.Int.Notation
import Mathlib.Data.List.Basic
import Mathlib.Logic.Function.Basic
import NestApi.Txn.Automaton

/-!
# The send limit of a destination

A counter in Redis, one a purpose and destination, that counts the attempts of a window. Any
number of sends use it at once: they reserve, send, and give the unit back when the send fails.
-/

namespace NestApi

/-! ### Configuration -/

inductive SendPurpose
  | phoneVerification
  | emailVerification
  | passwordReset
  | workspaceInvitation
  | unverifiedPasswordChangedNotice
  | signUpAccountExists
deriving DecidableEq

def SendPurpose.value : SendPurpose → String
  | .phoneVerification => "phone-verification"
  | .emailVerification => "email-verification"
  | .passwordReset => "password-reset"
  | .workspaceInvitation => "workspace-invitation"
  | .unverifiedPasswordChangedNotice => "unverified-password-changed-notice"
  | .signUpAccountExists => "sign-up-account-exists"

structure SendLimit where
  limit : ℕ
  windowSeconds : ℕ

/-- `SEND_LIMITS`. -/
def sendLimits : SendPurpose → SendLimit
  | .phoneVerification => ⟨3, 10 * 60⟩
  | .emailVerification => ⟨5, 60 * 60⟩
  | .passwordReset => ⟨5, 60 * 60⟩
  | .workspaceInvitation => ⟨5, 60 * 60⟩
  | .unverifiedPasswordChangedNotice => ⟨5, 60 * 60⟩
  | .signUpAccountExists => ⟨3, 60 * 60⟩

/-- A limit leaves room for a send. -/
theorem sendLimits_pos (p : SendPurpose) : 0 < (sendLimits p).limit := by
  cases p <;> decide

/-- `keyFor`. The digest is the keyed hash of a destination. -/
def keyFor (digest : String → String) (p : SendPurpose) (destination : String) : String :=
  "send-limit:" ++ p.value ++ ":" ++ digest destination

/-- Two purposes never share a counter. -/
theorem keyFor_purpose {digest : String → String} {p q : SendPurpose} {d e : String}
    (h : keyFor digest p d = keyFor digest q e) : p = q := by
  have hchars := congrArg String.toList h
  simp only [keyFor, String.toList_append] at hchars
  cases p <;> cases q <;> first | rfl | (simp [SendPurpose.value] at hchars)

/-! ### Redis -/

/-- A counter, with the time at which it expires in milliseconds. -/
structure SendCounter where
  count : ℤ
  expiresAt : Option ℕ

/-- What became of an attempt. -/
inductive SendStatus
  /-- `reserve` answered null. -/
  | refused
  /-- The reservation was counted, but `reserve` threw. -/
  | unanswered
  | inFlight
  | succeeded
  /-- The send threw, and its reservation is not given back yet. -/
  | failed
  /-- The release script ran, in a window or when there was none. -/
  | released (window : Option ℕ)
  /-- The release script did not run. -/
  | unreleased
deriving DecidableEq

structure SendAttempt where
  key : String
  window : ℕ
  status : SendStatus
deriving DecidableEq

/-- Redis and the attempts so far. The windows of a key are numbered from one. -/
structure SendState where
  redis : String → Option SendCounter
  now : ℕ
  windows : String → ℕ
  attempts : List SendAttempt

namespace SendState

variable (s : SendState) (key : String)

/-- Before the first attempt. -/
def initial : SendState := ⟨fun _ => none, 0, fun _ => 0, []⟩

/-- The counter that Redis shows: an expired key is gone. -/
def get? : Option SendCounter :=
  (s.redis key).filter fun c => c.expiresAt.all fun t => s.now < t

/-- `INCR`, then `EXPIRE … NX`. -/
def incrExpire (windowSeconds : ℕ) : SendCounter where
  count := ((s.get? key).elim 0 SendCounter.count) + 1
  expiresAt := ((s.get? key).bind SendCounter.expiresAt).or (some (s.now + 1000 * windowSeconds))

/-- The window of an attempt made now: the first one opens it. -/
def windowNow : ℕ := if (s.get? key).isSome then s.windows key else s.windows key + 1

/-- The state after an attempt that Redis counted. -/
def counted (counter : SendCounter) (status : SendStatus) : SendState :=
  { s with
    redis := Function.update s.redis key (some counter)
    windows := Function.update s.windows key (s.windowNow key)
    attempts := s.attempts ++ [⟨key, s.windowNow key, status⟩] }

/-- `RELEASE_SCRIPT`. -/
def runReleaseScript : SendState :=
  match s.get? key with
  | some c =>
    { s with redis := Function.update s.redis key (some { c with count := c.count - 1 }) }
  | none => s

/-- The window that the release script finds. -/
def releaseWindow : Option ℕ := (s.get? key).map fun _ => s.windows key

/-- An attempt comes from one status to the next. -/
def settle (i : ℕ) (old : SendStatus) (new : SendAttempt → SendStatus) : Option SendState := do
  let a ← s.attempts[i]?
  if a.status = old then
    some { s with attempts := s.attempts.set i { a with status := new a } }
  else none

end SendState

/-! ### The service -/

inductive SendAction
  | tick (milliseconds : ℕ)
  | reserve (purpose : SendPurpose) (destination : String)
  /-- Redis runs the transaction of `reserve`, and its answer is lost. -/
  | loseReserve (purpose : SendPurpose) (destination : String)
  | succeed (attempt : ℕ)
  | fail (attempt : ℕ)
  | release (attempt : ℕ)
  | loseRelease (attempt : ℕ)

namespace SendAction

variable (digest : String → String) (s : SendState)

/-- The counter after the transaction of `reserve`. -/
def counterAfter (p : SendPurpose) (destination : String) : SendCounter :=
  s.incrExpire (keyFor digest p destination) (sendLimits p).windowSeconds

/-- `reserve` answers null. -/
def Refuses (p : SendPurpose) (destination : String) : Prop :=
  (counterAfter digest s p destination).count > (sendLimits p).limit

instance (p : SendPurpose) (destination : String) :
    Decidable (Refuses digest s p destination) := by
  unfold Refuses
  infer_instance

/-- `hasBudget`. -/
def hasBudget (p : SendPurpose) (destination : String) : Bool :=
  (s.get? (keyFor digest p destination)).elim 0 SendCounter.count < (sendLimits p).limit

/-- `reserve` and `sendReserved`, one command at a time. -/
def exec : SendAction → Option SendState
  | .tick milliseconds => some { s with now := s.now + milliseconds }
  | .reserve p d =>
    some (s.counted (keyFor digest p d) (counterAfter digest s p d)
      (if Refuses digest s p d then .refused else .inFlight))
  | .loseReserve p d =>
    some (s.counted (keyFor digest p d) (counterAfter digest s p d) .unanswered)
  | .succeed i => s.settle i .inFlight fun _ => .succeeded
  | .fail i => s.settle i .inFlight fun _ => .failed
  | .release i => do
    let a ← s.attempts[i]?
    let t ← s.settle i .failed fun a => .released (s.releaseWindow a.key)
    some (t.runReleaseScript a.key)
  | .loseRelease i => s.settle i .failed fun _ => .unreleased

/-- Advice on a send agrees with the attempt that follows. -/
theorem hasBudget_iff {p : SendPurpose} {destination : String} :
    hasBudget digest s p destination ↔ ¬ Refuses digest s p destination := by
  simp only [hasBudget, decide_eq_true_eq, Refuses, counterAfter, SendState.incrExpire]
  omega

end SendAction

end NestApi
