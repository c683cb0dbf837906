import NestApi.Common.Json
import NestApi.Turnstile.CircuitBreaker
import NestApi.Txn.Automaton

/-!
# The bot check

`verify` asks siteverify about a token, or lets the request through unverified while the breaker
is open. Any number of calls share the breaker; a call waits for the answer of siteverify and for
the audit row, and other calls go on meanwhile.
-/

namespace NestApi

inductive TurnstileWidget
  | web
  | mobile
deriving DecidableEq

/-- The errors that `verify` throws. -/
inductive TurnstileError
  | turnstileTokenInvalid
  | externalServiceUnavailable (message : String)
deriving DecidableEq

/-- `UNAVAILABLE_MESSAGE`. -/
def unavailableMessage : String := "The bot check is temporarily unavailable. Please try again."

/-- `MAX_TURNSTILE_TOKEN_LENGTH`. -/
def maxTurnstileTokenLength : ℕ := 2048

/-- `TURNSTILE_BYPASS_AUDIT_ACTION`. -/
def turnstileBypassAuditAction : String := "turnstile.verification_bypassed"

/-- `TOKEN_FAULT_ERROR_CODES`. -/
def tokenFaultErrorCodes : List String :=
  ["missing-input-response", "invalid-input-response", "timeout-or-duplicate"]

/-! ### Siteverify -/

/-- The form that siteverify gets. -/
structure SiteverifyForm where
  secret : String
  response : String
  remoteip : Option String
deriving DecidableEq

/-- The form of a call. An empty address is left out. -/
def siteverifyForm (secretKeys : TurnstileWidget → Option String) (token : String)
    (widget : TurnstileWidget) (remoteIp : Option String) : SiteverifyForm where
  secret := (secretKeys widget).getD ""
  response := token
  remoteip := remoteIp.filter fun ip => ip ≠ ""

/-- What becomes of the request: it throws, or has a status and a body that is read as JSON. -/
inductive SiteverifyResponse
  | threw (message : String)
  | answered (status : ℕ) (body : Except String Json)

inductive SiteverifyOutcome
  | verdict (isSuccess : Bool) (errorCodes : List String)
  | noAnswer (reason : String)
  | ourRequestRefused (reason : String)
deriving DecidableEq

/-- The `error-codes` that are strings. -/
def errorCodesOf (body : Json) : List String :=
  (((body.get? "error-codes").bind Json.asArray?).getD []).filterMap Json.asString?

/-- `callSiteverify`, from what the request got. -/
def callSiteverify : SiteverifyResponse → SiteverifyOutcome
  | .threw message => .noAnswer message
  | .answered status body =>
    if ¬ (200 ≤ status ∧ status < 300) then
      let reason := "HTTP " ++ toString status
      if status ≥ 500 then .noAnswer reason else .ourRequestRefused reason
    else
      match body with
      | .error message => .noAnswer ("unreadable answer: " ++ message)
      | .ok body =>
        match (body.get? "success").bind Json.asBool? with
        | none => .noAnswer "unexpected answer shape"
        | some success =>
          let errorCodes := errorCodesOf body
          if success = false ∧ errorCodes ≠ [] ∧ ∀ code ∈ errorCodes, code = "internal-error" then
            .noAnswer "internal-error"
          else .verdict success errorCodes

/-! ### The service -/

/-- What a call waits for, or how it ended. -/
inductive VerifyPhase
  | asking (form : SiteverifyForm)
  | bypassing (reason : String)
  | returned
  | threw (error : TurnstileError)
deriving DecidableEq

structure VerifyCall where
  token : String
  widget : TurnstileWidget
  phase : VerifyPhase
deriving DecidableEq

structure BypassAuditEntry where
  action : String
  actorId : Option String
  widget : TurnstileWidget
  reason : String
deriving DecidableEq

/-- What the breaker is told. -/
inductive BreakerEvent
  | noAnswer (time : ℕ)
  | verdict (time : ℕ)
deriving DecidableEq

/-- The service: its breaker and calls, and what happened so far, newest first: the breaker's
events, the tokens with a success verdict and the audit rows, each with the call it is of. -/
structure TurnstileState where
  breaker : TurnstileCircuitBreaker := {}
  calls : List VerifyCall := []
  history : List BreakerEvent := []
  verdicts : List (ℕ × String) := []
  auditRows : List (ℕ × BypassAuditEntry) := []

inductive TurnstileAction
  | verify (token : String) (widget : TurnstileWidget) (remoteIp : Option String) (now : ℕ)
  | respond (call : ℕ) (response : SiteverifyResponse) (now : ℕ)
  /-- The audit row is written, or `record` answers null. -/
  | record (call : ℕ) (written : Bool)

namespace TurnstileState

variable (secretKeys : TurnstileWidget → Option String) (s : TurnstileState)

/-- A call comes to its next phase. -/
def setPhase (i : ℕ) (call : VerifyCall) (phase : VerifyPhase) : TurnstileState :=
  { s with calls := s.calls.set i { call with phase := phase } }

/-- `verify` up to its first wait. -/
def begin (token : String) (widget : TurnstileWidget) (remoteIp : Option String) (now : ℕ) :
    VerifyPhase :=
  if utf16Length token > maxTurnstileTokenLength then .threw .turnstileTokenInvalid
  else if s.breaker.shouldBypass now then .bypassing "circuit open"
  else .asking (siteverifyForm secretKeys token widget remoteIp)

/-- `handleNoAnswer` up to the audit row. -/
def handleNoAnswer (i : ℕ) (call : VerifyCall) (reason : String) (now : ℕ) : TurnstileState :=
  let (breaker, outcome) := s.breaker.recordProviderFailure now
  { s.setPhase i call (if outcome.isBypassActive then .bypassing reason
      else .threw (.externalServiceUnavailable unavailableMessage)) with
    breaker := breaker, history := .noAnswer now :: s.history }

/-- How a verdict ends a call. -/
def judge (isSuccess : Bool) (errorCodes : List String) : VerifyPhase :=
  if isSuccess then .returned
  else if ∃ code ∈ errorCodes, code ≠ "internal-error" ∧ code ∉ tokenFaultErrorCodes then
    .threw (.externalServiceUnavailable unavailableMessage)
  else .threw .turnstileTokenInvalid

/-- The rest of `verify` once siteverify answered. -/
def handleAnswer (i : ℕ) (call : VerifyCall) (phase : VerifyPhase) (now : ℕ) : TurnstileState :=
  { s.setPhase i call phase with
    breaker := s.breaker.recordProviderSuccess.1, history := .verdict now :: s.history }

/-- The row that `recordBypass` writes. -/
def bypassEntry (call : VerifyCall) (reason : String) : BypassAuditEntry :=
  ⟨turnstileBypassAuditAction, none, call.widget, reason⟩

/-- A step of the service. -/
def exec : TurnstileAction → Option TurnstileState
  | .verify token widget remoteIp now =>
    let call := ⟨token, widget, s.begin secretKeys token widget remoteIp now⟩
    some { s with calls := s.calls ++ [call] }
  | .respond i response now => do
    let call ← s.calls[i]?
    match call.phase with
    | .asking form =>
      match callSiteverify response with
      | .noAnswer reason => some (s.handleNoAnswer i call reason now)
      | .ourRequestRefused _ =>
        some (s.handleAnswer i call
          (.threw (.externalServiceUnavailable unavailableMessage)) now)
      | .verdict isSuccess errorCodes =>
        let t := s.handleAnswer i call (judge isSuccess errorCodes) now
        some { t with
          verdicts := if isSuccess then (i, form.response) :: s.verdicts else s.verdicts }
    | _ => none
  | .record i written => do
    let call ← s.calls[i]?
    match call.phase with
    | .bypassing reason =>
      if written then
        some { s.setPhase i call .returned with
          auditRows := (i, bypassEntry call reason) :: s.auditRows }
      else
        some (s.setPhase i call (.threw (.externalServiceUnavailable unavailableMessage)))
    | _ => none

end TurnstileState

end NestApi
