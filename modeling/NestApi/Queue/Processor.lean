import NestApi.Numbers.Decimal
import NestApi.Queue.HandlerRegistry
import NestApi.Queue.LifecycleLog
import NestApi.Queue.Producer

/-!
# Processing a job

A processor consumes one queue. It resolves a job to its handler and payload before the handler
runs, logs what becomes of the attempt, and passes every error on to the worker.
-/

namespace NestApi

/-! ### Jobs, outcomes and errors -/

/-- A job as a worker is handed it. -/
structure Job (D : Type) where
  id : Option String
  name : String
  data : D
  attemptsMade : ℕ
  attempts : Option ℕ

inductive JobOutcomeStatus
  | completed
  | skipped
deriving DecidableEq

structure JobOutcome where
  status : JobOutcomeStatus
  reason : Option Text := none
deriving DecidableEq

/-- What is seen of the class of an error. `PermanentJobFailureError` extends
`UnrecoverableError`. -/
inductive JobErrorClass
  | permanentJobFailure
  | unrecoverable
  | other
deriving DecidableEq

/-- An error, with its text from `formatErrorMessage`. -/
structure JobError where
  errorClass : JobErrorClass
  message : Text
deriving DecidableEq

namespace JobError

def isPermanent (error : JobError) : Bool := error.errorClass = .permanentJobFailure

def isUnrecoverable (error : JobError) : Bool := error.errorClass ≠ .other

theorem isUnrecoverable_of_isPermanent (error : JobError) (h : error.isPermanent = true) :
    error.isUnrecoverable = true := by
  have hclass : error.errorClass = .permanentJobFailure := of_decide_eq_true h
  simp [isUnrecoverable, hclass]

end JobError

def permanentJobFailureError (reason : Text) : JobError := ⟨.permanentJobFailure, reason⟩

/-! ### Resolving -/

/-- A processor of a release: its queue, the handlers that its process has collected, and what
each of them makes of raw data, an error being the offending properties. -/
structure QueueProcessor (I D F : Type) where
  release : Release
  queueName : String
  findByJobName : String → Option I
  readPayload : I → D → Except (List String) (JobPayload F)

/-- `process` between its two awaits, or how it ended. -/
inductive ProcessStep (I F : Type)
  /-- The handler is at work, under a request id. -/
  | handling (handler : I) (payload : JobPayload F) (requestId : String)
  | returned (outcome : JobOutcome)
  | threw (error : JobError)

namespace QueueProcessor

variable {I D F : Type} (processor : QueueProcessor I D F) (job : Job D)

def unknownJobName (jobName : String) : Text :=
  text s!"Unknown job name \"{jobName}\" — this release has no registration for it"

def wrongQueue (jobName registeredQueueName processorQueueName : String) : Text :=
  text (s!"Job \"{jobName}\" belongs to queue \"{registeredQueueName}\" but arrived on " ++
    s!"\"{processorQueueName}\"")

def noHandler (jobName : String) : Text := text s!"No handler registered for job \"{jobName}\""

def invalidPayload (jobName : String) (properties : List String) : Text :=
  text (s!"Invalid payload for job \"{jobName}\" — offending properties: " ++
    ", ".intercalate properties)

def unsupportedVersion (jobName : String) (payloadVersion registered : ℕ) : Text :=
  text "Unsupported payload version " ++ numberToString payloadVersion ++
    text s!" for job \"{jobName}\" — this release supports version " ++ numberToString registered

/-- `resolveJob`. Every failure is permanent. -/
def resolveJob : Except JobError (I × JobPayload F) :=
  match processor.release.jobRegistration job.name with
  | none => .error (permanentJobFailureError (unknownJobName job.name))
  | some registration =>
    if registration.queueName ≠ processor.queueName then
      .error (permanentJobFailureError
        (wrongQueue job.name registration.queueName processor.queueName))
    else
      match processor.findByJobName job.name with
      | none => .error (permanentJobFailureError (noHandler job.name))
      | some handler =>
        match processor.readPayload handler job.data with
        | .error properties =>
          .error (permanentJobFailureError (invalidPayload job.name properties))
        | .ok payload =>
          -- an old worker and a payload of a new producer
          if payload.payloadVersion ≠ registration.payloadVersion then
            .error (permanentJobFailureError (unsupportedVersion job.name
              payload.payloadVersion registration.payloadVersion))
          else .ok (handler, payload)

end QueueProcessor

/-! ### The lines of an attempt -/

namespace Job

variable {D F : Type} (job : Job D)

def attempt : ℕ := job.attemptsMade + 1

def maxAttempts : ℕ := job.attempts.getD 1

def jobId : String := job.id.getD "unknown"

/-- Whether `process` expects another attempt after an error. -/
def willRetry (error : JobError) : Bool := !error.isPermanent && job.attempt < job.maxAttempts

/-- A line about an attempt whose payload was read. -/
def payloadRecord (queueName : String) (payload : JobPayload F) (event : QueueLifecycleEvent)
    (durationMilliseconds : Option ℤ) (reason : Option Text) : QueueLifecycleRecord where
  event := event
  queueName := text queueName
  jobName := text job.name
  jobId := some (text job.jobId)
  payloadVersion := some payload.payloadVersion
  scheduleVersion := payload.scheduleVersion.map Nat.cast
  scheduledAt := payload.scheduledAt.map text
  attempt := some job.attempt
  maxAttempts := some job.maxAttempts
  durationMilliseconds := durationMilliseconds
  correlationId := payload.correlationId.map text
  reason := reason

def errorRecord (queueName : String) (error : JobError) (durationMilliseconds : ℤ) :
    QueueLifecycleRecord where
  event := if job.willRetry error then .retried else .failed
  queueName := text queueName
  jobName := text job.name
  jobId := some (text job.jobId)
  attempt := some job.attempt
  maxAttempts := some job.maxAttempts
  durationMilliseconds := some durationMilliseconds
  reason := some error.message

end Job

def JobOutcome.event (outcome : JobOutcome) : QueueLifecycleEvent :=
  match outcome.status with
  | .skipped => .skipped
  | .completed => .completed

namespace QueueProcessor

variable {I D F : Type} (processor : QueueProcessor I D F) (job : Job D)

/-- `process` until the handler runs: the line that is logged, and what comes next. -/
def enter (durationMilliseconds : ℤ) : QueueLifecycleRecord × ProcessStep I F :=
  match processor.resolveJob job with
  | .ok (handler, payload) =>
    (job.payloadRecord processor.queueName payload .started none none,
      .handling handler payload (payload.correlationId.getD ("job." ++ job.jobId)))
  | .error error =>
    (job.errorRecord processor.queueName error durationMilliseconds, .threw error)

/-- `process` once the handler has ended. -/
def leave (payload : JobPayload F) (durationMilliseconds : ℤ) :
    Except JobError JobOutcome → QueueLifecycleRecord × ProcessStep I F
  | .ok outcome =>
    (job.payloadRecord processor.queueName payload outcome.event (some durationMilliseconds)
      outcome.reason, .returned outcome)
  | .error error =>
    (job.errorRecord processor.queueName error durationMilliseconds, .threw error)

/-- `process` from beginning to end, for a handler that ends as `handle` says. -/
def process (handle : I → JobPayload F → Except JobError JobOutcome)
    (durationMilliseconds : ℤ) : List QueueLifecycleRecord × ProcessStep I F :=
  match processor.enter job durationMilliseconds with
  | (started, .handling handler payload _) =>
    let (ended, step) := processor.leave job payload durationMilliseconds (handle handler payload)
    ([started, ended], step)
  | (record, step) => ([record], step)

/-! ### What is resolved -/

variable {processor job} {handler : I} {payload : JobPayload F} {error : JobError}

/-- A job is handled exactly when its release has it on this queue, its handler reads the data,
and the payload has the version of the release. -/
theorem resolveJob_eq_ok : processor.resolveJob job = .ok (handler, payload) ↔
    ∃ registration, processor.release.jobRegistration job.name = some registration ∧
      registration.queueName = processor.queueName ∧
      processor.findByJobName job.name = some handler ∧
      processor.readPayload handler job.data = .ok payload ∧
      payload.payloadVersion = registration.payloadVersion := by
  constructor
  · intro h
    unfold resolveJob at h
    split at h
    · cases h
    next registration hregistration =>
    split at h
    · cases h
    next hqueue =>
    split at h
    · cases h
    next found hfound =>
    split at h
    · cases h
    next read hread =>
    split at h
    · cases h
    next hversion =>
    obtain ⟨rfl, rfl⟩ := Prod.mk.inj (Except.ok.inj h)
    exact ⟨registration, hregistration, not_not.mp hqueue, hfound, hread, not_not.mp hversion⟩
  · rintro ⟨registration, hregistration, hqueue, hfound, hread, hversion⟩
    simp [resolveJob, hregistration, hqueue, hfound, hread, hversion]

theorem resolveJob_permanent (h : processor.resolveJob job = .error error) :
    error.isPermanent = true := by
  unfold resolveJob at h
  split at h
  · exact Except.error.inj h ▸ rfl
  split at h
  · exact Except.error.inj h ▸ rfl
  split at h
  · exact Except.error.inj h ▸ rfl
  split at h
  · exact Except.error.inj h ▸ rfl
  split at h
  · exact Except.error.inj h ▸ rfl
  · cases h

end QueueProcessor

end NestApi
