import NestApi.Common.Logfmt
import NestApi.Numbers.Decimal

/-!
# The lifecycle log

One line a transition of a job. A record is a closed list of fields; those without a value are
left out of the line.
-/

namespace NestApi

/-! ### Records -/

inductive QueueLifecycleEvent
  | scheduled
  | enqueued
  | started
  | completed
  | retried
  | failed
  | skipped
  | cancelled
  | rescheduled
deriving DecidableEq

def QueueLifecycleEvent.value : QueueLifecycleEvent → Text
  | scheduled => text "scheduled"
  | enqueued => text "enqueued"
  | started => text "started"
  | completed => text "completed"
  | retried => text "retried"
  | failed => text "failed"
  | skipped => text "skipped"
  | cancelled => text "cancelled"
  | rescheduled => text "rescheduled"

structure QueueLifecycleRecord where
  event : QueueLifecycleEvent
  queueName : Text
  jobName : Text
  jobId : Option Text := none
  payloadVersion : Option ℤ := none
  scheduleVersion : Option ℤ := none
  scheduledAt : Option Text := none
  attempt : Option ℤ := none
  maxAttempts : Option ℤ := none
  durationMilliseconds : Option ℤ := none
  reason : Option Text := none
  correlationId : Option Text := none
deriving DecidableEq

/-! ### Lines -/

/-- `String` of an integer. -/
def integerToString (n : ℤ) : Text :=
  if n < 0 then unit '-' :: numberToString n.natAbs else numberToString n.natAbs

/-- The fields of a line, in their order. -/
inductive LifecycleField
  | event
  | queue
  | job
  | jobId
  | payloadVersion
  | scheduleVersion
  | scheduledAt
  | attempt
  | maxAttempts
  | durationMs
  | correlationId
  | reason
deriving DecidableEq

namespace LifecycleField

def all : List LifecycleField :=
  [event, queue, job, jobId, payloadVersion, scheduleVersion, scheduledAt, attempt, maxAttempts,
    durationMs, correlationId, reason]

def key : LifecycleField → Text
  | event => text "event"
  | queue => text "queue"
  | job => text "job"
  | jobId => text "jobId"
  | payloadVersion => text "payloadVersion"
  | scheduleVersion => text "scheduleVersion"
  | scheduledAt => text "scheduledAt"
  | attempt => text "attempt"
  | maxAttempts => text "maxAttempts"
  | durationMs => text "durationMs"
  | correlationId => text "correlationId"
  | reason => text "reason"

/-- What a record has in a field. -/
def value (record : QueueLifecycleRecord) : LifecycleField → Option Text
  | event => some record.event.value
  | queue => some record.queueName
  | job => some record.jobName
  | jobId => record.jobId
  | payloadVersion => record.payloadVersion.map integerToString
  | scheduleVersion => record.scheduleVersion.map integerToString
  | scheduledAt => record.scheduledAt
  | attempt => record.attempt.map integerToString
  | maxAttempts => record.maxAttempts.map integerToString
  | durationMs => record.durationMilliseconds.map integerToString
  | correlationId => record.correlationId
  | reason => record.reason

end LifecycleField

/-- The value of a field that is in the line: not an empty one. -/
def QueueLifecycleRecord.shown (record : QueueLifecycleRecord) (field : LifecycleField) :
    Option Text := (field.value record).filter fun value => value ≠ []

def formatLifecycleRecord (record : QueueLifecycleRecord) : Text :=
  renderLine (LifecycleField.all.filterMap fun field =>
    (record.shown field).map fun value => (field.key, value))

/-! ### Levels -/

inductive LifecycleLogLevel
  | debug
  | info
  | warn
  | error
deriving DecidableEq

/-- `LOG_LEVEL_BY_EVENT`. -/
def QueueLifecycleEvent.level : QueueLifecycleEvent → LifecycleLogLevel
  | started => .debug
  | retried => .warn
  | failed => .error
  | scheduled | enqueued | completed | skipped | cancelled | rescheduled => .info

/-- `record`, for the levels that are enabled. -/
def QueueLifecycleRecord.emit (isLevelEnabled : LifecycleLogLevel → Bool)
    (record : QueueLifecycleRecord) : Option (LifecycleLogLevel × Text) :=
  if isLevelEnabled record.event.level then
    some (record.event.level, formatLifecycleRecord record)
  else none

end NestApi
