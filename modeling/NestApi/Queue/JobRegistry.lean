import Mathlib.Data.List.Basic

/-!
# Queues, jobs and job options

The two registries, and the options with which a job is enqueued. A registry is a parameter of
everything that reads it; `jobRegistry` is the one of this release.
-/

namespace NestApi

/-! ### Policies -/

inductive BackoffStrategy
  | exponential
  | fixed
deriving DecidableEq

structure JobRetryPolicy where
  attempts : ℕ
  backoffStrategy : BackoffStrategy
  initialBackoffMilliseconds : ℕ
deriving DecidableEq

structure JobRetentionPolicy where
  completedCount : ℕ
  completedAgeSeconds : ℕ
  failedCount : ℕ
  failedAgeSeconds : ℕ
deriving DecidableEq

def defaultJobRetryPolicy : JobRetryPolicy := ⟨5, .exponential, 30000⟩

def defaultJobRetentionPolicy : JobRetentionPolicy := ⟨1000, 86400, 5000, 604800⟩

/-! ### Registries -/

structure QueueRegistration where
  retryPolicy : Option JobRetryPolicy := none
  retentionPolicy : Option JobRetentionPolicy := none

structure JobRegistration (Q : Type) where
  queueName : Q
  payloadVersion : ℕ
  retryPolicy : Option JobRetryPolicy := none

/-- The queue registry and the job registry. A job goes to a registered queue. -/
structure JobRegistry (Q J : Type) where
  registeredQueueNames : List Q
  queueRegistration : Q → QueueRegistration
  jobRegistration : J → JobRegistration Q
  queueName_mem : ∀ job, (jobRegistration job).queueName ∈ registeredQueueNames

/-! ### Payloads and options -/

/-- The fields that every job payload has. -/
structure BaseJobPayload where
  payloadVersion : ℕ
  correlationId : Option String := none
  scheduledAt : Option String := none
  scheduleVersion : Option ℕ := none
deriving DecidableEq

structure EnqueueOptions where
  jobId : Option String := none
  retryPolicy : Option JobRetryPolicy := none

structure BackoffOptions where
  type : BackoffStrategy
  delay : ℕ
deriving DecidableEq

/-- How many finished jobs are kept, and for how many seconds. -/
structure KeepJobs where
  count : ℕ
  age : ℕ
deriving DecidableEq

structure JobsOptions where
  attempts : ℕ
  backoff : BackoffOptions
  removeOnComplete : KeepJobs
  removeOnFail : KeepJobs
  jobId : Option String
  delay : Option ℕ
deriving DecidableEq

namespace JobRegistry

variable {Q J : Type} (r : JobRegistry Q J)

/-- The queue of a job. -/
def queueName (jobName : J) : Q := (r.jobRegistration jobName).queueName

def resolveQueueRetryPolicy (queueName : Q) : JobRetryPolicy :=
  (r.queueRegistration queueName).retryPolicy.getD defaultJobRetryPolicy

def resolveQueueRetentionPolicy (queueName : Q) : JobRetentionPolicy :=
  (r.queueRegistration queueName).retentionPolicy.getD defaultJobRetentionPolicy

/-- `resolveJobOptions`: the call site, then the job, then the queue, then the default. -/
def resolveJobOptions (jobName : J) (overrides : EnqueueOptions := {}) : JobsOptions :=
  let registration := r.jobRegistration jobName
  let retryPolicy := (overrides.retryPolicy.or registration.retryPolicy).getD
    (r.resolveQueueRetryPolicy registration.queueName)
  let retentionPolicy := r.resolveQueueRetentionPolicy registration.queueName
  { attempts := retryPolicy.attempts
    backoff := ⟨retryPolicy.backoffStrategy, retryPolicy.initialBackoffMilliseconds⟩
    removeOnComplete := ⟨retentionPolicy.completedCount, retentionPolicy.completedAgeSeconds⟩
    removeOnFail := ⟨retentionPolicy.failedCount, retentionPolicy.failedAgeSeconds⟩
    -- an empty id is no id
    jobId := overrides.jobId.filter fun id => id ≠ ""
    delay := none }

end JobRegistry

/-! ### This release -/

inductive QueueName
  | maintenance
  | notifications
deriving DecidableEq

inductive JobName
  | maintenanceQueueHeartbeatV1
  | authRefreshTokenRetentionV1
  | mcpOAuthPayloadRetentionV1
  | filesCleanupV1
  | userEmailVerificationV1
  | userPasswordResetV1
  | userPasswordChangedNoticeV1
  | userEmailChangedNoticeV1
  | userSignUpAccountExistsV1
  | workspaceInvitationEmailV1
deriving DecidableEq

/-- `JOB_REGISTRATIONS`. -/
def jobRegistration : JobName → JobRegistration QueueName
  | .maintenanceQueueHeartbeatV1 => ⟨.maintenance, 1, some ⟨1, .fixed, 0⟩⟩
  | .authRefreshTokenRetentionV1 => ⟨.maintenance, 1, some ⟨3, .exponential, 60000⟩⟩
  | .mcpOAuthPayloadRetentionV1 => ⟨.maintenance, 1, some ⟨3, .exponential, 60000⟩⟩
  | .filesCleanupV1 => ⟨.maintenance, 1, some ⟨3, .exponential, 30000⟩⟩
  | .userEmailVerificationV1 => { queueName := .notifications, payloadVersion := 1 }
  | .userPasswordResetV1 => { queueName := .notifications, payloadVersion := 1 }
  | .userPasswordChangedNoticeV1 => { queueName := .notifications, payloadVersion := 1 }
  | .userEmailChangedNoticeV1 => { queueName := .notifications, payloadVersion := 1 }
  | .userSignUpAccountExistsV1 => { queueName := .notifications, payloadVersion := 1 }
  | .workspaceInvitationEmailV1 => { queueName := .notifications, payloadVersion := 1 }

/-- `QUEUE_REGISTRATIONS` overrides no policy. -/
def jobRegistry : JobRegistry QueueName JobName where
  registeredQueueNames := [.maintenance, .notifications]
  queueRegistration _ := {}
  jobRegistration := jobRegistration
  queueName_mem job := by cases job <;> decide

end NestApi
