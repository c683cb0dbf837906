import NestApi.Queue.JobRegistry
import NestApi.Txn.Table

/-!
# Recurring schedules

Redis holds job schedulers, one a queue and id. The worker runtime installs what the registry
declares and removes what it does not.
-/

namespace NestApi

/-! ### The registry -/

inductive RecurringSchedule
  | cron (schedulerId cronExpression timeZone : String)
  | every (schedulerId : String) (everyMilliseconds : ℕ)

def RecurringSchedule.schedulerId : RecurringSchedule → String
  | .cron schedulerId _ _ => schedulerId
  | .every schedulerId _ => schedulerId

/-- `RecurringScheduleRegistration`. The payload is what the factory builds. -/
structure RecurringScheduleRegistration (J : Type) where
  schedule : RecurringSchedule
  jobName : J
  buildPayload : BaseJobPayload

/-- The registries that a release declares. -/
structure ScheduleRegistry (Q J : Type) extends JobRegistry Q J where
  recurringSchedules : List (RecurringScheduleRegistration J)

/-! ### Redis -/

inductive RepeatOptions
  | pattern (pattern tz : String)
  | every (every : ℕ)
deriving DecidableEq

/-- A job scheduler, with the job that it makes. -/
structure JobScheduler (Q J : Type) where
  queueName : Q
  schedulerId : String
  repeatOptions : RepeatOptions
  name : J
  data : BaseJobPayload
  opts : JobsOptions
deriving DecidableEq

namespace JobScheduler

variable {Q J : Type}

/-- The identity of a scheduler in Redis. -/
def key (s : JobScheduler Q J) : Q × String := (s.queueName, s.schedulerId)

/-- A scheduler written over those with its key. -/
def overwrite (s : JobScheduler Q J) : Txn.Rewrite (key (Q := Q) (J := J)) where
  row x := { s with queueName := x.queueName, schedulerId := x.schedulerId }
  key_row _ := rfl

end JobScheduler

/-- The schedulers in Redis. -/
abbrev Schedulers (Q J : Type) := Txn.Table (JobScheduler.key (Q := Q) (J := J))

def RecurringSchedule.repeatOptions : RecurringSchedule → RepeatOptions
  | .cron _ cronExpression timeZone => .pattern cronExpression timeZone
  | .every _ everyMilliseconds => .every everyMilliseconds

namespace Schedulers

variable {Q J : Type} [DecidableEq Q]

/-- `Queue.upsertJobScheduler`. -/
def upsertJobScheduler (t : Schedulers Q J) (s : JobScheduler Q J) : Schedulers Q J :=
  if s.key ∈ t.rows.map JobScheduler.key then t.update [s.key] s.overwrite else t.insert s

/-- `Queue.removeJobScheduler`. -/
def removeJobScheduler (t : Schedulers Q J) (queueName : Q) (schedulerId : String) :
    Schedulers Q J :=
  t.delete [(queueName, schedulerId)]

/-- `listRecurringScheduleIds`. -/
def listRecurringScheduleIds (t : Schedulers Q J) (queueName : Q) : List String :=
  (t.filter fun s => s.queueName = queueName).map JobScheduler.schedulerId

end Schedulers

/-! ### The installer -/

namespace ScheduleRegistry

variable {Q J : Type} (r : ScheduleRegistry Q J)

/-- The scheduler that a registration declares. -/
def declared (registration : RecurringScheduleRegistration J) : JobScheduler Q J where
  queueName := r.queueName registration.jobName
  schedulerId := registration.schedule.schedulerId
  repeatOptions := registration.schedule.repeatOptions
  name := registration.jobName
  data := registration.buildPayload
  opts := r.resolveJobOptions registration.jobName

/-- `REGISTERED_SCHEDULER_IDS`. -/
def registeredSchedulerIds : List String :=
  r.recurringSchedules.map fun registration => registration.schedule.schedulerId

variable {r} in
/-- A declared scheduler's queue and id are registered. -/
theorem declared_registered {reg : RecurringScheduleRegistration J}
    (hreg : reg ∈ r.recurringSchedules) :
    (r.declared reg).queueName ∈ r.registeredQueueNames ∧
      (r.declared reg).schedulerId ∈ r.registeredSchedulerIds :=
  ⟨r.queueName_mem reg.jobName, List.mem_map_of_mem hreg⟩

variable [DecidableEq Q]

/-- `upsertRecurringSchedule`. -/
def upsertRecurringSchedule (t : Schedulers Q J)
    (registration : RecurringScheduleRegistration J) : Schedulers Q J :=
  t.upsertJobScheduler (r.declared registration)

/-- One round of `removeUndeclaredSchedules`. -/
def removeUndeclaredSchedule (queueName : Q) (t : Schedulers Q J) (schedulerId : String) :
    Schedulers Q J :=
  if schedulerId ∈ r.registeredSchedulerIds then t
  else t.removeJobScheduler queueName schedulerId

/-- `removeUndeclaredSchedules`. -/
def removeUndeclaredSchedules (t : Schedulers Q J) : Schedulers Q J :=
  r.registeredQueueNames.foldl (fun t queueName =>
    (t.listRecurringScheduleIds queueName).foldl (r.removeUndeclaredSchedule queueName) t) t

/-- `installDeclaredSchedules`, when Redis answers every command. -/
def installDeclaredSchedules (t : Schedulers Q J) : Schedulers Q J :=
  r.removeUndeclaredSchedules (r.recurringSchedules.foldl r.upsertRecurringSchedule t)

/-- `reconcileNow`. -/
def reconcileNow (t : Schedulers Q J) : Schedulers Q J := r.installDeclaredSchedules t

end ScheduleRegistry

/-! ### This release -/

/-- `buildVersionedPayload`. -/
def buildVersionedPayload (jobName : JobName) : BaseJobPayload where
  payloadVersion := (jobRegistration jobName).payloadVersion

/-- `RECURRING_SCHEDULES`. -/
def recurringSchedules : List (RecurringScheduleRegistration JobName) :=
  [⟨.every "maintenance:queue-heartbeat:v1" (5 * 60 * 1000),
      .maintenanceQueueHeartbeatV1, buildVersionedPayload .maintenanceQueueHeartbeatV1⟩,
    ⟨.cron "auth:refresh-token-retention:v1" "0 0 * * *" "UTC",
      .authRefreshTokenRetentionV1, buildVersionedPayload .authRefreshTokenRetentionV1⟩,
    ⟨.cron "mcp-oauth:payload-retention:v1" "30 0 * * *" "UTC",
      .mcpOAuthPayloadRetentionV1, buildVersionedPayload .mcpOAuthPayloadRetentionV1⟩,
    ⟨.cron "files:cleanup:v1" "*/10 * * * *" "UTC",
      .filesCleanupV1, buildVersionedPayload .filesCleanupV1⟩]

def scheduleRegistry : ScheduleRegistry QueueName JobName where
  toJobRegistry := jobRegistry
  recurringSchedules := recurringSchedules

end NestApi
