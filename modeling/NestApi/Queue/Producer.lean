import Mathlib.Data.Int.Notation
import Mathlib.Logic.Function.Basic
import NestApi.Queue.JobRegistry
import NestApi.Txn.Automaton

/-!
# Rescheduling a job

A queue maps ids to jobs, finished ones included. An `add` under a taken id adds nothing and
answers with that id. A call of `reschedule` gives its commands one at a time; between them the
workers and other producers use the queue, and a process that dies gives no further command.
-/

namespace NestApi

/-! ### The queue -/

inductive JobState
  | waiting
  | delayed
  | prioritized
  | waitingChildren
  | active
  | completed
  | failed
deriving DecidableEq

namespace JobState

/-- `CANCELLABLE_JOB_STATES`. -/
def isCancellable : JobState → Bool
  | waiting | delayed | prioritized | waitingChildren => true
  | active | completed | failed => false

/-- What a worker may make of a job. A finished job can be put back to be tried again. -/
def canBecome : JobState → JobState → Bool
  | active, new => new ≠ active
  | completed, new | failed, new => new.isCancellable
  | _, new => new.isCancellable || new = active

end JobState

/-- A payload: the common fields and those of its job type. -/
structure JobPayload (F : Type) extends BaseJobPayload where
  fields : F
deriving DecidableEq

/-- The work that a job stands for. -/
structure Work (J F : Type) where
  name : J
  data : JobPayload F
deriving DecidableEq

structure QueuedJob (J F : Type) extends Work J F where
  opts : JobsOptions
  state : JobState

/-- The jobs of one queue. -/
abbrev JobQueue (J F : Type) := String → Option (QueuedJob J F)

namespace JobQueue

variable {J F : Type}

/-- `Queue.add`. -/
def add (q : JobQueue J F) (id : String) (job : QueuedJob J F) : JobQueue J F :=
  if (q id).isSome then q else Function.update q id (some job)

def remove (q : JobQueue J F) (id : String) : JobQueue J F := Function.update q id none

end JobQueue

/-! ### The call -/

structure RescheduleOptions extends EnqueueOptions where
  previousJobId : String

structure RescheduleResult where
  jobId : String
  isPreviousJobRemoved : Bool
deriving DecidableEq

/-- The arguments of `reschedule`, with times in milliseconds. -/
structure RescheduleCall (J F : Type) where
  jobName : J
  payload : JobPayload F
  runAt : ℤ
  options : RescheduleOptions

/-- What the caller learns of a command. A refused one did nothing, a lost one took effect. -/
inductive Reply
  | answered
  | refused
  | lost
deriving DecidableEq

/-- The command that a call gives next, or how it ended. -/
inductive ReschedulePhase
  | enqueueing
  | gettingJob (jobId : String)
  | gettingState (jobId : String)
  | removing (jobId : String)
  | returned (result : RescheduleResult)
  | threw
deriving DecidableEq

/-- The queue, the work started since the call began, and the call. -/
structure RescheduleState (J F : Type) where
  jobs : JobQueue J F
  started : List (String × Work J F)
  phase : ReschedulePhase

/-- What workers and other callers do. -/
inductive QueueEvent (J F : Type)
  /-- Another producer adds a job. -/
  | enqueue (id : String) (job : QueuedJob J F)
  /-- A worker starts, finishes or retries a job, or promotes a delayed one. -/
  | move (id : String) (state : JobState)
  /-- Retention drops a finished job. -/
  | evict (id : String)
  /-- Another caller cancels a pending job. -/
  | cancel (id : String)

inductive RescheduleAction (J F : Type)
  /-- `queue.add` at a time, with the id that BullMQ draws when it is given none. -/
  | add (generated : String) (now : ℤ) (reply : Reply)
  /-- `queue.getJob`. -/
  | getJob (reply : Reply)
  /-- `job.getState`. -/
  | getState (reply : Reply)
  /-- `job.remove`. -/
  | remove (reply : Reply)
  | other (event : QueueEvent J F)

namespace RescheduleCall

variable {Q J F : Type} (r : JobRegistry Q J) (toISOString : ℤ → String)
  (c : RescheduleCall J F)

/-- The payload with the instant that it is scheduled for. -/
def payloadWithSchedule : JobPayload F :=
  { c.payload with scheduledAt := some (toISOString c.runAt) }

/-- The replacement. -/
def replacement : Work J F := ⟨c.jobName, c.payloadWithSchedule toISOString⟩

/-- The options of the replacement, enqueued at `now`. -/
def jobOptions (now : ℤ) : JobsOptions :=
  { r.resolveJobOptions c.jobName c.options.toEnqueueOptions with
    delay := some (c.runAt - now).toNat }

/-- The job that `enqueueAt` adds. -/
def job (now : ℤ) : QueuedJob J F where
  toWork := c.replacement toISOString
  opts := c.jobOptions r now
  state := if c.runAt ≤ now then .waiting else .delayed

/-- The id that the caller supplies for the replacement. -/
def jobId? : Option String := (r.resolveJobOptions c.jobName c.options.toEnqueueOptions).jobId

/-- The id of the replacement. -/
def jobId (generated : String) : String := (c.jobId? r).getD generated

variable [DecidableEq J] [DecidableEq F]

/-- Another caller's step. Nobody else cancels the previous job or the replacement. -/
def observe (s : RescheduleState J F) : QueueEvent J F → Option (RescheduleState J F)
  | .enqueue id job =>
    if job.state.isCancellable then some { s with jobs := s.jobs.add id job } else none
  | .move id state => do
    let job ← s.jobs id
    if job.state.canBecome state then
      some { s with
        jobs := Function.update s.jobs id (some { job with state := state })
        started := if state = .active then (id, job.toWork) :: s.started else s.started }
    else none
  | .evict id => do
    let job ← s.jobs id
    if job.state = .completed ∨ job.state = .failed then
      some { s with jobs := s.jobs.remove id }
    else none
  | .cancel id => do
    let job ← s.jobs id
    if job.state.isCancellable ∧ id ≠ c.options.previousJobId ∧
        job.toWork ≠ c.replacement toISOString then
      some { s with jobs := s.jobs.remove id }
    else none

/-- The end of `cancelPending` and of the call. -/
def finish (s : RescheduleState J F) (jobId : String) (isPreviousJobRemoved : Bool) :
    RescheduleState J F :=
  { s with phase := .returned ⟨jobId, isPreviousJobRemoved⟩ }

/-- `reschedule`, one command at a time. -/
def exec (s : RescheduleState J F) : RescheduleAction J F → Option (RescheduleState J F)
  | .add generated now reply =>
    if s.phase ≠ .enqueueing then none
    else if c.jobId? r = some c.options.previousJobId then some { s with phase := .threw }
    -- BullMQ draws an id that no job had before
    else if c.jobId? r = none ∧
        ((s.jobs generated).isSome ∨ generated = c.options.previousJobId) then none
    else
      let jobId := c.jobId r generated
      let added := s.jobs.add jobId (c.job r toISOString now)
      match reply with
      | .answered => some { s with jobs := added, phase := .gettingJob jobId }
      | .refused => some { s with phase := .threw }
      | .lost => some { s with jobs := added, phase := .threw }
  | .getJob reply =>
    match s.phase, reply with
    | .gettingJob jobId, .answered =>
      if (s.jobs c.options.previousJobId).isSome then
        some { s with phase := .gettingState jobId }
      else some (finish s jobId false)
    | .gettingJob _, _ => some { s with phase := .threw }
    | _, _ => none
  | .getState reply =>
    match s.phase, reply with
    | .gettingState jobId, .answered =>
      if (s.jobs c.options.previousJobId).any fun job => job.state.isCancellable then
        some { s with phase := .removing jobId }
      else some (finish s jobId false)
    | .gettingState _, _ => some { s with phase := .threw }
    | _, _ => none
  | .remove reply =>
    match s.phase with
    | .removing jobId =>
      -- an active job is locked, and a failed removal is caught
      if reply = .refused ∨
          (s.jobs c.options.previousJobId).any fun job => job.state = .active then
        some (finish s jobId false)
      else
        some (finish { s with jobs := s.jobs.remove c.options.previousJobId } jobId
          (reply = .answered))
    | _ => none
  | .other event => c.observe toISOString s event

end RescheduleCall

end NestApi
