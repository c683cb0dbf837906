import NestApi.Queue.Producer
import NestApi.Common.Errors

/-!
# The two ways to cancel a job

An operator cancels a job through the queue administration, other code through the producer.
Both look the job up, ask for its state and remove it, one command at a time. They differ in the
states that they go on from, and in what they make of a removal that fails.
-/

namespace NestApi

variable {J F : Type}

/-- One thing that happens to a queue, when it can. -/
def JobQueue.happen (q : JobQueue J F) : QueueEvent J F → Option (JobQueue J F)
  | .enqueue id job => if job.state.isCancellable then some (q.add id job) else none
  | .move id state => do
    let job ← q id
    if job.state.canBecome state then
      some (Function.update q id (some { job with state := state }))
    else none
  | .evict id => do
    let job ← q id
    if job.state = .completed ∨ job.state = .failed then some (q.remove id) else none
  | .cancel id => do
    let job ← q id
    if job.state.isCancellable then some (q.remove id) else none

/-- What `getState` answers. The state of a job that is gone is `unknown`. -/
inductive ReadState
  | known (state : JobState)
  | unknown
deriving DecidableEq

def JobQueue.getState (q : JobQueue J F) (id : String) : ReadState :=
  match q id with
  | some job => .known job.state
  | none => .unknown

/-- What a cancellation answers: the state is that of the job when it was asked for, and `none`
for a job that was not found. -/
structure CancelResult where
  isCancelled : Bool
  state : Option ReadState
deriving DecidableEq

/-- The command that a cancellation gives next, or how it ended. -/
inductive CancelPhase
  | gettingJob
  | gettingState
  | removing (state : ReadState)
  | returned (result : CancelResult)
  | threw
deriving DecidableEq

/-- The queue and a call. -/
structure CancelState (J F : Type) where
  jobs : JobQueue J F
  phase : CancelPhase

inductive CancelAction (J F : Type)
  /-- `queue.getJob`. -/
  | getJob
  /-- `job.getState`. -/
  | getState
  /-- `job.remove`. -/
  | remove
  | other (event : QueueEvent J F)

/-- One of the two ways: the states that it removes a job in, and how it ends when the removal
fails. -/
structure CancelPath where
  goesOn : ReadState → Bool
  removalFailed : ReadState → CancelPhase

/-- `cancelJob` of the inspection refuses an active job. A removal that fails is not caught. -/
def cancelJob : CancelPath where
  goesOn state := state ≠ .known .active
  removalFailed _ := .threw

/-- `cancelPending` of the producer admits the states of a pending job, and answers with the
first field alone. -/
def cancelPending : CancelPath where
  goesOn
    | .known state => state.isCancellable
    | .unknown => false
  removalFailed state := .returned ⟨false, some state⟩

namespace CancelPath

variable (path : CancelPath) (jobId : String)

/-- A call, one command at a time. -/
def exec (s : CancelState J F) : CancelAction J F → Option (CancelState J F)
  | .getJob =>
    match s.phase with
    | .gettingJob =>
      if (s.jobs jobId).isSome then some { s with phase := .gettingState }
      else some { s with phase := .returned ⟨false, none⟩ }
    | _ => none
  | .getState =>
    match s.phase with
    | .gettingState =>
      let state := s.jobs.getState jobId
      if path.goesOn state then some { s with phase := .removing state }
      else some { s with phase := .returned ⟨false, some state⟩ }
    | _ => none
  | .remove =>
    match s.phase with
    | .removing state =>
      -- an active job is locked
      if s.jobs.getState jobId = .known .active then
        some { s with phase := path.removalFailed state }
      else some ⟨s.jobs.remove jobId, .returned ⟨true, some state⟩⟩
    | _ => none
  | .other event => (s.jobs.happen event).map fun jobs => { s with jobs := jobs }

end CancelPath

/-! ### What the operator is told -/

/-- An entry `queue_job.cancelled` of the audit log. -/
structure CancelledRecord where
  jobId : String
  state : ReadState
deriving DecidableEq

/-- `cancel` of the queue administration, from what `cancelJob` answered. -/
def answerCancel (jobId : String) (result : CancelResult) : Except ApiError CancelledRecord :=
  match result.state with
  | none => .error (Errors.resourceNotFound "Queue job")
  | some state =>
    if result.isCancelled then .ok ⟨jobId, state⟩
    else .error (Errors.resourceConflict "That job is currently running and cannot be cancelled")

end NestApi
