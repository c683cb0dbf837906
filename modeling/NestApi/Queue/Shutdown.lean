import NestApi.Common.ErrorMessage
import NestApi.Queue.HandlerRegistry

/-!
# Stopping a process

On a signal a process drains its workers, closes its context, which ends the pool of database
connections, and flushes telemetry, all within a budget. Signals may come again, jobs may go on,
any step may hang, and the steps that can fail may fail. Times are milliseconds.
-/

namespace NestApi

def shutdownTimeoutMilliseconds : ℕ := 25000

inductive Signal
  | sigterm
  | sigint
deriving DecidableEq

def Signal.value : Signal → String
  | .sigterm => "SIGTERM"
  | .sigint => "SIGINT"

/-- A worker that closes takes no job. It is closed when its last job has ended. -/
inductive WorkerStatus
  | consuming
  | closing
  | closed
deriving DecidableEq

/-- The step of `shutDownGracefully` that is awaited. -/
inductive ShutdownStep
  | draining
  | closing
  | flushing
deriving DecidableEq

/-- A shutdown that goes on: when the signal came, and the step. Its timer fires at the end of
the budget. -/
structure Shutdown where
  since : ℕ
  step : ShutdownStep
deriving DecidableEq

def Shutdown.due (shutdown : Shutdown) : ℕ := shutdown.since + shutdownTimeoutMilliseconds

/-- A call of `process.exit`. -/
structure Exit where
  time : ℕ
  code : ℕ
deriving DecidableEq

/-- The jobs are those that run, by their queues and ids. A query that finds the pool ended is
refused. The log has the latest line first. -/
structure ProcessState where
  now : ℕ := 0
  startedProcessors : List QueueName
  workers : QueueName → WorkerStatus := fun _ => .consuming
  jobs : List (QueueName × String) := []
  isPoolOpen : Bool := true
  refused : List (QueueName × String) := []
  shutdown : Option Shutdown := none
  exited : Option Exit := none
  log : List Text := []

inductive ProcessAction
  | tick (milliseconds : ℕ)
  | signal (signal : Signal)
  | take (queueName : QueueName) (id : String)
  /-- The handler of a job uses the database. -/
  | query (queueName : QueueName) (id : String)
  | finish (queueName : QueueName) (id : String)
  /-- `worker.close()` is settled. -/
  | workerClosed (queueName : QueueName)
  | workerFailed (queueName : QueueName) (error : Caught)
  /-- Every worker is closed, and the context begins to close. -/
  | drained
  | endPool
  /-- `applicationContext.close()` is settled. -/
  | contextClosed
  | contextFailed (error : Caught)
  | flushed
  /-- The timer fires. -/
  | timeout

namespace ProcessState

/-- `onApplicationBootstrap` of the registrar, and the handlers of the signals. -/
def boot (isWorkerEnabled : Bool) (processors : List QueueName) : ProcessState :=
  { startedProcessors := if isWorkerEnabled then processors else [] }

variable (s : ProcessState)

def write (line : Text) : ProcessState := { s with log := line :: s.log }

def exit (code : ℕ) : ProcessState := { s with exited := some ⟨s.now, code⟩ }

def setStep (shutdown : Shutdown) (step : ShutdownStep) : ProcessState :=
  { s with shutdown := some { shutdown with step } }

def setWorker (queueName : QueueName) (status : WorkerStatus) : ProcessState :=
  { s with workers := Function.update s.workers queueName status }

@[simp] theorem setWorker_workers (queueName other : QueueName) (status : WorkerStatus) :
    (s.setWorker queueName status).workers other =
      if other = queueName then status else s.workers other :=
  Function.update_apply ..

def received (signal : Signal) : Text :=
  text (s!"{signal.value} received — draining active jobs " ++
    s!"(up to {shutdownTimeoutMilliseconds}ms)")

def drainingWorkers : Text :=
  text s!"Draining {s.startedProcessors.length} queue worker(s) before shutdown"

def timedOut : Text :=
  text (s!"Shutdown did not finish within {shutdownTimeoutMilliseconds}ms — exiting anyway. " ++
    "Any job still active stays in Redis and is retried once its lock expires.")

variable (errors : ℕ → ErrorObject)

def failed (error : Caught) : Text := text "Shutdown failed: " ++ formatErrorMessage errors error

/-- The part of `drainWorkers` before its first `await`: every worker begins to close. -/
def drainWorkers : ProcessState :=
  if s.startedProcessors = [] then s
  else
    { s with
      workers := fun queueName =>
        if queueName ∈ s.startedProcessors then .closing else s.workers queueName
      log := s.drainingWorkers :: s.log }

theorem drainWorkers_eq : s.drainWorkers = { s with
    workers := fun queueName =>
      if queueName ∈ s.startedProcessors then .closing else s.workers queueName
    log := s.drainWorkers.log } := by
  unfold drainWorkers
  split
  · next hnone =>
    have hworkers : (fun queueName => if queueName ∈ s.startedProcessors then .closing
        else s.workers queueName) = s.workers := by
      funext queueName
      simp [hnone]
    rw [hworkers]
  · rfl

/-- What happens in a process that has not exited, when it can. Time does not pass a timer that
is due. -/
def perform : ProcessAction → Option ProcessState
  | .tick milliseconds =>
    if s.shutdown.all fun shutdown => s.now + milliseconds ≤ shutdown.due then
      some { s with now := s.now + milliseconds }
    else none
  | .signal signal =>
    if s.shutdown.isSome then some s
    else
      some { (s.write (received signal)).drainWorkers with
        shutdown := some ⟨s.now, .draining⟩ }
  | .take queueName id =>
    if queueName ∈ s.startedProcessors ∧ s.workers queueName = .consuming then
      some { s with jobs := (queueName, id) :: s.jobs }
    else none
  | .query queueName id =>
    if (queueName, id) ∈ s.jobs then
      some (if s.isPoolOpen then s else { s with refused := (queueName, id) :: s.refused })
    else none
  | .finish queueName id =>
    if (queueName, id) ∈ s.jobs then some { s with jobs := s.jobs.erase (queueName, id) }
    else none
  | .workerClosed queueName =>
    if s.workers queueName = .closing ∧ ∀ job ∈ s.jobs, job.1 ≠ queueName then
      some (s.setWorker queueName .closed)
    else none
  | .workerFailed queueName error =>
    if s.workers queueName = .closing then some ((s.write (failed errors error)).exit 1)
    else none
  | .drained => do
    let shutdown ← s.shutdown
    if shutdown.step = .draining ∧ ∀ q ∈ s.startedProcessors, s.workers q = .closed then
      let closing := s.setStep shutdown .closing
      some (if s.startedProcessors = [] then closing
        else closing.write (text "Queue workers drained"))
    else none
  | .endPool => do
    let shutdown ← s.shutdown
    if shutdown.step = .closing then some { s with isPoolOpen := false } else none
  | .contextClosed => do
    let shutdown ← s.shutdown
    if shutdown.step = .closing ∧ s.isPoolOpen = false then
      some (s.setStep shutdown .flushing)
    else none
  | .contextFailed error => do
    let shutdown ← s.shutdown
    if shutdown.step = .closing then some ((s.write (failed errors error)).exit 1) else none
  | .flushed => do
    let shutdown ← s.shutdown
    if shutdown.step = .flushing then some ((s.write (text "Shut down cleanly")).exit 0)
    else none
  | .timeout => do
    let shutdown ← s.shutdown
    if shutdown.due ≤ s.now then some ((s.write timedOut).exit 1) else none

/-- Nothing happens in a process that has exited. -/
def exec (s : ProcessState) (action : ProcessAction) : Option ProcessState :=
  if s.exited = none then s.perform errors action else none

end ProcessState

end NestApi
