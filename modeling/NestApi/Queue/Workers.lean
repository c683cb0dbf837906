import NestApi.Queue.Processor

/-!
# Workers at a queue

Any number of processes, of any releases, take jobs from one queue. A worker locks the job that
it takes. A process that dies or hangs loses the lock, and the job stalls: it is given to another
worker or fails. A worker that has lost its lock goes on, but settles nothing.
-/

namespace NestApi

variable {W I D F : Type}

/-! ### Jobs in Redis -/

/-- A job with its counters. Since it was added it was taken `attemptsStarted` times, and put back
by hand `retries` times. -/
structure StoredJob (D : Type) where
  name : String
  data : D
  attempts : Option ℕ
  backoff : BackoffOptions
  state : JobState
  lock : Option ℕ := none
  attemptsMade : ℕ := 0
  attemptsStarted : ℕ := 0
  stalledCounter : ℕ := 0
  retries : ℕ := 0

namespace StoredJob

/-- The job as a worker is handed it. -/
def handedOut (job : StoredJob D) (id : String) : Job D :=
  ⟨some id, job.name, job.data, job.attemptsMade, job.attempts⟩

/-- `shouldRetryJob` of BullMQ. A job without `attempts` has none. -/
def shouldRetryJob (job : StoredJob D) (error : JobError) (discarded : Bool) : Bool :=
  job.attemptsMade + 1 < job.attempts.getD 0 && !discarded && !error.isUnrecoverable

/-- What BullMQ makes of a job whose processor has ended. -/
def settled (job : StoredJob D) (discarded : Bool) (result : Except JobError JobOutcome) :
    StoredJob D :=
  { job with
    attemptsMade := job.attemptsMade + 1
    lock := none
    state :=
      match result with
      | .ok _ => .completed
      | .error error =>
        if job.shouldRetryJob error discarded then
          if job.backoff.delay = 0 then .waiting else .delayed
        else .failed }

end StoredJob

/-! ### Attempts -/

/-- A worker at a job. -/
structure Attempt (W I D F : Type) where
  worker : W
  id : String
  job : Job D
  step : ProcessStep I F

/-- How `process` has ended, if it has. -/
def ProcessStep.result : ProcessStep I F → Option (Except JobError JobOutcome)
  | .handling .. => none
  | .returned outcome => some (.ok outcome)
  | .threw error => some (.error error)

/-- The queue, the attempts by their tokens, and the log with the latest line first. -/
structure WorkersState (W I D F : Type) where
  jobs : String → Option (StoredJob D) := fun _ => none
  attempts : ℕ → Option (Attempt W I D F) := fun _ => none
  tokens : ℕ := 0
  log : List (ℕ × QueueLifecycleRecord) := []

/-- Something happens. Durations are those that the processor measures. -/
inductive WorkersAction (W D : Type)
  /-- A producer or a schedule adds a job. A taken id adds nothing. -/
  | add (id name : String) (data : D) (attempts : Option ℕ) (backoff : BackoffOptions)
      (state : JobState)
  /-- A delayed job is due. -/
  | promote (id : String)
  | take (worker : W) (id : String) (durationMilliseconds : ℤ)
  /-- A handler ends. -/
  | handled (token : ℕ) (result : Except JobError JobOutcome) (durationMilliseconds : ℤ)
  /-- A worker tells Redis how a job ended. A handler may have discarded it. -/
  | settle (token : ℕ) (discarded : Bool)
  /-- The process of a worker dies. -/
  | die (token : ℕ)
  /-- A lock is not renewed in time. -/
  | expire (id : String)
  /-- A job without a lock is found, and is moved back or fails. -/
  | stall (id : String) (fails : Bool)
  /-- An operator puts a finished job back. -/
  | retry (id : String)
  /-- A job that nobody works on is cancelled or dropped. -/
  | remove (id : String)

namespace WorkersState

variable (s : WorkersState W I D F)

def setJob (id : String) (job : StoredJob D) : WorkersState W I D F :=
  { s with jobs := Function.update s.jobs id (some job) }

def dropJob (id : String) : WorkersState W I D F :=
  { s with jobs := Function.update s.jobs id none }

/-- The state without an attempt that is over. -/
def dropAttempt (token : ℕ) : WorkersState W I D F :=
  { s with attempts := Function.update s.attempts token none }

/-- The state after a step of a processor, with the line that it logged. -/
def setAttempt (token : ℕ) (attempt : Attempt W I D F) (record : QueueLifecycleRecord) :
    WorkersState W I D F :=
  { s with
    attempts := Function.update s.attempts token (some attempt)
    log := (token, record) :: s.log }

/-- The state in which a job is taken, with a token that was not used before. -/
def takeJob (processor : QueueProcessor I D F) (worker : W) (id : String) (job : StoredJob D)
    (durationMilliseconds : ℤ) : WorkersState W I D F :=
  let entered := processor.enter (job.handedOut id) durationMilliseconds
  { (s.setJob id { job with
      state := .active, lock := some s.tokens
      attemptsStarted := job.attemptsStarted + 1 }).setAttempt s.tokens
      ⟨worker, id, job.handedOut id, entered.2⟩ entered.1 with tokens := s.tokens + 1 }

/-- The state after a worker has told Redis: only the holder of the lock changes the job. -/
def settleJob (token : ℕ) (id : String) (discarded : Bool)
    (result : Except JobError JobOutcome) : WorkersState W I D F :=
  match s.jobs id with
  | some job =>
    if job.lock = some token then s.setJob id (job.settled discarded result) else s
  | none => s

variable (processors : W → QueueProcessor I D F)

/-- What happens, when it can. -/
def exec (s : WorkersState W I D F) : WorkersAction W D → Option (WorkersState W I D F)
  | .add id name data attempts backoff state =>
    if (s.jobs id).isNone ∧ state.isCancellable then
      some (s.setJob id { name, data, attempts, backoff, state })
    else none
  | .promote id => do
    let job ← s.jobs id
    if job.state = .delayed then some (s.setJob id { job with state := .waiting }) else none
  | .take worker id durationMilliseconds => do
    let job ← s.jobs id
    if job.state = .waiting ∨ job.state = .prioritized then
      some (s.takeJob (processors worker) worker id job durationMilliseconds)
    else none
  | .handled token result durationMilliseconds => do
    let attempt ← s.attempts token
    match attempt.step with
    | .handling _ payload _ =>
      let left := (processors attempt.worker).leave attempt.job payload durationMilliseconds result
      some (s.setAttempt token { attempt with step := left.2 } left.1)
    | _ => none
  | .settle token discarded => do
    let attempt ← s.attempts token
    let result ← attempt.step.result
    some ((s.settleJob token attempt.id discarded result).dropAttempt token)
  | .die token => if (s.attempts token).isSome then some (s.dropAttempt token) else none
  | .expire id => do
    let job ← s.jobs id
    if job.state = .active then some (s.setJob id { job with lock := none }) else none
  | .stall id fails => do
    let job ← s.jobs id
    if job.state = .active ∧ job.lock = none then
      some (s.setJob id { job with
        state := if fails then .failed else .waiting
        stalledCounter := job.stalledCounter + 1 })
    else none
  | .retry id => do
    let job ← s.jobs id
    if job.state = .completed ∨ job.state = .failed then
      some (s.setJob id { job with state := .waiting, retries := job.retries + 1 })
    else none
  | .remove id => do
    let job ← s.jobs id
    if job.state ≠ .active then some (s.dropJob id) else none

/-- The latest line about an attempt. -/
def lastLine (token : ℕ) : Option QueueLifecycleRecord :=
  (s.log.find? fun line => line.1 = token).map Prod.snd

/-! ### Reading a state -/

variable {s} {id other : String} {job : StoredJob D} {token fresh : ℕ} {attempt : Attempt W I D F}
  {record : QueueLifecycleRecord}

@[simp] theorem setJob_jobs_self : (s.setJob id job).jobs id = some job := Function.update_self ..

theorem setJob_jobs_of_ne (h : other ≠ id) : (s.setJob id job).jobs other = s.jobs other :=
  Function.update_of_ne h ..

@[simp] theorem dropJob_jobs_self : (s.dropJob id).jobs id = none := Function.update_self ..

theorem dropJob_jobs_of_ne (h : other ≠ id) : (s.dropJob id).jobs other = s.jobs other :=
  Function.update_of_ne h ..

@[simp] theorem dropAttempt_attempts_self : (s.dropAttempt token).attempts token = none :=
  Function.update_self ..

theorem dropAttempt_attempts_of_ne (h : fresh ≠ token) :
    (s.dropAttempt token).attempts fresh = s.attempts fresh := Function.update_of_ne h ..

@[simp] theorem setAttempt_attempts_self :
    (s.setAttempt token attempt record).attempts token = some attempt := Function.update_self ..

theorem setAttempt_attempts_of_ne (h : fresh ≠ token) :
    (s.setAttempt token attempt record).attempts fresh = s.attempts fresh :=
  Function.update_of_ne h ..

@[simp] theorem lastLine_setAttempt (attempt : Attempt W I D F) :
    (s.setAttempt token attempt record).lastLine fresh =
      if token = fresh then some record else s.lastLine fresh := by
  by_cases htoken : token = fresh
  · simp [lastLine, setAttempt, htoken]
  · simp [lastLine, setAttempt, htoken]

section Take

variable {processor : QueueProcessor I D F} {worker : W} {durationMilliseconds : ℤ}

theorem takeJob_jobs : (s.takeJob processor worker id job durationMilliseconds).jobs other =
    if other = id then
      some { job with
        state := .active, lock := some s.tokens, attemptsStarted := job.attemptsStarted + 1 }
    else s.jobs other := Function.update_apply ..

theorem takeJob_attempts : (s.takeJob processor worker id job durationMilliseconds).attempts token =
    if token = s.tokens then
      some ⟨worker, id, job.handedOut id,
        (processor.enter (job.handedOut id) durationMilliseconds).2⟩
    else s.attempts token := Function.update_apply ..

theorem lastLine_takeJob : (s.takeJob processor worker id job durationMilliseconds).lastLine token =
    if s.tokens = token then
      some (processor.enter (job.handedOut id) durationMilliseconds).1
    else s.lastLine token :=
  lastLine_setAttempt ⟨worker, id, job.handedOut id,
    (processor.enter (job.handedOut id) durationMilliseconds).2⟩

end Take

end WorkersState

end NestApi
