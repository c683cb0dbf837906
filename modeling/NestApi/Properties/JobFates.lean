import NestApi.Queue.Workers
import NestApi.Txn.Automaton

/-!
# What the lifecycle log says of a job, and what becomes of it

The lines of an attempt announce what BullMQ will make of the job. They do so on jobs as they were
when they were taken, in any number of processes. The counters of a job bound how often it is
started.
-/

namespace NestApi

open Txn WorkersState

variable {W I D F : Type} {s s' : WorkersState W I D F} {processors : W → QueueProcessor I D F}
  {as : List (WorkersAction W D)} {id : String} {token : ℕ} {job job' : StoredJob D}
  {attempt : Attempt W I D F} {record : QueueLifecycleRecord}

/-! ### One job -/

namespace StoredJob

/-- How many attempts a job may have. -/
def allowed (job : StoredJob D) : ℕ := max 1 (job.attempts.getD 1) + job.retries

/-- What holds of a job: only an active one is locked, every start ended in an attempt made or a
stall, and a job that is not finished has an attempt left. -/
structure Sound (tokens : ℕ) (job : StoredJob D) : Prop where
  lock_lt : ∀ token, job.lock = some token → token < tokens
  lock_active : ∀ token, job.lock = some token → job.state = .active
  started : job.attemptsStarted =
    job.attemptsMade + job.stalledCounter + if job.state = .active then 1 else 0
  made_le : job.attemptsMade ≤ job.allowed
  made_lt : job.state ≠ .completed → job.state ≠ .failed → job.attemptsMade < job.allowed

variable {tokens : ℕ}

theorem Sound.unlocked (h : job.Sound tokens) (hstate : job.state ≠ .active) : job.lock = none := by
  cases hlock : job.lock with
  | none => rfl
  | some token => exact absurd (h.lock_active token hlock) hstate

/-- A job without a lock is sound by its counters. -/
theorem sound_of_unlocked (hlock : job.lock = none)
    (hstarted : job.attemptsStarted =
      job.attemptsMade + job.stalledCounter + if job.state = .active then 1 else 0)
    (hle : job.attemptsMade ≤ job.allowed)
    (hlt : job.state ≠ .completed → job.state ≠ .failed → job.attemptsMade < job.allowed) :
    job.Sound tokens where
  lock_lt token h := by rw [hlock] at h; cases h
  lock_active token h := by rw [hlock] at h; cases h
  started := hstarted
  made_le := hle
  made_lt := hlt

/-- A job that is tried again is not locked or finished, and has attempts left. -/
theorem settled_state (job : StoredJob D) (discarded : Bool)
    (result : Except JobError JobOutcome) :
    (job.settled discarded result).state = .completed ∨
      (job.settled discarded result).state = .failed ∨
        (job.settled discarded result).state.isCancellable = true ∧
          job.attemptsMade + 1 < job.attempts.getD 0 := by
  cases result with
  | ok outcome => exact .inl rfl
  | error error =>
    by_cases hretry : job.shouldRetryJob error discarded
    · simp only [settled, hretry, if_true]
      have hleft : job.attemptsMade + 1 < job.attempts.getD 0 := by
        simp only [shouldRetryJob, Bool.and_eq_true, decide_eq_true_eq] at hretry
        exact hretry.1.1
      refine .inr (.inr ⟨?_, hleft⟩)
      split <;> rfl
    · simp [settled, hretry]

theorem getD_zero_le (attempts : Option ℕ) : attempts.getD 0 ≤ max 1 (attempts.getD 1) := by
  cases attempts with
  | none => exact Nat.zero_le _
  | some n => exact Nat.le_max_right 1 n

theorem Sound.settled (h : job.Sound tokens) (hactive : job.state = .active) (discarded : Bool)
    (result : Except JobError JobOutcome) : (job.settled discarded result).Sound tokens := by
  have hlt := h.made_lt (by simp [hactive]) (by simp [hactive])
  have hstarted := h.started
  rw [if_pos hactive] at hstarted
  have hmade : (job.settled discarded result).attemptsMade = job.attemptsMade + 1 := rfl
  have hallowed : (job.settled discarded result).allowed = job.allowed := rfl
  have hstate := job.settled_state discarded result
  apply sound_of_unlocked rfl
  · have hidle : (job.settled discarded result).state ≠ .active := by
      rcases hstate with hdone | hfailed | ⟨hpending, -⟩
      · simp [hdone]
      · simp [hfailed]
      · intro hact
        rw [hact] at hpending
        cases hpending
    rw [if_neg hidle, hmade]
    have hsame : (job.settled discarded result).attemptsStarted = job.attemptsStarted ∧
        (job.settled discarded result).stalledCounter = job.stalledCounter := ⟨rfl, rfl⟩
    omega
  · omega
  · intro hdone hfailed
    rcases hstate with hdone' | hfailed' | ⟨-, hleft⟩
    · exact absurd hdone' hdone
    · exact absurd hfailed' hfailed
    · have hle := getD_zero_le job.attempts
      rw [hmade, hallowed, allowed]
      omega

end StoredJob

/-! ### The state -/

namespace Attempt

/-- What the last line of an attempt says. -/
def event (attempt : Attempt W I D F) : QueueLifecycleEvent :=
  match attempt.step with
  | .handling .. => .started
  | .returned outcome => outcome.event
  | .threw error => if attempt.job.willRetry error then .retried else .failed

/-- The last line of an attempt is about it and says how far it is. -/
structure Tells (attempt : Attempt W I D F) (record : QueueLifecycleRecord) : Prop where
  event : record.event = attempt.event
  jobId : record.jobId = some (text attempt.job.jobId)
  number : record.attempt = some (attempt.job.attempt : ℤ)
  maxAttempts : record.maxAttempts = some (attempt.job.maxAttempts : ℤ)

/-- A handler is only at work on what the processor has resolved. -/
structure Resolved (processor : QueueProcessor I D F) (attempt : Attempt W I D F) : Prop where
  handling : ∀ handler payload requestId, attempt.step = .handling handler payload requestId →
    processor.resolveJob attempt.job = .ok (handler, payload)
  threw : ∀ error, processor.resolveJob attempt.job = .error error → attempt.step = .threw error

end Attempt

/-- What holds in every state of a run. -/
structure WorkersState.Sound (processors : W → QueueProcessor I D F) (s : WorkersState W I D F) :
    Prop where
  jobs : ∀ id job, s.jobs id = some job → job.Sound s.tokens
  attempt_lt : ∀ token attempt, s.attempts token = some attempt → token < s.tokens
  resolved : ∀ token attempt, s.attempts token = some attempt →
    attempt.Resolved (processors attempt.worker)
  told : ∀ token attempt, s.attempts token = some attempt →
    ∃ record, s.lastLine token = some record ∧ attempt.Tells record
  /-- Who holds the lock of a job has it as it is. -/
  holder : ∀ id job token attempt, s.jobs id = some job → job.lock = some token →
    s.attempts token = some attempt → attempt.id = id ∧ attempt.job = job.handedOut id

namespace WorkersState.Sound

theorem setJob (h : s.Sound processors) (hjob : job.Sound s.tokens) (hlock : job.lock = none) :
    (s.setJob id job).Sound processors where
  jobs other job' hother := by
    by_cases hid : other = id
    · subst hid
      rw [setJob_jobs_self] at hother
      exact Option.some.inj hother ▸ hjob
    · rw [setJob_jobs_of_ne hid] at hother
      exact h.jobs other job' hother
  attempt_lt := h.attempt_lt
  resolved := h.resolved
  told := h.told
  holder other job' token attempt hother hheld hattempt := by
    by_cases hid : other = id
    · subst hid
      rw [setJob_jobs_self] at hother
      obtain rfl := Option.some.inj hother
      rw [hlock] at hheld
      cases hheld
    · rw [setJob_jobs_of_ne hid] at hother
      exact h.holder other job' token attempt hother hheld hattempt

theorem dropJob (h : s.Sound processors) (id : String) : (s.dropJob id).Sound processors := by
  have hjobs : ∀ other job, (s.dropJob id).jobs other = some job → s.jobs other = some job := by
    intro other job hother
    by_cases hid : other = id
    · subst hid
      rw [dropJob_jobs_self] at hother
      cases hother
    · rwa [dropJob_jobs_of_ne hid] at hother
  exact ⟨fun other job hother => h.jobs other job (hjobs other job hother), h.attempt_lt,
    h.resolved, h.told, fun other job token attempt hother =>
      h.holder other job token attempt (hjobs other job hother)⟩

theorem of_dropAttempt {other : ℕ}
    (hattempt : (s.dropAttempt token).attempts other = some attempt) :
    s.attempts other = some attempt := by
  by_cases htoken : other = token
  · rw [htoken, dropAttempt_attempts_self] at hattempt
    cases hattempt
  · rwa [dropAttempt_attempts_of_ne htoken] at hattempt

theorem dropAttempt (h : s.Sound processors) (token : ℕ) :
    (s.dropAttempt token).Sound processors where
  jobs := h.jobs
  attempt_lt other attempt hattempt := h.attempt_lt other attempt (of_dropAttempt hattempt)
  resolved other attempt hattempt := h.resolved other attempt (of_dropAttempt hattempt)
  told other attempt hattempt := h.told other attempt (of_dropAttempt hattempt)
  holder id job other attempt hjob hlock hattempt :=
    h.holder id job other attempt hjob hlock (of_dropAttempt hattempt)

/-- A processor goes on with its attempt. -/
theorem setAttempt (h : s.Sound processors) (hbefore : s.attempts token = some attempt)
    {step : ProcessStep I F}
    (hresolved : ({ attempt with step := step } : Attempt W I D F).Resolved
      (processors attempt.worker))
    (htells : ({ attempt with step := step } : Attempt W I D F).Tells record) :
    (s.setAttempt token { attempt with step := step } record).Sound processors := by
  have hattempts : ∀ other a,
      (s.setAttempt token { attempt with step := step } record).attempts other = some a →
        (other = token ∧ a = { attempt with step := step }) ∨
          (token ≠ other ∧ s.attempts other = some a) := by
    intro other a ha
    by_cases htoken : other = token
    · subst htoken
      rw [setAttempt_attempts_self] at ha
      exact .inl ⟨rfl, (Option.some.inj ha).symm⟩
    · rw [setAttempt_attempts_of_ne htoken] at ha
      exact .inr ⟨Ne.symm htoken, ha⟩
  constructor
  case jobs => exact h.jobs
  case attempt_lt =>
    intro other a ha
    rcases hattempts other a ha with ⟨rfl, -⟩ | ⟨-, ha⟩
    · exact h.attempt_lt other attempt hbefore
    · exact h.attempt_lt other a ha
  case resolved =>
    intro other a ha
    rcases hattempts other a ha with ⟨-, rfl⟩ | ⟨-, ha⟩
    · exact hresolved
    · exact h.resolved other a ha
  case told =>
    intro other a ha
    rw [lastLine_setAttempt]
    rcases hattempts other a ha with ⟨rfl, rfl⟩ | ⟨hne, ha⟩
    · exact ⟨record, if_pos rfl, htells⟩
    · rw [if_neg hne]
      exact h.told other a ha
  case holder =>
    intro id job other a hjob hlock ha
    rcases hattempts other a ha with ⟨rfl, rfl⟩ | ⟨-, ha⟩
    · exact h.holder id job other attempt hjob hlock hbefore
    · exact h.holder id job other a hjob hlock ha

/-- An attempt as it begins. -/
theorem entered (processor : QueueProcessor I D F) (worker : W) (id : String) (job : Job D)
    (durationMilliseconds : ℤ) :
    (⟨worker, id, job, (processor.enter job durationMilliseconds).2⟩ : Attempt W I D F).Resolved
        processor ∧
      (⟨worker, id, job, (processor.enter job durationMilliseconds).2⟩ : Attempt W I D F).Tells
        (processor.enter job durationMilliseconds).1 := by
  cases hresolve : processor.resolveJob job with
  | ok found =>
    obtain ⟨handler, payload⟩ := found
    refine ⟨⟨fun handler' payload' requestId hstep => ?_, fun error herror => ?_⟩, ?_⟩
    · simp only [QueueProcessor.enter, hresolve, ProcessStep.handling.injEq] at hstep
      rw [hresolve, hstep.1, hstep.2.1]
    · rw [hresolve] at herror
      cases herror
    · constructor <;> simp [QueueProcessor.enter, hresolve, Job.payloadRecord, Attempt.event]
  | error error =>
    refine ⟨⟨fun handler payload requestId hstep => ?_, fun error' herror => ?_⟩, ?_⟩
    · simp [QueueProcessor.enter, hresolve] at hstep
    · obtain rfl := Except.error.inj (hresolve.symm.trans herror)
      simp [QueueProcessor.enter, hresolve]
    · constructor <;> simp [QueueProcessor.enter, hresolve, Job.errorRecord, Attempt.event]

/-- A handler ends, and its attempt with it. -/
theorem ended (h : attempt.Resolved (processors attempt.worker)) {handler : I}
    {payload : JobPayload F} {requestId : String}
    (hstep : attempt.step = .handling handler payload requestId) (durationMilliseconds : ℤ)
    (result : Except JobError JobOutcome) :
    ({ attempt with step := ((processors attempt.worker).leave attempt.job payload
        durationMilliseconds result).2 } : Attempt W I D F).Resolved
          (processors attempt.worker) ∧
      ({ attempt with step := ((processors attempt.worker).leave attempt.job payload
        durationMilliseconds result).2 } : Attempt W I D F).Tells
          ((processors attempt.worker).leave attempt.job payload
            durationMilliseconds result).1 := by
  have hresolve := h.handling handler payload requestId hstep
  constructor
  · refine ⟨fun handler' payload' requestId' hstep' => ?_, fun error herror => ?_⟩
    · cases result <;> simp [QueueProcessor.leave] at hstep'
    · rw [hresolve] at herror
      cases herror
  · cases result with
    | ok outcome =>
      constructor <;> simp [QueueProcessor.leave, Job.payloadRecord, Attempt.event]
    | error error =>
      constructor <;> simp [QueueProcessor.leave, Job.errorRecord, Attempt.event]

theorem takeJob (h : s.Sound processors) (hjob : s.jobs id = some job)
    (hidle : job.state ≠ .active) (hcompleted : job.state ≠ .completed)
    (hfailed : job.state ≠ .failed) (worker : W) (durationMilliseconds : ℤ) :
    (s.takeJob (processors worker) worker id job durationMilliseconds).Sound processors := by
  have hsound := h.jobs id job hjob
  obtain ⟨hresolved, htells⟩ := entered (processors worker) worker id (job.handedOut id)
    durationMilliseconds
  have hjobs : ∀ other job',
      (s.takeJob (processors worker) worker id job durationMilliseconds).jobs other = some job' →
        (other = id ∧ job' = { job with
          state := .active, lock := some s.tokens
          attemptsStarted := job.attemptsStarted + 1 }) ∨
        (other ≠ id ∧ s.jobs other = some job') := by
    intro other job' hother
    rw [takeJob_jobs] at hother
    split at hother
    · next hid => exact .inl ⟨hid, (Option.some.inj hother).symm⟩
    · next hid => exact .inr ⟨hid, hother⟩
  have hattempts : ∀ token a,
      (s.takeJob (processors worker) worker id job durationMilliseconds).attempts token = some a →
        (token = s.tokens ∧ a = ⟨worker, id, job.handedOut id,
          ((processors worker).enter (job.handedOut id) durationMilliseconds).2⟩) ∨
        (token < s.tokens ∧ s.attempts token = some a) := by
    intro token a ha
    rw [takeJob_attempts] at ha
    split at ha
    · next htoken => exact .inl ⟨htoken, (Option.some.inj ha).symm⟩
    · exact .inr ⟨h.attempt_lt token a ha, ha⟩
  have htokens : (s.takeJob (processors worker) worker id job durationMilliseconds).tokens =
      s.tokens + 1 := rfl
  constructor
  case jobs =>
    intro other job' hother
    rw [htokens]
    rcases hjobs other job' hother with ⟨-, rfl⟩ | ⟨-, hother⟩
    · have hstarted := hsound.started
      rw [if_neg hidle] at hstarted
      have hlt := hsound.made_lt hcompleted hfailed
      constructor
      case lock_lt =>
        intro token hlock
        obtain rfl := Option.some.inj hlock
        omega
      case lock_active => exact fun _ _ => rfl
      case started =>
        simp only [if_true]
        omega
      case made_le => exact hlt.le
      case made_lt => exact fun _ _ => hlt
    · have hold := h.jobs other job' hother
      exact ⟨fun token hlock => Nat.lt_succ_of_lt (hold.lock_lt token hlock), hold.lock_active,
        hold.started, hold.made_le, hold.made_lt⟩
  case attempt_lt =>
    intro token a ha
    rw [htokens]
    rcases hattempts token a ha with ⟨rfl, -⟩ | ⟨hlt, -⟩
    · exact Nat.lt_succ_self _
    · exact Nat.lt_succ_of_lt hlt
  case resolved =>
    intro token a ha
    rcases hattempts token a ha with ⟨-, rfl⟩ | ⟨-, ha⟩
    · exact hresolved
    · exact h.resolved token a ha
  case told =>
    intro token a ha
    rw [lastLine_takeJob]
    rcases hattempts token a ha with ⟨rfl, rfl⟩ | ⟨hlt, ha⟩
    · exact ⟨_, if_pos rfl, htells⟩
    · rw [if_neg (by omega)]
      exact h.told token a ha
  case holder =>
    intro other job' token a hother hlock ha
    rcases hjobs other job' hother with ⟨rfl, rfl⟩ | ⟨-, hother⟩
    · obtain rfl := Option.some.inj hlock
      rcases hattempts _ a ha with ⟨-, rfl⟩ | ⟨hlt, -⟩
      · exact ⟨rfl, rfl⟩
      · exact absurd hlt (lt_irrefl _)
    · have hlt := (h.jobs other job' hother).lock_lt token hlock
      rcases hattempts token a ha with ⟨rfl, -⟩ | ⟨-, ha⟩
      · exact absurd hlt (lt_irrefl _)
      · exact h.holder other job' token a hother hlock ha

theorem settleJob (h : s.Sound processors) (token : ℕ) (id : String) (discarded : Bool)
    (result : Except JobError JobOutcome) :
    (s.settleJob token id discarded result).Sound processors := by
  unfold WorkersState.settleJob
  split
  · next job hjob =>
    split
    · next hlock =>
      have hsound := h.jobs id job hjob
      exact h.setJob (hsound.settled (hsound.lock_active token hlock) discarded result) rfl
    · exact h
  · exact h

/-- The step: whatever happens keeps the state sound. -/
theorem exec (h : s.Sound processors) (action : WorkersAction W D)
    (hstep : WorkersState.exec processors s action = some s') : s'.Sound processors := by
  cases action with
  | add id name data attempts backoff state =>
    simp only [WorkersState.exec, Option.ite_none_right_eq_some] at hstep
    obtain ⟨⟨-, hpending⟩, hs⟩ := hstep
    obtain rfl := Option.some.inj hs
    have hstate : state ≠ .active := by
      intro hactive
      rw [hactive] at hpending
      cases hpending
    refine h.setJob (StoredJob.sound_of_unlocked rfl ?_ (Nat.zero_le _) fun _ _ => ?_) rfl
    · simp [hstate]
    · exact Nat.lt_of_lt_of_le (by simp) (Nat.le_add_right _ _)
  | promote id =>
    simp only [WorkersState.exec, Option.bind_eq_bind, Option.bind_eq_some_iff,
      Option.ite_none_right_eq_some] at hstep
    obtain ⟨job, hjob, hstate, hs⟩ := hstep
    obtain rfl := Option.some.inj hs
    have hsound := h.jobs id job hjob
    have hlock := hsound.unlocked (by simp [hstate])
    have hstarted := hsound.started
    have hlt := hsound.made_lt (by simp [hstate]) (by simp [hstate])
    refine h.setJob (StoredJob.sound_of_unlocked hlock ?_ hlt.le fun _ _ => hlt) hlock
    simpa [hstate] using hstarted
  | take worker id durationMilliseconds =>
    simp only [WorkersState.exec, Option.bind_eq_bind, Option.bind_eq_some_iff,
      Option.ite_none_right_eq_some] at hstep
    obtain ⟨job, hjob, hstate, hs⟩ := hstep
    obtain rfl := Option.some.inj hs
    apply h.takeJob hjob
    all_goals
      rcases hstate with hwaiting | hprioritized
      · simp [hwaiting]
      · simp [hprioritized]
  | handled token result durationMilliseconds =>
    simp only [WorkersState.exec, Option.bind_eq_bind, Option.bind_eq_some_iff] at hstep
    obtain ⟨attempt, hattempt, hs⟩ := hstep
    cases hphase : attempt.step with
    | handling handler payload requestId =>
      simp only [hphase] at hs
      obtain rfl := Option.some.inj hs
      obtain ⟨hresolved, htells⟩ := ended (h.resolved token attempt hattempt) hphase
        durationMilliseconds result
      exact h.setAttempt hattempt hresolved htells
    | returned outcome => simp [hphase] at hs
    | threw error => simp [hphase] at hs
  | settle token discarded =>
    simp only [WorkersState.exec, Option.bind_eq_bind, Option.bind_eq_some_iff] at hstep
    obtain ⟨attempt, -, result, -, hs⟩ := hstep
    obtain rfl := Option.some.inj hs
    exact (h.settleJob token attempt.id discarded result).dropAttempt token
  | die token =>
    simp only [WorkersState.exec, Option.ite_none_right_eq_some] at hstep
    obtain ⟨-, hs⟩ := hstep
    obtain rfl := Option.some.inj hs
    exact h.dropAttempt token
  | expire id =>
    simp only [WorkersState.exec, Option.bind_eq_bind, Option.bind_eq_some_iff,
      Option.ite_none_right_eq_some] at hstep
    obtain ⟨job, hjob, -, hs⟩ := hstep
    obtain rfl := Option.some.inj hs
    have hsound := h.jobs id job hjob
    exact h.setJob
      (StoredJob.sound_of_unlocked rfl hsound.started hsound.made_le hsound.made_lt) rfl
  | stall id fails =>
    simp only [WorkersState.exec, Option.bind_eq_bind, Option.bind_eq_some_iff,
      Option.ite_none_right_eq_some] at hstep
    obtain ⟨job, hjob, ⟨hstate, hlock⟩, hs⟩ := hstep
    obtain rfl := Option.some.inj hs
    have hsound := h.jobs id job hjob
    have hstarted := hsound.started
    rw [if_pos hstate] at hstarted
    have hlt := hsound.made_lt (by simp [hstate]) (by simp [hstate])
    refine h.setJob (StoredJob.sound_of_unlocked hlock ?_ hlt.le fun _ _ => hlt) hlock
    cases fails with
    | true => simp; omega
    | false => simp; omega
  | retry id =>
    simp only [WorkersState.exec, Option.bind_eq_bind, Option.bind_eq_some_iff,
      Option.ite_none_right_eq_some] at hstep
    obtain ⟨job, hjob, hstate, hs⟩ := hstep
    obtain rfl := Option.some.inj hs
    have hsound := h.jobs id job hjob
    have hidle : job.state ≠ .active := by
      rcases hstate with hcompleted | hfailed
      · simp [hcompleted]
      · simp [hfailed]
    have hlock := hsound.unlocked hidle
    have hstarted := hsound.started
    rw [if_neg hidle] at hstarted
    have hle := hsound.made_le
    simp only [StoredJob.allowed] at hle
    refine h.setJob (StoredJob.sound_of_unlocked hlock ?_ ?_ fun _ _ => ?_) hlock
    · simpa using hstarted
    · simp only [StoredJob.allowed]
      omega
    · simp only [StoredJob.allowed]
      omega
  | remove id =>
    simp only [WorkersState.exec, Option.bind_eq_bind, Option.bind_eq_some_iff,
      Option.ite_none_right_eq_some] at hstep
    obtain ⟨-, -, -, hs⟩ := hstep
    obtain rfl := Option.some.inj hs
    exact h.dropJob id

theorem empty : ({} : WorkersState W I D F).Sound processors where
  jobs _ _ h := by cases h
  attempt_lt _ _ h := by cases h
  resolved _ _ h := by cases h
  told _ _ h := by cases h
  holder _ _ _ _ h := by cases h

/-- The run: every state of it is sound. -/
theorem run (hrun : Txn.run (WorkersState.exec processors) {} as = some s) :
    s.Sound processors :=
  run_induction (P := WorkersState.Sound processors) (fun _ action _ h => h.exec action) empty hrun

end WorkersState.Sound

/-! ### The fate of a job -/

/-- The states that a line announces for the job once it is settled. -/
def QueueLifecycleEvent.Announces : QueueLifecycleEvent → JobState → Prop
  | .completed, state | .skipped, state => state = .completed
  | .retried, state => state.isCancellable = true
  | .failed, state => state = .failed
  | _, _ => False

/-- An error that BullMQ does not try again, although `process` expects it to: the handler has
discarded the job, or has thrown an unrecoverable error that is not a permanent failure. -/
def Unforeseen (discarded : Bool) (result : Except JobError JobOutcome) : Prop :=
  discarded = true ∨ ∃ error, result = .error error ∧ error.isUnrecoverable = true

theorem lt_getD_iff {made : ℕ} {attempts : Option ℕ} :
    made + 1 < attempts.getD 1 ↔ made + 1 < attempts.getD 0 := by
  cases attempts with
  | none => simp
  | some n => rfl

/-- `process` and BullMQ count alike. -/
theorem StoredJob.willRetry_iff {error : JobError} :
    (job.handedOut id).willRetry error = true ↔
      error.isPermanent = false ∧ job.attemptsMade + 1 < job.attempts.getD 0 := by
  rw [← lt_getD_iff, Job.willRetry, Bool.and_eq_true, Bool.not_eq_true', decide_eq_true_eq]
  rfl

theorem StoredJob.shouldRetryJob_iff (job : StoredJob D) {error : JobError} {discarded : Bool} :
    job.shouldRetryJob error discarded = true ↔
      job.attemptsMade + 1 < job.attempts.getD 0 ∧ ¬ Unforeseen discarded (.error error) := by
  simp [shouldRetryJob, Unforeseen, and_assoc]

theorem StoredJob.settled_announced (discarded : Bool) {result : Except JobError JobOutcome}
    (hjob : attempt.job = job.handedOut id) (hresult : attempt.step.result = some result) :
    attempt.event.Announces (job.settled discarded result).state ↔
      ¬ (attempt.event = .retried ∧ Unforeseen discarded result) := by
  cases hstep : attempt.step with
  | handling handler payload requestId =>
    rw [hstep] at hresult
    cases hresult
  | returned outcome =>
    rw [hstep] at hresult
    obtain rfl := Option.some.inj hresult
    have hevent : attempt.event = outcome.event := by simp [Attempt.event, hstep]
    rw [hevent]
    have hstate : (job.settled discarded (.ok outcome)).state = .completed := rfl
    rw [hstate]
    unfold JobOutcome.event
    cases outcome.status <;> simp [QueueLifecycleEvent.Announces]
  | threw error =>
    rw [hstep] at hresult
    obtain rfl := Option.some.inj hresult
    by_cases hretry : (job.handedOut id).willRetry error
    · have hevent : attempt.event = .retried := by simp [Attempt.event, hstep, hjob, hretry]
      have hleft := (willRetry_iff.mp hretry).2
      have hshould : job.shouldRetryJob error discarded = true ↔ _ := job.shouldRetryJob_iff
      rw [hevent, eq_self, true_and]
      by_cases hunforeseen : Unforeseen discarded (.error error)
      · have hstate : (job.settled discarded (.error error)).state = .failed := by
          simp [settled, hshould, hunforeseen]
        simp [QueueLifecycleEvent.Announces, hstate, hunforeseen, JobState.isCancellable]
      · refine iff_of_true ?_ hunforeseen
        simp only [QueueLifecycleEvent.Announces, settled,
          if_pos (hshould.mpr ⟨hleft, hunforeseen⟩)]
        split <;> rfl
    · have hevent : attempt.event = .failed := by simp [Attempt.event, hstep, hjob, hretry]
      have hshould : ¬ job.shouldRetryJob error discarded = true := by
        rw [shouldRetryJob_iff]
        rintro ⟨hleft, hforeseen⟩
        refine hretry (willRetry_iff.mpr ⟨?_, hleft⟩)
        rw [Bool.eq_false_iff]
        intro hpermanent
        exact hforeseen (Or.inr ⟨error, rfl, error.isUnrecoverable_of_isPermanent hpermanent⟩)
      have hstate : (job.settled discarded (.error error)).state = .failed := by
        simp [settled, hshould]
      simp [hevent, hstate, QueueLifecycleEvent.Announces]

theorem settle_eq (processors : W → QueueProcessor I D F)
    {result : Except JobError JobOutcome} (discarded : Bool)
    (hattempt : s.attempts token = some attempt) (hresult : attempt.step.result = some result)
    (hjob : s.jobs attempt.id = some job) (hlock : job.lock = some token) :
    ∃ s', exec processors s (.settle token discarded) = some s' ∧
      s'.jobs attempt.id = some (job.settled discarded result) := by
  refine ⟨(s.settleJob token attempt.id discarded result).dropAttempt token, ?_, ?_⟩
  · simp [exec, hattempt, hresult]
  · simp [settleJob, hjob, hlock, dropAttempt]

/-- A worker of this release at its maintenance queue. -/
def sampleProcessors (_ : Unit) : QueueProcessor Unit ℕ Unit where
  release := release
  queueName := "maintenance"
  findByJobName _ := some ()
  readPayload _ version := .ok { payloadVersion := version, fields := () }

/-- A job of three attempts is added and taken. -/
def samplePrefix (version : ℕ) : List (WorkersAction Unit ℕ) :=
  [.add "j" "files.cleanup.v1" version (some 3) ⟨.exponential, 30000⟩ .waiting, .take () "j" 0]

/-- In every state of every run, whatever releases the workers are of: a handler is at work only
on a job that its own release has on the queue, and on a payload of that version. A job that its
worker cannot resolve is logged as failed and fails at once, whatever attempts it has left. -/
theorem handlers_run_on_resolved_jobs (hrun : run (exec processors) {} as = some s)
    (hattempt : s.attempts token = some attempt) :
    (∀ handler payload requestId, attempt.step = .handling handler payload requestId →
      ∃ registration,
        (processors attempt.worker).release.jobRegistration attempt.job.name =
          some registration ∧
        registration.queueName = (processors attempt.worker).queueName ∧
        (processors attempt.worker).findByJobName attempt.job.name = some handler ∧
        (processors attempt.worker).readPayload handler attempt.job.data = .ok payload ∧
        payload.payloadVersion = registration.payloadVersion) ∧
      ∀ error, (processors attempt.worker).resolveJob attempt.job = .error error →
        (∃ record, s.lastLine token = some record ∧ record.event = .failed) ∧
          ∀ job discarded, s.jobs attempt.id = some job → job.lock = some token →
            ∃ s' job', exec processors s (.settle token discarded) = some s' ∧
              s'.jobs attempt.id = some job' ∧ job'.state = .failed := by
  have hsound := WorkersState.Sound.run hrun
  have hresolved := hsound.resolved token attempt hattempt
  refine ⟨fun handler payload requestId hstep => ?_, fun error herror => ⟨?_, ?_⟩⟩
  · exact QueueProcessor.resolveJob_eq_ok.mp
      (hresolved.handling handler payload requestId hstep)
  · obtain ⟨record, hline, htells⟩ := hsound.told token attempt hattempt
    have hpermanent := QueueProcessor.resolveJob_permanent herror
    refine ⟨record, hline, htells.event.trans ?_⟩
    simp [Attempt.event, hresolved.threw error herror, Job.willRetry, hpermanent]
  · intro job discarded hjob hlock
    have hpermanent := QueueProcessor.resolveJob_permanent herror
    have hresult : attempt.step.result = some (.error error) := by
      rw [hresolved.threw error herror]
      rfl
    obtain ⟨s', hsettle, hjob'⟩ := settle_eq processors discarded hattempt hresult hjob hlock
    refine ⟨s', _, hsettle, hjob', ?_⟩
    simp [StoredJob.settled, StoredJob.shouldRetryJob,
      error.isUnrecoverable_of_isPermanent hpermanent]

/-- A worker meets the payload of a newer release. -/
theorem handlers_run_on_resolved_jobs_newer : ∃ s s' job',
    run (exec sampleProcessors) {} (samplePrefix 2) = some s ∧
    exec sampleProcessors s (.settle 0 false) = some s' ∧ s'.jobs "j" = some job' ∧
    job'.state = .failed := by
  have hsample : ∃ s ∈ run (exec sampleProcessors) {} (samplePrefix 2),
      (∃ attempt ∈ s.attempts 0, attempt.id = "j" ∧
        ((sampleProcessors attempt.worker).resolveJob attempt.job).isOk = false) ∧
      ∃ job ∈ s.jobs "j", job.lock = some 0 := by
    decide +kernel
  obtain ⟨s, hrun, ⟨attempt, hattempt, hid, hunresolved⟩, job, hjob, hlock⟩ := hsample
  rw [← hid] at hjob
  cases hresolve : (sampleProcessors attempt.worker).resolveJob attempt.job with
  | ok found =>
    rw [hresolve] at hunresolved
    cases hunresolved
  | error error =>
    obtain ⟨s', job', hsettle, hjob', hstate⟩ :=
      ((handlers_run_on_resolved_jobs hrun hattempt).2 error hresolve).2 job false hjob hlock
    rw [hid] at hjob'
    exact ⟨s, s', job', hrun, hsettle, hjob', hstate⟩

end NestApi
