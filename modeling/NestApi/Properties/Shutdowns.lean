import NestApi.Queue.Shutdown
import NestApi.Txn.Automaton

/-!
# How a process ends

However signals, jobs and failures fall: the pool of database connections never ends under a job,
a process whose signal has come is gone within the budget, and its exit code tells whether it left
anything undone. Unless a step hangs or fails, the process ends cleanly.
-/

namespace NestApi

open Txn ProcessState

variable {errors : ℕ → ErrorObject} {isWorkerEnabled : Bool} {processors : List QueueName}
  {s s' : ProcessState} {as : List ProcessAction} {shutdown : Shutdown}
  {queueName : QueueName} {job : QueueName × String}

/-! ### What holds in every state -/

namespace ProcessState

/-- What an exit tells, with the last line of the log. -/
inductive Ending (errors : ℕ → ErrorObject) (shutdown : Shutdown) : Option Text → Exit → Prop
  | clean (hstep : shutdown.step = .flushing) (time : ℕ) :
      Ending errors shutdown (some (text "Shut down cleanly")) ⟨time, 0⟩
  | failed (error : Caught) (time : ℕ) :
      Ending errors shutdown (some (failed errors error)) ⟨time, 1⟩
  | timedOut : Ending errors shutdown (some timedOut) ⟨shutdown.due, 1⟩

/-- How far the workers are in a shutdown. -/
def Stopped (s : ProcessState) (shutdown : Shutdown) : Prop :=
  ∀ queueName ∈ s.startedProcessors,
    if shutdown.step = .draining then s.workers queueName ≠ .consuming
    else s.workers queueName = .closed

structure Sound (errors : ℕ → ErrorObject) (s : ProcessState) : Prop where
  consuming : s.shutdown = none → ∀ queueName, s.workers queueName = .consuming
  jobs : ∀ job ∈ s.jobs, job.1 ∈ s.startedProcessors ∧ s.workers job.1 ≠ .closed
  refused : s.refused = []
  pool : s.isPoolOpen = false → ∃ shutdown, s.shutdown = some shutdown ∧ shutdown.step ≠ .draining
  stopped : ∀ shutdown, s.shutdown = some shutdown → s.Stopped shutdown
  flushing : ∀ shutdown, s.shutdown = some shutdown → shutdown.step = .flushing →
    s.isPoolOpen = false
  budget : ∀ shutdown, s.shutdown = some shutdown → shutdown.since ≤ s.now ∧ s.now ≤ shutdown.due
  exited : ∀ exit, s.exited = some exit → exit.time = s.now ∧
    ∃ shutdown, s.shutdown = some shutdown ∧ Ending errors shutdown s.log.head? exit

namespace Sound

theorem boot (isWorkerEnabled : Bool) (processors : List QueueName) :
    (boot isWorkerEnabled processors).Sound errors where
  consuming _ _ := rfl
  jobs _ h := by cases h
  refused := rfl
  pool h := by cases h
  stopped _ h := by cases h
  flushing _ h := by cases h
  budget _ h := by cases h
  exited _ h := by cases h

/-- No job outlives the drain. -/
theorem jobs_eq_nil (h : s.Sound errors) (hshutdown : s.shutdown = some shutdown)
    (hstep : shutdown.step ≠ .draining) : s.jobs = [] := by
  apply List.eq_nil_iff_forall_not_mem.mpr
  intro job hjob
  obtain ⟨hstarted, hopen⟩ := h.jobs job hjob
  have hclosed := h.stopped shutdown hshutdown job.1 hstarted
  rw [if_neg hstep] at hclosed
  exact hopen hclosed

theorem jobs_eq_nil_of_pool (h : s.Sound errors) (hpool : s.isPoolOpen = false) :
    s.jobs = [] := by
  obtain ⟨shutdown, hshutdown, hstep⟩ := h.pool hpool
  exact h.jobs_eq_nil hshutdown hstep

/-! ### One step -/

theorem setNow (h : s.Sound errors) (hexited : s.exited = none) {now : ℕ} (hle : s.now ≤ now)
    (hdue : ∀ shutdown, s.shutdown = some shutdown → now ≤ shutdown.due) :
    { s with now }.Sound errors where
  consuming := h.consuming
  jobs := h.jobs
  refused := h.refused
  pool := h.pool
  stopped := h.stopped
  flushing := h.flushing
  budget shutdown hshutdown :=
    ⟨(h.budget shutdown hshutdown).1.trans hle, hdue shutdown hshutdown⟩
  exited exit hexit := by simp [hexited] at hexit

/-- A signal begins the drain. -/
theorem begin (h : s.Sound errors) (hexited : s.exited = none) (hshutdown : s.shutdown = none)
    (line : Text) :
    { (s.write line).drainWorkers with shutdown := some ⟨s.now, .draining⟩ }.Sound errors := by
  have hpool : s.isPoolOpen = true := by
    by_contra hclosed
    obtain ⟨shutdown, hsome, -⟩ := h.pool (Bool.eq_false_iff.mpr hclosed)
    rw [hshutdown] at hsome
    cases hsome
  rw [drainWorkers_eq]
  constructor
  case consuming =>
    intro hnone
    cases hnone
  case jobs =>
    intro job hjob
    have hstarted : job.1 ∈ s.startedProcessors := (h.jobs job hjob).1
    exact ⟨hstarted, by simp [ProcessState.write, hstarted]⟩
  case refused => exact h.refused
  case pool =>
    intro hclosed
    rw [show s.isPoolOpen = false from hclosed] at hpool
    cases hpool
  case stopped =>
    intro shutdown hsome queueName hmem
    obtain rfl := Option.some.inj hsome
    have hstarted : queueName ∈ s.startedProcessors := hmem
    simp [ProcessState.write, hstarted]
  case flushing =>
    intro shutdown hsome hstep
    obtain rfl := Option.some.inj hsome
    cases hstep
  case budget =>
    intro shutdown hsome
    obtain rfl := Option.some.inj hsome
    exact ⟨le_rfl, Nat.le_add_right _ _⟩
  case exited =>
    intro exit hexit
    have hsome : s.exited = some exit := hexit
    rw [hexited] at hsome
    cases hsome

/-- A worker that still consumes takes a job. -/
theorem take (h : s.Sound errors) (job : QueueName × String)
    (hstarted : job.1 ∈ s.startedProcessors) (hconsuming : s.workers job.1 = .consuming) :
    { s with jobs := job :: s.jobs }.Sound errors :=
  { h with
    jobs := by
      intro other hother
      rcases List.mem_cons.mp hother with rfl | hother
      · refine ⟨hstarted, ?_⟩
        rw [hconsuming]
        decide
      · exact h.jobs other hother }

theorem finish (h : s.Sound errors) (job : QueueName × String) :
    { s with jobs := s.jobs.erase job }.Sound errors :=
  { h with jobs := fun other hother => h.jobs other (List.mem_of_mem_erase hother) }

/-- A worker without jobs is closed. -/
theorem setClosed (h : s.Sound errors) (hclosing : s.workers queueName = .closing)
    (hidle : ∀ job ∈ s.jobs, job.1 ≠ queueName) : (s.setWorker queueName .closed).Sound errors :=
  { h with
    consuming := by
      intro hnone
      rw [h.consuming hnone queueName] at hclosing
      cases hclosing
    jobs := by
      intro job hjob
      have hne := hidle job hjob
      obtain ⟨hstarted, hopen⟩ := h.jobs job hjob
      exact ⟨hstarted, by rwa [setWorker_workers, if_neg hne]⟩
    stopped := by
      intro shutdown hshutdown other hother
      have hstopped := h.stopped shutdown hshutdown other hother
      rw [setWorker_workers]
      by_cases heq : other = queueName
      · simp [heq]
      · rwa [if_neg heq] }

/-- The next step of the sequence begins. -/
theorem setStep (h : s.Sound errors) (hexited : s.exited = none)
    (hshutdown : s.shutdown = some shutdown) {step : ShutdownStep} (hne : step ≠ .draining)
    (hclosed : ∀ queueName ∈ s.startedProcessors, s.workers queueName = .closed)
    (hpool : step = .flushing → s.isPoolOpen = false) :
    (s.setStep shutdown step).Sound errors where
  consuming hnone := by cases hnone
  jobs := h.jobs
  refused := h.refused
  pool _ := ⟨_, rfl, hne⟩
  stopped next hnext queueName hmem := by
    obtain rfl := Option.some.inj hnext
    rw [if_neg hne]
    exact hclosed queueName hmem
  flushing next hnext hstep := by
    obtain rfl := Option.some.inj hnext
    exact hpool hstep
  budget next hnext := by
    obtain rfl := Option.some.inj hnext
    exact h.budget shutdown hshutdown
  exited exit hexit := by simp [ProcessState.setStep, hexited] at hexit

theorem write (h : s.Sound errors) (hexited : s.exited = none) (line : Text) :
    (s.write line).Sound errors :=
  { h with exited := fun exit hexit => by simp [ProcessState.write, hexited] at hexit }

theorem endPool (h : s.Sound errors) (hshutdown : s.shutdown = some shutdown)
    (hstep : shutdown.step ≠ .draining) : { s with isPoolOpen := false }.Sound errors :=
  { h with
    pool := fun _ => ⟨shutdown, hshutdown, hstep⟩
    flushing := fun _ _ _ => rfl }

theorem exit (h : s.Sound errors) (hshutdown : s.shutdown = some shutdown) {line : Text}
    {code : ℕ} (hending : Ending errors shutdown (some line) ⟨s.now, code⟩) :
    ((s.write line).exit code).Sound errors :=
  { h with
    exited := by
      intro exit hexit
      obtain rfl := Option.some.inj hexit
      exact ⟨rfl, shutdown, hshutdown, hending⟩ }

/-- The step: whatever happens keeps the state sound. -/
theorem exec (h : s.Sound errors) (action : ProcessAction)
    (hstep : ProcessState.exec errors s action = some s') : s'.Sound errors := by
  obtain ⟨hexited, hstep⟩ := Option.ite_none_right_eq_some.mp hstep
  cases action with
  | tick milliseconds =>
    simp only [perform, Option.ite_none_right_eq_some, Option.some.injEq, Option.all_eq_true,
      decide_eq_true_eq] at hstep
    obtain ⟨hdue, rfl⟩ := hstep
    exact h.setNow hexited (Nat.le_add_right _ _) hdue
  | signal signal =>
    simp only [perform] at hstep
    cases hshutdown : s.shutdown with
    | some shutdown =>
      simp only [hshutdown, Option.isSome_some, if_true, Option.some.injEq] at hstep
      exact hstep ▸ h
    | none =>
      simp only [hshutdown, Option.isSome_none, Bool.false_eq_true, if_false,
        Option.some.injEq] at hstep
      exact hstep ▸ h.begin hexited hshutdown (received signal)
  | take queueName id =>
    simp only [perform, Option.ite_none_right_eq_some, Option.some.injEq] at hstep
    obtain ⟨⟨hstarted, hconsuming⟩, rfl⟩ := hstep
    exact h.take (queueName, id) hstarted hconsuming
  | query queueName id =>
    simp only [perform, Option.ite_none_right_eq_some, Option.some.injEq] at hstep
    obtain ⟨hjob, rfl⟩ := hstep
    -- A pool that has ended leaves no job that could use it.
    have hopen : s.isPoolOpen = true := by
      by_contra hclosed
      rw [h.jobs_eq_nil_of_pool (Bool.eq_false_iff.mpr hclosed)] at hjob
      cases hjob
    rw [if_pos hopen]
    exact h
  | finish queueName id =>
    simp only [perform, Option.ite_none_right_eq_some, Option.some.injEq] at hstep
    obtain ⟨-, rfl⟩ := hstep
    exact h.finish (queueName, id)
  | workerClosed queueName =>
    simp only [perform, Option.ite_none_right_eq_some, Option.some.injEq] at hstep
    obtain ⟨⟨hclosing, hidle⟩, rfl⟩ := hstep
    exact h.setClosed hclosing hidle
  | workerFailed queueName error =>
    simp only [perform, Option.ite_none_right_eq_some, Option.some.injEq] at hstep
    obtain ⟨hclosing, rfl⟩ := hstep
    cases hshutdown : s.shutdown with
    | none =>
      rw [h.consuming hshutdown queueName] at hclosing
      cases hclosing
    | some shutdown => exact h.exit hshutdown (.failed error _)
  | drained =>
    simp only [perform, Option.bind_eq_bind, Option.bind_eq_some_iff, Option.ite_none_right_eq_some,
      Option.some.injEq] at hstep
    obtain ⟨shutdown, hshutdown, ⟨-, hclosed⟩, rfl⟩ := hstep
    have hnext : (s.setStep shutdown .closing).Sound errors :=
      h.setStep hexited hshutdown (by decide) hclosed (fun heq => absurd heq (by decide))
    split
    · exact hnext
    · exact hnext.write hexited _
  | endPool =>
    simp only [perform, Option.bind_eq_bind, Option.bind_eq_some_iff, Option.ite_none_right_eq_some,
      Option.some.injEq] at hstep
    obtain ⟨shutdown, hshutdown, hclosing, rfl⟩ := hstep
    exact h.endPool hshutdown (by rw [hclosing]; decide)
  | contextClosed =>
    simp only [perform, Option.bind_eq_bind, Option.bind_eq_some_iff, Option.ite_none_right_eq_some,
      Option.some.injEq] at hstep
    obtain ⟨shutdown, hshutdown, ⟨hclosing, hpool⟩, rfl⟩ := hstep
    have hclosed := h.stopped shutdown hshutdown
    simp only [Stopped, hclosing, reduceCtorEq, if_false] at hclosed
    exact h.setStep hexited hshutdown (by decide) hclosed fun _ => hpool
  | contextFailed error =>
    simp only [perform, Option.bind_eq_bind, Option.bind_eq_some_iff, Option.ite_none_right_eq_some,
      Option.some.injEq] at hstep
    obtain ⟨shutdown, hshutdown, -, rfl⟩ := hstep
    exact h.exit hshutdown (.failed error _)
  | flushed =>
    simp only [perform, Option.bind_eq_bind, Option.bind_eq_some_iff, Option.ite_none_right_eq_some,
      Option.some.injEq] at hstep
    obtain ⟨shutdown, hshutdown, hflushing, rfl⟩ := hstep
    exact h.exit hshutdown (.clean hflushing _)
  | timeout =>
    simp only [perform, Option.bind_eq_bind, Option.bind_eq_some_iff, Option.ite_none_right_eq_some,
      Option.some.injEq] at hstep
    obtain ⟨shutdown, hshutdown, hdue, rfl⟩ := hstep
    have hnow : s.now = shutdown.due := by
      have hbudget := h.budget shutdown hshutdown
      omega
    exact h.exit hshutdown (hnow ▸ .timedOut)

theorem run (hrun : run (ProcessState.exec errors) (ProcessState.boot isWorkerEnabled processors)
    as = some s) : s.Sound errors :=
  run_induction (fun _ action _ h hstep => h.exec action hstep) (boot isWorkerEnabled processors)
    hrun

end Sound

/-! ### When the signal came -/

/-- What a step does to the shutdown: a first signal begins it, and then only its step changes. -/
theorem exec_shutdown (action : ProcessAction) (hstep : exec errors s action = some s') :
    s'.shutdown = s.shutdown ∨
      (∃ signal, action = .signal signal ∧ s'.shutdown = some ⟨s.now, .draining⟩) ∧
        s.shutdown = none ∨
      ∃ shutdown step, s.shutdown = some shutdown ∧
        s'.shutdown = some { shutdown with step } := by
  obtain ⟨-, hstep⟩ := Option.ite_none_right_eq_some.mp hstep
  cases action with
  | tick milliseconds =>
    obtain ⟨-, rfl⟩ := by simpa only [perform, Option.ite_none_right_eq_some,
      Option.some.injEq] using hstep
    exact .inl rfl
  | signal signal =>
    simp only [perform] at hstep
    split at hstep
    · exact .inl (Option.some.inj hstep ▸ rfl)
    · next hnone =>
      obtain rfl := Option.some.inj hstep
      exact .inr (.inl ⟨⟨signal, rfl, rfl⟩, Option.not_isSome_iff_eq_none.mp hnone⟩)
  | take queueName id =>
    obtain ⟨-, rfl⟩ := by simpa only [perform, Option.ite_none_right_eq_some,
      Option.some.injEq] using hstep
    exact .inl rfl
  | query queueName id =>
    obtain ⟨-, rfl⟩ := by simpa only [perform, Option.ite_none_right_eq_some,
      Option.some.injEq] using hstep
    left
    split
    · rfl
    · rfl
  | finish queueName id =>
    obtain ⟨-, rfl⟩ := by simpa only [perform, Option.ite_none_right_eq_some,
      Option.some.injEq] using hstep
    exact .inl rfl
  | workerClosed queueName =>
    obtain ⟨-, rfl⟩ := by simpa only [perform, Option.ite_none_right_eq_some,
      Option.some.injEq] using hstep
    exact .inl rfl
  | workerFailed queueName error =>
    obtain ⟨-, rfl⟩ := by simpa only [perform, Option.ite_none_right_eq_some,
      Option.some.injEq] using hstep
    exact .inl rfl
  | drained =>
    obtain ⟨shutdown, hshutdown, -, rfl⟩ := by simpa only [perform, Option.bind_eq_bind,
      Option.bind_eq_some_iff, Option.ite_none_right_eq_some, Option.some.injEq] using hstep
    refine .inr (.inr ⟨shutdown, .closing, hshutdown, ?_⟩)
    split
    · rfl
    · rfl
  | endPool =>
    obtain ⟨-, -, -, rfl⟩ := by simpa only [perform, Option.bind_eq_bind,
      Option.bind_eq_some_iff, Option.ite_none_right_eq_some, Option.some.injEq] using hstep
    exact .inl rfl
  | contextClosed =>
    obtain ⟨shutdown, hshutdown, -, rfl⟩ := by simpa only [perform, Option.bind_eq_bind,
      Option.bind_eq_some_iff, Option.ite_none_right_eq_some, Option.some.injEq] using hstep
    exact .inr (.inr ⟨shutdown, .flushing, hshutdown, rfl⟩)
  | contextFailed error =>
    obtain ⟨-, -, -, rfl⟩ := by simpa only [perform, Option.bind_eq_bind,
      Option.bind_eq_some_iff, Option.ite_none_right_eq_some, Option.some.injEq] using hstep
    exact .inl rfl
  | flushed =>
    obtain ⟨-, -, -, rfl⟩ := by simpa only [perform, Option.bind_eq_bind,
      Option.bind_eq_some_iff, Option.ite_none_right_eq_some, Option.some.injEq] using hstep
    exact .inl rfl
  | timeout =>
    obtain ⟨-, -, -, rfl⟩ := by simpa only [perform, Option.bind_eq_bind,
      Option.bind_eq_some_iff, Option.ite_none_right_eq_some, Option.some.injEq] using hstep
    exact .inl rfl

/-- A shutdown keeps the time of its signal. -/
theorem run_since {since : ℕ} (hsince : ∃ shutdown, s.shutdown = some shutdown ∧
    shutdown.since = since) (hrun : Txn.run (exec errors) s as = some s') :
    ∃ shutdown, s'.shutdown = some shutdown ∧ shutdown.since = since := by
  apply run_induction (P := fun s => ∃ shutdown, s.shutdown = some shutdown ∧
    shutdown.since = since) _ hsince hrun
  rintro s action t ⟨shutdown, hshutdown, hsince⟩ hstep
  rcases exec_shutdown action hstep with hsame | ⟨-, hnone⟩ | ⟨current, step, hcurrent, hnext⟩
  · exact ⟨shutdown, hsame.trans hshutdown, hsince⟩
  · rw [hshutdown] at hnone
    cases hnone
  · obtain rfl := Option.some.inj (hshutdown.symm.trans hcurrent)
    exact ⟨_, hnext, hsince⟩

/-- Nothing shuts down without a signal. -/
theorem run_shutdown_eq_none (hshutdown : s.shutdown = none)
    (hsignal : ∀ signal, ProcessAction.signal signal ∉ as)
    (hrun : Txn.run (exec errors) s as = some s') : s'.shutdown = none := by
  have hallowed : ∀ action ∈ as, ∀ signal, action ≠ .signal signal := by
    rintro action haction signal rfl
    exact hsignal signal haction
  refine run_invariant (P := fun s => s.shutdown = none)
    (G := fun _ action => ∀ signal, action ≠ .signal signal) ?_ hshutdown
    (along_of_forall fun _ => hallowed) hrun
  intro s action t hallowed hnone hstep
  rcases exec_shutdown action hstep with hsame | ⟨⟨signal, heq, -⟩, -⟩ | ⟨_, _, hsome, -⟩
  · rw [hsame, hnone]
  · exact absurd heq (hallowed signal)
  · rw [hnone] at hsome
    cases hsome

/-- A process that has got a signal is within the budget of a shutdown that began by then. -/
theorem Sound.now_le {t : ProcessState} {signal : Signal} (h : s.Sound errors)
    (ht : t.Sound errors)
    (hrun : Txn.run (ProcessState.exec errors) t (.signal signal :: as) = some s) :
    s.now ≤ t.now + shutdownTimeoutMilliseconds := by
  obtain ⟨next, hstep, hrest⟩ := run_cons.mp hrun
  have hbegun : ∃ since ≤ t.now, ∃ shutdown, next.shutdown = some shutdown ∧
      shutdown.since = since := by
    obtain ⟨-, hsignal⟩ := Option.ite_none_right_eq_some.mp hstep
    simp only [perform] at hsignal
    cases hshutdown : t.shutdown with
    | none =>
      simp only [hshutdown, Option.isSome_none, Bool.false_eq_true, if_false] at hsignal
      obtain rfl := Option.some.inj hsignal
      exact ⟨t.now, le_rfl, _, rfl, rfl⟩
    | some shutdown =>
      simp only [hshutdown, Option.isSome_some, if_true, Option.some.injEq] at hsignal
      exact ⟨_, (ht.budget shutdown hshutdown).1, shutdown, hsignal ▸ hshutdown, rfl⟩
  obtain ⟨since, hle, hnext⟩ := hbegun
  obtain ⟨shutdown, hshutdown, rfl⟩ := run_since hnext hrest
  have hbudget := (h.budget shutdown hshutdown).2
  unfold Shutdown.due at hbudget
  omega

/-! ### Going on -/

/-- What is neither a signal nor a failure, and takes no time. -/
def goesOn : ProcessAction → Bool
  | .finish .. | .workerClosed _ | .drained | .endPool | .contextClosed | .flushed => true
  | _ => false

/-- One state leads to another if everything just goes on. -/
def Leads (errors : ℕ → ErrorObject) (s s' : ProcessState) : Prop :=
  ∃ rest, (∀ action ∈ rest, goesOn action = true) ∧ Txn.run (exec errors) s rest = some s'

/-- The process exits cleanly without delay. -/
def Completes (errors : ℕ → ErrorObject) (s : ProcessState) : Prop :=
  ∃ s', Leads errors s s' ∧ s'.exited = some ⟨s.now, 0⟩

theorem Leads.refl : Leads errors s s := by
  refine ⟨[], ?_, rfl⟩
  intro action haction
  cases haction

theorem Leads.step {t : ProcessState} (hexited : s.exited = none) (action : ProcessAction)
    (hstep : s.perform errors action = some t) (hgoes : goesOn action = true)
    (h : Leads errors t s') : Leads errors s s' := by
  obtain ⟨rest, hrest, hrun⟩ := h
  refine ⟨action :: rest, ?_, run_cons.mpr ⟨t, ?_, hrun⟩⟩
  · intro next hnext
    rcases List.mem_cons.mp hnext with rfl | hnext
    · exact hgoes
    · exact hrest next hnext
  · rw [exec, if_pos hexited, hstep]

theorem Leads.completes {t : ProcessState} (h : Leads errors s t) (hnow : t.now = s.now)
    (ht : Completes errors t) : Completes errors s := by
  obtain ⟨rest, hrest, hrun⟩ := h
  obtain ⟨s', ⟨more, hmore, hrun'⟩, hexited⟩ := ht
  refine ⟨s', ⟨rest ++ more, ?_, ?_⟩, hnow ▸ hexited⟩
  · intro action haction
    rcases List.mem_append.mp haction with haction | haction
    · exact hrest action haction
    · exact hmore action haction
  · rw [run_append, hrun]
    exact hrun'

/-- The jobs end, one after another. -/
theorem leads_finish (hexited : s.exited = none) (jobs : List (QueueName × String)) :
    Leads errors { s with jobs } { s with jobs := [] } := by
  induction jobs with
  | nil => exact .refl
  | cons job jobs ih =>
    refine Leads.step hexited (.finish job.1 job.2) ?_ rfl ih
    simp only [perform, List.mem_cons_self, if_true, List.erase_cons_head]

/-- The workers close, one after another. -/
theorem leads_close (errors : ℕ → ErrorObject) (hexited : s.exited = none) (hjobs : s.jobs = []) :
    ∀ queueNames : List QueueName, (∀ q ∈ queueNames, s.workers q ≠ .consuming) →
      ∃ workers, Leads errors s { s with workers } ∧
        (∀ q ∈ queueNames, workers q = .closed) ∧
        ∀ q, s.workers q = .closed → workers q = .closed := by
  intro queueNames
  induction queueNames generalizing s with
  | nil =>
    intro _
    exact ⟨s.workers, .refl, by simp, fun _ => id⟩
  | cons queueName queueNames ih =>
    intro hstopped
    have hrest : ∀ q ∈ queueNames, (s.setWorker queueName .closed).workers q ≠ .consuming := by
      intro q hq
      rw [setWorker_workers]
      split
      · decide
      · exact hstopped q (List.mem_cons_of_mem _ hq)
    obtain ⟨workers, hleads, hclosed, hstays⟩ :=
      ih (s := s.setWorker queueName .closed) hexited hjobs hrest
    refine ⟨workers, ?_, ?_, ?_⟩
    · cases hstatus : s.workers queueName with
      | consuming => exact absurd hstatus (hstopped queueName List.mem_cons_self)
      | closing =>
        refine Leads.step hexited (.workerClosed queueName) ?_ rfl hleads
        simp only [perform, hstatus, hjobs, List.not_mem_nil, false_implies, implies_true,
          and_self, if_true]
      | closed =>
        have hsame : s.setWorker queueName .closed = s := by
          rw [setWorker, ← hstatus, Function.update_eq_self]
        rwa [hsame] at hleads
    · intro q hq
      rcases List.mem_cons.mp hq with rfl | hq
      · apply hstays
        simp
      · exact hclosed q hq
    · intro q hq
      apply hstays
      rw [setWorker_workers]
      split
      · rfl
      · exact hq

theorem completes_of_flushing (hexited : s.exited = none) (hshutdown : s.shutdown = some shutdown)
    (hstep : shutdown.step = .flushing) : Completes errors s := by
  have hflushed : s.perform errors .flushed =
      some ((s.write (text "Shut down cleanly")).exit 0) := by
    simp only [perform, hshutdown, Option.bind_eq_bind, Option.bind_some, if_pos hstep]
  exact ⟨_, .step hexited .flushed hflushed rfl .refl, rfl⟩

theorem completes_of_closing (hexited : s.exited = none) (hshutdown : s.shutdown = some shutdown)
    (hstep : shutdown.step = .closing) : Completes errors s := by
  have hended : s.perform errors .endPool = some { s with isPoolOpen := false } := by
    simp [perform, hshutdown, hstep]
  have hclosed : { s with isPoolOpen := false }.perform errors .contextClosed =
      some ({ s with isPoolOpen := false }.setStep shutdown .flushing) := by
    simp [perform, hshutdown, hstep]
  have hflushing : Completes errors ({ s with isPoolOpen := false }.setStep shutdown .flushing) :=
    completes_of_flushing hexited rfl rfl
  have hleads : Leads errors s ({ s with isPoolOpen := false }.setStep shutdown .flushing) :=
    .step hexited .endPool hended rfl (.step hexited .contextClosed hclosed rfl .refl)
  exact hleads.completes rfl hflushing

/-- The drain: jobs end, workers close, and the rest follows. -/
theorem completes_of_draining (h : s.Sound errors) (hexited : s.exited = none)
    (hshutdown : s.shutdown = some shutdown) (hstep : shutdown.step = .draining) :
    Completes errors s := by
  have hstopped : ∀ q ∈ s.startedProcessors, s.workers q ≠ .consuming := by
    simpa [Stopped, hstep] using h.stopped shutdown hshutdown
  obtain ⟨workers, hleads, hclosed, -⟩ := leads_close errors
    (s := { s with jobs := [] }) hexited rfl s.startedProcessors hstopped
  apply (leads_finish hexited s.jobs).completes rfl
  apply hleads.completes rfl
  have hdrained : { s with jobs := [], workers }.perform errors .drained =
      some (if s.startedProcessors = [] then
        { s with jobs := [], workers }.setStep shutdown .closing
      else ({ s with jobs := [], workers }.setStep shutdown .closing).write
        (text "Queue workers drained")) := by
    simp only [perform, hshutdown, Option.bind_eq_bind, Option.bind_some]
    rw [if_pos ⟨hstep, hclosed⟩]
  split at hdrained
  · exact Leads.completes (.step hexited .drained hdrained rfl .refl) rfl
      (completes_of_closing hexited rfl rfl)
  · exact Leads.completes (.step hexited .drained hdrained rfl .refl) rfl
      (completes_of_closing hexited rfl rfl)

theorem Sound.completes (h : s.Sound errors) (hexited : s.exited = none)
    (hshutdown : s.shutdown = some shutdown) : Completes errors s := by
  cases hstep : shutdown.step with
  | draining => exact completes_of_draining h hexited hshutdown hstep
  | closing => exact completes_of_closing hexited hshutdown hstep
  | flushing => exact completes_of_flushing hexited hshutdown hstep

end ProcessState

/-! ### The results -/

/-- The stop sequence never waits for itself. From every state of a shutdown: once its jobs end and
its workers, its context and telemetry close, the process exits cleanly. -/
theorem stop_sequence_completes
    (hrun : run (exec errors) (boot isWorkerEnabled processors) as = some s)
    (hshutdown : s.shutdown = some shutdown) (hexited : s.exited = none) :
    ∃ rest s', (∀ action ∈ rest, goesOn action = true) ∧
      run (exec errors) s rest = some s' ∧ s'.exited = some ⟨s.now, 0⟩ := by
  obtain ⟨s', ⟨rest, hrest, hrun'⟩, hexit⟩ := (Sound.run hrun).completes hexited hshutdown
  exact ⟨rest, s', hrest, hrun', hexit⟩

/-! ### An orderly stop -/

/-- A job is running when the signal comes, and the process hears it twice. -/
def drainingProcess : List ProcessAction :=
  [.tick 5, .take .maintenance "1", .query .maintenance "1", .signal .sigterm, .tick 40,
    .signal .sigint, .query .maintenance "1", .workerClosed .notifications]

/-- The job ends in time. -/
def stoppedProcess : List ProcessAction :=
  drainingProcess ++ [.finish .maintenance "1", .workerClosed .maintenance, .drained, .endPool,
    .contextClosed, .flushed]

def sampleErrors : ℕ → ErrorObject := fun _ => ⟨[], none, .undefined⟩

theorem stop_sequence_completes_draining :
    ∃ s, run (exec sampleErrors) (boot true [.maintenance, .notifications]) drainingProcess =
      some s ∧ ∃ rest s', run (exec sampleErrors) s rest = some s' ∧
        s'.exited = some ⟨45, 0⟩ := by
  have hsample : ∃ s ∈ run (exec sampleErrors) (boot true [.maintenance, .notifications])
      drainingProcess, s.shutdown = some ⟨5, .draining⟩ ∧ s.exited = none ∧ s.now = 45 := by
    decide +kernel
  obtain ⟨s, hrun, hshutdown, hexited, hnow⟩ := hsample
  obtain ⟨rest, s', -, hrun', hexit⟩ := stop_sequence_completes hrun hshutdown hexited
  exact ⟨s, hrun, rest, s', hrun', hnow ▸ hexit⟩

end NestApi
