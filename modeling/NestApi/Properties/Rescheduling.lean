import NestApi.Queue.Producer

/-!
# What a rescheduling keeps

The replacement is enqueued first and the previous job is removed after it. An `add` that lands on
a job kept under the id of the replacement enqueues nothing, and the previous job is removed all
the same.
-/

namespace NestApi

variable {Q J F : Type}

theorem JobState.canBecome_of_isCancellable {old new : JobState} (h : old.isCancellable)
    (hnew : old.canBecome new) : new.isCancellable ∨ new = .active := by
  cases old <;> simp_all [isCancellable, canBecome]

/-- An `add` leaves the jobs that are there. -/
theorem JobQueue.add_of_some {q : JobQueue J F} {id id' : String} {job job' : QueuedJob J F}
    (h : q id = some job) : q.add id' job' id = some job := by
  unfold add
  split
  · exact h
  · next hfree =>
    have hne : id ≠ id' := by
      rintro rfl
      simp [h] at hfree
    rw [Function.update_of_ne hne, h]

/-- An `add` under a free id puts the job there. -/
theorem JobQueue.add_of_none {q : JobQueue J F} {id : String} {job : QueuedJob J F}
    (h : q id = none) : q.add id job id = some job := by
  simp [add, h]

theorem JobQueue.remove_of_ne {q : JobQueue J F} {id id' : String} (h : id ≠ id') :
    q.remove id' id = q id := Function.update_of_ne h _ _

@[simp] theorem JobQueue.remove_self {q : JobQueue J F} {id : String} : q.remove id id = none :=
  Function.update_self _ _ _

namespace RescheduleState

/-- The work under an id is pending, or has started since the call began. -/
def LivesAt (s : RescheduleState J F) (id : String) (work : Work J F) : Prop :=
  (∃ job, s.jobs id = some job ∧ job.state.isCancellable ∧ job.toWork = work) ∨
    (id, work) ∈ s.started

variable {s t : RescheduleState J F} {id : String} {work : Work J F}

/-- Work lives on when its job stays and nothing is struck from the started work. -/
theorem LivesAt.mono (h : s.LivesAt id work)
    (hjobs : ∀ job, s.jobs id = some job → job.state.isCancellable → job.toWork = work →
      t.jobs id = some job)
    (hstarted : ∀ e ∈ s.started, e ∈ t.started) : t.LivesAt id work := by
  rcases h with ⟨job, hjob, hpending, hwork⟩ | h
  · exact .inl ⟨job, hjobs job hjob hpending hwork, hpending, hwork⟩
  · exact .inr (hstarted _ h)

end RescheduleState

/-- The id of the replacement once its `add` is answered. -/
def ReschedulePhase.jobId? : ReschedulePhase → Option String
  | .enqueueing | .threw => none
  | .gettingJob jobId | .gettingState jobId | .removing jobId => some jobId
  | .returned result => some result.jobId

namespace RescheduleCall

open RescheduleState

variable {r : JobRegistry Q J} {toISOString : ℤ → String} {c : RescheduleCall J F}
  {s t : RescheduleState J F} {previous : Work J F}

/-- The previous job or the replacement lives, and the replacement does when the call returns. -/
structure KeepsWork (toISOString : ℤ → String) (c : RescheduleCall J F) (previous : Work J F)
    (s : RescheduleState J F) : Prop where
  either : s.LivesAt c.options.previousJobId previous ∨
    ∃ id, s.LivesAt id (c.replacement toISOString)
  returned : ∀ result, s.phase = .returned result →
    ∃ id, s.LivesAt id (c.replacement toISOString)

/-- An `add` that is answered finds its id free, or the replacement pending or started there. -/
def LandsWell (r : JobRegistry Q J) (toISOString : ℤ → String) (c : RescheduleCall J F)
    (s : RescheduleState J F) : RescheduleAction J F → Prop
  | .add generated _ .answered =>
    c.jobId? r ≠ some c.options.previousJobId → s.jobs (c.jobId r generated) = none ∨
      s.LivesAt (c.jobId r generated) (c.replacement toISOString)
  | _ => True

/-- What holds between two commands of a call. -/
structure Inv (toISOString : ℤ → String) (c : RescheduleCall J F) (previous : Work J F)
    (s : RescheduleState J F) : Prop where
  enqueueing : s.phase = .enqueueing → s.LivesAt c.options.previousJobId previous
  added : ∀ id, s.phase.jobId? = some id →
    id ≠ c.options.previousJobId ∧ s.LivesAt id (c.replacement toISOString)
  threw : s.phase = .threw → s.LivesAt c.options.previousJobId previous ∨
    ∃ id ≠ c.options.previousJobId, s.LivesAt id (c.replacement toISOString)

theorem Inv.keepsWork (h : Inv toISOString c previous s) : KeepsWork toISOString c previous s := by
  constructor
  · cases hphase : s.phase with
    | enqueueing => exact .inl (h.enqueueing hphase)
    | threw => exact (h.threw hphase).imp_right fun ⟨id, _, hid⟩ => ⟨id, hid⟩
    | gettingJob id => exact .inr ⟨id, (h.added id (by simp [hphase, ReschedulePhase.jobId?])).2⟩
    | gettingState id => exact .inr ⟨id, (h.added id (by simp [hphase, ReschedulePhase.jobId?])).2⟩
    | removing id => exact .inr ⟨id, (h.added id (by simp [hphase, ReschedulePhase.jobId?])).2⟩
    | returned result =>
      exact .inr ⟨_, (h.added result.jobId (by simp [hphase, ReschedulePhase.jobId?])).2⟩
  · intro result hphase
    exact ⟨_, (h.added result.jobId (by simp [hphase, ReschedulePhase.jobId?])).2⟩

/-- The state in which a call begins, with its previous job pending. -/
structure Begins (c : RescheduleCall J F) (previous : Work J F) (s : RescheduleState J F) :
    Prop where
  phase : s.phase = .enqueueing
  started : s.started = []
  pending : ∃ job, s.jobs c.options.previousJobId = some job ∧ job.state.isCancellable ∧
    job.toWork = previous

theorem Begins.inv (h : c.Begins previous s) : Inv toISOString c previous s := by
  constructor
  · exact fun _ => .inl h.pending
  · intro id hid
    simp [h.phase, ReschedulePhase.jobId?] at hid
  · intro hp
    simp [h.phase] at hp

/-- A phase after the `add` keeps the invariant while the replacement lives. -/
theorem inv_of_added {id : String} (hphase : t.phase.jobId? = some id)
    (hid : id ≠ c.options.previousJobId) (hlives : t.LivesAt id (c.replacement toISOString)) :
    Inv toISOString c previous t := by
  constructor
  · intro hp
    simp [hp, ReschedulePhase.jobId?] at hphase
  · intro id' hid'
    obtain rfl : id = id' := Option.some.inj (hphase.symm.trans hid')
    exact ⟨hid, hlives⟩
  · intro hp
    simp [hp, ReschedulePhase.jobId?] at hphase

/-- A call that throws keeps the invariant while one of the two jobs lives. -/
theorem inv_of_threw (hphase : t.phase = .threw)
    (hlives : t.LivesAt c.options.previousJobId previous ∨
      ∃ id ≠ c.options.previousJobId, t.LivesAt id (c.replacement toISOString)) :
    Inv toISOString c previous t := by
  constructor
  · intro hp
    simp [hphase] at hp
  · intro id hid
    simp [hphase, ReschedulePhase.jobId?] at hid
  · exact fun _ => hlives

/-- A call may return once its replacement lives. -/
theorem Inv.finish {id : String} {removed : Bool} (hs : Inv toISOString c previous s)
    (hphase : s.phase.jobId? = some id) : Inv toISOString c previous (finish s id removed) := by
  obtain ⟨hne, hlives⟩ := hs.added id hphase
  exact inv_of_added rfl hne hlives

/-- A call may remove the previous job once its replacement lives. -/
theorem Inv.remove {id : String} {removed : Bool} (hs : Inv toISOString c previous s)
    (hphase : s.phase.jobId? = some id) : Inv toISOString c previous
      (RescheduleCall.finish { s with jobs := s.jobs.remove c.options.previousJobId } id
        removed) := by
  obtain ⟨hne, hlives⟩ := hs.added id hphase
  apply inv_of_added rfl hne
  exact hlives.mono (fun job hjob _ _ => (JobQueue.remove_of_ne hne).trans hjob) fun e he => he

/-- A call may throw once its replacement lives. -/
theorem Inv.fail {id : String} (hs : Inv toISOString c previous s)
    (hphase : s.phase.jobId? = some id) :
    Inv toISOString c previous { s with phase := .threw } := by
  obtain ⟨hne, hlives⟩ := hs.added id hphase
  exact inv_of_threw rfl (.inr ⟨id, hne, hlives⟩)

variable [DecidableEq J] [DecidableEq F]

/-- Workers and other callers leave the previous job and the replacement alive. -/
theorem livesAt_observe {e : QueueEvent J F} {id : String} {work : Work J F}
    (h : c.observe toISOString s e = some t) (hs : s.LivesAt id work)
    (hwork : id = c.options.previousJobId ∨ work = c.replacement toISOString) :
    t.LivesAt id work := by
  cases e with
  | enqueue id' job' =>
    simp only [observe, Option.ite_none_right_eq_some, Option.some.injEq] at h
    obtain ⟨-, rfl⟩ := h
    exact hs.mono (fun job hjob _ _ => JobQueue.add_of_some hjob) fun e he => he
  | move id' state =>
    simp only [observe, Option.bind_eq_bind, Option.bind_eq_some_iff,
      Option.ite_none_right_eq_some, Option.some.injEq] at h
    obtain ⟨moved, hmoved, hcan, rfl⟩ := h
    rcases hs with ⟨job, hjob, hpending, hjobWork⟩ | hstarted
    · by_cases hid : id = id'
      · subst hid
        obtain rfl : moved = job := Option.some.inj (hmoved.symm.trans hjob)
        rcases JobState.canBecome_of_isCancellable hpending hcan with hnew | rfl
        · exact .inl ⟨_, Function.update_self _ _ _, hnew, hjobWork⟩
        · refine .inr ?_
          simp [hjobWork]
      · exact .inl ⟨job, (Function.update_of_ne hid _ _).trans hjob, hpending, hjobWork⟩
    · refine .inr ?_
      dsimp only
      split
      · exact List.mem_cons_of_mem _ hstarted
      · exact hstarted
  | evict id' =>
    simp only [observe, Option.bind_eq_bind, Option.bind_eq_some_iff,
      Option.ite_none_right_eq_some, Option.some.injEq] at h
    obtain ⟨gone, hgone, hfinished, rfl⟩ := h
    refine hs.mono (fun job hjob hpending _ => ?_) fun e he => he
    have hne : id ≠ id' := by
      rintro rfl
      obtain rfl : gone = job := Option.some.inj (hgone.symm.trans hjob)
      rcases hfinished with hstate | hstate <;> simp [hstate, JobState.isCancellable] at hpending
    exact (JobQueue.remove_of_ne hne).trans hjob
  | cancel id' =>
    simp only [observe, Option.bind_eq_bind, Option.bind_eq_some_iff,
      Option.ite_none_right_eq_some, Option.some.injEq] at h
    obtain ⟨gone, hgone, ⟨-, hprevious, hother⟩, rfl⟩ := h
    refine hs.mono (fun job hjob _ hjobWork => ?_) fun e he => he
    have hne : id ≠ id' := by
      rintro rfl
      obtain rfl : gone = job := Option.some.inj (hgone.symm.trans hjob)
      rcases hwork with hid | rfl
      · exact hprevious hid
      · exact hother hjobWork
    exact (JobQueue.remove_of_ne hne).trans hjob

theorem phase_observe {e : QueueEvent J F} (h : c.observe toISOString s e = some t) :
    t.phase = s.phase := by
  cases e <;> simp only [observe, Option.bind_eq_bind, Option.bind_eq_some_iff,
    Option.ite_none_right_eq_some, Option.some.injEq] at h <;> grind

/-- Workers and other callers keep the invariant. -/
theorem inv_observe {e : QueueEvent J F} (h : c.observe toISOString s e = some t)
    (hs : Inv toISOString c previous s) : Inv toISOString c previous t := by
  have hphase := phase_observe h
  constructor
  · intro hp
    exact livesAt_observe h (hs.enqueueing (hphase ▸ hp)) (.inl rfl)
  · intro id hid
    obtain ⟨hne, hlives⟩ := hs.added id (hphase ▸ hid)
    exact ⟨hne, livesAt_observe h hlives (.inr rfl)⟩
  · intro hp
    rcases hs.threw (hphase ▸ hp) with hlives | ⟨id, hne, hlives⟩
    · exact .inl (livesAt_observe h hlives (.inl rfl))
    · exact .inr ⟨id, hne, livesAt_observe h hlives (.inr rfl)⟩

/-- The `add` of a call keeps the invariant when it lands well. -/
theorem inv_add {generated : String} {now : ℤ} {reply : Reply}
    (hwell : c.LandsWell r toISOString s (.add generated now reply))
    (h : c.exec r toISOString s (.add generated now reply) = some t)
    (hs : Inv toISOString c previous s) : Inv toISOString c previous t := by
  simp only [exec] at h
  split at h
  · cases h
  next hphase =>
  have hprevious := hs.enqueueing (by simpa using hphase)
  split at h
  · cases h
    exact inv_of_threw rfl (.inl hprevious)
  next hguard =>
  split at h
  · cases h
  next hfresh =>
  have hkept : (⟨s.jobs.add (c.jobId r generated) (c.job r toISOString now), s.started, .threw⟩ :
      RescheduleState J F).LivesAt c.options.previousJobId previous :=
    hprevious.mono (fun job hjob _ _ => JobQueue.add_of_some hjob) fun e he => he
  cases reply with
  | refused =>
    cases h
    exact inv_of_threw rfl (.inl hprevious)
  | lost =>
    cases h
    exact inv_of_threw rfl (.inl hkept)
  | answered =>
    cases h
    have hne : c.jobId r generated ≠ c.options.previousJobId := by
      unfold jobId
      cases hid : c.jobId? r with
      | none =>
        intro heq
        exact hfresh ⟨hid, .inr heq⟩
      | some id =>
        rintro rfl
        exact hguard hid
    refine inv_of_added rfl hne ?_
    rcases hwell hguard with hfree | hlives
    · refine .inl ⟨_, JobQueue.add_of_none hfree, ?_, rfl⟩
      simp only [job]
      split <;> rfl
    · exact hlives.mono (fun job hjob _ _ => JobQueue.add_of_some hjob) fun e he => he

/-- Every action keeps the invariant when an answered `add` lands well. -/
theorem inv_exec {a : RescheduleAction J F} (hwell : c.LandsWell r toISOString s a)
    (hs : Inv toISOString c previous s) (h : c.exec r toISOString s a = some t) :
    Inv toISOString c previous t := by
  cases a with
  | add generated now reply => exact inv_add hwell h hs
  | other event => exact inv_observe h hs
  | getJob reply =>
    simp only [exec] at h
    split at h
    · next id hphase =>
      have hid : s.phase.jobId? = some id := by rw [hphase]; rfl
      obtain ⟨hne, hlives⟩ := hs.added id hid
      split at h <;> cases h
      · exact inv_of_added rfl hne hlives
      · exact hs.finish hid
    · next id hphase _ =>
      cases h
      have hid : s.phase.jobId? = some id := by rw [hphase]; rfl
      exact hs.fail hid
    · cases h
  | getState reply =>
    simp only [exec] at h
    split at h
    · next id hphase =>
      have hid : s.phase.jobId? = some id := by rw [hphase]; rfl
      obtain ⟨hne, hlives⟩ := hs.added id hid
      split at h <;> cases h
      · exact inv_of_added rfl hne hlives
      · exact hs.finish hid
    · next id hphase _ =>
      cases h
      have hid : s.phase.jobId? = some id := by rw [hphase]; rfl
      exact hs.fail hid
    · cases h
  | remove reply =>
    simp only [exec] at h
    split at h
    · next id hphase =>
      have hid : s.phase.jobId? = some id := by rw [hphase]; rfl
      split at h <;> cases h
      · exact hs.finish hid
      · exact hs.remove hid
    · cases h

/-- Wherever a call is cut off, the work is kept if its `add` landed well. -/
theorem reschedule_keepsWork (r : JobRegistry Q J) (toISOString : ℤ → String)
    (c : RescheduleCall J F) (actions : List (RescheduleAction J F))
    (hbegins : c.Begins previous s)
    (hwell : Txn.Along (c.exec r toISOString) (c.LandsWell r toISOString) s actions)
    (hrun : Txn.run (c.exec r toISOString) s actions = some t) :
    c.KeepsWork toISOString previous t :=
  (Txn.run_invariant (P := Inv toISOString c previous)
    (fun _ _ _ hwell hs h => inv_exec hwell hs h) hbegins.inv hwell hrun).keepsWork

/-- The commands of a call that nothing disturbs. -/
def undisturbed (now : ℤ) : List (RescheduleAction J F) :=
  [.add "" now .answered, .getJob .answered, .getState .answered, .remove .answered]

/-- A call with an id that tells the schedule version, as this release builds them. -/
def verificationCall : RescheduleCall JobName String where
  jobName := .userEmailVerificationV1
  payload := ⟨{ payloadVersion := 1, scheduleVersion := some 2 }, "user"⟩
  runAt := 1767225600000
  options :=
    { jobId := some "user.email-verification.user.2"
      previousJobId := "user.email-verification.user.1" }

/-- The pending job that it supersedes. -/
def pendingVerification : QueuedJob JobName String where
  name := .userEmailVerificationV1
  data := ⟨{ payloadVersion := 1, scheduleVersion := some 1 }, "user"⟩
  opts := jobRegistry.resolveJobOptions .userEmailVerificationV1
  state := .delayed

/-- A queue with the pending job, and with another one under the next id. -/
def verificationQueue (other : Option (QueuedJob JobName String)) :
    RescheduleState JobName String where
  jobs id :=
    if id = "user.email-verification.user.1" then some pendingVerification
    else if id = "user.email-verification.user.2" then other
    else none
  started := []
  phase := .enqueueing

/-- A call to its end on a queue where the next id is free. -/
theorem reschedule_keepsWork_verification :
    ∃ t, Txn.run (verificationCall.exec jobRegistry
        fun _ => "2026-01-01T00:00:00.000Z") (verificationQueue none)
        (undisturbed 1767139200000) = some t ∧
      verificationCall.KeepsWork
        (fun _ => "2026-01-01T00:00:00.000Z") pendingVerification.toWork t := by
  refine ⟨_, rfl, reschedule_keepsWork jobRegistry _ _ (undisturbed 1767139200000)
    (s := verificationQueue none) ⟨rfl, rfl, pendingVerification, rfl, rfl, rfl⟩ ?_ rfl⟩
  refine ⟨fun _ => .inl rfl, fun _ _ => Txn.along_of_forall fun _ a ha => ?_⟩
  simp only [List.mem_cons, List.not_mem_nil, or_false] at ha
  rcases ha with rfl | rfl | rfl <;> trivial

/-- A call whose `add` lands on a job that is no replacement, uninterrupted, loses the work. -/
theorem reschedule_loses (r : JobRegistry Q J) (toISOString : ℤ → String)
    (c : RescheduleCall J F) {id : String} (hbegins : c.Begins previous s)
    (hid : c.jobId? r = some id) (hne : id ≠ c.options.previousJobId)
    (htaken : (s.jobs id).isSome)
    (hnone : ∀ id job, s.jobs id = some job → job.toWork ≠ c.replacement toISOString) :
    ∃ t, Txn.run (c.exec r toISOString) s (undisturbed 0) = some t ∧
      t.phase = .returned ⟨id, true⟩ ∧ ¬ t.LivesAt c.options.previousJobId previous ∧
      ∀ id, ¬ t.LivesAt id (c.replacement toISOString) := by
  obtain ⟨jobs, started, phase⟩ := s
  obtain ⟨rfl, rfl, job, hjob, hpending, -⟩ := hbegins
  have hactive : job.state ≠ .active := by
    intro hstate
    simp [hstate, JobState.isCancellable] at hpending
  refine ⟨⟨JobQueue.remove jobs c.options.previousJobId, [], .returned ⟨id, true⟩⟩, ?_, rfl, ?_, ?_⟩
  · simp_all [undisturbed, Txn.run, exec, jobId, JobQueue.add, finish]
  · simp [LivesAt]
  · intro id' hlives
    rcases hlives with ⟨job', hjob', -, hwork⟩ | hstarted
    · by_cases heq : id' = c.options.previousJobId
      · simp [heq] at hjob'
      · exact hnone id' job' ((JobQueue.remove_of_ne heq).symm.trans hjob') hwork
    · exact absurd hstarted List.not_mem_nil

/-- The next id belongs to a job that was completed and is retained. -/
theorem not_keepsWork_retained :
    ¬ ∀ actions t, Txn.run (verificationCall.exec jobRegistry
        fun _ => "2026-01-01T00:00:00.000Z")
        (verificationQueue (some { pendingVerification with state := .completed })) actions =
          some t →
      verificationCall.KeepsWork
        (fun _ => "2026-01-01T00:00:00.000Z") pendingVerification.toWork t := by
  intro hall
  have hother : ∀ id job, (verificationQueue
      (some { pendingVerification with state := .completed })).jobs id = some job →
      job.toWork = pendingVerification.toWork := by
    intro id job hjob
    simp only [verificationQueue] at hjob
    split_ifs at hjob <;> cases hjob <;> rfl
  obtain ⟨t, hrun, hreturned, -, hnone⟩ := reschedule_loses jobRegistry
    (fun _ => "2026-01-01T00:00:00.000Z") verificationCall
    ⟨rfl, rfl, pendingVerification, rfl, rfl, rfl⟩ rfl (by decide) rfl
    (fun id job hjob => by rw [hother id job hjob]; decide)
  obtain ⟨id, hlives⟩ := (hall _ t hrun).returned _ hreturned
  exact hnone id hlives

end RescheduleCall

end NestApi
