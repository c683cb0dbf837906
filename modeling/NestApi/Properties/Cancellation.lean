import NestApi.Queue.Inspection

/-!
# What a cancellation destroys

A cancellation should take effect at one moment: a pending job is removed and reported
cancelled, any other job is left alone. The operator's way does so unless it gives its removal
for a job that is finished or gone.
-/

namespace NestApi

open Txn

variable {J F : Type} {q : JobQueue J F} {jobId : String} {s t : CancelState J F}

namespace JobQueue

/-- The job has not started. -/
def IsPending (q : JobQueue J F) (id : String) : Prop :=
  ∃ state, q.getState id = .known state ∧ state.isCancellable

/-- The job is kept as history. -/
def IsFinished (q : JobQueue J F) (id : String) : Prop :=
  q.getState id = .known .completed ∨ q.getState id = .known .failed

theorem getState_eq_unknown_iff {id : String} : q.getState id = .unknown ↔ q id = none := by
  unfold getState
  cases q id <;> simp

/-- A job is pending, running, history or gone. -/
theorem state_cases (q : JobQueue J F) (id : String) :
    q.IsPending id ∨ q.getState id = .known .active ∨ q.IsFinished id ∨
      q.getState id = .unknown := by
  unfold IsPending IsFinished
  cases q.getState id with
  | unknown => exact .inr (.inr (.inr rfl))
  | known state => cases state <;> simp [JobState.isCancellable]

theorem not_isPending_of_active {id : String} (h : q.getState id = .known .active) :
    ¬ q.IsPending id := by
  rintro ⟨state, hstate, hpending⟩
  obtain rfl := ReadState.known.inj (h.symm.trans hstate)
  cases hpending

theorem not_isPending_of_isFinished {id : String} (h : q.IsFinished id) : ¬ q.IsPending id := by
  rintro ⟨state, hstate, hpending⟩
  rcases h with h | h
  · obtain rfl := ReadState.known.inj (h.symm.trans hstate)
    cases hpending
  · obtain rfl := ReadState.known.inj (h.symm.trans hstate)
    cases hpending

theorem not_isPending_of_gone {id : String} (h : q.getState id = .unknown) :
    ¬ q.IsPending id := by
  rintro ⟨state, hstate, -⟩
  cases h.symm.trans hstate

end JobQueue

/-! ### One moment -/

/-- The operator is told that the job was cancelled, and the audit log has an entry of it. -/
def CancelPhase.ReportsCancelled (jobId : String) (phase : CancelPhase) : Prop :=
  ∃ result record, phase = .returned result ∧ answerCancel jobId result = .ok record

/-- The call gives no further command. -/
def CancelPhase.IsOver : CancelPhase → Prop
  | .gettingJob | .gettingState | .removing _ => False
  | .returned _ | .threw => True

/-- A cancellation at one moment: a pending job is removed and reported cancelled, and no other
job. -/
structure CancelsAtOnce (jobId : String) (q q' : JobQueue J F) (phase : CancelPhase) : Prop where
  ended : phase.IsOver
  pending : q.IsPending jobId → q' = q.remove jobId ∧ phase.ReportsCancelled jobId
  other : ¬ q.IsPending jobId → q' = q ∧ ¬ phase.ReportsCancelled jobId

/-- A command of a call changes nothing yet, or is the whole cancellation. What others do is no
part of it. -/
def KeepsHistory (path : CancelPath) (jobId : String) (s : CancelState J F) :
    CancelAction J F → Prop
  | .other _ => True
  | a => ∀ t ∈ path.exec jobId s a,
    t.jobs = s.jobs ∧ ¬ t.phase.IsOver ∨ CancelsAtOnce jobId s.jobs t.jobs t.phase

/-- A removal is given for a job that is pending or running. -/
def RemovesUnfinished (jobId : String) (s : CancelState J F) : CancelAction J F → Prop
  | .remove =>
    match s.phase with
    | .removing _ => ¬ s.jobs.IsFinished jobId ∧ s.jobs.getState jobId ≠ .unknown
    | _ => True
  | _ => True

instance (q : JobQueue J F) (id : String) : Decidable (q.IsFinished id) :=
  inferInstanceAs (Decidable (_ ∨ _))

instance : ∀ (s : CancelState J F) (a : CancelAction J F), Decidable (RemovesUnfinished jobId s a)
  | ⟨_, .removing _⟩, .remove => inferInstanceAs (Decidable (_ ∧ _))
  | ⟨_, .gettingJob⟩, .remove | ⟨_, .gettingState⟩, .remove | ⟨_, .returned _⟩, .remove
  | ⟨_, .threw⟩, .remove | _, .getJob | _, .getState | _, .other _ =>
    inferInstanceAs (Decidable True)

@[simp] theorem reportsCancelled_returned {isCancelled : Bool} {state : ReadState} :
    (CancelPhase.returned ⟨isCancelled, some state⟩).ReportsCancelled jobId ↔
      isCancelled = true := by
  cases isCancelled <;> simp [CancelPhase.ReportsCancelled, answerCancel]

@[simp] theorem not_reportsCancelled_notFound {isCancelled : Bool} :
    ¬ (CancelPhase.returned ⟨isCancelled, none⟩).ReportsCancelled jobId := by
  simp [CancelPhase.ReportsCancelled, answerCancel]

@[simp] theorem not_reportsCancelled_threw : ¬ CancelPhase.threw.ReportsCancelled jobId := by
  simp [CancelPhase.ReportsCancelled]

/-- A call may end with nothing done where the job is not pending. -/
theorem cancelsAtOnce_of_refused {phase : CancelPhase} (hover : phase.IsOver)
    (hreport : ¬ phase.ReportsCancelled jobId) (h : ¬ q.IsPending jobId) :
    CancelsAtOnce jobId q q phase :=
  ⟨hover, fun hpending => absurd hpending h, fun _ => ⟨rfl, hreport⟩⟩

/-- A removal that is carried out is a cancellation exactly of a pending job. -/
theorem cancelsAtOnce_removed_iff {state : ReadState} :
    CancelsAtOnce jobId q (q.remove jobId) (.returned ⟨true, some state⟩) ↔
      q.IsPending jobId := by
  constructor
  · intro h
    by_contra hpending
    exact (h.other hpending).2 (reportsCancelled_returned.mpr rfl)
  · intro h
    exact ⟨trivial, fun _ => ⟨rfl, reportsCancelled_returned.mpr rfl⟩, absurd h⟩

/-! ### A call among others -/

/-- A command of `cancelJob` keeps the history unless it is a removal for a job that is finished
or gone. -/
theorem keepsHistory_iff {a : CancelAction J F} :
    KeepsHistory cancelJob jobId s a ↔ RemovesUnfinished jobId s a := by
  cases a with
  | other event => exact Iff.rfl
  | getJob =>
    refine iff_of_true (fun t ht => ?_) trivial
    simp only [CancelPath.exec] at ht
    split at ht
    · split at ht
      · obtain rfl := Option.some.inj ht
        exact .inl ⟨rfl, id⟩
      · next hnone =>
        obtain rfl := Option.some.inj ht
        have hgone : s.jobs.getState jobId = .unknown :=
          JobQueue.getState_eq_unknown_iff.mpr (by simpa using hnone)
        exact .inr (cancelsAtOnce_of_refused trivial not_reportsCancelled_notFound
          (JobQueue.not_isPending_of_gone hgone))
    · cases ht
  | getState =>
    refine iff_of_true (fun t ht => ?_) trivial
    simp only [CancelPath.exec] at ht
    split at ht
    · by_cases hactive : s.jobs.getState jobId = .known .active
      · rw [hactive, if_neg (by simp [cancelJob])] at ht
        obtain rfl := Option.some.inj ht
        exact .inr (cancelsAtOnce_of_refused trivial (by simp)
          (JobQueue.not_isPending_of_active hactive))
      · rw [if_pos (by simp [cancelJob, hactive])] at ht
        obtain rfl := Option.some.inj ht
        exact .inl ⟨rfl, id⟩
    · cases ht
  | remove =>
    cases hphase : s.phase with
    | removing state =>
      by_cases hactive : s.jobs.getState jobId = .known .active
      · -- The removal throws.
        refine iff_of_true (fun t ht => ?_) ?_
        · simp only [CancelPath.exec, hphase, hactive, if_true] at ht
          obtain rfl := Option.some.inj ht
          exact .inr (cancelsAtOnce_of_refused trivial not_reportsCancelled_threw
            (JobQueue.not_isPending_of_active hactive))
        · simp [RemovesUnfinished, hphase, JobQueue.IsFinished, hactive]
      · have hexec : cancelJob.exec jobId s .remove =
            some ⟨s.jobs.remove jobId, .returned ⟨true, some state⟩⟩ := by
          simp only [CancelPath.exec, hphase, hactive, if_false]
        have hkeeps : KeepsHistory cancelJob jobId s .remove ↔ s.jobs.IsPending jobId := by
          simp only [KeepsHistory, hexec, Option.mem_some_iff, forall_eq',
            cancelsAtOnce_removed_iff, CancelPhase.IsOver, not_true_eq_false, and_false, false_or]
        rw [hkeeps, RemovesUnfinished, hphase]
        constructor
        · intro hpending
          exact ⟨fun h => JobQueue.not_isPending_of_isFinished h hpending,
            fun h => JobQueue.not_isPending_of_gone h hpending⟩
        · rintro ⟨hunfinished, hthere⟩
          rcases s.jobs.state_cases jobId with hcase | hcase | hcase | hcase
          · exact hcase
          · exact absurd hcase hactive
          · exact absurd hcase hunfinished
          · exact absurd hcase hthere
    | _ =>
      refine iff_of_true (fun t ht => ?_) ?_
      · simp [CancelPath.exec, hphase] at ht
      · simp [RemovesUnfinished, hphase]

/-! ### A call on its own -/

/-- The command that a call gives next. -/
def CancelPhase.command? : CancelPhase → Option (CancelAction J F)
  | .gettingJob => some .getJob
  | .gettingState => some .getState
  | .removing _ => some .remove
  | .returned _ | .threw => none

/-- A call goes on, with nothing in between, for a number of commands. -/
def CancelPath.goOn (path : CancelPath) (jobId : String) :
    ℕ → CancelState J F → Option (CancelState J F)
  | 0, s => some s
  | n + 1, s =>
    match s.phase.command? with
    | none => some s
    | some a => (path.exec jobId s a).bind (goOn path jobId n)

/-- A whole call gives three commands at most. -/
def CancelPath.alone (path : CancelPath) (jobId : String) (q : JobQueue J F) :
    Option (CancelState J F) :=
  path.goOn jobId 3 ⟨q, .gettingJob⟩

/-- On a queue that nobody else uses, the two ways do the same and report the same. -/
def PathsAgree (jobId : String) (q : JobQueue J F) : Prop :=
  ∃ s t, cancelJob.alone jobId q = some s ∧ cancelPending.alone jobId q = some t ∧
    s.jobs = t.jobs ∧ (s.phase.ReportsCancelled jobId ↔ t.phase.ReportsCancelled jobId)

theorem alone_of_gone (path : CancelPath) (h : q jobId = none) :
    path.alone jobId q = some ⟨q, .returned ⟨false, none⟩⟩ := by
  simp [CancelPath.alone, CancelPath.goOn, CancelPhase.command?, CancelPath.exec, h]

theorem alone_of_refused {path : CancelPath} (hsome : (q jobId).isSome)
    (h : path.goesOn (q.getState jobId) = false) :
    path.alone jobId q = some ⟨q, .returned ⟨false, some (q.getState jobId)⟩⟩ := by
  simp [CancelPath.alone, CancelPath.goOn, CancelPhase.command?, CancelPath.exec, hsome, h]

theorem alone_of_removed {path : CancelPath} (hsome : (q jobId).isSome)
    (h : path.goesOn (q.getState jobId) = true) (hactive : q.getState jobId ≠ .known .active) :
    path.alone jobId q =
      some ⟨q.remove jobId, .returned ⟨true, some (q.getState jobId)⟩⟩ := by
  simp [CancelPath.alone, CancelPath.goOn, CancelPhase.command?, CancelPath.exec, hsome, h,
    hactive]

theorem isSome_of_known {state : JobState} (h : q.getState jobId = .known state) :
    (q jobId).isSome := by
  rw [← Option.ne_none_iff_isSome]
  intro hnone
  rw [JobQueue.getState_eq_unknown_iff.mpr hnone] at h
  cases h

/-- The two ways agree on every job but a finished one. -/
theorem pathsAgree_iff : PathsAgree jobId q ↔ ¬ q.IsFinished jobId := by
  constructor
  · rintro ⟨s, t, hs, ht, -, hreport⟩ hfinished
    obtain ⟨state, hstate, hactive, hcancellable⟩ : ∃ state, q.getState jobId = .known state ∧
        state ≠ .active ∧ state.isCancellable = false := by
      rcases hfinished with h | h
      · exact ⟨_, h, by decide, rfl⟩
      · exact ⟨_, h, by decide, rfl⟩
    have hsome := isSome_of_known hstate
    rw [alone_of_removed hsome (by simp [cancelJob, hstate, hactive])
      (by simp [hstate, hactive])] at hs
    rw [alone_of_refused hsome (by simp [cancelPending, hstate, hcancellable])] at ht
    obtain rfl := Option.some.inj hs
    obtain rfl := Option.some.inj ht
    simp at hreport
  · intro hunfinished
    rcases q.state_cases jobId with ⟨state, hstate, hpending⟩ | hactive | hfinished | hgone
    · have hactive : state ≠ .active := by
        rintro rfl
        cases hpending
      have hsome := isSome_of_known hstate
      exact ⟨_, _, alone_of_removed hsome (by simp [cancelJob, hstate, hactive])
        (by simp [hstate, hactive]),
        alone_of_removed hsome (by simp [cancelPending, hstate, hpending])
          (by simp [hstate, hactive]), rfl, Iff.rfl⟩
    · have hsome := isSome_of_known hactive
      exact ⟨_, _, alone_of_refused hsome (by simp [cancelJob, hactive]),
        alone_of_refused hsome (by simp [cancelPending, hactive, JobState.isCancellable]), rfl,
        Iff.rfl⟩
    · exact absurd hfinished hunfinished
    · have hnone := JobQueue.getState_eq_unknown_iff.mp hgone
      exact ⟨_, _, alone_of_gone _ hnone, alone_of_gone _ hnone, rfl, Iff.rfl⟩

/-! ### Every history -/

theorem along_keepsHistory_iff {as : List (CancelAction J F)} :
    Along (cancelJob.exec jobId) (KeepsHistory cancelJob jobId) s as ↔
      Along (cancelJob.exec jobId) (RemovesUnfinished jobId) s as :=
  along_congr (W := fun _ _ => True) (P := fun _ => True) (fun _ _ _ _ _ _ => trivial)
    (fun _ _ _ _ => keepsHistory_iff) trivial (along_of_forall fun _ _ _ => trivial)

/-- Whatever happens before and between the commands of a cancellation, it keeps the history
exactly when its removal meets no job that is finished or gone. The two ways agree exactly on
the jobs that are not finished. -/
theorem cancelJob_keepsHistory_iff (jobId : String) :
    (∀ (s : CancelState J F) as, Along (cancelJob.exec jobId) (KeepsHistory cancelJob jobId) s as ↔
      Along (cancelJob.exec jobId) (RemovesUnfinished jobId) s as) ∧
    ∀ q : JobQueue J F, PathsAgree jobId q ↔ ¬ q.IsFinished jobId :=
  ⟨fun _ _ => along_keepsHistory_iff, fun _ => pathsAgree_iff⟩

/-- The queue before anything happened, and a call to come. -/
def CancelState.initial : CancelState Unit Unit := ⟨fun _ => none, .gettingJob⟩

def reportJob : QueuedJob Unit Unit :=
  ⟨⟨(), ⟨⟨1, none, none, none⟩, ()⟩⟩, ⟨1, ⟨.fixed, 0⟩, ⟨1, 60⟩, ⟨1, 60⟩, some "report", none⟩,
    .waiting⟩

/-- A job that was added, started and completed. -/
def reportHistory : List (CancelAction Unit Unit) :=
  [.other (.enqueue "report" reportJob), .other (.move "report" .active),
    .other (.move "report" .completed)]

/-- The record of a job that ran is removed, and the operator is told that it was cancelled. -/
theorem cancelJob_removes_completed :
    (∃ s, run (cancelJob.exec "report") CancelState.initial
        (reportHistory ++ [.getJob, .getState, .remove]) = some s ∧
      s.jobs "report" = none ∧ s.phase.ReportsCancelled "report") ∧
    (∃ s, run (cancelJob.exec "report") CancelState.initial reportHistory = some s ∧
      ¬ PathsAgree "report" s.jobs) ∧
    ¬ ∀ as : List (CancelAction Unit Unit),
      Along (cancelJob.exec "report") (KeepsHistory cancelJob "report") CancelState.initial as := by
  refine ⟨⟨_, rfl, rfl, ?_⟩, ⟨_, rfl, ?_⟩, fun h => ?_⟩
  · exact reportsCancelled_returned.mpr rfl
  · rw [pathsAgree_iff]
    decide
  · have hfinished := along_keepsHistory_iff.mp (h (reportHistory ++ [.getJob, .getState, .remove]))
    exact absurd hfinished (by decide)

end NestApi
