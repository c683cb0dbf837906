import NestApi.Queue.Processor

/-!
# Every job of a process that has started has one handler

The check at the start passes exactly on complete providers, in whatever order and however often
they are listed. From then on a registered job is resolved by the one handler provided for it.
-/

namespace NestApi

open Instances

variable {I D F : Type} [DecidableEq I] {instances : Instances I} {release : Release}
  {wrappers others : List (Option I)} {handlers : String → Option I}
  {registration : JobRegistration String}

omit [DecidableEq I] in
theorem Instances.Wired.congr (h : ∀ provider, some provider ∈ wrappers ↔ some provider ∈ others) :
    instances.Wired release wrappers ↔ instances.Wired release others := by
  constructor
  · intro hwired
    exact ⟨by simpa only [h] using hwired.handler, by simpa only [h] using hwired.unique,
      by simpa only [h] using hwired.processor⟩
  · intro hwired
    exact ⟨by simpa only [h] using hwired.handler, by simpa only [h] using hwired.unique,
      by simpa only [h] using hwired.processor⟩

omit [DecidableEq I] in
theorem holds_handlerClaims : Holds handlers (instances.handlerClaims wrappers) ↔
    ∀ jobName handler, handlers jobName = some handler ↔
      some handler ∈ wrappers ∧ instances.handledJobName handler = some jobName :=
  forall₂_congr fun _ _ => iff_congr Iff.rfl mem_handlerClaims

/-- The check passes exactly when every registered job has one handler and every queue a
processor, and leaves that handler for each job. The order of the providers does not matter, nor
whether one is listed twice or has no instance. -/
theorem handler_wiring_checked (instances : Instances I) (release : Release)
    (wrappers others : List (Option I)) (handlers : String → Option I) :
    (instances.onApplicationBootstrap release wrappers = .ok handlers ↔
      instances.Wired release wrappers ∧ ∀ jobName handler, handlers jobName = some handler ↔
        some handler ∈ wrappers ∧ instances.handledJobName handler = some jobName) ∧
      ((∀ provider, some provider ∈ wrappers ↔ some provider ∈ others) →
        (instances.onApplicationBootstrap release wrappers = .ok handlers ↔
          instances.onApplicationBootstrap release others = .ok handlers)) := by
  have hboot : ∀ wrappers, instances.onApplicationBootstrap release wrappers = .ok handlers ↔
      instances.Wired release wrappers ∧ ∀ jobName handler, handlers jobName = some handler ↔
        some handler ∈ wrappers ∧ instances.handledJobName handler = some jobName := by
    intro wrappers
    rw [onApplicationBootstrap_eq_ok, holds_handlerClaims]
  refine ⟨hboot wrappers, fun hsame => ?_⟩
  rw [hboot, hboot, Wired.congr hsame]
  simp only [hsame]

/-- In a process that has started, a job that its release registers is resolved exactly on the
queue of its registration, by the one handler that is provided for it, to a payload that this
handler reads and that has the registered version. -/
theorem started_process_resolves (job : Job D)
    (hboot : instances.onApplicationBootstrap release wrappers = .ok handlers)
    (hregistered : release.jobRegistration job.name = some registration)
    (processor : QueueProcessor I D F) (hrelease : processor.release = release)
    (hfind : processor.findByJobName = handlers) :
    ∃ handler, some handler ∈ wrappers ∧ instances.handledJobName handler = some job.name ∧
      (∀ other, some other ∈ wrappers → instances.handledJobName other = some job.name →
        other = handler) ∧
      ∀ found payload, processor.resolveJob job = .ok (found, payload) ↔
        found = handler ∧ registration.queueName = processor.queueName ∧
          processor.readPayload handler job.data = .ok payload ∧
          payload.payloadVersion = registration.payloadVersion := by
  obtain ⟨hwired, hholds⟩ := onApplicationBootstrap_eq_ok.mp hboot
  have hname : job.name ∈ release.registeredJobNames := by
    rw [release.registered_iff, hregistered]
    rfl
  obtain ⟨handler, hprovided, hhandles⟩ := hwired.handler job.name hname
  have hhandler := (holds_handlerClaims.mp hholds job.name handler).mpr ⟨hprovided, hhandles⟩
  refine ⟨handler, hprovided, hhandles, fun other hother hother' =>
    hwired.unique job.name other handler hother hprovided hother' hhandles, fun found payload => ?_⟩
  rw [QueueProcessor.resolveJob_eq_ok, hrelease, hfind]
  constructor
  · rintro ⟨r, hr, hqueue, hfound, hread, hversion⟩
    obtain rfl := Option.some.inj (hregistered.symm.trans hr)
    obtain rfl := Option.some.inj (hhandler.symm.trans hfound)
    exact ⟨rfl, hqueue, hread, hversion⟩
  · rintro ⟨rfl, hqueue, hread, hversion⟩
    exact ⟨registration, hregistered, hqueue, hhandler, hread, hversion⟩

/-- A handler for each job of this release, and a processor for each queue. -/
def sampleInstances : Instances (JobName ⊕ QueueName) where
  constructorName _ := "Provider"
  handledJobName := Sum.elim (fun job => some job.value) fun _ => none
  consumedQueueName := Sum.elim (fun _ => none) fun queue => some queue.value

/-- One of them is listed twice, and one provider has no instance. -/
def sampleWrappers : List (Option (JobName ⊕ QueueName)) :=
  none :: some (.inl .filesCleanupV1) :: (JobName.all.map (some ∘ Sum.inl) ++
    [some (.inr .notifications), some (.inr .maintenance)])

theorem started_process_resolves_cleanup : ∃ handlers,
    sampleInstances.onApplicationBootstrap NestApi.release sampleWrappers = .ok handlers ∧
    (⟨NestApi.release, "maintenance", handlers, fun _ version =>
        .ok { payloadVersion := version, fields := () }⟩ :
          QueueProcessor (JobName ⊕ QueueName) ℕ Unit).resolveJob
        ⟨some "j", "files.cleanup.v1", 1, 0, none⟩ =
      .ok (.inl .filesCleanupV1, { payloadVersion := 1, fields := () }) := by
  have hstarts :
      (sampleInstances.onApplicationBootstrap NestApi.release sampleWrappers).isOk = true := by
    decide +kernel
  cases hboot : sampleInstances.onApplicationBootstrap NestApi.release sampleWrappers with
  | error message =>
    rw [hboot] at hstarts
    cases hstarts
  | ok handlers =>
    have hregistered : NestApi.release.jobRegistration "files.cleanup.v1" =
        some ⟨"maintenance", 1, some ⟨3, .exponential, 30000⟩⟩ := rfl
    obtain ⟨handler, -, -, hunique, hresolves⟩ :=
      started_process_resolves ⟨some "j", "files.cleanup.v1", 1, 0, none⟩ hboot hregistered
        (⟨NestApi.release, "maintenance", handlers, fun _ version =>
          .ok { payloadVersion := version, fields := () }⟩ :
            QueueProcessor (JobName ⊕ QueueName) ℕ Unit) rfl rfl
    have hcleanup := hunique (.inl .filesCleanupV1) (by simp [sampleWrappers]) rfl
    exact ⟨handlers, rfl, (hresolves _ _).mpr ⟨hcleanup, rfl, rfl, rfl⟩⟩

end NestApi
