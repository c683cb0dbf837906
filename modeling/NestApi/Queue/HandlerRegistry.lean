import NestApi.Common.Claims
import NestApi.Queue.JobRegistry

/-!
# Which handler runs a job

A process collects the handlers among its providers when it starts. It refuses to start unless
every registered job has a handler, no job has two, and every queue has a processor.
-/

namespace NestApi

/-! ### A release by its names -/

/-- What a release declares, under the names that jobs and queues have in Redis. -/
structure Release where
  registeredQueueNames : List String
  registeredJobNames : List String
  jobRegistration : String → Option (JobRegistration String)
  /-- There is a registration for each registered name, and no other. -/
  registered_iff : ∀ name, name ∈ registeredJobNames ↔ (jobRegistration name).isSome
  queueName_mem : ∀ name, ∀ registration ∈ jobRegistration name,
    registration.queueName ∈ registeredQueueNames

def Release.isRegisteredJobName (release : Release) (jobName : String) : Bool :=
  (release.jobRegistration jobName).isSome

def QueueName.value : QueueName → String
  | maintenance => "maintenance"
  | notifications => "notifications"

def JobName.value : JobName → String
  | maintenanceQueueHeartbeatV1 => "maintenance.queue-heartbeat.v1"
  | authRefreshTokenRetentionV1 => "auth.refresh-token-retention.v1"
  | mcpOAuthPayloadRetentionV1 => "mcp-oauth.payload-retention.v1"
  | filesCleanupV1 => "files.cleanup.v1"
  | userEmailVerificationV1 => "user.email-verification.v1"
  | userPasswordResetV1 => "user.password-reset.v1"
  | userPasswordChangedNoticeV1 => "user.password-changed-notice.v1"
  | userEmailChangedNoticeV1 => "user.email-changed-notice.v1"
  | userSignUpAccountExistsV1 => "user.sign-up-account-exists.v1"
  | workspaceInvitationEmailV1 => "workspace.invitation-email.v1"

/-- `Object.values(JobName)`. -/
def JobName.all : List JobName :=
  [maintenanceQueueHeartbeatV1, authRefreshTokenRetentionV1, mcpOAuthPayloadRetentionV1,
    filesCleanupV1, userEmailVerificationV1, userPasswordResetV1, userPasswordChangedNoticeV1,
    userEmailChangedNoticeV1, userSignUpAccountExistsV1, workspaceInvitationEmailV1]

/-- A registration with the name of its queue. -/
def JobRegistration.named (registration : JobRegistration QueueName) : JobRegistration String :=
  { registration with queueName := registration.queueName.value }

/-- The release under `src`. -/
def release : Release where
  registeredQueueNames := jobRegistry.registeredQueueNames.map QueueName.value
  registeredJobNames := JobName.all.map JobName.value
  jobRegistration name :=
    (JobName.all.find? fun job => job.value = name).map fun job =>
      (jobRegistry.jobRegistration job).named
  registered_iff name := by simp
  queueName_mem name registration h := by
    obtain ⟨job, -, rfl⟩ := Option.map_eq_some_iff.mp h
    exact List.mem_map_of_mem (jobRegistry.queueName_mem job)

/-! ### The providers -/

/-- What can be seen of the constructed providers, by reference. -/
structure Instances (I : Type) where
  constructorName : I → String
  /-- The job of an instance that is marked as a handler. -/
  handledJobName : I → Option String
  /-- The queue of an instance that is a queue processor. -/
  consumedQueueName : I → Option String

namespace Instances

variable {I : Type} [DecidableEq I] (instances : Instances I)

/-- Two handlers for one job. The same handler may be provided twice. -/
def twoHandlers (jobName : String) (existingHandler handler : I) : String :=
  s!"Two queue job handlers claim \"{jobName}\": " ++
    instances.constructorName existingHandler ++ " and " ++ instances.constructorName handler

/-- The jobs that the handlers among the providers claim. A provider may have no instance. -/
def handlerClaims (wrappers : List (Option I)) : List (String × I) :=
  wrappers.filterMap fun wrapper =>
    wrapper.bind fun handler => (instances.handledJobName handler).map fun name => (name, handler)

def consumedQueueNames (wrappers : List (Option I)) : List String :=
  wrappers.filterMap fun wrapper => wrapper.bind instances.consumedQueueName

def withoutHandler (jobNames : List String) : String :=
  "Registered queue jobs have no handler: " ++ ", ".intercalate jobNames ++
    ". Add a @RegisterQueueJobHandler() provider, or drop the job from JOB_REGISTRATIONS."

def withoutProcessor (queueNames : List String) : String :=
  "Registered queues have no processor: " ++ ", ".intercalate queueNames ++
    ". Add a QueueProcessor subclass decorated with @ProcessesQueue(), and register it in " ++
    "QueueModule — or drop the queue from QUEUE_REGISTRATIONS."

/-- `verifyEveryQueueHasAProcessor`. -/
def verifyEveryQueueHasAProcessor (release : Release) (wrappers : List (Option I)) :
    Except String Unit :=
  let queueNamesWithoutProcessor := release.registeredQueueNames.filter fun queueName =>
    queueName ∉ instances.consumedQueueNames wrappers
  if queueNamesWithoutProcessor.length > 0 then
    .error (withoutProcessor queueNamesWithoutProcessor)
  else .ok ()

/-- `onApplicationBootstrap`, with the handlers by job name that it leaves. -/
def onApplicationBootstrap (release : Release) (wrappers : List (Option I)) :
    Except String (String → Option I) :=
  match claimAll instances.twoHandlers (fun _ => none) (instances.handlerClaims wrappers) with
  | .error message => .error message
  | .ok handlersByJobName =>
    let jobNamesWithoutHandler := release.registeredJobNames.filter fun jobName =>
      (handlersByJobName jobName).isNone
    if jobNamesWithoutHandler.length > 0 then .error (withoutHandler jobNamesWithoutHandler)
    else
      match instances.verifyEveryQueueHasAProcessor release wrappers with
      | .error message => .error message
      | .ok () => .ok handlersByJobName

/-! ### What the check asks for -/

/-- The providers of a release: every job has its handler, and every queue a processor. -/
structure Wired (release : Release) (wrappers : List (Option I)) : Prop where
  handler : ∀ jobName ∈ release.registeredJobNames, ∃ handler,
    some handler ∈ wrappers ∧ instances.handledJobName handler = some jobName
  unique : ∀ jobName handler other, some handler ∈ wrappers → some other ∈ wrappers →
    instances.handledJobName handler = some jobName →
    instances.handledJobName other = some jobName → handler = other
  processor : ∀ queueName ∈ release.registeredQueueNames, ∃ processor,
    some processor ∈ wrappers ∧ instances.consumedQueueName processor = some queueName

variable {instances} {release : Release} {wrappers : List (Option I)} {jobName queueName : String}
  {handler : I} {handlers : String → Option I}

omit [DecidableEq I] in
theorem mem_handlerClaims : (jobName, handler) ∈ instances.handlerClaims wrappers ↔
    some handler ∈ wrappers ∧ instances.handledJobName handler = some jobName := by
  simp only [handlerClaims, List.mem_filterMap, Option.bind_eq_some_iff, Option.map_eq_some_iff,
    Prod.mk.injEq]
  constructor
  · rintro ⟨_, hmem, handler, rfl, jobName, hjob, rfl, rfl⟩
    exact ⟨hmem, hjob⟩
  · rintro ⟨hmem, hjob⟩
    exact ⟨_, hmem, handler, rfl, jobName, hjob, rfl, rfl⟩

omit [DecidableEq I] in
theorem mem_consumedQueueNames : queueName ∈ instances.consumedQueueNames wrappers ↔
    ∃ processor, some processor ∈ wrappers ∧
      instances.consumedQueueName processor = some queueName := by
  simp only [consumedQueueNames, List.mem_filterMap, Option.bind_eq_some_iff]
  constructor
  · rintro ⟨_, hmem, processor, rfl, hqueue⟩
    exact ⟨processor, hmem, hqueue⟩
  · rintro ⟨processor, hmem, hqueue⟩
    exact ⟨_, hmem, processor, rfl, hqueue⟩

/-- A filter that has kept nothing. -/
theorem length_filter_pos {α : Type} {p : α → Bool} {l : List α} :
    ¬ (l.filter p).length > 0 ↔ ∀ a ∈ l, p a = false := by
  rw [gt_iff_lt, List.length_pos_iff, not_not, List.filter_eq_nil_iff]
  simp

omit [DecidableEq I] in
theorem verifyEveryQueueHasAProcessor_eq_ok :
    instances.verifyEveryQueueHasAProcessor release wrappers = .ok () ↔
      ∀ queueName ∈ release.registeredQueueNames, ∃ processor, some processor ∈ wrappers ∧
        instances.consumedQueueName processor = some queueName := by
  have hlength := length_filter_pos (l := release.registeredQueueNames)
    (p := fun queueName => queueName ∉ instances.consumedQueueNames wrappers)
  simp only [decide_eq_false_iff_not, not_not, mem_consumedQueueNames] at hlength
  rw [← hlength]
  simp only [verifyEveryQueueHasAProcessor]
  split
  · next hpos => exact iff_of_false (by simp) (not_not.mpr hpos)
  · next hnone => exact iff_of_true rfl hnone

omit [DecidableEq I] in
theorem Wired.unambiguous (h : instances.Wired release wrappers) :
    Unambiguous (instances.handlerClaims wrappers) := by
  intro jobName handler other hhandler hother
  obtain ⟨hprovided, hjob⟩ := mem_handlerClaims.mp hhandler
  obtain ⟨hprovided', hjob'⟩ := mem_handlerClaims.mp hother
  exact h.unique jobName handler other hprovided hprovided' hjob hjob'

omit [DecidableEq I] in
/-- Every registered job is found among the handlers exactly when one is provided for it. -/
theorem found_iff (release : Release)
    (hholds : Holds handlers (instances.handlerClaims wrappers)) :
    ¬ (release.registeredJobNames.filter fun jobName => (handlers jobName).isNone).length > 0 ↔
      ∀ jobName ∈ release.registeredJobNames, ∃ handler,
        some handler ∈ wrappers ∧ instances.handledJobName handler = some jobName := by
  rw [length_filter_pos]
  refine forall₂_congr fun jobName _ => ?_
  rw [Option.isNone_eq_false_iff, Option.isSome_iff_exists]
  exact exists_congr fun handler => (hholds jobName handler).trans mem_handlerClaims

/-- A process starts exactly when its providers are complete, with the handler of each job. -/
theorem onApplicationBootstrap_eq_ok :
    instances.onApplicationBootstrap release wrappers = .ok handlers ↔
      instances.Wired release wrappers ∧ Holds handlers (instances.handlerClaims wrappers) := by
  unfold onApplicationBootstrap
  cases hclaims : claimAll instances.twoHandlers (fun _ => none)
      (instances.handlerClaims wrappers) with
  | error message =>
    refine iff_of_false (by simp) fun h => ?_
    rw [claimAll_eq_ok.mpr ⟨h.1.unambiguous, h.2⟩] at hclaims
    cases hclaims
  | ok handlersByJobName =>
    obtain ⟨hunambiguous, hholds⟩ := claimAll_eq_ok.mp hclaims
    have hfound := found_iff release hholds
    simp only
    by_cases hmissing : (release.registeredJobNames.filter fun jobName =>
        (handlersByJobName jobName).isNone).length > 0
    · rw [if_pos hmissing]
      exact iff_of_false (by simp) fun h => hfound.mpr h.1.handler hmissing
    · rw [if_neg hmissing]
      cases hqueues : instances.verifyEveryQueueHasAProcessor release wrappers with
      | error message =>
        refine iff_of_false (by simp) fun h => ?_
        rw [verifyEveryQueueHasAProcessor_eq_ok.mpr h.1.processor] at hqueues
        cases hqueues
      | ok _ =>
        have hwired : instances.Wired release wrappers :=
          { handler := hfound.mp hmissing
            unique := fun jobName handler other h h' hjob hjob' =>
              hunambiguous jobName handler other (mem_handlerClaims.mpr ⟨h, hjob⟩)
                (mem_handlerClaims.mpr ⟨h', hjob'⟩)
            processor := verifyEveryQueueHasAProcessor_eq_ok.mp hqueues }
        simp only [Except.ok.injEq]
        constructor
        · rintro rfl
          exact ⟨hwired, hholds⟩
        · rintro ⟨-, h⟩
          exact funext fun jobName => Option.ext fun handler =>
            (hholds jobName handler).trans (h jobName handler).symm

end Instances

end NestApi
