import Mathlib.Tactic.SplitIfs
import NestApi.Turnstile.Service

/-!
# What the breaker stands for

The history of a breaker falls into runs of no-answers. A verdict ends a run, and so does a
no-answer that comes too late. The breaker's fields are a summary of the current run.
-/

namespace NestApi

open TurnstileCircuitBreaker

/-! ### Histories -/

/-- A no-answer of a history, with what its caller was told. -/
structure RecordedNoAnswer where
  time : ℕ
  isNewlyOpened : Bool
deriving DecidableEq

/-- The runs of a history, each newest first. -/
structure BreakerRuns where
  current : List RecordedNoAnswer
  ended : List (List RecordedNoAnswer)

/-- The breaker after a history, newest event first. -/
def breakerAfter : List BreakerEvent → TurnstileCircuitBreaker
  | [] => {}
  | .noAnswer time :: history => ((breakerAfter history).recordProviderFailure time).1
  | .verdict _ :: history => (breakerAfter history).recordProviderSuccess.1

/-- The end of the window that the last no-answer of a run opened, or its own time. -/
def lastEvidence : List RecordedNoAnswer → ℕ
  | [] => 0
  | last :: earlier =>
    if providerFailureThreshold ≤ (last :: earlier).length then
      last.time + openWindowMilliseconds
    else last.time

/-- A no-answer comes too late to belong to a run. -/
def Lapsed (run : List RecordedNoAnswer) (time : ℕ) : Prop :=
  run ≠ [] ∧ lastEvidence run + failureMemoryMilliseconds < time

instance (run : List RecordedNoAnswer) (time : ℕ) : Decidable (Lapsed run time) := by
  unfold Lapsed
  infer_instance

/-- The runs of a history. -/
def runsOf : List BreakerEvent → BreakerRuns
  | [] => ⟨[], []⟩
  | .verdict _ :: history => ⟨[], (runsOf history).current :: (runsOf history).ended⟩
  | .noAnswer time :: history =>
    let runs := runsOf history
    let outcome := ((breakerAfter history).recordProviderFailure time).2
    if Lapsed runs.current time then
      ⟨[⟨time, outcome.isNewlyOpened⟩], runs.current :: runs.ended⟩
    else ⟨⟨time, outcome.isNewlyOpened⟩ :: runs.current, runs.ended⟩

/-- The breaker is open: its run has reached the threshold, and the window of its last no-answer
is not over. -/
def OpenAt (run : List RecordedNoAnswer) (time : ℕ) : Prop :=
  providerFailureThreshold ≤ run.length ∧
    ∃ last ∈ run.head?, time < last.time + openWindowMilliseconds

/-! ### The fields of the breaker -/

/-- The breaker that sums up a run. -/
def summary (run : List RecordedNoAnswer) : TurnstileCircuitBreaker where
  consecutiveProviderFailures := run.length
  lastFailureMilliseconds := run.head?.map RecordedNoAnswer.time
  openUntilMilliseconds :=
    if providerFailureThreshold ≤ run.length then
      run.head?.map fun last => last.time + openWindowMilliseconds
    else none

variable {run : List RecordedNoAnswer} {time : ℕ}

theorem shouldBypass_summary : (summary run).shouldBypass time ↔ OpenAt run time := by
  unfold shouldBypass summary OpenAt
  cases run with
  | nil => simp [providerFailureThreshold]
  | cons last earlier =>
    simp only [List.length_cons, List.head?_cons, Option.map_some]
    split
    · next hlong => simp [hlong]
    · next hshort => simp [hshort]

/-- The breaker forgets a run exactly when the no-answer comes too late for it. -/
theorem forget_summary (run : List RecordedNoAnswer) (time : ℕ) :
    (summary run).forget time = if Lapsed run time then summary [] else summary run := by
  cases run with
  | nil => simp [forget, summary, Lapsed]
  | cons last earlier =>
    have hevidence : max last.time ((summary (last :: earlier)).openUntilMilliseconds.getD 0) =
        lastEvidence (last :: earlier) := by
      simp only [summary, lastEvidence, List.length_cons, List.head?_cons, Option.map_some]
      split
      · simp
      · simp
    have hlapsed : time - lastEvidence (last :: earlier) > failureMemoryMilliseconds ↔
        Lapsed (last :: earlier) time := by
      simp only [Lapsed, ne_eq, reduceCtorEq, not_false_eq_true, true_and]
      omega
    have hlast : (summary (last :: earlier)).lastFailureMilliseconds = some last.time := rfl
    simp only [forget, hlast, hevidence, hlapsed]
    rfl

/-- A no-answer adds to the run that the breaker remembers, and opens it at the threshold. -/
theorem recordProviderFailure_of_forget {b : TurnstileCircuitBreaker} (isNewlyOpened : Bool)
    (h : b.forget time = summary run) :
    b.recordProviderFailure time = (summary (⟨time, isNewlyOpened⟩ :: run),
      ⟨providerFailureThreshold ≤ run.length + 1, run.length + 1 = providerFailureThreshold⟩) := by
  unfold recordProviderFailure
  rw [h]
  simp only [summary, List.length_cons, List.head?_cons, Option.map_some]
  by_cases hshort : run.length + 1 < providerFailureThreshold
  · have hrun : ¬ providerFailureThreshold ≤ run.length := by omega
    have hnext : ¬ providerFailureThreshold ≤ run.length + 1 := by omega
    have hne : run.length + 1 ≠ providerFailureThreshold := by omega
    simp [hshort, hrun, hnext, hne]
  · have hnext : providerFailureThreshold ≤ run.length + 1 := by omega
    simp only [hshort, hnext, if_true, if_false, decide_true]
    rfl

/-- The breaker sums up the current run of its history. -/
theorem breakerAfter_eq (history : List BreakerEvent) :
    breakerAfter history = summary (runsOf history).current := by
  induction history with
  | nil => rfl
  | cons e history ih =>
    cases e with
    | verdict time => rfl
    | noAnswer time =>
      simp only [breakerAfter, runsOf, ih]
      have hforget := forget_summary (runsOf history).current time
      by_cases hlapsed : Lapsed (runsOf history).current time
      · rw [if_pos hlapsed] at hforget ⊢
        rw [recordProviderFailure_of_forget _ hforget]
      · rw [if_neg hlapsed] at hforget ⊢
        rw [recordProviderFailure_of_forget _ hforget]

/-- The caller of a no-answer is told whether it is the one at the threshold. -/
theorem isNewlyOpened_eq (history : List BreakerEvent) (time : ℕ) :
    ((breakerAfter history).recordProviderFailure time).2.isNewlyOpened =
      decide ((if Lapsed (runsOf history).current time then []
        else (runsOf history).current).length + 1 = providerFailureThreshold) := by
  have hforget := forget_summary (runsOf history).current time
  rw [← apply_ite summary, ← breakerAfter_eq] at hforget
  rw [recordProviderFailure_of_forget false hforget]

/-! ### Announcements -/

/-- A run is announced once when it reaches the threshold, and never otherwise. -/
def AnnouncedOnce (run : List RecordedNoAnswer) : Prop :=
  run.countP RecordedNoAnswer.isNewlyOpened =
    if providerFailureThreshold ≤ run.length then 1 else 0

/-- A run that grows by the announcement that is due stays announced once. -/
theorem AnnouncedOnce.cons {isNewlyOpened : Bool} (h : AnnouncedOnce run)
    (hnew : isNewlyOpened = decide (run.length + 1 = providerFailureThreshold)) :
    AnnouncedOnce (⟨time, isNewlyOpened⟩ :: run) := by
  unfold AnnouncedOnce at h ⊢
  rw [List.countP_cons, h, List.length_cons, hnew]
  simp only [decide_eq_true_eq]
  split_ifs <;> omega

theorem announcedOnce_nil : AnnouncedOnce [] := by
  simp [AnnouncedOnce, providerFailureThreshold]

/-- Every run of a history is announced once if it opens the breaker. -/
theorem runs_announcedOnce (history : List BreakerEvent) :
    ∀ run ∈ (runsOf history).current :: (runsOf history).ended, AnnouncedOnce run := by
  induction history with
  | nil => simpa [runsOf] using announcedOnce_nil
  | cons e history ih =>
    cases e with
    | verdict time => exact List.forall_mem_cons.mpr ⟨announcedOnce_nil, ih⟩
    | noAnswer time =>
      simp only [runsOf]
      have hnew := isNewlyOpened_eq history time
      split
      · next hlapsed =>
        rw [if_pos hlapsed] at hnew
        exact List.forall_mem_cons.mpr ⟨announcedOnce_nil.cons hnew, ih⟩
      · next hlapsed =>
        rw [if_neg hlapsed] at hnew
        obtain ⟨hcurrent, hended⟩ := List.forall_mem_cons.mp ih
        exact List.forall_mem_cons.mpr ⟨hcurrent.cons hnew, hended⟩

/-! ### The service -/

namespace TurnstileState

variable {secretKeys : TurnstileWidget → Option String} {s t : TurnstileState} {i : ℕ}

/-- What lets a call return: a success verdict for its token, or its audit row. -/
def Allowed (s : TurnstileState) (i : ℕ) (call : VerifyCall) : Prop :=
  (i, call.token) ∈ s.verdicts ∨
    ∃ reason, (i, bypassEntry call reason) ∈ s.auditRows

/-- What holds of the service in every state. -/
structure Inv (s : TurnstileState) : Prop where
  breaker : s.breaker = breakerAfter s.history
  asked : ∀ (i : ℕ) (call : VerifyCall) (form : SiteverifyForm), s.calls[i]? = some call →
    call.phase = .asking form → form.response = call.token
  returned : ∀ (i : ℕ) (call : VerifyCall), s.calls[i]? = some call → call.phase = .returned →
    s.Allowed i call

theorem inv_initial : Inv {} := by
  constructor <;> simp [breakerAfter]

/-- A call that comes to its next phase keeps its token and widget. -/
theorem setPhase_call {call : VerifyCall} {phase : VerifyPhase} {j : ℕ} {other : VerifyCall}
    (hj : (s.setPhase i call phase).calls[j]? = some other) :
    j = i ∧ other = { call with phase := phase } ∨ s.calls[j]? = some other := by
  simp only [setPhase, List.getElem?_set] at hj
  split at hj
  · next heq =>
    split at hj
    · exact .inl ⟨heq.symm, (Option.some.inj hj).symm⟩
    · cases hj
  · exact .inr hj

/-- A call that comes to a phase other than asking, and may return when it does, keeps the
invariant. -/
theorem Inv.setPhase (h : Inv s) (call : VerifyCall) (phase : VerifyPhase)
    (hcalls : t.calls = (s.setPhase i call phase).calls)
    (hbreaker : t.breaker = breakerAfter t.history) (hphase : ∀ form, phase ≠ .asking form)
    (hverdicts : ∀ v ∈ s.verdicts, v ∈ t.verdicts) (haudit : ∀ r ∈ s.auditRows, r ∈ t.auditRows)
    (hreturned : phase = .returned → t.Allowed i call) : Inv t := by
  refine ⟨hbreaker, fun j other form hj hask => ?_, fun j other hj hret => ?_⟩
  · rw [hcalls] at hj
    rcases setPhase_call hj with ⟨rfl, rfl⟩ | hold
    · exact absurd hask (hphase form)
    · exact h.asked j other form hold hask
  · rw [hcalls] at hj
    rcases setPhase_call hj with ⟨rfl, rfl⟩ | hold
    · exact hreturned hret
    · rcases h.returned j other hold hret with hverdict | ⟨reason, hrow⟩
      · exact .inl (hverdicts _ hverdict)
      · exact .inr ⟨reason, haudit _ hrow⟩

/-- A call begins without having returned. -/
theorem begin_phase (secretKeys : TurnstileWidget → Option String) (s : TurnstileState)
    (token : String) (widget : TurnstileWidget) (remoteIp : Option String) (now : ℕ) :
    s.begin secretKeys token widget remoteIp now ≠ .returned ∧
    ∀ form, s.begin secretKeys token widget remoteIp now = .asking form →
      form.response = token := by
  unfold begin
  split
  · simp
  · split
    · simp
    · refine ⟨by simp, ?_⟩
      rintro form hform
      cases hform
      rfl

theorem judge_phase (isSuccess : Bool) (errorCodes : List String) :
    (∀ form, judge isSuccess errorCodes ≠ .asking form) ∧
      (judge isSuccess errorCodes = .returned → isSuccess = true) := by
  unfold judge
  split
  · next hsuccess => simp [hsuccess]
  · split <;> simp

/-- The calls after a new one are the old calls and the new one. -/
theorem append_call {calls : List VerifyCall} {new call : VerifyCall} {j : ℕ}
    (hj : (calls ++ [new])[j]? = some call) : calls[j]? = some call ∨ call = new := by
  rw [List.getElem?_append] at hj
  split at hj
  · exact .inl hj
  · exact .inr (List.mem_singleton.mp (List.mem_of_getElem? hj))

/-- Every step keeps the invariant. -/
theorem Inv.exec (h : Inv s) {action : TurnstileAction}
    (hexec : s.exec secretKeys action = some t) : Inv t := by
  cases action with
  | verify token widget remoteIp now =>
    cases hexec
    obtain ⟨hreturned, hasked⟩ := begin_phase secretKeys s token widget remoteIp now
    refine ⟨h.breaker, fun j call form hj hphase => ?_, fun j call hj hphase => ?_⟩
    · rcases append_call hj with hold | rfl
      · exact h.asked j call form hold hphase
      · exact hasked form hphase
    · rcases append_call hj with hold | rfl
      · exact h.returned j call hold hphase
      · exact absurd hphase hreturned
  | respond i response now =>
    simp only [TurnstileState.exec, Option.bind_eq_bind, Option.bind_eq_some_iff] at hexec
    obtain ⟨call, hcall, hexec⟩ := hexec
    have hanswered : s.breaker.recordProviderSuccess.1 =
        breakerAfter (.verdict now :: s.history) := rfl
    split at hexec
    · next form hphase =>
      have htoken := h.asked i call form hcall hphase
      split at hexec
      · next reason _ =>
        cases hexec
        refine h.setPhase call _ rfl ?_ ?_ ?_ ?_ ?_
        · exact congrArg (fun b => (recordProviderFailure b now).1) h.breaker
        · intro form
          split <;> simp
        · exact fun v hv => hv
        · exact fun r hr => hr
        · intro hret
          split at hret <;> cases hret
      · cases hexec
        refine h.setPhase call _ rfl hanswered ?_ ?_ ?_ ?_
        · simp
        · exact fun v hv => hv
        · exact fun r hr => hr
        · simp
      · next isSuccess errorCodes _ =>
        cases hexec
        obtain ⟨hasking, hsuccess⟩ := judge_phase isSuccess errorCodes
        refine h.setPhase call _ rfl hanswered hasking ?_ ?_ ?_
        · intro v hv
          dsimp only
          split
          · exact List.mem_cons_of_mem _ hv
          · exact hv
        · exact fun r hr => hr
        · intro hret
          refine .inl ?_
          simp [hsuccess hret, htoken]
    · cases hexec
  | record i written =>
    simp only [TurnstileState.exec, Option.bind_eq_bind, Option.bind_eq_some_iff] at hexec
    obtain ⟨call, hcall, hexec⟩ := hexec
    split at hexec
    · next reason hphase =>
      split at hexec
      · cases hexec
        refine h.setPhase call _ rfl h.breaker ?_ ?_ ?_ ?_
        · simp
        · exact fun v hv => hv
        · exact fun r hr => List.mem_cons_of_mem _ hr
        · exact fun _ => .inr ⟨reason, List.mem_cons_self⟩
      · cases hexec
        refine h.setPhase call _ rfl h.breaker ?_ ?_ ?_ ?_
        · simp
        · exact fun v hv => hv
        · exact fun r hr => hr
        · simp
    · cases hexec

/-- The breaker of the service is the one of the events that its calls recorded. -/
theorem inv_of_run {actions : List TurnstileAction}
    (hrun : Txn.run (TurnstileState.exec secretKeys) {} actions = some s) : Inv s :=
  Txn.run_induction (fun _ _ _ hs h => Inv.exec hs h) inv_initial hrun

end TurnstileState

end NestApi
