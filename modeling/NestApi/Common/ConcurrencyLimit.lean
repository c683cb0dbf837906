import Mathlib.Data.Int.Notation
import Mathlib.Data.List.Basic
import NestApi.Txn.Automaton

/-!
# The concurrency limit

`createConcurrencyLimit` counts the tasks that run and keeps the later calls waiting. A call runs
in pieces: it stops at its two `await`s, and what follows each of them is a callback that other
callbacks and new calls can run before.
-/

namespace NestApi

variable {τ ε : Type}

/-- The variables that the calls share, with what is in progress. Calls are numbered in call
order. -/
structure ConcurrencyLimit (τ ε : Type) where
  running : ℤ
  /-- The calls whose `resolve` is queued. -/
  waiting : List ℕ
  /-- The calls whose `resolve` was called and which have not resumed. Callbacks of promises run
  first in, first out. -/
  woken : List ℕ
  /-- The calls whose task has been started and is not settled. -/
  inFlight : List ℕ
  /-- The calls whose task is settled, and whose `finally` block has not run. -/
  settled : List (ℕ × Except ε τ)
  /-- What the calls returned or threw. -/
  returned : List (ℕ × Except ε τ)
  /-- The calls that had to wait and have started, in the order in which they started. -/
  startedWaiters : List ℕ
  calls : ℕ

inductive LimitAction (τ ε : Type)
  | call
  /-- The task of a call resolves or rejects. -/
  | settle (id : ℕ) (outcome : Except ε τ)
  /-- The `finally` block of a settled call. -/
  | returns (index : ℕ)
  /-- The next woken call goes on behind its `await`. -/
  | resume

namespace ConcurrencyLimit

/-- `createConcurrencyLimit`. -/
def create : ConcurrencyLimit τ ε :=
  { running := 0, waiting := [], woken := [], inFlight := [], settled := [], returned := [],
    startedWaiters := [], calls := 0 }

/-- `release`. -/
def release (s : ConcurrencyLimit τ ε) : ConcurrencyLimit τ ε :=
  match s.waiting with
  | [] => { s with running := s.running - 1 }
  | next :: rest =>
    { s with running := s.running - 1, waiting := rest, woken := s.woken ++ [next] }

/-- `running += 1` and the start of the task. -/
def start (s : ConcurrencyLimit τ ε) (id : ℕ) : ConcurrencyLimit τ ε :=
  { s with running := s.running + 1, inFlight := s.inFlight ++ [id] }

/-- A call of the limited function, up to its first `await`. -/
def call (limit : ℕ) (s : ConcurrencyLimit τ ε) : ConcurrencyLimit τ ε :=
  if s.running ≥ limit then
    { s with waiting := s.waiting ++ [s.calls], calls := s.calls + 1 }
  else
    { s.start s.calls with calls := s.calls + 1 }

def exec (limit : ℕ) (s : ConcurrencyLimit τ ε) :
    LimitAction τ ε → Option (ConcurrencyLimit τ ε)
  | .call => some (s.call limit)
  | .settle id outcome =>
    if id ∈ s.inFlight then
      some { s with inFlight := s.inFlight.erase id, settled := s.settled ++ [(id, outcome)] }
    else none
  | .returns index =>
    (s.settled[index]?).map fun result =>
      { s with settled := s.settled.eraseIdx index,
               returned := s.returned ++ [result] }.release
  | .resume =>
    match s.woken with
    | [] => none
    | id :: rest =>
      some { { s with woken := rest }.start id with
        startedWaiters := s.startedWaiters ++ [id] }

/-- A callback is queued and has not run. -/
def CallbackPending (s : ConcurrencyLimit τ ε) : Prop :=
  s.woken ≠ [] ∨ s.settled ≠ []

/-- A call finds the counter below the limit while every free place is promised to a woken
call. -/
def TakesPromisedPlace (limit : ℕ) (s : ConcurrencyLimit τ ε) : LimitAction τ ε → Prop
  | .call => s.running < limit ∧ limit ≤ s.running + s.woken.length
  | .settle .. | .returns _ | .resume => False

/-! ### Every run -/

/-- What holds after any run. -/
structure Inv (limit : ℕ) (s : ConcurrencyLimit τ ε) : Prop where
  counted : s.running = s.inFlight.length + s.settled.length
  ordered : (s.startedWaiters ++ (s.woken ++ s.waiting)).Pairwise (· < ·)
  called : ∀ id ∈ s.startedWaiters ++ (s.woken ++ s.waiting), id < s.calls
  /-- A waiting call never lacks a wake-up: the places are taken or promised. -/
  awaited : s.waiting ≠ [] → (limit : ℤ) ≤ s.running + s.woken.length

variable {limit : ℕ} {s t : ConcurrencyLimit τ ε} {a : LimitAction τ ε}

theorem release_of_nil (h : s.waiting = []) :
    s.release = { s with running := s.running - 1 } := by
  simp only [ConcurrencyLimit.release, h]

theorem release_of_cons {next : ℕ} {rest : List ℕ} (h : s.waiting = next :: rest) :
    s.release = { s with running := s.running - 1, waiting := rest,
                         woken := s.woken ++ [next] } := by
  simp only [ConcurrencyLimit.release, h]

theorem inv_create : Inv limit (create : ConcurrencyLimit τ ε) := by
  constructor <;> simp [create]

/-- A release wakes the call that has waited longest. -/
theorem Inv.release (hcounted : s.running = s.inFlight.length + s.settled.length + 1)
    (hordered : (s.startedWaiters ++ (s.woken ++ s.waiting)).Pairwise (· < ·))
    (hcalled : ∀ id ∈ s.startedWaiters ++ (s.woken ++ s.waiting), id < s.calls)
    (hawaited : s.waiting ≠ [] → (limit : ℤ) ≤ s.running + s.woken.length) :
    Inv limit s.release := by
  cases hwaiting : s.waiting with
  | nil =>
    rw [release_of_nil hwaiting]
    refine ⟨?_, hordered, hcalled, fun h => absurd hwaiting h⟩
    change s.running - 1 = s.inFlight.length + s.settled.length
    omega
  | cons next rest =>
    have hplaces := hawaited (by simp [hwaiting])
    rw [hwaiting] at hordered hcalled
    rw [release_of_cons hwaiting]
    refine ⟨?_, by simpa using hordered, by simpa using hcalled, fun _ => ?_⟩
    · change s.running - 1 = s.inFlight.length + s.settled.length
      omega
    · simp only [List.length_append, List.length_singleton]
      omega

theorem Inv.call (h : Inv limit s) : Inv limit (s.call limit) := by
  unfold ConcurrencyLimit.call
  split
  · next hfull =>
    refine ⟨h.counted, ?_, ?_, fun _ => ?_⟩
    · change (s.startedWaiters ++ (s.woken ++ (s.waiting ++ [s.calls]))).Pairwise _
      rw [← List.append_assoc s.woken, ← List.append_assoc, List.pairwise_append]
      refine ⟨h.ordered, List.pairwise_singleton _ _, fun id hid k hk => ?_⟩
      obtain rfl := List.mem_singleton.mp hk
      exact h.called id hid
    · intro id hid
      change id ∈ s.startedWaiters ++ (s.woken ++ (s.waiting ++ [s.calls])) at hid
      change id < s.calls + 1
      rw [← List.append_assoc s.woken, ← List.append_assoc] at hid
      rcases List.mem_append.mp hid with hold | hnew
      · exact Nat.lt_succ_of_lt (h.called id hold)
      · obtain rfl := List.mem_singleton.mp hnew
        exact Nat.lt_succ_self _
    · change (limit : ℤ) ≤ s.running + s.woken.length
      omega
  · next hfree =>
    refine ⟨?_, h.ordered, fun id hid => Nat.lt_succ_of_lt (h.called id hid), fun hwaiting => ?_⟩
    · have hcounted := h.counted
      simp only [start, List.length_append, List.length_singleton]
      omega
    · have hplaces := h.awaited hwaiting
      change (limit : ℤ) ≤ s.running + 1 + s.woken.length
      omega

/-- Every action keeps the invariant, whatever the order of calls and callbacks. -/
theorem Inv.exec (h : Inv limit s) (hexec : s.exec limit a = some t) : Inv limit t := by
  cases a with
  | call =>
    obtain rfl := Option.some.inj hexec
    exact h.call
  | settle id outcome =>
    simp only [ConcurrencyLimit.exec] at hexec
    split at hexec
    · next hmem =>
      obtain rfl := Option.some.inj hexec
      refine ⟨?_, h.ordered, h.called, h.awaited⟩
      have hcounted := h.counted
      have hlength := List.length_erase_add_one hmem
      simp only [List.length_append, List.length_singleton]
      omega
    · simp at hexec
  | returns index =>
    obtain ⟨result, hresult, rfl⟩ := Option.map_eq_some_iff.mp hexec
    obtain ⟨hindex, -⟩ := List.getElem?_eq_some_iff.mp hresult
    refine Inv.release ?_ h.ordered h.called h.awaited
    have hcounted := h.counted
    have hlength := List.length_eraseIdx_add_one hindex
    change s.running = s.inFlight.length + (s.settled.eraseIdx index).length + 1
    omega
  | resume =>
    simp only [ConcurrencyLimit.exec] at hexec
    split at hexec
    · simp at hexec
    · next id rest hwoken =>
      obtain rfl := Option.some.inj hexec
      have hcounted := h.counted
      have hordered := h.ordered
      have hcalled := h.called
      rw [hwoken] at hordered hcalled
      refine ⟨?_, ?_, ?_, fun hwaiting => ?_⟩
      · simp only [start, List.length_append, List.length_singleton]
        omega
      · simpa [start] using hordered
      · simpa [start] using hcalled
      · have hplaces := h.awaited hwaiting
        simp only [hwoken, List.length_cons] at hplaces
        change (limit : ℤ) ≤ s.running + 1 + rest.length
        omega

/-! ### Runs that take no promised place -/

/-- The places that are taken or promised are within the limit. -/
def Within (limit : ℕ) (s : ConcurrencyLimit τ ε) : Prop :=
  s.running + s.woken.length ≤ limit

theorem Within.release (h : Within limit s) : Within limit s.release := by
  unfold Within ConcurrencyLimit.release at *
  split
  · change s.running - 1 + s.woken.length ≤ limit
    omega
  · simp only [List.length_append, List.length_singleton]
    omega

theorem Within.exec (h : Within limit s) (hgap : ¬ s.TakesPromisedPlace limit a)
    (hexec : s.exec limit a = some t) : Within limit t := by
  cases a with
  | call =>
    obtain rfl := Option.some.inj hexec
    unfold ConcurrencyLimit.call
    split
    · exact h
    · next hfree =>
      have hroom : ¬ (s.running < limit ∧ (limit : ℤ) ≤ s.running + s.woken.length) := hgap
      change s.running + 1 + s.woken.length ≤ limit
      omega
  | settle id outcome =>
    simp only [ConcurrencyLimit.exec] at hexec
    split at hexec
    · obtain rfl := Option.some.inj hexec
      exact h
    · simp at hexec
  | returns index =>
    obtain ⟨result, -, rfl⟩ := Option.map_eq_some_iff.mp hexec
    exact Within.release h
  | resume =>
    simp only [ConcurrencyLimit.exec] at hexec
    split at hexec
    · simp at hexec
    · next id rest hwoken =>
      obtain rfl := Option.some.inj hexec
      simp only [Within, hwoken, List.length_cons] at h
      change s.running + 1 + rest.length ≤ limit
      omega

end ConcurrencyLimit

end NestApi
