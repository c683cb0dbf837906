import NestApi.Common.ConcurrencyLimit

/-!
# Running tasks stay within the limit

A release and the start of the call that it wakes are two callbacks. A call in between sees the
lower counter and takes the place that was promised. Where no call does, the limit is kept.
-/

namespace NestApi.ConcurrencyLimit

open Txn

variable {τ ε : Type} {limit : ℕ} {s t : ConcurrencyLimit τ ε} {a : LimitAction τ ε}
  {as : List (LimitAction τ ε)}

/-- What the limit stands for. -/
structure Kept (limit : ℕ) (s : ConcurrencyLimit τ ε) : Prop where
  bounded : s.inFlight.length ≤ limit
  /-- The calls that had to wait start in call order, those that still wait after the others. -/
  ordered : (s.startedWaiters ++ (s.woken ++ s.waiting)).Pairwise (· < ·)
  used : ¬ s.CallbackPending → s.waiting ≠ [] → s.inFlight.length = limit

instance : Decidable (s.TakesPromisedPlace limit a) := by
  cases a <;> unfold TakesPromisedPlace <;> infer_instance

/-- In every run, calls that gave way to nobody start in order and no wake-up is lost. -/
theorem inv_of_run (hrun : run (exec limit) create as = some s) : Inv limit s :=
  run_induction (fun _ _ _ h hexec => h.exec hexec) inv_create hrun

theorem within_of_run (halong : Along (exec limit) (fun s a => ¬ s.TakesPromisedPlace limit a)
      create as)
    (hrun : run (exec limit) create as = some s) : Within limit s := by
  have hstart : Within limit (create : ConcurrencyLimit τ ε) := by simp [Within, create]
  exact run_invariant (fun _ _ _ hgap h hexec => h.exec hgap hexec) hstart halong hrun

theorem Inv.kept (h : Inv limit s) (hwithin : Within limit s) : Kept limit s := by
  have hcounted := h.counted
  have hplaces : s.running + s.woken.length ≤ limit := hwithin
  refine ⟨by omega, h.ordered, fun hpending hwaiting => ?_⟩
  -- without a callback the counter is the number of running tasks
  obtain ⟨hwoken, hsettled⟩ : s.woken = [] ∧ s.settled = [] := by
    simpa [CallbackPending, not_or] using hpending
  have htaken := h.awaited hwaiting
  simp only [hwoken, hsettled, List.length_nil] at htaken hplaces hcounted
  omega

/-- Where no call takes a place that is promised to a woken one, the limit is kept. -/
theorem kept_of_run (halong : Along (exec limit) (fun s a => ¬ s.TakesPromisedPlace limit a)
      create as)
    (hrun : run (exec limit) create as = some s) : Kept limit s :=
  (inv_of_run hrun).kept (within_of_run halong hrun)

/-- `MAX_CONCURRENT_IMAGE_REENCODES`. -/
def maxConcurrentImageReencodes : ℕ := 2

/-- Two images are encoded and one waits; the first fails and its `finally` block runs. -/
def threeReencodes : List (LimitAction Unit Unit) :=
  [.call, .call, .call, .settle 0 (.error ()), .returns 0]

theorem kept_threeReencodes : ∃ s, run (exec maxConcurrentImageReencodes) create
    (threeReencodes ++ [.resume]) = some s ∧ Kept maxConcurrentImageReencodes s := by
  have halong : Along (exec maxConcurrentImageReencodes)
      (fun s a => ¬ s.TakesPromisedPlace maxConcurrentImageReencodes a) create
        (threeReencodes ++ [.resume]) := by decide
  exact ⟨_, rfl, kept_of_run halong rfl⟩

/-- A fourth call that comes before the third resumes starts too, so three images are encoded
at once. -/
theorem not_kept_threeReencodes : ¬ ∀ (limit : ℕ) (as : List (LimitAction Unit Unit))
    (s : ConcurrencyLimit Unit Unit), 1 ≤ limit → run (exec limit) create as = some s →
      Kept limit s := by
  intro hclaim
  have hkept := hclaim maxConcurrentImageReencodes (threeReencodes ++ [.call, .resume]) _
    (by decide) rfl
  exact absurd hkept.bounded (by decide)

end NestApi.ConcurrencyLimit
