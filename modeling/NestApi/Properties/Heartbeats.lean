import NestApi.Queue.Heartbeat
import NestApi.Txn.Automaton

/-!
# What a fresh heartbeat tells

The heartbeat is fresh exactly while the stamp that landed last is not older than the threshold.
The key never expires before that, and an old stamp that lands late is not taken for a new one.
-/

namespace NestApi

open Txn HeartbeatState

variable {dates : IsoDates} {s s' : HeartbeatState} {as : List HeartbeatAction} {stamp : ℕ}
  {scheduledAt : Option String}

namespace HeartbeatState

/-- A worker ran the handler at this time, no longer than an interval after it was to. -/
def Beaten (dates : IsoDates) (s : HeartbeatState) (stamp : ℕ) : Prop :=
  stamp ≤ s.now ∧ ∃ beat ∈ s.beats, beat.time = stamp ∧
    ∀ text ∈ beat.scheduledAt, ∀ time ∈ dates.parse text,
      stamp ≤ time + queueHeartbeatIntervalMilliseconds

/-- What holds in every state. -/
structure Sound (dates : IsoDates) (s : HeartbeatState) : Prop where
  pending : ∀ stamp ∈ s.pending, s.Beaten dates stamp
  /-- What has landed is in the key, for an hour from when it landed. -/
  landed : ∀ stamp, s.landed = some stamp → s.Beaten dates stamp ∧
    ∃ expiry, s.key () = some (dates.toISOString stamp, expiry) ∧
      stamp + 1000 * queueHeartbeatKeyTtlSeconds ≤ expiry
  unreadable : s.landed = none → ∀ value expiry, s.key () = some (value, expiry) →
    dates.parse value = none

theorem not_superseded (h : s.isSuperseded dates scheduledAt = false) :
    ∀ text ∈ scheduledAt, ∀ time ∈ dates.parse text,
      s.now ≤ time + queueHeartbeatIntervalMilliseconds := by
  rintro text rfl time htime
  have hne : text ≠ "" := by
    rintro rfl
    rw [dates.parse_empty] at htime
    cases htime
  have hlate : s.lateness dates (some text) = some ((s.now : ℤ) - time) := by
    simp [lateness, Option.filter_some, hne, Option.mem_def.mp htime]
  rw [isSuperseded, hlate, Option.any_some, decide_eq_false_iff_not, not_lt] at h
  omega

theorem Beaten.mono (h : s.Beaten dates stamp) (hnow : s.now ≤ s'.now)
    (hbeats : s.beats ⊆ s'.beats) : s'.Beaten dates stamp := by
  obtain ⟨hle, beat, hbeat, htime⟩ := h
  exact ⟨hle.trans hnow, beat, hbeats hbeat, htime⟩

namespace Sound

theorem empty : ({} : HeartbeatState).Sound dates where
  pending _ h := by cases h
  landed _ h := by cases h
  unreadable _ _ _ h := by cases h

/-- The step: whatever happens keeps the state sound. -/
theorem exec (h : s.Sound dates) (action : HeartbeatAction)
    (hstep : HeartbeatState.exec dates s action = some s') : s'.Sound dates := by
  cases action with
  | tick milliseconds =>
    obtain rfl := Option.some.inj hstep
    have hle : s.now ≤ s.now + milliseconds := Nat.le_add_right _ _
    exact ⟨fun stamp hstamp => (h.pending stamp hstamp).mono hle (List.Subset.refl _),
      fun stamp hstamp => ⟨(h.landed stamp hstamp).1.mono hle (List.Subset.refl _),
        (h.landed stamp hstamp).2⟩, h.unreadable⟩
  | beat scheduledAt =>
    simp only [HeartbeatState.exec] at hstep
    split at hstep
    · exact Option.some.inj hstep ▸ h
    · next hsuperseded =>
      obtain rfl := Option.some.inj hstep
      have htime := not_superseded (Bool.eq_false_iff.mpr hsuperseded)
      have hbeats : s.beats ⊆ ⟨s.now, scheduledAt⟩ :: s.beats := List.subset_cons_self _ _
      refine ⟨fun stamp hstamp => ?_, fun stamp hstamp =>
        ⟨(h.landed stamp hstamp).1.mono le_rfl hbeats, (h.landed stamp hstamp).2⟩, h.unreadable⟩
      rcases List.mem_cons.mp hstamp with rfl | hold
      · exact ⟨le_rfl, _, List.mem_cons_self, rfl, htime⟩
      · exact (h.pending stamp hold).mono le_rfl hbeats
  | land stamp =>
    simp only [HeartbeatState.exec, Option.ite_none_right_eq_some] at hstep
    obtain ⟨hstamp, hs⟩ := hstep
    obtain rfl := Option.some.inj hs
    have hbeaten := h.pending stamp hstamp
    refine ⟨fun other hother => h.pending other (List.mem_of_mem_erase hother),
      fun other hother => ?_, fun hnone => absurd hnone (by simp)⟩
    obtain rfl := Option.some.inj hother
    exact ⟨hbeaten, _, by simp [ExpiringMap.set], Nat.add_le_add_right hbeaten.1 _⟩
  | lose stamp =>
    simp only [HeartbeatState.exec, Option.ite_none_right_eq_some] at hstep
    obtain rfl := Option.some.inj hstep.2
    exact ⟨fun other hother => h.pending other (List.mem_of_mem_erase hother), h.landed,
      h.unreadable⟩
  | evict =>
    obtain rfl := Option.some.inj hstep
    refine ⟨h.pending, fun _ hlanded => absurd hlanded (by simp), fun _ value expiry hkey => ?_⟩
    simp [ExpiringMap.evict] at hkey
  | tamper value expiry =>
    simp only [HeartbeatState.exec, Option.ite_none_right_eq_some] at hstep
    obtain ⟨hunreadable, hs⟩ := hstep
    obtain rfl := Option.some.inj hs
    refine ⟨h.pending, fun _ hlanded => absurd hlanded (by simp), fun _ value' expiry' hkey => ?_⟩
    simp only [ExpiringMap.set, Function.update_self, Option.some.injEq, Prod.mk.injEq] at hkey
    exact hkey.1 ▸ hunreadable

theorem run (hrun : Txn.run (HeartbeatState.exec dates) {} as = some s) : s.Sound dates :=
  run_induction (P := Sound dates) (fun _ action _ h => h.exec action) empty hrun

/-- What is read of the key when a stamp has landed: the stamp, until the key expires. -/
theorem observedAt_of_landed (h : s.Sound dates) (hlanded : s.landed = some stamp) :
    ∃ expiry, stamp + 1000 * queueHeartbeatKeyTtlSeconds ≤ expiry ∧
      (s.readHeartbeat dates).observedAt = if s.now < expiry then some stamp else none := by
  obtain ⟨-, expiry, hkey, hexpiry⟩ := h.landed stamp hlanded
  have hne : dates.toISOString stamp ≠ "" := by
    intro hempty
    have hparse := dates.parse_toISOString stamp
    rw [hempty, dates.parse_empty] at hparse
    cases hparse
  refine ⟨expiry, hexpiry, ?_⟩
  by_cases hlt : s.now < expiry
  · simp [readHeartbeat, ExpiringMap.get?, hkey, Option.filter_some, hlt, hne,
      dates.parse_toISOString]
  · simp [readHeartbeat, ExpiringMap.get?, hkey, Option.filter_some, hlt]

theorem observedAt_of_none (h : s.Sound dates) (hlanded : s.landed = none) :
    (s.readHeartbeat dates).observedAt = none := by
  simp only [readHeartbeat, Option.bind_eq_none_iff]
  intro value hvalue
  obtain ⟨hread, -⟩ := Option.filter_eq_some_iff.mp hvalue
  obtain ⟨expiry, hkey, -⟩ := ExpiringMap.get?_eq_some.mp hread
  exact h.unreadable hlanded value expiry hkey

/-- The key is there as long as the stamp in it is fresh. -/
theorem isFresh_iff (h : s.Sound dates) : (s.readHeartbeat dates).isFresh = true ↔
    ∃ stamp, s.landed = some stamp ∧ s.now ≤ stamp + queueHeartbeatStaleAfterMilliseconds := by
  have hfresh : (s.readHeartbeat dates).isFresh =
      (s.readHeartbeat dates).observedAt.any fun time : ℕ =>
        (s.now : ℤ) - time ≤ queueHeartbeatStaleAfterMilliseconds := rfl
  rw [hfresh]
  cases hlanded : s.landed with
  | none => simp [h.observedAt_of_none hlanded]
  | some stamp =>
    obtain ⟨expiry, hexpiry, hobserved⟩ := h.observedAt_of_landed hlanded
    have hlonger : queueHeartbeatStaleAfterMilliseconds < 1000 * queueHeartbeatKeyTtlSeconds := by
      decide
    rw [hobserved]
    by_cases hlt : s.now < expiry
    · rw [if_pos hlt, Option.any_some, decide_eq_true_eq]
      simp only [Option.some.injEq, exists_eq_left']
      omega
    · rw [if_neg hlt]
      simp only [Option.some.injEq, exists_eq_left']
      exact iff_of_false (by simp) (by omega)

end Sound

end HeartbeatState

/-- In every state of every run: the heartbeat is fresh exactly while the stamp that landed last,
and was not deleted since, is no older than the threshold. Some worker then ran the handler at
that time, no more than an interval after the beat was due. -/
theorem heartbeat_fresh_iff (hrun : run (HeartbeatState.exec dates) {} as = some s) :
    ((s.readHeartbeat dates).isFresh = true ↔
      ∃ stamp, s.landed = some stamp ∧ s.now ≤ stamp + 900000) ∧
    ((s.readHeartbeat dates).isFresh = true → ∃ beat ∈ s.beats,
      (s.readHeartbeat dates).observedAt = some beat.time ∧ beat.time ≤ s.now ∧
        s.now ≤ beat.time + 900000 ∧
        ∀ text ∈ beat.scheduledAt, ∀ time ∈ dates.parse text, beat.time ≤ time + 300000) := by
  have hsound := HeartbeatState.Sound.run hrun
  refine ⟨hsound.isFresh_iff, fun hfresh => ?_⟩
  obtain ⟨stamp, hlanded, hle⟩ := hsound.isFresh_iff.mp hfresh
  obtain ⟨⟨hnow, beat, hbeat, rfl, htime⟩, -⟩ := hsound.landed stamp hlanded
  obtain ⟨expiry, hexpiry, hobserved⟩ := hsound.observedAt_of_landed hlanded
  have hlonger : queueHeartbeatStaleAfterMilliseconds < 1000 * queueHeartbeatKeyTtlSeconds := by
    decide
  rw [if_pos (by omega)] at hobserved
  exact ⟨beat, hbeat, hobserved, hnow, hle, htime⟩

/-- A beat that was due at once lands late, when another one is due. -/
def sampleBeats : List HeartbeatAction :=
  [.tick 300000, .beat (some "1970-01-01T00:05:00.000Z"), .tick 300000, .land 300000, .tick 500000]

theorem heartbeat_fresh_iff_late : ∃ s, run (HeartbeatState.exec sampleDates) {} sampleBeats =
    some s ∧ (s.readHeartbeat sampleDates).isFresh = true := by
  have hsample : ∃ s ∈ run (HeartbeatState.exec sampleDates) {} sampleBeats,
      s.landed = some 300000 ∧ s.now = 1100000 := by
    decide +kernel
  obtain ⟨s, hrun, hlanded, hnow⟩ := hsample
  exact ⟨s, hrun, (heartbeat_fresh_iff hrun).1.mpr ⟨300000, hlanded, by omega⟩⟩

end NestApi
