import Mathlib.Logic.Function.Basic

/-!
# Collecting claims

Values claim keys one after another, and two different values for one key are a conflict. All of
them go through exactly when no key is claimed twice, and then the map holds what was claimed.
-/

namespace NestApi

variable {K V ε : Type} [DecidableEq K] [DecidableEq V]

/-- A value claims a key. Another value may not have claimed it before. -/
def claim (conflict : K → V → V → ε) (m : K → Option V) (entry : K × V) :
    Except ε (K → Option V) :=
  match m entry.1 with
  | some held =>
    if held ≠ entry.2 then .error (conflict entry.1 held entry.2)
    else .ok (Function.update m entry.1 (some entry.2))
  | none => .ok (Function.update m entry.1 (some entry.2))

variable {conflict : K → V → V → ε} {m m' : K → Option V} {entry : K × V} {e : ε}

theorem claim_eq_ok : claim conflict m entry = .ok m' ↔
    (∀ held, m entry.1 = some held → held = entry.2) ∧
      m' = Function.update m entry.1 (some entry.2) := by
  unfold claim
  split
  · next held hheld =>
    by_cases heq : held = entry.2
    · simp [hheld, heq, eq_comm]
    · simp [hheld, heq]
  · next hfree => simp [hfree, eq_comm]

theorem claim_eq_error : claim conflict m entry = .error e ↔
    ∃ held, m entry.1 = some held ∧ held ≠ entry.2 ∧ conflict entry.1 held entry.2 = e := by
  unfold claim
  split
  · next held hheld =>
    by_cases heq : held = entry.2
    · simp [hheld, heq]
    · simp [hheld, heq]
  · next hfree => simp [hfree]

/-- Every entry claims its key, in order. -/
def claimAll (conflict : K → V → V → ε) (m : K → Option V) :
    List (K × V) → Except ε (K → Option V)
  | [] => .ok m
  | entry :: entries =>
    match claim conflict m entry with
    | .ok m' => claimAll conflict m' entries
    | .error e => .error e

/-- A map holds what has claimed a key so far. -/
def Holds (m : K → Option V) (entries : List (K × V)) : Prop :=
  ∀ k v, m k = some v ↔ (k, v) ∈ entries

/-- No key is claimed by two values. -/
def Unambiguous (entries : List (K × V)) : Prop :=
  ∀ k v w, (k, v) ∈ entries → (k, w) ∈ entries → v = w

omit [DecidableEq K] [DecidableEq V] in
theorem Holds.unambiguous {entries : List (K × V)} (h : Holds m entries) :
    Unambiguous entries := fun k v w hv hw =>
  Option.some.inj (((h k v).mpr hv).symm.trans ((h k w).mpr hw))

/-- One claim: it goes through exactly when the map is still unambiguous with it. -/
theorem Holds.claim {before : List (K × V)} (h : Holds m before) (conflict : K → V → V → ε)
    (entry : K × V) :
    (∃ m', claim conflict m entry = .ok m' ∧ Holds m' (before ++ [entry])) ∨
      ∃ held, (entry.1, held) ∈ before ∧ held ≠ entry.2 ∧
        NestApi.claim conflict m entry = .error (conflict entry.1 held entry.2) := by
  by_cases hheld : ∃ held, m entry.1 = some held ∧ held ≠ entry.2
  · obtain ⟨held, hm, hne⟩ := hheld
    exact .inr ⟨held, (h _ _).mp hm, hne, claim_eq_error.mpr ⟨held, hm, hne, rfl⟩⟩
  · simp only [not_exists, not_and, not_not] at hheld
    refine .inl ⟨_, claim_eq_ok.mpr ⟨hheld, rfl⟩, fun k v => ?_⟩
    rw [List.mem_append, List.mem_singleton, ← h k v, Function.update_apply]
    by_cases hk : k = entry.1
    · subst hk
      rw [if_pos rfl]
      constructor
      · rintro hv
        exact .inr (Prod.ext rfl (Option.some.inj hv).symm)
      · rintro (hv | hv)
        · rw [hheld v hv]
        · rw [← hv]
    · have hne : (k, v) ≠ entry := fun heq => hk (congrArg Prod.fst heq)
      rw [if_neg hk]
      simp only [hne, or_false]

theorem Holds.claimAll {before : List (K × V)} (h : Holds m before) (conflict : K → V → V → ε)
    (entries : List (K × V)) :
    (∃ m', claimAll conflict m entries = .ok m' ∧ Holds m' (before ++ entries)) ∨
      ∃ k v w, (k, v) ∈ before ++ entries ∧ (k, w) ∈ before ++ entries ∧ v ≠ w ∧
        NestApi.claimAll conflict m entries = .error (conflict k v w) := by
  induction entries generalizing m before with
  | nil => exact .inl ⟨m, rfl, by rwa [List.append_nil]⟩
  | cons entry entries ih =>
    rw [← List.singleton_append, ← List.append_assoc]
    rcases h.claim conflict entry with
      ⟨m', hclaim, hm'⟩ | ⟨held, hbefore, hne, hclaim⟩
    · simpa only [List.singleton_append, NestApi.claimAll, hclaim] using ih hm'
    · refine .inr ⟨entry.1, held, entry.2, by simp [hbefore], by simp, hne, ?_⟩
      simp only [List.singleton_append, NestApi.claimAll, hclaim]

/-- All claims go through exactly when they are unambiguous. -/
theorem claimAll_eq_ok {entries : List (K × V)} :
    claimAll conflict (fun _ => none) entries = .ok m ↔
      Unambiguous entries ∧ Holds m entries := by
  have hempty : Holds (fun _ : K => (none : Option V)) [] := by
    intro k v
    simp
  rcases hempty.claimAll conflict entries with
    ⟨m', hall, hm'⟩ | ⟨k, v, w, hv, hw, hne, herror⟩
  · rw [List.nil_append] at hm'
    rw [hall]
    constructor
    · intro heq
      obtain rfl := Except.ok.inj heq
      exact ⟨hm'.unambiguous, hm'⟩
    · rintro ⟨-, hm⟩
      refine congrArg Except.ok (funext fun k => Option.ext fun v => ?_)
      rw [hm' k v, hm k v]
  · rw [herror]
    constructor
    · intro heq
      cases heq
    · rintro ⟨hunambiguous, -⟩
      exact absurd (hunambiguous k v w hv hw) hne

end NestApi
