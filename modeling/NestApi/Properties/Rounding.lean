import NestApi.Auth.JwtStrategy

/-!
# The rounding of session cutoffs

A token is refused if it was issued before a session end, and passes if it was issued after the
wait for the cutoff. In between lies one millisecond: a session end on a whole second leaves
the cutoff there, and a token that is issued in the same millisecond is not older.
-/

namespace NestApi

open JwtStrategy

variable {ti tc : ℤ} {sub : Uuid} {exp : Option ℤ} {jti : String} {user : TokenUser}

/-- The comparison in seconds is one in milliseconds. -/
theorem predatesCutoff_iff
    (hcutoff : user.passwordChangedAt = some (SessionCutoff.nextWholeSecond tc)) :
    PredatesCutoff (sessionPayload sub ti exp jti) user ↔
      ti < SessionCutoff.nextWholeSecond tc := by
  simp only [PredatesCutoff, sessionPayload, hcutoff, Option.mem_some_iff, exists_eq_left']
  unfold SessionCutoff.nextWholeSecond
  omega

/-- Among the tokens that are not younger than the session end, one passes. -/
theorem lt_nextWholeSecond_iff (h : ti ≤ tc) :
    ti < SessionCutoff.nextWholeSecond tc ↔ ¬ (ti = tc ∧ 1000 ∣ tc) := by
  have hle := SessionCutoff.le_nextWholeSecond tc
  have hwhole := SessionCutoff.nextWholeSecond_eq_iff (t := tc)
  omega

/-- A token that was issued no later than a session end is refused, unless it was issued in the
very millisecond of a session end on a whole second; and a token that is issued after the wait
for the cutoff is judged as if there were none. -/
theorem cutoff_exact (ti tc : ℤ) (sub : Uuid) (exp : Option ℤ) (jti : String)
    (user : Option TokenUser) (blocklisted : String → Option Bool)
    (hcutoff : ∀ u ∈ user, u.passwordChangedAt = some (SessionCutoff.nextWholeSecond tc)) :
    (ti ≤ tc → ¬ (ti = tc ∧ 1000 ∣ tc) →
      Rejects (sessionPayload sub ti exp jti) user blocklisted) ∧
    (∀ now t, SessionCutoff.WaitReturned (some (SessionCutoff.nextWholeSecond tc)) now t → t ≤ ti →
      validate (sessionPayload sub ti exp jti) user blocklisted =
        validate (sessionPayload sub ti exp jti)
          (user.map fun u => { u with passwordChangedAt := none }) blocklisted) := by
  constructor
  · intro hti hexcept
    cases user with
    | none => exact ⟨Errors.userInactive, rfl⟩
    | some u =>
      have hbefore := (lt_nextWholeSecond_iff hti).mpr hexcept
      exact rejects_of_predatesCutoff ((predatesCutoff_iff (hcutoff u rfl)).mpr hbefore)
  · intro now t hwait ht
    cases user with
    | none => rfl
    | some u =>
      have hpassed := hwait.le
      refine validate_of_not_predatesCutoff fun hpredates => ?_
      have hbefore := (predatesCutoff_iff (hcutoff u rfl)).mp hpredates
      omega

/-- A revocation at 10.400 s refuses a token of 10.100 s, and a token of 11.000 s passes. -/
theorem cutoff_exact_sameSecond :
    Rejects (sessionPayload "ann" 10100 none "t") (some ⟨"ann", "ann@x", true, some 11000⟩)
      (fun _ => none) ∧
    validate (sessionPayload "ann" 11000 none "t") (some ⟨"ann", "ann@x", true, some 11000⟩)
      (fun _ => none) =
        validate (sessionPayload "ann" 11000 none "t") (some ⟨"ann", "ann@x", true, none⟩)
          (fun _ => none) :=
  ⟨(cutoff_exact 10100 10400 "ann" none "t" (some ⟨"ann", "ann@x", true, some 11000⟩)
      (fun _ => none) (by decide +kernel)).1 (by decide) (by decide),
    (cutoff_exact 11000 10400 "ann" none "t" (some ⟨"ann", "ann@x", true, some 11000⟩)
      (fun _ => none) (by decide +kernel)).2 10400 11000 (by decide +kernel) (by decide)⟩

/-- A token and a session end in one millisecond, on a whole second. -/
theorem validate_wholeSecond :
    SessionCutoff.nextWholeSecond 11000 = 11000 ∧
      validate (sessionPayload "ann" 11000 none "t")
        (some ⟨"ann", "ann@x", true, some (SessionCutoff.nextWholeSecond 11000)⟩) (fun _ => none) =
          .ok ⟨"ann", "ann@x", some "t", none⟩ := by
  decide +kernel

end NestApi
