import Mathlib.Algebra.Order.Group.Int
import NestApi.Auth.RefreshTokens

/-!
# Access tokens

What an access token carries, when it is refused, and how a session cutoff is rounded and
waited out. The seconds of a token are rounded down, so a cutoff is rounded up. Instants are
milliseconds, before or after the epoch.
-/

namespace NestApi

/-! ### Session cutoffs -/

namespace SessionCutoff

/-- `Math.ceil(from / 1000) * 1000`. -/
def nextWholeSecond (t : ℤ) : ℤ := -(-t / 1000) * 1000

/-- What is left to wait when a wait for a cutoff begins, if anything is. -/
def remainingMs (cutoff : Option ℤ) (now : ℤ) : Option ℤ :=
  cutoff.bind fun cutoff => if cutoff - now ≤ 0 then none else some (cutoff - now)

/-- `waitForSessionCutoff`, called at `now`, may have returned at `t`: timers do not fire early. -/
def WaitReturned (cutoff : Option ℤ) (now t : ℤ) : Prop :=
  now ≤ t ∧ ∀ ms ∈ remainingMs cutoff now, now + ms ≤ t

instance (cutoff : Option ℤ) (now t : ℤ) : Decidable (WaitReturned cutoff now t) :=
  inferInstanceAs (Decidable (_ ∧ _))

theorem le_nextWholeSecond (t : ℤ) : t ≤ nextWholeSecond t := by
  unfold nextWholeSecond
  omega

/-- Only a whole second stays as it is. -/
theorem nextWholeSecond_eq_iff {t : ℤ} : nextWholeSecond t = t ↔ 1000 ∣ t := by
  unfold nextWholeSecond
  omega

/-- The cutoffs of the system, whose clock starts at the epoch. -/
theorem nextWholeSecond_natCast (t : ℕ) :
    nextWholeSecond (t : ℤ) = (NestApi.nextWholeSecond t : ℤ) := by
  unfold nextWholeSecond NestApi.nextWholeSecond
  omega

/-- After the wait the cutoff has passed. -/
theorem WaitReturned.le {cutoff now t : ℤ} (h : WaitReturned (some cutoff) now t) :
    cutoff ≤ t := by
  obtain ⟨hnow, hwait⟩ := h
  by_cases hpassed : cutoff - now ≤ 0
  · omega
  · have hremaining : remainingMs (some cutoff) now = some (cutoff - now) := if_neg hpassed
    have hms := hwait (cutoff - now) hremaining
    omega

end SessionCutoff

/-! ### Payloads -/

/-- The claims of a token. `iat` and `exp` are seconds. -/
structure JwtPayload where
  sub : Uuid
  iat : Option ℤ
  exp : Option ℤ
  jti : Option String
  purpose : Option String
deriving DecidableEq

/-- Only tokens that were signed for something else name a purpose. -/
def isAccessTokenPayload (payload : JwtPayload) : Prop := payload.purpose = none

instance (payload : JwtPayload) : Decidable (isAccessTokenPayload payload) :=
  inferInstanceAs (Decidable (_ = _))

/-- The claims that `toSessionTokens` signs for a refresh row, with what the signing adds. -/
def sessionPayload (userId : Uuid) (issuedAt : ℤ) (exp : Option ℤ) (jti : String) : JwtPayload where
  sub := userId
  iat := some (issuedAt / 1000)
  exp := exp
  jti := some jti
  purpose := none

/-! ### The strategy -/

namespace JwtStrategy

/-- The account of a token, as the strategy reads it. -/
structure TokenUser where
  id : Uuid
  email : String
  isActive : Bool
  passwordChangedAt : Option ℤ
deriving DecidableEq

/-- Whom a request is made by. -/
structure AuthenticatedUser where
  id : Uuid
  email : String
  jti : Option String
  exp : Option ℤ
deriving DecidableEq

/-- The token was issued in a second before that of the cutoff. -/
def PredatesCutoff (payload : JwtPayload) (user : TokenUser) : Prop :=
  ∃ changedAt ∈ user.passwordChangedAt, ∃ iat ∈ payload.iat, iat < changedAt / 1000

instance (payload : JwtPayload) (user : TokenUser) : Decidable (PredatesCutoff payload user) :=
  inferInstanceAs (Decidable (∃ changedAt ∈ user.passwordChangedAt, _))

/-- Judge a token whose signature and expiry are good. `user` is the live account that it
names; `blocklisted` is the answer of Redis, absent when it does not answer. -/
def validate (payload : JwtPayload) (user : Option TokenUser)
    (blocklisted : String → Option Bool) : Except ApiError AuthenticatedUser :=
  if ¬ isAccessTokenPayload payload then .error Errors.tokenInvalid
  else match user with
  | none => .error Errors.userInactive
  | some user =>
    if user.isActive = false then .error Errors.userInactive
    else if PredatesCutoff payload user then .error Errors.sessionInvalidated
    -- without Redis the token passes
    else if ∃ jti ∈ payload.jti, blocklisted jti = some true then .error Errors.tokenRevoked
    else .ok { id := user.id, email := user.email, jti := payload.jti, exp := payload.exp }

/-- A token is refused, for whatever reason. -/
def Rejects (payload : JwtPayload) (user : Option TokenUser)
    (blocklisted : String → Option Bool) : Prop :=
  ∃ e, validate payload user blocklisted = .error e

variable {payload : JwtPayload} {user : TokenUser} {blocklisted : String → Option Bool}

/-- A token from before the cutoff is refused. -/
theorem rejects_of_predatesCutoff (h : PredatesCutoff payload user) :
    Rejects payload (some user) blocklisted := by
  simp only [Rejects, validate, if_pos h]
  split
  · exact ⟨_, rfl⟩
  · split
    · exact ⟨_, rfl⟩
    · exact ⟨_, rfl⟩

/-- Any other token is judged as if there were no cutoff. -/
theorem validate_of_not_predatesCutoff (h : ¬ PredatesCutoff payload user) :
    validate payload (some user) blocklisted =
      validate payload (some { user with passwordChangedAt := none }) blocklisted := by
  have hnone : ¬ PredatesCutoff payload { user with passwordChangedAt := none } := by
    simp [PredatesCutoff]
  simp only [validate, if_neg h, if_neg hnone]

end JwtStrategy

end NestApi
