import NestApi.Handler

/-!
# Sessions

Refresh tokens and the session cutoff. A token is exchanged once, for a child in the
same family. Presenting it again is evidence of theft and ends the family. Ending every
session of an account moves its cutoff and revokes its tokens in one transaction. Every
writer locks the user row first and the rows of a family second.
-/

namespace NestApi

/-- The first whole second at or after an instant, in milliseconds. -/
def nextWholeSecond (t : ℕ) : ℕ := (t + 999) / 1000 * 1000

theorem nextWholeSecond_mono {s t : ℕ} (h : s ≤ t) : nextWholeSecond s ≤ nextWholeSecond t := by
  unfold nextWholeSecond
  omega

theorem le_nextWholeSecond (t : ℕ) : t ≤ nextWholeSecond t := by
  unfold nextWholeSecond
  omega

/-- The columns an update of an account names. An absent column is not written. -/
structure UserUpdateInput where
  email : Option String := none
  username : Option (Option String) := none
  password : Option String := none
  otpHash : Option (Option String) := none
  otpPurpose : Option (Option OtpPurpose) := none
  otpExpiresAt : Option (Option ℕ) := none
  emailVerifiedAt : Option (Option ℕ) := none
  isActive : Option Bool := none
  deletedAt : Option (Option ℕ) := none
  deletedBy : Option (Option Uuid) := none
  updatedBy : Option (Option Uuid) := none
deriving DecidableEq

/-- The updated row. -/
def UserUpdateInput.apply (data : UserUpdateInput) (u : User) : User :=
  { u with
    email := data.email.getD u.email
    username := data.username.getD u.username
    password := data.password.getD u.password
    otpHash := data.otpHash.getD u.otpHash
    otpPurpose := data.otpPurpose.getD u.otpPurpose
    otpExpiresAt := data.otpExpiresAt.getD u.otpExpiresAt
    emailVerifiedAt := data.emailVerifiedAt.getD u.emailVerifiedAt
    isActive := data.isActive.getD u.isActive
    deletedAt := data.deletedAt.getD u.deletedAt
    deletedBy := data.deletedBy.getD u.deletedBy
    updatedBy := data.updatedBy.getD u.updatedBy }

/-- An update of one account. -/
def UserUpdateInput.rewrite (data : UserUpdateInput) : Txn.Rewrite User.id where
  row := data.apply
  key_row _ := rfl

/-- The row written when every session ends: the reason and the cutoff are one version. -/
def UserUpdateInput.endSessions (data : UserUpdateInput) (actorId : Option Uuid)
    (cutoff : ℕ) : Txn.Rewrite User.id where
  row u := { data.apply u with passwordChangedAt := some cutoff, updatedBy := actorId }
  key_row _ := rfl

namespace RefreshTokens

open Txn.Program

/-- The account behind a session, unless it may no longer hold one. -/
def loadEligibleSessionOwner (userId : Uuid) : Handler (Option User) :=
  select fun db => (db.scopedUser? userId).filter fun u => u.isActive

/-- Insert one token and answer its row. -/
def persist (env : Env) (userId familyId : Uuid) : Handler RefreshToken := do
  let token ← freshId
  let issuedAt ← now
  let id ← freshId
  let row : RefreshToken :=
    { id, createdAt := issuedAt, userId, tokenHash := env.hashOpaqueToken token, familyId,
      expiresAt := issuedAt + env.refreshLifetimeDays * dayMs, consumedAt := none,
      revokedAt := none }
  modify fun db => db.insertToken row
  pure row

/-- Wait until a session cutoff has passed. -/
def waitForSessionCutoff (cutoff : Option ℕ) : Handler Unit :=
  match cutoff with
  | none => pure ()
  | some cutoff => sleepUntil cutoff

/-- Start a new chain, unless the cutoff moved since the caller read it. -/
def issueForNewSession (env : Env) (userId : Uuid) (expectedSessionCutoff : Option ℕ) :
    Handler RefreshToken :=
  transaction (do
      lockUserRow userId
      let owner ← loadEligibleSessionOwner userId
      ensure (∃ u ∈ owner, u.passwordChangedAt = expectedSessionCutoff)
        (.api Errors.invalidCredentials)
      let familyId ← freshId
      persist env userId familyId)
    fun row => .sessionStarted userId row.familyId row.id

/-- Start a new session with the cutoff that was read when the user was authenticated. -/
def startSession (env : Env) (userId : Uuid) (expectedSessionCutoff : Option ℕ) :
    Handler RefreshToken := do
  waitForSessionCutoff expectedSessionCutoff
  issueForNewSession env userId expectedSessionCutoff

/-- End one session chain. Its owner is read inside the transaction, so that the lock
order is that of `rotate`. -/
def revokeFamily (familyId : Uuid) : Handler Unit :=
  transaction (do
      let anyTokenInFamily ← select fun db =>
        db.refreshTokens.rows.find? fun t => t.familyId = familyId
      match anyTokenInFamily with
      | none => pure ()
      | some token => do
        lockUserRow token.userId
        lockRefreshTokenFamily familyId
        let now ← now
        let _ ← updateManyTokens (fun t => t.familyId = familyId && t.revokedAt = none)
          (RefreshToken.revoked now)
        pure ())
    fun _ => .familyRevoked familyId

/-- End a family on evidence of theft, and record it. Always throws. -/
def handleReplay {α : Type} (userId familyId : Uuid) : Handler α := do
  revokeFamily familyId
  emit (.replayDetected userId familyId)
  throwApi Errors.refreshTokenInvalid

/-- Per-device logout: the family of the presented token. An unknown token is no error. -/
def revokeByToken (env : Env) (presentedToken : String) : Handler Unit := do
  let existing ← select fun db => db.refreshTokens.rows.find? fun t =>
    t.tokenHash = env.hashOpaqueToken presentedToken
  match existing with
  | none => pure ()
  | some token => revokeFamily token.familyId

/-- End every session of an account: the caller holds the user lock already. -/
def endAllSessionsInTransaction (userId : Uuid) (actorId : Option Uuid)
    (userData : UserUpdateInput) : Handler User := do
  let now ← now
  let updated ← updateUserRow userId (userData.endSessions actorId (nextWholeSecond now))
  let revokedAt ← Txn.Program.now
  let _ ← updateManyTokens (fun t => t.userId = userId && t.revokedAt = none)
    (RefreshToken.revoked revokedAt)
  pure updated

/-- The event of a transaction that ended every session. -/
def sessionsEndedEvent (reason : SessionEnd) (updated : User) : Event :=
  .sessionsEnded reason updated.id (updated.passwordChangedAt.getD 0)

/-- `endAllSessionsInTransaction` under its own transaction and lock. -/
def endAllSessions (reason : SessionEnd) (userId : Uuid) (actorId : Option Uuid)
    (userData : UserUpdateInput) : Handler User :=
  transaction (do
      lockUserRow userId
      endAllSessionsInTransaction userId actorId userData)
    (sessionsEndedEvent reason)

/-- The transaction of `rotate`: consume the presented token and issue its child. The
account, the cutoff and the token are decided on what is read under the locks. -/
def exchange (env : Env) (existing : RefreshToken) : Handler (User × RefreshToken) := do
  lockUserRow existing.userId
  lockRefreshTokenFamily existing.familyId
  let found ← loadEligibleSessionOwner existing.userId
  let owner ← orThrow found .sessionOwnerIneligible
  ensure (∀ cutoff ∈ owner.passwordChangedAt, cutoff ≤ existing.createdAt)
    .sessionPredatesCutoff
  let expiryNow ← now
  let consumedAt ← now
  let consumed ← updateManyTokens
    (fun t => t.id = existing.id && t.consumedAt = none && t.revokedAt = none &&
      decide (expiryNow < t.expiresAt)) (RefreshToken.consumed consumedAt)
  onlyIf (consumed.length ≠ 1) (emit (.consumeMissed existing.id expiryNow))
  ensure (consumed.length = 1) .replayDetected
  let child ← persist env existing.userId existing.familyId
  pure (owner, child)

/-- What follows a failed exchange, outside of its transaction. -/
def afterFailedExchange (existing : RefreshToken) :
    Failure → Handler (User × RefreshToken)
  | .replayDetected => handleReplay existing.userId existing.familyId
  | .sessionOwnerIneligible => do
    let _ ← endAllSessions .revocation existing.userId none {}
    throwApi Errors.refreshTokenInvalid
  | .sessionPredatesCutoff => throwApi Errors.refreshTokenInvalid
  | e => .fail e

/-- `rotate`, from the row of the presented token on. A token that is spent already is a
replay; one that is revoked or expired is refused and nothing more. -/
def rotateExisting (env : Env) (existing : RefreshToken) :
    Handler (User × RefreshToken) := do
  onlyIf (existing.consumedAt ≠ none) (handleReplay existing.userId existing.familyId)
  ensure (existing.revokedAt = none) (.api Errors.refreshTokenInvalid)
  let checkedAt ← now
  emit (.expiryChecked existing.id existing.expiresAt checkedAt)
  ensure (checkedAt < existing.expiresAt) (.api Errors.refreshTokenInvalid)
  catchError
    (transaction (exchange env existing) fun pair => .tokenRotated existing.id pair.2.id)
    (afterFailedExchange existing)

/-- How a presentation ended. -/
def answerOf {α : Type} : Except Failure α → Answer
  | .ok _ => .succeeded
  | .error (.api _) => .refused
  | .error _ => .failed

/-- The row of a presented token. -/
def findByToken (env : Env) (presentedToken : String) (db : Database) : Option RefreshToken :=
  db.refreshTokens.rows.find? fun t => t.tokenHash = env.hashOpaqueToken presentedToken

/-- Exchange a presented token. The answer for a known token is reported. -/
def rotate (env : Env) (presentedToken : String) : Handler Unit := do
  let existing ← selectObserved (fun db => .tokenRead (findByToken env presentedToken db))
    (findByToken env presentedToken)
  match existing with
  | none => throwApi Errors.refreshTokenInvalid
  | some existing =>
    report (rotateExisting env existing) fun r => .refreshAnswered existing.id (answerOf r)

/-- The retention sweep. -/
def purgeExpired : Handler Unit :=
  transaction (do
      let now ← now
      let found ← select fun db => (db.refreshTokens.filter fun t => t.expiresAt < now).map (·.id)
      lockRows (found.map .refreshToken)
      modify fun db => db.deleteTokens found
      pure found)
    (fun ids => .tokensPurged ids) >>= fun _ => pure ()

end RefreshTokens

end NestApi
