import NestApi.Accounts.Store

/-!
# Requests on accounts

Everything that writes the row of an account, what arrives beside it, and what the programs
report. What other services answer, such as a send limit or the ownership policy, is part of a
request, so a statement about every request is one about every answer.
-/

namespace NestApi

open Txn.Program

/-! ### Configuration -/

/-- The claims of a verified token, as far as they are strings. -/
structure VerifyPayload where
  sub : Option String
  purpose : Option String
  email : Option String
deriving DecidableEq

/-- Configuration and libraries. A token is signed and verified at an instant. -/
structure AccountEnv extends Env where
  fixedPhoneCode : Option String
  jwtSign : VerifyPayload → ℕ → String
  jwtVerify : String → ℕ → Option VerifyPayload

/-! ### Bodies of requests -/

/-- A new account. -/
structure CreateAccountDto where
  email : String
  username : Option String
  password : String
  firstName : String
  middleName : Option String
  lastName : String
  phoneNumber : Option String
  gender : Option String
  birthday : Option String
  timezone : Option String
deriving DecidableEq

/-- The profile. An absent field is not written, a null is. -/
structure UpdateInfoDto where
  firstName : Option String := none
  middleName : Option (Option String) := none
  lastName : Option String := none
  phoneNumber : Option (Option String) := none
  gender : Option (Option String) := none
  birthday : Option (Option String) := none
  timezone : Option (Option String) := none
deriving DecidableEq

/-- The administrative update: the profile, and what the session services know. -/
structure UpdateAccountDto extends UpdateUserDto, UpdateInfoDto
deriving DecidableEq

/-! ### Requests -/

/-- Requests and jobs. -/
inductive AccountRequest
  | createUser (dto : CreateAccountDto) (actorId : Option Uuid)
  /-- `soleOwned` are the workspaces that the policy finds nobody else to own. -/
  | updateUser (userId : Uuid) (dto : UpdateAccountDto) (actorId : Option Uuid)
      (soleOwned : List (String × String))
  | removeUser (userId : Uuid) (actorId : Option Uuid) (soleOwned : List (String × String))
  | softDelete (userId : Uuid) (soleOwned : List (String × String))
  | gdprErase (userId : Uuid) (currentPassword : String)
  | updateInfo (userId : Uuid) (dto : UpdateInfoDto)
  /-- `isClaimable` is the answer of the files service. -/
  | setProfileImage (userId : Uuid) (fileId : Option Uuid) (isClaimable : Bool)
  | updateUsername (userId : Uuid) (username : String)
  | updateEmail (userId : Uuid) (currentPassword newEmail : String)
  | updateOwnPassword (userId : Uuid) (currentPassword newPassword : String)
  | updatePasswordAsAdmin (userId actorId : Uuid) (newPassword : String)
  /-- `otp` is what `generateOtp` draws, `hasBudget` the answer of the send limit. -/
  | requestPhoneVerification (userId : Uuid) (currentPassword phoneNumber otp : String)
      (hasBudget : Bool)
  | verifyAndUpdatePhoneNumber (userId : Uuid) (otp phoneNumber : String)
  | updatePhoneNumber (userId : Uuid) (phoneNumber : String)
  | deliverPasswordReset (userId : Uuid) (hasBudget : Bool)
  | resetPassword (email token newPassword : String)
  | deliverEmailVerification (userId : Uuid) (hasBudget : Bool)
  | verifyEmailByToken (token : String)
  | deliverEmailChangedNotice (userId auditLogId : Uuid)
  | revokeAllSessions (userId actorId : Uuid)
  | logoutAll (userId : Uuid)
  /-- A refresh found the owner of its session ineligible. -/
  | endIneligibleSessions (userId : Uuid)
  | oauthLogin (identifier password : String)
  | oauthConfirm (sessionUid : Uuid)
  | oauthToken (credentialId : Uuid)
  | verifyAccessToken (tokenId : Uuid)
deriving DecidableEq

/-! ### Events -/

/-- What kind of write of an account's row. -/
inductive ChangeKind
  | update | deactivation | deletion | erasure | info | profileImage | username | email
  | ownPassword | adminPassword
  | passwordReset (token : String)
  | passwordResetMinted (token : String)
  | phoneCode
  | phoneVerified (phoneNumber : String)
  | phone
  | emailVerified (token email : String)
  | revocation
deriving DecidableEq

/-- A committed write of an account's row. `seen` is the row that the request had read without
a lock, if it read one. -/
structure Change where
  kind : ChangeKind
  userId : Uuid
  seen : Option Account
  data : AccountUpdateInput
deriving DecidableEq

/-- A job in the queue. -/
inductive AccountJob
  | emailVerification (userId : Uuid)
  | emailChangedNotice (userId auditLogId : Uuid)
  | passwordChangedNotice (userId : Uuid)
deriving DecidableEq

/-- What the programs report. -/
inductive AccountEvent
  /-- A row was looked up without a lock. -/
  | userRead (found : Option Account)
  | userCreated (userId : Uuid)
  | changed (c : Change)
  /-- A transaction committed and had nothing to write. -/
  | unchanged (userId : Uuid)
  | sessionStarted (userId : Uuid)
  | audited (row : AuditLog)
  | queued (job : AccountJob)
  | emailVerificationMailed (userId : Uuid) (email token : String)
  | passwordResetMailed (userId : Uuid) (email token : String)
  | emailChangedNoticeMailed (userId : Uuid) (email : String)
  | phoneCodeTexted (userId : Uuid) (phoneNumber : String)
  /-- The handler of an update is past its notices. -/
  | noticesSettled
  | oauthSignedIn (session : OAuthSession)
  | oauthCodeIssued (code : OAuthCredential)
  | accessTokenIssued (token : OAuthAccessToken)
  | accessTokenVerified (token : OAuthAccessToken) (accepted : Bool)
deriving DecidableEq

/-- A program over the store of accounts. -/
abbrev AccountTask (α : Type) :=
  Txn.Program AccountStore RowLock AccountEvent Uuid Failure α

/-! ### Statements -/

namespace Accounts

/-- An unlocked lookup. -/
def readUser (find : AccountStore → Option Account) : AccountTask (Option Account) :=
  selectObserved (fun s => .userRead (find s)) find

/-- The account, deleted ones included. -/
def findById (userId : Uuid) : AccountTask Account := do
  let user ← readUser fun s => s.user? userId
  orThrow user (.api (Errors.resourceNotFound "User"))

/-- The live account. -/
def findByIdOrNull (userId : Uuid) : AccountTask (Option Account) :=
  readUser fun s => s.scopedUser? userId

/-- `prisma.user.update`: the row must exist. -/
def updateUserRow (userId : Uuid) (data : AccountUpdateInput) : AccountTask Account := do
  lockRow (.user userId)
  let found ← select fun s => s.user? userId
  let user ← orThrow found .internal
  modify fun s => s.updateUser userId data
  pure (data.apply user)

/-- The same as a transaction of its own. -/
def updateUser (kind : ChangeKind) (userId : Uuid) (seen : Option Account)
    (data : AccountUpdateInput) : AccountTask Account :=
  transaction (updateUserRow userId data) fun _ => .changed ⟨kind, userId, seen, data⟩

/-- The row of an account that was not deleted meanwhile, under its lock. -/
def lockLiveUser (userId : Uuid) : AccountTask Account := do
  lockRow (.user userId)
  let lockedUser ← select fun s => s.scopedUser? userId
  orThrow lockedUser (.api (Errors.resourceNotFound "User"))

/-- A write whose columns were decided in its transaction. -/
def changedEvent (kind : ChangeKind) (userId : Uuid) (seen : Option Account)
    (written : Account × AccountUpdateInput) : AccountEvent :=
  .changed ⟨kind, userId, seen, written.2⟩

/-- End every session of an account, whose row the caller has locked. Answers the columns that
it wrote as well. -/
def endAllSessionsInTransaction (userId : Uuid) (actorId : Option Uuid)
    (userData : AccountUpdateInput) : AccountTask (Account × AccountUpdateInput) := do
  let now ← now
  let data := userData.endSessions actorId (nextWholeSecond now)
  let updated ← updateUserRow userId data
  let revokedAt ← Txn.Program.now
  modify fun s => s.revokeTokens userId revokedAt
  pure (updated, data)

/-- `endAllSessionsInTransaction` under its own transaction and lock. -/
def endAllSessions (kind : ChangeKind) (userId : Uuid) (actorId : Option Uuid)
    (seen : Option Account) (userData : AccountUpdateInput) : AccountTask Account := do
  let written ← transaction (do
      lockRow (.user userId)
      endAllSessionsInTransaction userId actorId userData)
    (changedEvent kind userId seen)
  pure written.1

/-- Start a new session, unless the cutoff moved since the caller read it. -/
def startSession (env : AccountEnv) (userId : Uuid) (expectedSessionCutoff : Option ℕ) :
    AccountTask Unit := do
  sleepUntil (expectedSessionCutoff.getD 0)
  transaction (do
      let user ← lockLiveUser userId
      ensure (user.isActive = true ∧ user.passwordChangedAt = expectedSessionCutoff)
        (.api Errors.invalidCredentials)
      let familyId ← freshId
      let token ← freshId
      let issuedAt ← now
      let id ← freshId
      modify fun s => s.insertToken
        { id, createdAt := issuedAt, userId, tokenHash := env.hashOpaqueToken token, familyId,
          expiresAt := issuedAt + env.refreshLifetimeDays * dayMs, consumedAt := none,
          revokedAt := none })
    fun _ => .sessionStarted userId

/-- One audit row. -/
def record (action : String) (actorId : Option Uuid) (targetUserId : Uuid)
    (previousEmail newEmail : Option String) : AccountTask Uuid := do
  let id ← freshId
  let createdAt ← now
  let row : AuditLog := { id, action, actorId, targetUserId, previousEmail, newEmail, createdAt }
  transaction (do
      modify fun s => s.insertAuditLog row
      pure id)
    fun _ => .audited row

def enqueue (job : AccountJob) : AccountTask Unit := emit (.queued job)

end Accounts

end NestApi
