import NestApi.Accounts.Requests

/-!
# The operations on an account

Every operation of the users service that writes an account's row, in the order of the source.
Most of them read the row without a lock, decide on what they read, and write by id. Only the
profile operations read again under the lock.
-/

namespace NestApi.Accounts

open Txn.Program
open WorkspaceMemberships (toLowerCase)

/-! ### Emails about the account -/

def queueEmailVerification (userId : Uuid) : AccountTask Unit :=
  enqueue (.emailVerification userId)

def queuePasswordChangedNotice (userId : Uuid) : AccountTask Unit :=
  enqueue (.passwordChangedNotice userId)

/-- Record an email change and, when the previous address was verified, tell it. The previous
address and its stamp are those of the row that the caller read. -/
def recordEmailChange (user : Account) (newEmail : String) (actorId : Option Uuid) :
    AccountTask Unit := do
  let auditLogId ← record "user.email_changed" actorId user.id (some user.email) (some newEmail)
  onlyIf (user.emailVerifiedAt ≠ none) (enqueue (.emailChangedNotice user.id auditLogId))

/-- What a verification link says. -/
def verifyPayload (user : Account) : VerifyPayload :=
  ⟨some user.id, some "email_verify", some user.email⟩

/-- Mail a verification link to the address that was read. -/
def deliverEmailVerification (env : AccountEnv) (userId : Uuid) (hasBudget : Bool) :
    AccountTask Unit := do
  let found ← findByIdOrNull userId
  match found.filter fun u => u.emailVerifiedAt = none && hasBudget with
  | none => pure ()
  | some user => do
    let now ← now
    emit (.emailVerificationMailed user.id user.email (env.jwtSign (verifyPayload user) now))

/-- How long a reset link works. -/
def passwordResetExpiryMs : ℕ := 60 * 60 * 1000

/-- Replace the stored hash, then mail the link to the address that was read. -/
def mintAndSendPasswordReset (env : AccountEnv) (user : Account) : AccountTask Unit := do
  let token ← freshId
  let now ← now
  let _ ← updateUser (.passwordResetMinted token) user.id (some user)
    { otpHash := some (some (env.hashOpaqueToken token))
      otpPurpose := some (some .passwordReset)
      otpExpiresAt := some (some (now + passwordResetExpiryMs)) }
  emit (.passwordResetMailed user.id user.email token)

/-- The send budget is checked before the token is minted. -/
def deliverPasswordReset (env : AccountEnv) (userId : Uuid) (hasBudget : Bool) :
    AccountTask Unit := do
  let found ← findByIdOrNull userId
  match found.filter fun u => u.isActive && hasBudget with
  | none => pure ()
  | some user => mintAndSendPasswordReset env user

/-- Tell the previous address of an audit row. -/
def deliverEmailChangedNotice (userId auditLogId : Uuid) : AccountTask Unit := do
  let user ← findByIdOrNull userId
  let change ← select fun s => (s.auditLogs.find? auditLogId).filter fun row =>
    row.action = "user.email_changed" && row.targetUserId = userId
  match user, change.bind AuditLog.previousEmail with
  | some user, some previousEmail => emit (.emailChangedNoticeMailed user.id previousEmail)
  | _, _ => pure ()

/-- The conditional write of a redeemed link, which answers how many rows it found. -/
def markEmailVerified (token : String) (user : Account) (email : String) (now : ℕ) :
    AccountTask Bool :=
  let data : AccountUpdateInput :=
    { emailVerifiedAt := some (some now), updatedBy := some (some user.id) }
  transaction (do
      lockRow (.user user.id)
      let found ← select fun s => (s.user? user.id).filter fun u =>
        u.email = email && u.emailVerifiedAt = none && u.deletedAt = none
      onlyIf (found.isSome = true) (modify fun s => s.updateUser user.id data)
      pure found.isSome)
    fun
      | true => .changed ⟨.emailVerified token email, user.id, some user, data⟩
      | false => .unchanged user.id

/-- Redeem a verification link. It verifies the address it was mailed to, and only that one. -/
def verifyEmailByToken (env : AccountEnv) (token : String) : AccountTask Unit := do
  let readAt ← now
  let payload ← orThrow (env.jwtVerify token readAt) (.api Errors.invalidLink)
  ensure (payload.purpose = some "email_verify") (.api Errors.invalidLink)
  let sub ← orThrow payload.sub (.api Errors.invalidLink)
  let found ← findByIdOrNull sub
  let user ← orThrow (found.filter fun u => payload.email = some u.email) (.api Errors.invalidLink)
  if user.emailVerifiedAt ≠ none then
    pure ()
  else do
    let now ← now
    let verified ← markEmailVerified token user user.email now
    if verified = true then do
      let _ ← record "user.email_verified" (some user.id) user.id none none
      pure ()
    else do
      -- the same link may have been redeemed concurrently
      let current ← findByIdOrNull user.id
      ensure (∃ u ∈ current, u.email = user.email ∧ u.emailVerifiedAt ≠ none)
        (.api Errors.invalidLink)

/-! ### Creation -/

/-- A new account. It has no proof of its address. -/
def create (env : AccountEnv) (dto : CreateAccountDto) (actorId : Option Uuid) :
    AccountTask Unit := do
  let salt ← freshId
  let passwordChangedAt ← now
  let id ← freshId
  let user : Account :=
    { id
      email := toLowerCase dto.email
      username := dto.username.map toLowerCase
      password := env.hashPassword dto.password salt
      passwordChangedAt := some passwordChangedAt
      otpHash := none
      otpPurpose := none
      otpExpiresAt := none
      emailVerifiedAt := none
      isActive := true
      deletedAt := none
      deletedBy := none
      updatedBy := actorId
      firstName := dto.firstName
      middleName := dto.middleName
      lastName := dto.lastName
      phoneNumber := dto.phoneNumber
      phoneNumberVerifiedAt := none
      gender := dto.gender
      birthday := dto.birthday
      timezone := dto.timezone
      profileImageFileAssetId := none }
  transaction (do
      -- an inserted row is held by its transaction
      lockRow (.user user.id)
      modify fun s => s.insertUser user)
    fun _ => .userCreated user.id
  onlyIf (actorId ≠ none) (do
    let _ ← record "user.created.by_admin" actorId user.id none none
    pure ())
  queueEmailVerification user.id

/-! ### Update and deactivation -/

/-- Whether an administrative update moves the account from the address that was read. -/
def isEmailChanged (existing : Account) (dto : UpdateAccountDto) : Prop :=
  ∃ email ∈ dto.email, toLowerCase email ≠ existing.email

instance (existing : Account) (dto : UpdateAccountDto) : Decidable (isEmailChanged existing dto) :=
  inferInstanceAs (Decidable (∃ email ∈ dto.email, toLowerCase email ≠ existing.email))

/-- The columns that an administrative update writes. -/
def updateData (existing : Account) (dto : UpdateAccountDto) (actorId : Option Uuid) :
    AccountUpdateInput where
  toUserUpdateInput := UsersService.updateData existing.toUser dto.toUpdateUserDto actorId
  firstName := dto.firstName
  middleName := dto.middleName
  lastName := dto.lastName
  phoneNumber := dto.phoneNumber
  gender := dto.gender
  birthday := dto.birthday
  timezone := dto.timezone

/-- Refuse to strand a workspace. -/
def assertUserIsNotASoleOwner (soleOwned : List (String × String)) : AccountTask Unit :=
  ensure (soleOwned = []) (.api (Errors.lastOwnerProtected soleOwned))

/-- Active to inactive, with the ownership check and the session end. -/
def deactivate (userId : Uuid) (seen : Account) (data : AccountUpdateInput)
    (actorId : Option Uuid) (soleOwned : List (String × String)) : AccountTask Unit := do
  let _ ← transaction (do
      lockRow (.user userId)
      assertUserIsNotASoleOwner soleOwned
      endAllSessionsInTransaction userId actorId data)
    (changedEvent .deactivation userId (some seen))
  pure ()

/-- The audit row of an administrator's action on somebody else. -/
def recordByAdmin (action : String) (actorId : Option Uuid) (targetUserId : Uuid) :
    AccountTask Unit :=
  onlyIf (actorId ≠ none ∧ actorId ≠ some targetUserId) (do
    let _ ← record action actorId targetUserId none none
    pure ())

/-- What follows the write of an administrative update. -/
def afterUpdate (userId : Uuid) (existing : Account) (dto : UpdateAccountDto)
    (actorId : Option Uuid) : AccountTask Unit := do
  recordByAdmin "user.updated.by_admin" actorId userId
  onlyIf (isEmailChanged existing dto) (do
    recordEmailChange existing (toLowerCase (dto.email.getD "")) actorId
    queueEmailVerification userId)
  emit .noticesSettled

/-- The administrative update. Which branch runs, whether the stamp of the address is cleared
and whom the notices name are decided by the row read before any lock. -/
def update (userId : Uuid) (dto : UpdateAccountDto) (actorId : Option Uuid)
    (soleOwned : List (String × String)) : AccountTask Unit := do
  let existing ← findById userId
  let data := updateData existing dto actorId
  if dto.isActive = some false ∧ existing.isActive = true then do
    deactivate userId existing data actorId soleOwned
    afterUpdate userId existing dto actorId
  else do
    let _ ← updateUser .update userId (some existing) data
    afterUpdate userId existing dto actorId

/-! ### Deletion and erasure -/

/-- Soft-delete an account, refusing to strand a workspace. -/
def deleteAccount (userId : Uuid) (seen : Account) (actorId : Option Uuid)
    (soleOwned : List (String × String)) : AccountTask Unit := do
  let _ ← transaction (do
      lockRow (.user userId)
      assertUserIsNotASoleOwner soleOwned
      let now ← now
      endAllSessionsInTransaction userId actorId
        { deletedAt := some (some now), deletedBy := some actorId })
    (changedEvent .deletion userId (some seen))
  pure ()

/-- The administrative delete. -/
def remove (userId : Uuid) (actorId : Option Uuid) (soleOwned : List (String × String)) :
    AccountTask Unit := do
  let seen ← findById userId
  deleteAccount userId seen actorId soleOwned
  onlyIf (actorId ≠ none) (do
    let _ ← record "user.soft_deleted.by_admin" actorId userId none none
    pure ())

/-- The self-close. -/
def softDelete (userId : Uuid) (soleOwned : List (String × String)) : AccountTask Unit := do
  let seen ← findById userId
  deleteAccount userId seen (some userId) soleOwned
  let _ ← record "user.self_deleted" (some userId) userId none none
  pure ()

/-- The columns that an erasure writes. The stamp of the phone number is not among them. -/
def erasedData (userId : Uuid) (erasedPasswordHash : String) (now : ℕ) : AccountUpdateInput where
  toUserUpdateInput := UsersService.erasedData userId erasedPasswordHash now
  firstName := some "Deleted"
  middleName := some none
  lastName := some "User"
  phoneNumber := some none
  gender := some none
  birthday := some none
  timezone := some none
  profileImageFileAssetId := some none

/-- Erase an account. The password is checked before the transaction, on the row read then. -/
def gdprErase (env : AccountEnv) (userId : Uuid) (currentPassword : String) :
    AccountTask Unit := do
  let user ← findById userId
  ensure (env.bcryptCompare currentPassword user.password = true)
    (.api Errors.currentPasswordIncorrect)
  let now ← now
  let salt ← freshId
  let erasedPasswordHash := env.hashPassword s!"erased-{userId}-{now}" salt
  let _ ← transaction (do
      lockRow (.user userId)
      endAllSessionsInTransaction userId (some userId) (erasedData userId erasedPasswordHash now))
    (changedEvent .erasure userId (some user))
  let _ ← record "user.gdpr_erased" (some userId) userId none none
  pure ()

/-! ### Profile -/

/-- The columns of a profile update. -/
def infoData (dto : UpdateInfoDto) (actorId : Uuid) : AccountUpdateInput where
  firstName := dto.firstName
  middleName := dto.middleName
  lastName := dto.lastName
  phoneNumber := dto.phoneNumber
  gender := dto.gender
  birthday := dto.birthday
  timezone := dto.timezone
  updatedBy := some (some actorId)

/-- Lock, then read again: an erasure may have committed while this request waited. -/
def updateInfo (userId : Uuid) (dto : UpdateInfoDto) : AccountTask Unit := do
  let seen ← findById userId
  let _ ← transaction (do
      let _ ← lockLiveUser userId
      updateUserRow userId (infoData dto userId))
    fun _ => .changed ⟨.info, userId, some seen, infoData dto userId⟩
  pure ()

/-- Set, replace or remove the picture. The current picture again writes nothing. -/
def setProfileImage (userId : Uuid) (fileId : Option Uuid) (isClaimable : Bool) :
    AccountTask Unit :=
  let requestedFileId := fileId.map toLowerCase
  let data : AccountUpdateInput :=
    { profileImageFileAssetId := some requestedFileId, updatedBy := some (some userId) }
  do
    let _ ← transaction (do
        let lockedUser ← lockLiveUser userId
        if requestedFileId = lockedUser.profileImageFileAssetId then
          pure false
        else do
          ensure (requestedFileId = none ∨ isClaimable = true)
            (.api (Errors.resourceNotFound "File"))
          let _ ← updateUserRow userId data
          pure true)
      fun
        | true => .changed ⟨.profileImage, userId, none, data⟩
        | false => .unchanged userId
    pure ()

def updateUsername (userId : Uuid) (username : String) : AccountTask Unit := do
  let seen ← findById userId
  let _ ← updateUser .username userId (some seen)
    { username := some (some (toLowerCase username)), updatedBy := some (some userId) }
  pure ()

/-! ### Address and password -/

/-- Move the account to a new address, end the other sessions and stay signed in here. -/
def updateEmail (env : AccountEnv) (userId : Uuid) (currentPassword newEmail : String) :
    AccountTask Unit := do
  let user ← findById userId
  ensure (env.bcryptCompare currentPassword user.password = true)
    (.api Errors.currentPasswordIncorrect)
  let updated ← endAllSessions .email userId (some userId) (some user)
    { email := some (toLowerCase newEmail), emailVerifiedAt := some none }
  onlyIf (toLowerCase newEmail ≠ user.email)
    (recordEmailChange user (toLowerCase newEmail) (some userId))
  queueEmailVerification userId
  emit .noticesSettled
  startSession env userId updated.passwordChangedAt

/-- The credential write. The hash is made before the transaction opens. -/
def applyPasswordChange (env : AccountEnv) (kind : ChangeKind) (userId : Uuid) (seen : Account)
    (plaintextPassword : String) (actorId : Option Uuid) (extraData : AccountUpdateInput) :
    AccountTask Account := do
  let salt ← freshId
  endAllSessions kind userId actorId (some seen)
    { extraData with password := some (env.hashPassword plaintextPassword salt) }

/-- Change one's own password and stay signed in here. -/
def updateOwnPassword (env : AccountEnv) (userId : Uuid) (currentPassword newPassword : String) :
    AccountTask Unit := do
  let user ← findById userId
  ensure (env.bcryptCompare currentPassword user.password = true)
    (.api Errors.currentPasswordIncorrect)
  let updated ← applyPasswordChange env .ownPassword userId user newPassword (some userId) {}
  queuePasswordChangedNotice userId
  startSession env userId updated.passwordChangedAt

/-- Set somebody else's password. -/
def updatePasswordAsAdmin (env : AccountEnv) (userId actorId : Uuid) (newPassword : String) :
    AccountTask Unit := do
  ensure (userId ≠ actorId) (.api (Errors.adminSelfTargetForbidden
    "Use /users/me/password to change your own password"))
  let seen ← findById userId
  let _ ← applyPasswordChange env .adminPassword userId seen newPassword (some actorId) {}
  let _ ← record "password.reset.by_admin" (some actorId) userId none none
  queuePasswordChangedNotice userId

/-- Redeem a reset link. The hash is compared with the one that was read. -/
def resetPassword (env : AccountEnv) (email token newPassword : String) : AccountTask Unit := do
  let found ← readUser fun s => s.findByEmail email
  let now ← now
  let user ← orThrow (found.filter fun u => UsersService.isResettable env.toEnv token now u.toUser)
    (.api Errors.invalidLink)
  let _ ← applyPasswordChange env (.passwordReset token) user.id user newPassword (some user.id)
    { otpHash := some none, otpPurpose := some none, otpExpiresAt := some none }
  let _ ← record "password.reset.completed" (some user.id) user.id none none
  queuePasswordChangedNotice user.id

/-! ### Phone -/

/-- How long a texted code works. -/
def otpExpiryMs : ℕ := 15 * 60 * 1000

/-- What the hash of a texted code is made of. -/
def otpText (otp phoneNumber : String) : String := s!"{otp}:{phoneNumber}"

/-- Issue a code for a number and text it there. -/
def requestPhoneVerification (env : AccountEnv) (userId : Uuid)
    (currentPassword phoneNumber otp : String) (hasBudget : Bool) : AccountTask Unit := do
  let user ← findById userId
  ensure (env.bcryptCompare currentPassword user.password = true)
    (.api Errors.currentPasswordIncorrect)
  if hasBudget = true then do
    let salt ← freshId
    let now ← now
    let _ ← updateUser .phoneCode userId (some user)
      { otpHash := some (some
          (env.hashPassword (otpText (env.fixedPhoneCode.getD otp) phoneNumber) salt))
        otpPurpose := some (some .phoneVerify)
        otpExpiresAt := some (some (now + otpExpiryMs)) }
    emit (.phoneCodeTexted userId phoneNumber)
  else
    pure ()

/-- The code of an account: issued for this number, not lapsed. -/
def isVerifiable (env : AccountEnv) (otp phoneNumber : String) (now : ℕ) (u : Account) : Bool :=
  u.otpPurpose = some .phoneVerify && u.otpExpiresAt.any (fun t => now ≤ t) &&
    u.otpHash.any fun hash => env.bcryptCompare (otpText otp phoneNumber) hash

/-- Apply a verified number and clear the code. -/
def verifyAndUpdatePhoneNumber (env : AccountEnv) (userId : Uuid) (otp phoneNumber : String) :
    AccountTask Unit := do
  let user ← findById userId
  let checkedAt ← now
  ensure (isVerifiable env otp phoneNumber checkedAt user = true) (.api Errors.invalidOtp)
  let now ← now
  let _ ← updateUser (.phoneVerified phoneNumber) userId (some user)
    { phoneNumber := some (some phoneNumber)
      phoneNumberVerifiedAt := some (some now)
      otpHash := some none
      otpPurpose := some none
      otpExpiresAt := some none
      updatedBy := some (some userId) }
  pure ()

/-- The plain update, which clears the stamp. -/
def updatePhoneNumber (userId : Uuid) (phoneNumber : String) : AccountTask Unit := do
  let seen ← findById userId
  let _ ← updateUser .phone userId (some seen)
    { phoneNumber := some (some phoneNumber)
      phoneNumberVerifiedAt := some none
      updatedBy := some (some userId) }
  pure ()

/-! ### Ending sessions -/

/-- End every session of somebody. -/
def revokeAllSessions (userId actorId : Uuid) : AccountTask Unit := do
  let user ← findById userId
  let _ ← endAllSessions .revocation user.id (some actorId) (some user) {}
  let _ ← record "user.sessions_revoked_by_support" (some actorId) user.id none none
  pure ()

/-- End every session of the caller. -/
def logoutAll (userId : Uuid) : AccountTask Unit := do
  let _ ← endAllSessions .revocation userId (some userId) none {}
  pure ()

/-- A refresh found its owner ineligible. -/
def endIneligibleSessions (userId : Uuid) : AccountTask Unit := do
  let _ ← endAllSessions .revocation userId none none {}
  pure ()

end NestApi.Accounts
