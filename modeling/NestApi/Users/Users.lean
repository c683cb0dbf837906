import NestApi.Auth.Login
import NestApi.Workspaces.OwnershipPolicy

/-!
# Accounts

Updating, deactivating, deleting and erasing an account, and changing its credentials.
Whatever takes an account out of service checks the ownership policy and ends the
account's sessions in the same transaction.
-/

namespace NestApi.UsersService

open Txn.Program RefreshTokens WorkspaceOwnershipPolicy WorkspaceMemberships

/-- The account, deleted ones included. -/
def findById (userId : Uuid) : Handler User := do
  let user ← select fun db => db.users.find? userId
  orThrow user (.api (Errors.resourceNotFound "User"))

/-- The live account with an address. -/
def findByEmail (db : Database) (email : String) : Option User :=
  db.users.rows.find? fun u => u.email = toLowerCase email && u.deletedAt = none

/-! ### Update and deactivation -/

/-- The columns an administrative update writes. A new address is unverified. -/
def updateData (existing : User) (dto : UpdateUserDto) (actorId : Option Uuid) :
    UserUpdateInput :=
  { email := dto.email.map toLowerCase
    emailVerifiedAt :=
      if ∃ email ∈ dto.email, toLowerCase email ≠ existing.email then some none else none
    username := dto.username.map fun username => some (toLowerCase username)
    isActive := dto.isActive
    updatedBy := some actorId }

/-- Active to inactive, with the ownership check and the session end. -/
def deactivate (userId : Uuid) (data : UserUpdateInput) (actorId : Option Uuid) :
    Handler User :=
  transaction (do
      lockUserRow userId
      assertUserIsNotASoleOwner userId
      endAllSessionsInTransaction userId actorId data)
    (sessionsEndedEvent .deactivation)

/-- Which branch runs is decided by the row read before any lock. -/
def update (userId : Uuid) (dto : UpdateUserDto) (actorId : Option Uuid) : Handler User := do
  let existing ← findById userId
  if dto.isActive = some false ∧ existing.isActive = true then
    deactivate userId (updateData existing dto actorId) actorId
  else
    transaction (updateUserRow userId (updateData existing dto actorId).rewrite)
      fun _ => .userUpdated userId

/-! ### Deletion and erasure -/

/-- Soft-delete an account, refusing to strand a workspace. -/
def deleteAccount (userId : Uuid) (actorId : Option Uuid) : Handler User :=
  transaction (do
      lockUserRow userId
      assertUserIsNotASoleOwner userId
      let now ← now
      endAllSessionsInTransaction userId actorId
        { deletedAt := some (some now), deletedBy := some actorId })
    (sessionsEndedEvent .deletion)

/-- The administrative delete and the self-close, which differ in who acts. -/
def remove (userId : Uuid) (actorId : Option Uuid) : Handler Unit := do
  let _ ← findById userId
  let _ ← deleteAccount userId actorId
  pure ()

/-- The columns an erasure writes. -/
def erasedData (userId : Uuid) (erasedPasswordHash : String) (now : ℕ) : UserUpdateInput :=
  { email := some s!"deleted-{userId}@deleted.invalid"
    username := some none
    password := some erasedPasswordHash
    otpHash := some none
    otpPurpose := some none
    otpExpiresAt := some none
    emailVerifiedAt := some none
    deletedAt := some (some now)
    deletedBy := some (some userId) }

/-- Erase an account. Sole ownership does not refuse it: the workspaces are closed. -/
def gdprErase (env : Env) (userId : Uuid) (currentPassword : String) : Handler Unit := do
  let user ← findById userId
  ensure (env.bcryptCompare currentPassword user.password = true)
    (.api Errors.currentPasswordIncorrect)
  let now ← now
  let salt ← freshId
  let erasedPasswordHash := env.hashPassword s!"erased-{userId}-{now}" salt
  let _ ← transaction (do
      lockUserRow userId
      let _ ← closeSolelyOwnedWorkspaces userId userId
      endAllSessionsInTransaction userId (some userId) (erasedData userId erasedPasswordHash now))
    (sessionsEndedEvent .erasure)
  pure ()

/-! ### Credentials -/

/-- The credential write: there is no way to change a password without ending the
account's sessions. The hash is made before the transaction opens. -/
def applyPasswordChange (env : Env) (userId : Uuid) (plaintextPassword : String)
    (actorId : Option Uuid) (extraData : UserUpdateInput) : Handler User := do
  let salt ← freshId
  endAllSessions .passwordChange userId actorId
    { extraData with password := some (env.hashPassword plaintextPassword salt) }

/-- Change one's own password and stay signed in here. -/
def updateOwnPassword (env : Env) (userId : Uuid) (currentPassword newPassword : String) :
    Handler Unit := do
  let user ← findById userId
  ensure (env.bcryptCompare currentPassword user.password = true)
    (.api Errors.currentPasswordIncorrect)
  let updated ← applyPasswordChange env userId newPassword (some userId) {}
  let _ ← startSession env userId updated.passwordChangedAt
  pure ()

/-- Set somebody else's password. -/
def updatePasswordAsAdmin (env : Env) (userId actorId : Uuid) (newPassword : String) :
    Handler Unit := do
  ensure (userId ≠ actorId) (.api (Errors.adminSelfTargetForbidden
    "Use /users/me/password to change your own password"))
  let _ ← findById userId
  let _ ← applyPasswordChange env userId newPassword (some actorId) {}
  pure ()

/-- How long a reset link works. -/
def passwordResetExpiryMs : ℕ := 60 * 60 * 1000

/-- Mint a reset token for an account that can be reset. -/
def deliverPasswordReset (env : Env) (userId : Uuid) : Handler Unit := do
  let found ← select fun db => (db.scopedUser? userId).filter fun u => u.isActive
  match found with
  | none => pure ()
  | some user => do
    let token ← freshId
    let now ← now
    let data : UserUpdateInput :=
      { otpHash := some (some (env.hashOpaqueToken token))
        otpPurpose := some (some .passwordReset)
        otpExpiresAt := some (some (now + passwordResetExpiryMs)) }
    let _ ← transaction (updateUserRow user.id data.rewrite) fun _ =>
      .passwordResetMinted user.id
    pure ()

/-- The reset link of an account: live, active, minted for a reset, not lapsed. -/
def isResettable (env : Env) (token : String) (now : ℕ) (u : User) : Bool :=
  u.isActive && u.otpHash = some (env.hashOpaqueToken token) &&
    u.otpPurpose = some .passwordReset && u.otpExpiresAt.any fun t => now ≤ t

/-- Redeem a reset link. -/
def resetPassword (env : Env) (email token newPassword : String) : Handler Unit := do
  let found ← select fun db => findByEmail db email
  let now ← now
  let user ← orThrow (found.filter fun u => isResettable env token now u)
    (.api Errors.invalidLink)
  let _ ← applyPasswordChange env user.id newPassword (some user.id)
    { otpHash := some none, otpPurpose := some none, otpExpiresAt := some none }
  pure ()

/-- Move the account to a new address, end the other sessions and stay signed in here. -/
def updateEmail (env : Env) (userId : Uuid) (currentPassword newEmail : String) :
    Handler Unit := do
  let user ← findById userId
  ensure (env.bcryptCompare currentPassword user.password = true)
    (.api Errors.currentPasswordIncorrect)
  let updated ← endAllSessions .emailChange userId (some userId)
    { email := some (toLowerCase newEmail), emailVerifiedAt := some none }
  let _ ← startSession env userId updated.passwordChangedAt
  pure ()

/-- End every session of somebody. -/
def revokeAllSessions (userId actorId : Uuid) : Handler Unit := do
  let user ← findById userId
  let _ ← endAllSessions .revocation user.id (some actorId) {}
  pure ()

end NestApi.UsersService
