import NestApi.Auth.RefreshTokens
import NestApi.Workspaces.Memberships

/-!
# Signing in

The password check reads the account, and the session starts only if the cutoff read with
it is still the account's.
-/

namespace NestApi.AuthService

open Txn.Program RefreshTokens WorkspaceMemberships

/-- The live account an identifier names, by address or by username. -/
def findByEmailOrUsername (db : Database) (identifier : String) : Option User :=
  db.users.rows.find? fun u =>
    u.deletedAt = none && (u.email = toLowerCase identifier ||
      u.username = some (toLowerCase identifier))

/-- The one password check. Unknown identifiers cost the same comparison. -/
def verifyCredentials (env : Env) (identifier password : String) : Handler User := do
  let found ← selectObserved (fun db => .credentialsRead (findByEmailOrUsername db identifier))
    fun db => findByEmailOrUsername db identifier
  let passwordMatches := env.bcryptCompare password ((found.map User.password).getD env.dummyHash)
  let user ← orThrow (found.filter fun u => u.isActive && passwordMatches)
    (.api Errors.invalidCredentials)
  ensure (user.emailVerifiedAt ≠ none) (.api Errors.emailNotVerified)
  pure user

/-- Check the password, then start a session on the cutoff read with it. -/
def login (env : Env) (identifier password : String) : Handler Unit := do
  let user ← verifyCredentials env identifier password
  let _ ← startSession env user.id user.passwordChangedAt
  pure ()

/-- End this device's session. -/
def logout (env : Env) (presentedRefreshToken : String) : Handler Unit :=
  revokeByToken env presentedRefreshToken

/-- End every session of the caller. -/
def logoutAll (userId : Uuid) : Handler Unit := do
  let _ ← endAllSessions .revocation userId (some userId) {}
  pure ()

end NestApi.AuthService
