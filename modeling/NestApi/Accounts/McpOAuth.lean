import NestApi.Accounts.Service

/-!
# The MCP sign-in

A browser signs in with a password, the person approves, the client exchanges a code and later
refresh tokens for access tokens. Everything that descends from a sign-in carries its time, which
is what the account checks compare with the cutoff. An access token is judged by its own issue
time. The storage of the OAuth server is taken from its payloads.
-/

namespace NestApi.McpOAuth

open Txn.Program Accounts

/-- The account rule of every MCP credential. `issuedAt` is in seconds. -/
def isAccountUsable (user : Account) (issuedAt : Option ℕ) : Bool :=
  user.isActive && user.emailVerifiedAt.isSome &&
    match user.passwordChangedAt, issuedAt with
    | some cutoff, some issuedAt => decide (cutoff / 1000 ≤ issuedAt)
    | _, _ => true

/-- The account behind a credential, if it may still be used. -/
def findUsableAccount (userId : Uuid) (issuedAt : Option ℕ) : AccountTask (Option Account) := do
  let user ← findByIdOrNull userId
  pure (user.filter fun u => isAccountUsable u issuedAt)

/-- The one password check. -/
def verifyCredentials (env : AccountEnv) (identifier password : String) : AccountTask Account := do
  let found ← readUser fun s => s.findByEmailOrUsername identifier
  let passwordMatches :=
    env.bcryptCompare password ((found.map fun u => u.password).getD env.dummyHash)
  let user ← orThrow (found.filter fun u => u.isActive && passwordMatches)
    (.api Errors.invalidCredentials)
  ensure (user.emailVerifiedAt ≠ none) (.api Errors.emailNotVerified)
  pure user

/-- Sign in: the time of the session is taken after the password check. -/
def login (env : AccountEnv) (identifier password : String) : AccountTask Unit := do
  let user ← verifyCredentials env identifier password
  let ts ← now
  let uid ← freshId
  let session : OAuthSession := { uid, accountId := user.id, authTime := ts / 1000 }
  transaction (modify fun s => s.insertOAuthSession session) fun _ => .oauthSignedIn session

/-- Approve, which answers with a code. The account is checked when approving and again when
the server goes on with the authorization. -/
def confirm (sessionUid : Uuid) : AccountTask Unit := do
  let found ← select fun s => s.oauthSessions.find? sessionUid
  match found with
  | none => pure ()
  | some session => do
    let account ← findUsableAccount session.accountId (some session.authTime)
    if account = none then
      pure ()
    else do
      let account ← findUsableAccount session.accountId (some session.authTime)
      if account = none then
        pure ()
      else do
        let id ← freshId
        let code : OAuthCredential :=
          { id, accountId := session.accountId, authTime := session.authTime,
            sessionUid := session.uid }
        transaction (modify fun s => s.insertOAuthCredential code) fun _ => .oauthCodeIssued code

/-- Exchange a code or a refresh token. The account is judged by the time of the sign-in, and
the access token gets the time of its own issue. -/
def exchange (credentialId : Uuid) : AccountTask Unit := do
  let found ← select fun s => s.oauthCredentials.find? credentialId
  match found with
  | none => pure ()
  | some credential => do
    let account ← findUsableAccount credential.accountId (some credential.authTime)
    if account = none then
      pure ()
    else do
      let issuedAt ← now
      let id ← freshId
      let token : OAuthAccessToken :=
        { id, accountId := credential.accountId, iat := issuedAt / 1000,
          sessionUid := credential.sessionUid }
      transaction (modify fun s => s.insertOAuthAccessToken token) fun _ =>
        .accessTokenIssued token
      let refreshId ← freshId
      let refreshToken : OAuthCredential := { credential with id := refreshId }
      transaction (modify fun s => s.insertOAuthCredential refreshToken) fun _ =>
        .oauthCodeIssued refreshToken

/-- Whether a token speaks for a usable account. -/
def isAccepted (s : AccountStore) (token : OAuthAccessToken) : Bool :=
  (s.scopedUser? token.accountId).any fun u => isAccountUsable u (some token.iat)

/-- A use of an access token. The answer is given by the row that the use reads. -/
def verifyAccessToken (tokenId : Uuid) : AccountTask Unit := do
  let found ← select fun s => s.oauthAccessTokens.find? tokenId
  match found with
  | none => pure ()
  | some token =>
    selectObserved (fun s => .accessTokenVerified token (isAccepted s token)) fun _ => ()

end NestApi.McpOAuth
