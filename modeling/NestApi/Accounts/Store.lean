import NestApi.Users.Users

/-!
# The store behind an account

The whole row of an account, with the profile that the session services do not need, and what
the operations on it leave elsewhere: refresh tokens, audit rows, and the payloads of the OAuth
server. A field of a write is absent, or writes a value, which may be null.
-/

namespace NestApi

open WorkspaceMemberships (toLowerCase)

/-! ### Rows -/

/-- A row of `users` with every column that an operation writes. -/
structure Account extends User where
  firstName : String
  middleName : Option String
  lastName : String
  phoneNumber : Option String
  phoneNumberVerifiedAt : Option ℕ
  gender : Option String
  birthday : Option String
  timezone : Option String
  profileImageFileAssetId : Option Uuid
deriving DecidableEq

/-- The columns that a write names. -/
structure AccountUpdateInput extends UserUpdateInput where
  passwordChangedAt : Option (Option ℕ) := none
  firstName : Option String := none
  middleName : Option (Option String) := none
  lastName : Option String := none
  phoneNumber : Option (Option String) := none
  phoneNumberVerifiedAt : Option (Option ℕ) := none
  gender : Option (Option String) := none
  birthday : Option (Option String) := none
  timezone : Option (Option String) := none
  profileImageFileAssetId : Option (Option Uuid) := none
deriving DecidableEq

namespace AccountUpdateInput

/-- The written row. -/
def apply (data : AccountUpdateInput) (u : Account) : Account where
  toUser :=
    { data.toUserUpdateInput.apply u.toUser with
      passwordChangedAt := data.passwordChangedAt.getD u.passwordChangedAt }
  firstName := data.firstName.getD u.firstName
  middleName := data.middleName.getD u.middleName
  lastName := data.lastName.getD u.lastName
  phoneNumber := data.phoneNumber.getD u.phoneNumber
  phoneNumberVerifiedAt := data.phoneNumberVerifiedAt.getD u.phoneNumberVerifiedAt
  gender := data.gender.getD u.gender
  birthday := data.birthday.getD u.birthday
  timezone := data.timezone.getD u.timezone
  profileImageFileAssetId := data.profileImageFileAssetId.getD u.profileImageFileAssetId

/-- A write of one account. -/
def rewrite (data : AccountUpdateInput) : Txn.Rewrite fun u : Account => u.id where
  row := data.apply
  key_row _ := rfl

/-- The write that also ends every session. -/
def endSessions (data : AccountUpdateInput) (actorId : Option Uuid) (cutoff : ℕ) :
    AccountUpdateInput :=
  { data with passwordChangedAt := some (some cutoff), updatedBy := some actorId }

variable (data : AccountUpdateInput) (u : Account)

@[simp] theorem id_apply : (data.apply u).id = u.id := rfl

@[simp] theorem email_apply : (data.apply u).email = data.email.getD u.email := rfl

@[simp] theorem emailVerifiedAt_apply :
    (data.apply u).emailVerifiedAt = data.emailVerifiedAt.getD u.emailVerifiedAt := rfl

@[simp] theorem passwordChangedAt_apply :
    (data.apply u).passwordChangedAt = data.passwordChangedAt.getD u.passwordChangedAt := rfl

@[simp] theorem otpHash_apply : (data.apply u).otpHash = data.otpHash.getD u.otpHash := rfl

@[simp] theorem otpPurpose_apply :
    (data.apply u).otpPurpose = data.otpPurpose.getD u.otpPurpose := rfl

@[simp] theorem otpExpiresAt_apply :
    (data.apply u).otpExpiresAt = data.otpExpiresAt.getD u.otpExpiresAt := rfl

@[simp] theorem phoneNumber_apply :
    (data.apply u).phoneNumber = data.phoneNumber.getD u.phoneNumber := rfl

@[simp] theorem phoneNumberVerifiedAt_apply : (data.apply u).phoneNumberVerifiedAt =
    data.phoneNumberVerifiedAt.getD u.phoneNumberVerifiedAt := rfl

/-- Ending the sessions writes the row of the session services. -/
theorem toUser_endSessions (actorId : Option Uuid) (cutoff : ℕ) :
    ((data.endSessions actorId cutoff).apply u).toUser =
      (data.toUserUpdateInput.endSessions actorId cutoff).row u.toUser := rfl

end AccountUpdateInput

/-- An audit row, with the addresses that `user.email_changed` names. -/
structure AuditLog where
  id : Uuid
  action : String
  actorId : Option Uuid
  targetUserId : Uuid
  previousEmail : Option String
  newEmail : Option String
  createdAt : ℕ
deriving DecidableEq

/-- A browser session of the OAuth server. `authTime` is in seconds. -/
structure OAuthSession where
  uid : Uuid
  accountId : Uuid
  authTime : ℕ
deriving DecidableEq

/-- An authorization code or a refresh token of the OAuth server. -/
structure OAuthCredential where
  id : Uuid
  accountId : Uuid
  authTime : ℕ
  sessionUid : Uuid
deriving DecidableEq

/-- An access token of the OAuth server. `iat` is in seconds. -/
structure OAuthAccessToken where
  id : Uuid
  accountId : Uuid
  iat : ℕ
  sessionUid : Uuid
deriving DecidableEq

/-! ### The store -/

/-- The tables. -/
structure AccountStore where
  users : Txn.Table fun u : Account => u.id
  refreshTokens : Txn.Table RefreshToken.id
  auditLogs : Txn.Table AuditLog.id
  oauthSessions : Txn.Table OAuthSession.uid
  oauthCredentials : Txn.Table OAuthCredential.id
  oauthAccessTokens : Txn.Table OAuthAccessToken.id

namespace AccountStore

variable (s : AccountStore)

/-- The account with an id, deleted ones included. -/
def user? (userId : Uuid) : Option Account := s.users.find? userId

/-- The same among live accounts. -/
def scopedUser? (userId : Uuid) : Option Account :=
  (s.user? userId).filter fun u => u.deletedAt = none

/-- The live account with an address. -/
def findByEmail (email : String) : Option Account :=
  s.users.rows.find? fun u => u.email = toLowerCase email && u.deletedAt = none

/-- The live account with an address or a name. -/
def findByEmailOrUsername (identifier : String) : Option Account :=
  s.users.rows.find? fun u => u.deletedAt = none &&
    (u.email = toLowerCase identifier || u.username = some (toLowerCase identifier))

def insertUser (u : Account) : AccountStore := { s with users := s.users.insert u }

/-- Write one account. -/
def updateUser (userId : Uuid) (data : AccountUpdateInput) : AccountStore :=
  { s with users := s.users.update [userId] data.rewrite }

def insertToken (t : RefreshToken) : AccountStore :=
  { s with refreshTokens := s.refreshTokens.insert t }

/-- Revoke the unrevoked tokens of an account. -/
def revokeTokens (userId : Uuid) (now : ℕ) : AccountStore :=
  { s with
    refreshTokens := s.refreshTokens.update
      ((s.refreshTokens.filter fun t => t.userId = userId && t.revokedAt = none).map (·.id))
      (RefreshToken.revoked now) }

def insertAuditLog (row : AuditLog) : AccountStore :=
  { s with auditLogs := s.auditLogs.insert row }

def insertOAuthSession (row : OAuthSession) : AccountStore :=
  { s with oauthSessions := s.oauthSessions.insert row }

def insertOAuthCredential (row : OAuthCredential) : AccountStore :=
  { s with oauthCredentials := s.oauthCredentials.insert row }

def insertOAuthAccessToken (row : OAuthAccessToken) : AccountStore :=
  { s with oauthAccessTokens := s.oauthAccessTokens.insert row }

variable {s} {userId : Uuid} {data : AccountUpdateInput} {u : Account}

theorem user?_eq_some : s.user? userId = some u ↔ u ∈ s.users ∧ u.id = userId :=
  Txn.Table.find?_eq_some

theorem of_scopedUser? (h : s.scopedUser? userId = some u) :
    s.user? userId = some u ∧ u.deletedAt = none := by
  obtain ⟨hfind, hlive⟩ := Option.filter_eq_some_iff.mp h
  exact ⟨hfind, by simpa using hlive⟩

theorem of_findByEmail {email : String} (h : s.findByEmail email = some u) :
    s.user? u.id = some u ∧ u.deletedAt = none := by
  have hmem : u ∈ s.users := List.mem_of_find?_eq_some h
  have hcond := List.find?_some h
  simp only [Bool.and_eq_true, decide_eq_true_eq] at hcond
  exact ⟨user?_eq_some.mpr ⟨hmem, rfl⟩, hcond.2⟩

theorem of_findByEmailOrUsername {identifier : String}
    (h : s.findByEmailOrUsername identifier = some u) :
    s.user? u.id = some u ∧ u.deletedAt = none := by
  have hmem : u ∈ s.users := List.mem_of_find?_eq_some h
  have hcond := List.find?_some h
  simp only [Bool.and_eq_true, decide_eq_true_eq] at hcond
  exact ⟨user?_eq_some.mpr ⟨hmem, rfl⟩, hcond.1⟩

/-- The row after a write of the account. -/
theorem user?_updateUser (h : s.user? userId = some u) :
    (s.updateUser userId data).user? userId = some (data.apply u) := by
  have hfind : (s.users.update [userId] data.rewrite).find? userId =
      (s.users.find? userId).map fun r => if userId ∈ [userId] then data.rewrite.row r else r :=
    Txn.Table.find?_update
  simp only [user?] at h
  simpa [user?, updateUser, h, AccountUpdateInput.rewrite] using hfind

theorem user?_updateUser_of_ne {other : Uuid} (h : other ≠ userId) :
    (s.updateUser userId data).user? other = s.user? other :=
  Txn.Table.find?_update_of_not_mem (by simpa using h)

theorem user?_insertUser (h : s.user? u.id = none) : (s.insertUser u).user? u.id = some u := by
  have hfresh : ∀ x ∈ s.users, x.id ≠ u.id := Txn.Table.find?_eq_none.mp h
  have hmem : u ∈ s.users.insert u := (Txn.Table.mem_insert hfresh).mpr (.inr rfl)
  exact Txn.Table.find?_eq_some.mpr ⟨hmem, rfl⟩

theorem user?_insertUser_of_ne {other : Uuid} (h : other ≠ u.id) :
    (s.insertUser u).user? other = s.user? other :=
  Txn.Table.find?_insert h

end AccountStore

end NestApi
