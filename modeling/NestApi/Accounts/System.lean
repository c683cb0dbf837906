import NestApi.Accounts.McpOAuth

/-!
# The account system

Every request and job with its program.
-/

namespace NestApi

open Accounts

/-- The program of a request. -/
def accountBody (env : AccountEnv) : AccountRequest → AccountTask Unit
  | .createUser dto actorId => create env dto actorId
  | .updateUser userId dto actorId soleOwned => update userId dto actorId soleOwned
  | .removeUser userId actorId soleOwned => remove userId actorId soleOwned
  | .softDelete userId soleOwned => softDelete userId soleOwned
  | .gdprErase userId currentPassword => gdprErase env userId currentPassword
  | .updateInfo userId dto => updateInfo userId dto
  | .setProfileImage userId fileId isClaimable => setProfileImage userId fileId isClaimable
  | .updateUsername userId username => updateUsername userId username
  | .updateEmail userId currentPassword newEmail => updateEmail env userId currentPassword newEmail
  | .updateOwnPassword userId currentPassword newPassword =>
    updateOwnPassword env userId currentPassword newPassword
  | .updatePasswordAsAdmin userId actorId newPassword =>
    updatePasswordAsAdmin env userId actorId newPassword
  | .requestPhoneVerification userId currentPassword phoneNumber otp hasBudget =>
    requestPhoneVerification env userId currentPassword phoneNumber otp hasBudget
  | .verifyAndUpdatePhoneNumber userId otp phoneNumber =>
    verifyAndUpdatePhoneNumber env userId otp phoneNumber
  | .updatePhoneNumber userId phoneNumber => updatePhoneNumber userId phoneNumber
  | .deliverPasswordReset userId hasBudget => deliverPasswordReset env userId hasBudget
  | .resetPassword email token newPassword => resetPassword env email token newPassword
  | .deliverEmailVerification userId hasBudget => deliverEmailVerification env userId hasBudget
  | .verifyEmailByToken token => verifyEmailByToken env token
  | .deliverEmailChangedNotice userId auditLogId => deliverEmailChangedNotice userId auditLogId
  | .revokeAllSessions userId actorId => revokeAllSessions userId actorId
  | .logoutAll userId => logoutAll userId
  | .endIneligibleSessions userId => endIneligibleSessions userId
  | .oauthLogin identifier password => McpOAuth.login env identifier password
  | .oauthConfirm sessionUid => McpOAuth.confirm sessionUid
  | .oauthToken credentialId => McpOAuth.exchange credentialId
  | .verifyAccessToken tokenId => McpOAuth.verifyAccessToken tokenId

/-- A configuration of the account system. -/
abbrev AccountConfig := Txn.Config AccountStore RowLock AccountEvent Uuid Failure AccountRequest

/-- What its processes share. -/
abbrev AccountWorld := Txn.World AccountStore AccountEvent Uuid AccountRequest

end NestApi
