/-!
# Errors

The exceptions the services raise: the exception class decides the HTTP status and
what a `catch` sees, the code and the text reach the client. Only the factories that
the modelled services call are here.
-/

namespace NestApi

/-- The framework's exception classes. -/
inductive ExceptionClass
  | unauthorized | forbidden | badRequest | notFound | conflict | payloadTooLarge
  | unprocessableEntity | tooManyRequests | serviceUnavailable
deriving DecidableEq, Repr

/-- The machine-readable codes. -/
inductive ErrorCode
  | invalidCredentials | emailNotVerified | currentPasswordIncorrect | refreshTokenInvalid
  | adminSelfTargetForbidden | permissionDenied | lastOwnerProtected | membershipNotActive
  | roleNotAssignable | invitationInvalid | invitationExpired | invalidLink
  | validationFailed | resourceNotFound | uniqueConstraintViolation | resourceConflict
  | tokenInvalid | tokenRevoked | sessionInvalidated | userInactive | invalidOtp
  | payloadTooLarge | fileQuotaExceeded | fileContentInvalid | fileNotAttachable
  | fileNotReleasable | externalServiceUnavailable | tokenMissing | workspaceContextMissing
deriving DecidableEq, Repr

/-- The structured part of an error. -/
inductive ErrorDetails
  | none
  | fields (entries : List (String × String))
  | workspaces (soleOwned : List (String × String))
  | limit (n : Nat)
deriving DecidableEq, Repr

/-- An exception on its way to the client. -/
structure ApiError where
  exception : ExceptionClass
  errorCode : ErrorCode
  message : String
  details : ErrorDetails
deriving DecidableEq, Repr

namespace Errors

def invalidCredentials : ApiError :=
  ⟨.unauthorized, .invalidCredentials, "Invalid credentials", .none⟩

def emailNotVerified : ApiError :=
  ⟨.unauthorized, .emailNotVerified, "Please verify your email before logging in. " ++
    "Check your inbox or request a new verification link.", .none⟩

def currentPasswordIncorrect : ApiError :=
  ⟨.unauthorized, .currentPasswordIncorrect, "Current password is incorrect", .none⟩

def tokenMissing : ApiError :=
  ⟨.unauthorized, .tokenMissing, "Authentication required", .none⟩

def tokenInvalid : ApiError :=
  ⟨.unauthorized, .tokenInvalid, "Authentication token is invalid", .none⟩

def tokenRevoked : ApiError :=
  ⟨.unauthorized, .tokenRevoked, "This session has been logged out", .none⟩

def sessionInvalidated : ApiError :=
  ⟨.unauthorized, .sessionInvalidated, "Session invalidated. Please log in again.", .none⟩

def userInactive : ApiError :=
  ⟨.unauthorized, .userInactive, "Account is unavailable", .none⟩

/-- One error for unknown, expired, exchanged and revoked tokens. -/
def refreshTokenInvalid : ApiError :=
  ⟨.unauthorized, .refreshTokenInvalid, "Your session has expired. Please sign in again.", .none⟩

def adminSelfTargetForbidden (message : String) : ApiError :=
  ⟨.forbidden, .adminSelfTargetForbidden, message, .none⟩

def permissionDenied (action subject : String) : ApiError :=
  ⟨.forbidden, .permissionDenied, "You do not have permission to perform this action",
    .fields (if subject = "" then [("action", action)]
      else [("action", action), ("subject", subject)])⟩

/-- The account paths name the workspaces that block them, the roster paths do not. -/
def lastOwnerProtected (soleOwnedWorkspaces : List (String × String)) : ApiError :=
  if soleOwnedWorkspaces = [] then
    ⟨.conflict, .lastOwnerProtected, "A workspace must always have at least one active owner. " ++
      "Appoint another owner first.", .none⟩
  else
    ⟨.conflict, .lastOwnerProtected, "You are the only active owner of a workspace. " ++
      "Transfer ownership or delete the workspace before deleting this account.",
      .workspaces soleOwnedWorkspaces⟩

def membershipNotActive (status : String) : ApiError :=
  ⟨.conflict, .membershipNotActive,
    "That membership is not in a state that allows this operation", .fields [("status", status)]⟩

def roleNotAssignable : ApiError :=
  ⟨.forbidden, .roleNotAssignable, "You may not assign that role here", .none⟩

def invitationInvalid : ApiError :=
  ⟨.badRequest, .invitationInvalid, "This invitation is no longer valid", .none⟩

def invitationExpired : ApiError :=
  ⟨.badRequest, .invitationExpired, "This invitation has expired. Ask for a new one.", .none⟩

def invalidOtp : ApiError :=
  ⟨.badRequest, .invalidOtp, "Invalid or expired verification code", .none⟩

def invalidLink : ApiError :=
  ⟨.badRequest, .invalidLink, "This link is invalid or has expired", .none⟩

def workspaceContextMissing : ApiError :=
  ⟨.badRequest, .workspaceContextMissing, "A workspace context is required for this action", .none⟩

def badRequest (message : String) : ApiError :=
  ⟨.badRequest, .validationFailed, message, .none⟩

def resourceNotFound (resource : String) : ApiError :=
  ⟨.notFound, .resourceNotFound, s!"{resource} not found", .fields [("resource", resource)]⟩

def uniqueConstraintViolation (field : String) : ApiError :=
  ⟨.conflict, .uniqueConstraintViolation, s!"{field} already in use", .fields [("field", field)]⟩

def resourceConflict (message : String) : ApiError :=
  ⟨.conflict, .resourceConflict, message, .none⟩

def fileNotAttachable : ApiError :=
  ⟨.conflict, .fileNotAttachable, "This file can no longer be attached. " ++
    "It expired or was already used; upload it again.", .none⟩

def fileNotReleasable : ApiError :=
  ⟨.conflict, .fileNotReleasable, "This file is in use, so it cannot be removed this way. " ++
    "Remove it from what shows it instead.", .none⟩

def fileContentInvalid (message : String) : ApiError :=
  ⟨.unprocessableEntity, .fileContentInvalid, message, .none⟩

def fileQuotaExceeded (limit : Nat) : ApiError :=
  ⟨.tooManyRequests, .fileQuotaExceeded, s!"You can hold at most {limit} uploaded files that " ++
    "are not attached to anything. Attach one, or wait for unused uploads to expire.",
    .limit limit⟩

def payloadTooLarge (message : String) : ApiError :=
  ⟨.payloadTooLarge, .payloadTooLarge, message, .none⟩

def externalServiceUnavailable (message : String) : ApiError :=
  ⟨.serviceUnavailable, .externalServiceUnavailable, message, .none⟩

end Errors

end NestApi
