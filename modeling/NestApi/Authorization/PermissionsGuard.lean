import NestApi.Authorization.Guard
import NestApi.Common.Json

/-!
# The guard of every route

`PermissionsGuard` reads what the decorators of a route require and judges the caller's ability
by it, before any record is loaded. The guards of the modelled handlers are cases of it.
-/

namespace NestApi

open Authorization Txn.Program

/-! ### Routes and requests -/

/-- What `@RequirePermission` declares. -/
structure RequiredPermission where
  action : AuthorizationAction
  subject : AuthorizationSubject
  /-- A rule that is conditioned on owning the record is not enough. -/
  isAdministrative : Bool
  /-- A missing grant is answered as a missing record. -/
  isDeniedAsNotFound : Bool

/-- The metadata that the decorators leave on a handler or on its controller. -/
structure Decorators where
  isPublic : Option Bool
  isAuthenticatedOnly : Option Bool
  required : Option RequiredPermission

structure Route where
  handler : Decorators
  controller : Decorators

/-- `getAllAndOverride`: the handler's metadata, else the controller's. -/
def Route.get {α : Type} (route : Route) (read : Decorators → Option α) : Option α :=
  (read route.handler).or (read route.controller)

/-- The fields of a request that the guard reads. -/
structure AuthorizedRequest where
  user : Option Uuid
  params : String → Option String
  body : Option Json

/-- The workspace of a nested route, or the one that the body names. -/
def resolveWorkspaceId (request : AuthorizedRequest) : Option Uuid :=
  match (request.params "workspaceId").filter (· ≠ "") with
  | some fromParams => some fromParams
  | none =>
    ((request.body.bind (·.get? "workspaceId")).bind Json.asString?).filter (· ≠ "")

/-! ### The decision -/

def isOwnableSubject (subject : AuthorizationSubject) : Bool :=
  (subjectOwnerKey subject.value).isSome

def isTenantScopedSubject (subject : AuthorizationSubject) : Bool :=
  (subjectTenantKey subject.value).isSome

/-- What the guard asks the ability: about the caller's own record in the tenant, where there is
one, else about the subject as a type. -/
def isAllowed (ability : Ability) (required : RequiredPermission) (workspaceId : Option Uuid)
    (userId : Uuid) : Bool :=
  match workspaceId with
  | some workspaceId =>
    if isTenantScopedSubject required.subject then
      ability.can required.action.value required.subject.value
        (buildTenantStub required.subject workspaceId userId)
    else ability.canType required.action.value required.subject.value
  | none => ability.canType required.action.value required.subject.value

/-- The decision on a required permission. -/
def authorize (ability : Ability) (required : RequiredPermission) (workspaceId : Option Uuid)
    (userId : Uuid) : Except ApiError Unit :=
  let denied := Errors.permissionDenied required.action.value required.subject.value
  if required.isAdministrative &&
      !hasNonOwnerScopedRule ability required.action required.subject then
    .error denied
  else if isTenantScopedSubject required.subject && decide (required.subject ≠ .workspace) &&
      workspaceId.isNone then
    .error Errors.workspaceContextMissing
  else if isAllowed ability required workspaceId userId || required.isDeniedAsNotFound then
    .ok ()
  else
    .error denied

/-- `canActivate`. Answers the ability that it leaves on the request, if it loads one. -/
def canActivate (loadGrants : Uuid → Except Failure AuthorizationGrants) (route : Route)
    (request : AuthorizedRequest) : Except Failure (Option Ability) :=
  if (route.get (·.isPublic)).getD false then .ok none
  else
    match request.user with
    | none => .error (.api Errors.tokenMissing)
    | some userId =>
      match loadGrants userId with
      | .error failure => .error failure
      | .ok grants =>
        match createForUser userId grants with
        | .error _ => .error .internal
        | .ok ability =>
          if (route.get (·.isAuthenticatedOnly)).getD false then .ok (some ability)
          else
            match route.get (·.required) with
            | none => .error (.api (Errors.permissionDenied "unknown" ""))
            | some required =>
              match authorize ability required (resolveWorkspaceId request) userId with
              | .error e => .error (.api e)
              | .ok () => .ok (some ability)

/-! ### The guards of the modelled handlers -/

/-- A decision inside of a handler. -/
def orDeny (decision : Except ApiError Unit) : Handler Unit :=
  match decision with
  | .ok () => .done ()
  | .error e => .fail (.api e)

theorem requirePermission_eq_authorize {actorId workspaceId : Uuid}
    {required : PermissionDefinition} (htenant : isTenantScopedSubject required.subject = true) :
    requirePermission actorId required workspaceId = (do
      let ability ← guardedAbility actorId
      orDeny (authorize ability ⟨required.action, required.subject, false, false⟩
        (some workspaceId) actorId)
      pure ability) := by
  unfold requirePermission
  congr 1
  funext ability
  simp only [authorize, isAllowed, htenant, ensure, orDeny]
  by_cases hcan : ability.can required.action.value required.subject.value
      (buildTenantStub required.subject workspaceId actorId) = true
  · simp [hcan]
  · simp [hcan]

theorem requireAdministrative_eq_authorize {actorId : Uuid} {action : AuthorizationAction}
    {subject : AuthorizationSubject} (htenant : isTenantScopedSubject subject = false)
    (workspaceId : Option Uuid) :
    requireAdministrative actorId action subject = (do
      let ability ← guardedAbility actorId
      orDeny (authorize ability ⟨action, subject, true, false⟩ workspaceId actorId)
      pure ability) := by
  unfold requireAdministrative
  congr 1
  funext ability
  have hallowed : isAllowed ability ⟨action, subject, true, false⟩ workspaceId actorId =
      ability.canType action.value subject.value := by
    cases workspaceId <;> simp [isAllowed, htenant]
  simp only [authorize, hallowed, htenant, ensure, orDeny]
  by_cases hrule : hasNonOwnerScopedRule ability action subject = true
  · by_cases hcan : ability.canType action.value subject.value = true
    · simp [hrule, hcan]
    · simp [hrule, hcan]
  · simp [hrule]

end NestApi
