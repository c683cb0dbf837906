import NestApi.Users.UserRoles
import NestApi.Users.Users
import NestApi.Workspaces.Invitations
import NestApi.Workspaces.Workspaces

/-!
# The system

Every modelled request with its handler. Routes on a workspace run the guard with the
permission the route declares. The route that deletes a workspace answers a missing
permission as a missing workspace, so there the guard only loads the ability.
-/

namespace NestApi

open Authorization Txn.Program

/-- The answer of a service is not part of the model. -/
def discard {α : Type} (x : Handler α) : Handler Unit := x >>= fun _ => pure ()

/-- The handler of a request. -/
def body (env : Env) : Request → Handler Unit
  | .createWorkspace actorId dto => discard (Workspaces.create actorId dto)
  | .removeWorkspace actorId workspaceId => do
    let ability ← guardedAbility actorId
    Workspaces.remove workspaceId actorId ability
  | .addMembership actorId workspaceId dto => do
    let ability ← requirePermission actorId createWorkspaceMembership workspaceId
    discard (WorkspaceMemberships.add workspaceId actorId dto ability)
  | .updateMembership actorId workspaceId membershipId dto => do
    let ability ← requirePermission actorId updateWorkspaceMembership workspaceId
    discard (WorkspaceMemberships.update workspaceId membershipId actorId dto ability)
  | .changeRole actorId workspaceId membershipId role => do
    let ability ← requirePermission actorId assignRoleWorkspaceMembership workspaceId
    discard (WorkspaceMemberships.changeRole workspaceId membershipId actorId role ability)
  | .transition .suspend actorId workspaceId membershipId => do
    let ability ← requirePermission actorId suspendWorkspaceMembership workspaceId
    discard (WorkspaceMemberships.suspend workspaceId membershipId actorId ability)
  | .transition .reactivate actorId workspaceId membershipId => do
    let ability ← requirePermission actorId suspendWorkspaceMembership workspaceId
    discard (WorkspaceMemberships.reactivate workspaceId membershipId actorId ability)
  | .transition .remove actorId workspaceId membershipId => do
    let ability ← requirePermission actorId deleteWorkspaceMembership workspaceId
    discard (WorkspaceMemberships.remove workspaceId membershipId actorId ability)
  | .transferOwnership actorId workspaceId membershipId => do
    let ability ← requirePermission actorId transferWorkspaceOwnership workspaceId
    discard (WorkspaceMemberships.transferOwnership workspaceId membershipId actorId ability)
  | .createInvitation actorId workspaceId dto => do
    let ability ← requirePermission actorId createWorkspaceInvitation workspaceId
    discard (WorkspaceInvitations.create env workspaceId actorId dto ability)
  | .resendInvitation actorId workspaceId invitationId hasBudget => do
    let ability ← requirePermission actorId createWorkspaceInvitation workspaceId
    WorkspaceInvitations.resend env workspaceId invitationId actorId hasBudget ability
  | .revokeInvitation actorId workspaceId invitationId => do
    let ability ← requirePermission actorId deleteWorkspaceInvitation workspaceId
    WorkspaceInvitations.revoke workspaceId invitationId actorId ability
  | .acceptInvitation actorId actorEmail token =>
    discard (WorkspaceInvitations.accept env token actorId actorEmail)
  | .updateUser actorId userId dto => discard (UsersService.update userId dto actorId)
  | .deleteUser actorId userId => UsersService.remove userId actorId
  | .gdprErase userId currentPassword => UsersService.gdprErase env userId currentPassword
  | .login identifier password => AuthService.login env identifier password
  | .refresh presentedToken => RefreshTokens.rotate env presentedToken
  | .logout presentedToken => AuthService.logout env presentedToken
  | .logoutAll userId => AuthService.logoutAll userId
  | .revokeAllSessions actorId userId => UsersService.revokeAllSessions userId actorId
  | .updateOwnPassword userId currentPassword newPassword =>
    UsersService.updateOwnPassword env userId currentPassword newPassword
  | .updatePasswordAsAdmin actorId userId newPassword =>
    UsersService.updatePasswordAsAdmin env userId actorId newPassword
  | .deliverPasswordReset userId => UsersService.deliverPasswordReset env userId
  | .resetPassword email token newPassword =>
    UsersService.resetPassword env email token newPassword
  | .updateEmail userId currentPassword newEmail =>
    UsersService.updateEmail env userId currentPassword newEmail
  | .purgeExpired => RefreshTokens.purgeExpired
  | .assignPlatformRole actorId userId role => do
    let ability ← requireAdministrative actorId .assignRole .user
    UserRolesService.assign userId role ability actorId
  | .revokePlatformRole actorId userId role => do
    let ability ← requireAdministrative actorId .assignRole .user
    UserRolesService.revoke userId role ability actorId

/-- A configuration of the running system. -/
abbrev SystemConfig := Txn.Config Database RowLock Event Uuid Failure Request

/-- The shared part of a configuration. -/
abbrev SystemWorld := Txn.World Database Event Uuid Request

end NestApi
