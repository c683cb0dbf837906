import Mathlib.Data.Nat.Notation

/-!
# The authorization catalog

Actions, subjects, permissions and seeded roles, as the code declares them. A
permission row records what a role may do and never a condition. Descriptions and
the names of permission rows play no part in a decision and are left out.
-/

namespace NestApi

/-- Which table a role is assigned through. -/
inductive RoleScope
  | platform | workspace
deriving DecidableEq, Repr

/-- Whether a platform permission reaches every row or the caller's own rows. -/
inductive PermissionOwnership
  | own | any
deriving DecidableEq, Repr

/-- The closed set of roles. The `roles` table is a projection of this list. -/
inductive SeededRoleName
  | platformAdmin | platformEngineer | platformTechnicalSupport | platformAppSupport
  | workspaceOwner | workspaceAdmin | workspaceManager | workspaceStaff
deriving DecidableEq, Repr

/-- The lifecycle of a membership. Only `active` grants authority. -/
inductive WorkspaceMembershipStatus
  | active | suspended | left
deriving DecidableEq, Repr

/-- The lifecycle of an invitation. -/
inductive WorkspaceInvitationStatus
  | pending | accepted | revoked | expired
deriving DecidableEq, Repr

/-- The stored text of a scope. -/
def RoleScope.value : RoleScope → String
  | platform => "platform"
  | workspace => "workspace"

/-- The stored text of an ownership tag. -/
def PermissionOwnership.value : PermissionOwnership → String
  | own => "own"
  | any => "any"

/-- The stored text of a role name. -/
def SeededRoleName.value : SeededRoleName → String
  | platformAdmin => "platform_admin"
  | platformEngineer => "platform_engineer"
  | platformTechnicalSupport => "platform_technical_support"
  | platformAppSupport => "platform_app_support"
  | workspaceOwner => "workspace_owner"
  | workspaceAdmin => "workspace_admin"
  | workspaceManager => "workspace_manager"
  | workspaceStaff => "workspace_staff"

/-- The stored text of a membership status. -/
def WorkspaceMembershipStatus.value : WorkspaceMembershipStatus → String
  | active => "active"
  | suspended => "suspended"
  | left => "left"

namespace Authorization

/-- The verbs of the catalog. `manage` matches every other one. -/
inductive AuthorizationAction
  | manage | create | read | update | delete | resetPassword | assignRole | suspend
  | transferOwnership | retry | cancel | readPayload | revokeSession | resendVerification
deriving DecidableEq, Repr

/-- The subjects of the catalog: the model names and the wildcard `all`. -/
inductive AuthorizationSubject
  | all | user | workspace | workspaceMembership | workspaceInvitation | role | permission
  | appVersion | deviceToken | auditLog | queueJob
deriving DecidableEq, Repr

/-- The text of an action. -/
def AuthorizationAction.value : AuthorizationAction → String
  | manage => "manage"
  | create => "create"
  | read => "read"
  | update => "update"
  | delete => "delete"
  | resetPassword => "resetPassword"
  | assignRole => "assignRole"
  | suspend => "suspend"
  | transferOwnership => "transferOwnership"
  | retry => "retry"
  | cancel => "cancel"
  | readPayload => "readPayload"
  | revokeSession => "revokeSession"
  | resendVerification => "resendVerification"

/-- The text of a subject. -/
def AuthorizationSubject.value : AuthorizationSubject → String
  | all => "all"
  | user => "User"
  | workspace => "Workspace"
  | workspaceMembership => "WorkspaceMembership"
  | workspaceInvitation => "WorkspaceInvitation"
  | role => "Role"
  | permission => "Permission"
  | appVersion => "AppVersion"
  | deviceToken => "DeviceToken"
  | auditLog => "AuditLog"
  | queueJob => "QueueJob"

/-- One permission of the catalog. -/
structure PermissionDefinition where
  action : AuthorizationAction
  subject : AuthorizationSubject
  scope : RoleScope
  ownership : PermissionOwnership
deriving DecidableEq, Repr

/-- A platform-scope permission. -/
def platform (action : AuthorizationAction) (subject : AuthorizationSubject)
    (ownership : PermissionOwnership) : PermissionDefinition :=
  ⟨action, subject, .platform, ownership⟩

/-- A workspace-scope permission. These are always `any`: their condition is the tenant. -/
def workspace (action : AuthorizationAction) (subject : AuthorizationSubject) :
    PermissionDefinition :=
  ⟨action, subject, .workspace, .any⟩

/-! ### Platform scope -/

def manageEverything := platform .manage .all .any
def readAnyUser := platform .read .user .any
def createAnyUser := platform .create .user .any
def updateAnyUser := platform .update .user .any
def deleteAnyUser := platform .delete .user .any
def resetAnyUserPassword := platform .resetPassword .user .any
def assignPlatformRole := platform .assignRole .user .any
def manageAnyDeviceToken := platform .manage .deviceToken .any
def readAnyAuditLog := platform .read .auditLog .any
def readAnyWorkspace := platform .read .workspace .any
def manageAnyAppVersion := platform .manage .appVersion .any
def revokeAnyUserSession := platform .revokeSession .user .any
def resendAnyUserVerification := platform .resendVerification .user .any
def readAnyQueueJob := platform .read .queueJob .any
def readAnyQueueJobPayload := platform .readPayload .queueJob .any
def retryAnyQueueJob := platform .retry .queueJob .any
def cancelAnyQueueJob := platform .cancel .queueJob .any
def readRole := platform .read .role .any
def readPermission := platform .read .permission .any
def createWorkspace := platform .create .workspace .any
def readAnyWorkspaceMembership := platform .read .workspaceMembership .any
def readAnyWorkspaceInvitation := platform .read .workspaceInvitation .any
def readOwnUser := platform .read .user .own
def updateOwnUser := platform .update .user .own
def deleteOwnUser := platform .delete .user .own
def manageOwnDeviceToken := platform .manage .deviceToken .own
def readOwnWorkspaceMembership := platform .read .workspaceMembership .own

/-! ### Workspace scope -/

def readWorkspace := workspace .read .workspace
def updateWorkspace := workspace .update .workspace
def deleteWorkspace := workspace .delete .workspace
def transferWorkspaceOwnership := workspace .transferOwnership .workspace
def readWorkspaceMembership := workspace .read .workspaceMembership
def createWorkspaceMembership := workspace .create .workspaceMembership
def updateWorkspaceMembership := workspace .update .workspaceMembership
def deleteWorkspaceMembership := workspace .delete .workspaceMembership
def assignRoleWorkspaceMembership := workspace .assignRole .workspaceMembership
def suspendWorkspaceMembership := workspace .suspend .workspaceMembership
def readWorkspaceInvitation := workspace .read .workspaceInvitation
def createWorkspaceInvitation := workspace .create .workspaceInvitation
def deleteWorkspaceInvitation := workspace .delete .workspaceInvitation

/-- Every permission the code can check. The `permissions` table is a projection of it. -/
def permissionCatalog : List PermissionDefinition :=
  [manageEverything, readAnyUser, createAnyUser, updateAnyUser, deleteAnyUser,
    resetAnyUserPassword, assignPlatformRole, manageAnyDeviceToken, readAnyAuditLog,
    readAnyWorkspace, manageAnyAppVersion, revokeAnyUserSession, resendAnyUserVerification,
    readAnyQueueJob, readAnyQueueJobPayload, retryAnyQueueJob, cancelAnyQueueJob, readRole,
    readPermission, createWorkspace, readAnyWorkspaceMembership, readAnyWorkspaceInvitation,
    readOwnUser, updateOwnUser, deleteOwnUser, manageOwnDeviceToken,
    readOwnWorkspaceMembership, readWorkspace, updateWorkspace, deleteWorkspace,
    transferWorkspaceOwnership, readWorkspaceMembership, createWorkspaceMembership,
    updateWorkspaceMembership, deleteWorkspaceMembership, assignRoleWorkspaceMembership,
    suspendWorkspaceMembership, readWorkspaceInvitation, createWorkspaceInvitation,
    deleteWorkspaceInvitation]

/-- What every authenticated caller can do, with no role of any kind. -/
def authenticatedUserPermissions : List PermissionDefinition :=
  [readOwnUser, updateOwnUser, deleteOwnUser, manageOwnDeviceToken,
    readOwnWorkspaceMembership, createWorkspace, readRole, readPermission]

/-- A role: where it is assigned, its rank for the escalation guard, its grants. -/
structure RoleDefinition where
  scope : RoleScope
  rank : ℕ
  permissions : List PermissionDefinition
deriving DecidableEq, Repr

/-- The role catalog. Rank orders roles for the escalation guard only; every role's
grants are listed in full. -/
def roleDefinitionCatalog : SeededRoleName → RoleDefinition
  | .platformAdmin => ⟨.platform, 100, [manageEverything]⟩
  | .platformEngineer => ⟨.platform, 90,
      [readAnyUser, readAnyWorkspace, readAnyAuditLog, manageAnyAppVersion,
        readAnyQueueJob, readAnyQueueJobPayload, retryAnyQueueJob,
        cancelAnyQueueJob, readAnyWorkspaceMembership, readAnyWorkspaceInvitation]⟩
  | .platformTechnicalSupport => ⟨.platform, 60,
      [readAnyUser, readAnyWorkspace, readAnyQueueJob, retryAnyQueueJob,
        readAnyWorkspaceMembership]⟩
  | .platformAppSupport => ⟨.platform, 40,
      [readAnyUser, readAnyWorkspace, readAnyWorkspaceMembership,
        revokeAnyUserSession, resendAnyUserVerification]⟩
  | .workspaceOwner => ⟨.workspace, 100,
      [readWorkspace, updateWorkspace, deleteWorkspace, transferWorkspaceOwnership,
        readWorkspaceMembership, createWorkspaceMembership, updateWorkspaceMembership,
        deleteWorkspaceMembership, assignRoleWorkspaceMembership,
        suspendWorkspaceMembership, readWorkspaceInvitation, createWorkspaceInvitation,
        deleteWorkspaceInvitation]⟩
  | .workspaceAdmin => ⟨.workspace, 70,
      [readWorkspace, updateWorkspace, readWorkspaceMembership,
        createWorkspaceMembership, updateWorkspaceMembership, deleteWorkspaceMembership,
        assignRoleWorkspaceMembership, suspendWorkspaceMembership,
        readWorkspaceInvitation, createWorkspaceInvitation, deleteWorkspaceInvitation]⟩
  | .workspaceManager => ⟨.workspace, 40,
      [readWorkspace, updateWorkspace, readWorkspaceMembership,
        createWorkspaceMembership, readWorkspaceInvitation, createWorkspaceInvitation]⟩
  | .workspaceStaff => ⟨.workspace, 20, [readWorkspace, readWorkspaceMembership]⟩

end Authorization

/-- The permissions of a role. -/
def SeededRoleName.permissions (role : SeededRoleName) :
    List Authorization.PermissionDefinition :=
  (Authorization.roleDefinitionCatalog role).permissions

/-- The rank of a role. -/
def SeededRoleName.rank (role : SeededRoleName) : ℕ :=
  (Authorization.roleDefinitionCatalog role).rank

/-- The scope of a role. -/
def SeededRoleName.scope (role : SeededRoleName) : RoleScope :=
  (Authorization.roleDefinitionCatalog role).scope

end NestApi
