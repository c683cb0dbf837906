import NestApi.Grants.Store

/-!
# The projection of the catalog

The catalog with its names and descriptions, and the three tables that it is projected onto.
The columns of a row are plain texts: rows of older releases may hold anything that the unique
constraints allow. Link rows are their two ids.
-/

namespace NestApi

namespace Authorization

/-! ### Names -/

/-- `replace(/([a-z0-9])([A-Z])/g, '$1_$2')`. -/
def breakBeforeCapital : List Char → List Char
  | a :: b :: rest =>
    if (a.isLower || a.isDigit) && b.isUpper then a :: '_' :: breakBeforeCapital (b :: rest)
    else a :: breakBeforeCapital (b :: rest)
  | chars => chars

/-- `replace(/([A-Z]+)([A-Z][a-z])/g, '$1_$2')`. -/
def breakAfterAcronym : List Char → List Char
  | a :: b :: c :: rest =>
    if a.isUpper && b.isUpper && c.isLower then a :: '_' :: breakAfterAcronym (b :: c :: rest)
    else a :: breakAfterAcronym (b :: c :: rest)
  | chars => chars

/-- Snake case of an identifier. -/
def toSnakeCase (value : String) : String :=
  String.ofList ((breakAfterAcronym (breakBeforeCapital value.toList)).map Char.toLower)

/-- The unique name of a permission. `any` leaves no trace in it. -/
def permissionName (definition : PermissionDefinition) : String :=
  ".".intercalate
    ([definition.scope.value, toSnakeCase definition.subject.value,
        toSnakeCase definition.action.value] ++
      if definition.ownership = .own then ["own"] else [])

example : permissionName assignRoleWorkspaceMembership =
    "workspace.workspace_membership.assign_role" := by decide

/-! ### Descriptions -/

/-- An entry of the catalog with its description. -/
structure CatalogEntry extends PermissionDefinition where
  description : String

/-- The permission catalog with its descriptions. -/
def catalogEntries : List CatalogEntry :=
  [⟨manageEverything, "Unrestricted control over every resource on the platform"⟩,
    ⟨readAnyUser, "View any user account"⟩,
    ⟨createAnyUser, "Create user accounts"⟩,
    ⟨updateAnyUser, "Edit any user account"⟩,
    ⟨deleteAnyUser, "Delete any user account"⟩,
    ⟨resetAnyUserPassword, "Reset another user's password without their current password"⟩,
    ⟨assignPlatformRole, "Grant or revoke a platform-scope role on a user account"⟩,
    ⟨manageAnyDeviceToken, "Administer any user's push-notification device tokens"⟩,
    ⟨readAnyAuditLog, "View the platform audit trail"⟩,
    ⟨readAnyWorkspace, "View any workspace on the platform"⟩,
    ⟨manageAnyAppVersion, "Publish and edit mobile app version records"⟩,
    ⟨revokeAnyUserSession, "Sign any account out of every device"⟩,
    ⟨resendAnyUserVerification, "Re-send an account's email-verification link"⟩,
    ⟨readAnyQueueJob, "Inspect background jobs and queue depth (payloads redacted)"⟩,
    ⟨readAnyQueueJobPayload, "View a background job's raw payload, which may contain user data"⟩,
    ⟨retryAnyQueueJob, "Re-run a failed background job"⟩,
    ⟨cancelAnyQueueJob, "Remove a pending background job"⟩,
    ⟨readRole, "List the available roles"⟩,
    ⟨readPermission, "List the permissions a role grants"⟩,
    ⟨createWorkspace, "Create a new workspace (the creator becomes its owner)"⟩,
    ⟨readAnyWorkspaceMembership, "View any workspace membership across every tenant"⟩,
    ⟨readAnyWorkspaceInvitation, "View any workspace invitation across every tenant"⟩,
    ⟨readOwnUser, "View your own profile"⟩,
    ⟨updateOwnUser, "Edit your own profile"⟩,
    ⟨deleteOwnUser, "Delete your own account"⟩,
    ⟨manageOwnDeviceToken, "Register and remove your own push-notification device tokens"⟩,
    ⟨readOwnWorkspaceMembership, "See which workspaces you belong to, and in what capacity"⟩,
    ⟨readWorkspace, "View the workspace"⟩,
    ⟨updateWorkspace, "Edit the workspace profile and settings"⟩,
    ⟨deleteWorkspace, "Delete the workspace"⟩,
    ⟨transferWorkspaceOwnership, "Hand ownership of the workspace to another active member"⟩,
    ⟨readWorkspaceMembership, "View the workspace roster"⟩,
    ⟨createWorkspaceMembership, "Add an existing user to the workspace roster"⟩,
    ⟨updateWorkspaceMembership, "Edit a roster entry (staff notes)"⟩,
    ⟨deleteWorkspaceMembership, "End a membership, removing the person from the workspace"⟩,
    ⟨assignRoleWorkspaceMembership,
      "Change a member's role within the workspace (bounded by the rank guard)"⟩,
    ⟨suspendWorkspaceMembership,
      "Suspend or reactivate a member's access without ending the membership"⟩,
    ⟨readWorkspaceInvitation, "View pending invitations to the workspace"⟩,
    ⟨createWorkspaceInvitation, "Invite someone to join the workspace"⟩,
    ⟨deleteWorkspaceInvitation, "Revoke a pending invitation"⟩]

/-- The entries are those of the catalog, in its order. -/
theorem catalogEntries_definitions :
    catalogEntries.map CatalogEntry.toPermissionDefinition = permissionCatalog := rfl

/-- The description of a role. -/
def roleDescription : SeededRoleName → String
  | .platformAdmin =>
    "Platform governance: access control, user and workspace administration, audit"
  | .platformEngineer =>
    "Highest technical authority: diagnostics, queue and worker investigation, " ++
      "controlled recovery, release operations"
  | .platformTechnicalSupport =>
    "Escalated technical support: incident investigation, sanitized diagnostics, approved retries"
  | .platformAppSupport =>
    "Customer-facing support: account visibility, verification resends, session revocation"
  | .workspaceOwner =>
    "Owns the workspace. Every capability within it, named"
  | .workspaceAdmin =>
    "Administers the workspace and its roster, below the owner"
  | .workspaceManager =>
    "Runs day-to-day operations; can grow the roster but not assign roles or suspend anyone"
  | .workspaceStaff =>
    "Works here. Reads the workspace and its roster"

/-- The roles of the catalog, in its order. -/
def roleCatalog : List SeededRoleName :=
  [.platformAdmin, .platformEngineer, .platformTechnicalSupport, .platformAppSupport,
    .workspaceOwner, .workspaceAdmin, .workspaceManager, .workspaceStaff]

/-- The names of the catalogued permissions. -/
def catalogNames : List String := permissionCatalog.map permissionName

/-- The names of the permissions of a role. -/
def desiredPermissionNames (role : SeededRoleName) : List String :=
  role.permissions.map permissionName

theorem mem_roleCatalog (role : SeededRoleName) : role ∈ roleCatalog := by
  cases role <;> decide

theorem nodup_catalogNames : catalogNames.Nodup := by decide +kernel

theorem mem_catalogNames {d : PermissionDefinition} (hd : d ∈ permissionCatalog) :
    permissionName d ∈ catalogNames := List.mem_map_of_mem hd

/-- A permission is named after its own columns. -/
theorem eq_of_permissionName {d d' : PermissionDefinition} (hd : d ∈ permissionCatalog)
    (hd' : d' ∈ permissionCatalog) (h : permissionName d = permissionName d') : d = d' :=
  List.inj_on_of_nodup_map nodup_catalogNames hd hd' h

theorem actionValue_injective : Function.Injective AuthorizationAction.value := by
  rintro a b
  cases a <;> cases b <;> decide

theorem subjectValue_injective : Function.Injective AuthorizationSubject.value := by
  rintro a b
  cases a <;> cases b <;> decide

theorem scopeValue_injective : Function.Injective RoleScope.value := by
  rintro a b
  cases a <;> cases b <;> decide

theorem ownershipValue_injective : Function.Injective PermissionOwnership.value := by
  rintro a b
  cases a <;> cases b <;> decide

/-- The columns of a row determine its permission. -/
theorem toRow_injective : Function.Injective PermissionDefinition.toRow := by
  rintro ⟨action, subject, scope, ownership⟩ ⟨action', subject', scope', ownership'⟩ h
  obtain ⟨haction, hsubject, hscope, hownership⟩ := Permission.mk.inj h
  obtain rfl : action = action' := actionValue_injective haction
  obtain rfl : subject = subject' := subjectValue_injective hsubject
  obtain rfl : scope = scope' := scopeValue_injective hscope
  obtain rfl : ownership = ownership' := ownershipValue_injective hownership
  rfl

/-- Every permission of a role is in the catalog, and is listed once. -/
theorem permissions_of_role (role : SeededRoleName) :
    (∀ d ∈ role.permissions, d ∈ permissionCatalog) ∧ role.permissions.Nodup := by
  cases role <;> decide

theorem roleName_injective : Function.Injective SeededRoleName.value := by
  rintro a b
  cases a <;> cases b <;> decide

end Authorization

open Authorization

/-! ### Rows -/

/-- A row of `permissions`. The unique columns are those of `Permission`. -/
structure PermissionRow extends Permission where
  id : ℕ
  name : String
  description : String
deriving DecidableEq

/-- A row of `roles`. -/
structure RoleRow where
  id : ℕ
  name : String
  scope : String
  rank : ℤ
  description : Option String
deriving DecidableEq

/-- A row of `role_permissions`. -/
structure RolePermissionRow where
  roleId : ℕ
  permissionId : ℕ
deriving DecidableEq

/-- The three tables. -/
structure CatalogTables where
  permissions : List PermissionRow
  roles : List RoleRow
  rolePermissions : List RolePermissionRow
deriving DecidableEq

/-- The constraints of the schema: primary keys, unique names, the unique columns of a
permission, unique links, and links that point to rows. -/
structure CatalogTables.Valid (t : CatalogTables) : Prop where
  permissionIds : (t.permissions.map PermissionRow.id).Nodup
  permissionNames : (t.permissions.map PermissionRow.name).Nodup
  permissionColumns : (t.permissions.map PermissionRow.toPermission).Nodup
  roleIds : (t.roles.map RoleRow.id).Nodup
  roleNames : (t.roles.map RoleRow.name).Nodup
  links : t.rolePermissions.Nodup
  linkedRole : ∀ l ∈ t.rolePermissions, ∃ r ∈ t.roles, r.id = l.roleId
  linkedPermission : ∀ l ∈ t.rolePermissions, ∃ p ∈ t.permissions, p.id = l.permissionId

/-- A state of the database. -/
structure CatalogDatabase extends CatalogTables where
  valid : toCatalogTables.Valid

namespace CatalogTables

/-- The permissions that the loader selects for a role. -/
def grantsOf (t : CatalogTables) (roleId : ℕ) : List Permission :=
  (t.rolePermissions.filter fun l => l.roleId = roleId).flatMap fun l =>
    (t.permissions.filter fun p => p.id = l.permissionId).map PermissionRow.toPermission

/-- Every system role compiles to the grants that the catalog declares. -/
def GrantsDeclared (t : CatalogTables) : Prop :=
  ∀ role : SeededRoleName, ∀ row ∈ t.roles, row.name = role.value →
    ∀ g, g ∈ t.grantsOf row.id ↔ g ∈ role.permissions.map PermissionDefinition.toRow

/-- The catalogued permissions and no others, each with its catalogued columns. -/
structure PermissionsProjected (t : CatalogTables) : Prop where
  complete : ∀ d ∈ permissionCatalog, ∃ p ∈ t.permissions, p.name = permissionName d
  sound : ∀ p ∈ t.permissions, ∃ d ∈ permissionCatalog,
    p.name = permissionName d ∧ p.toPermission = d.toRow

/-- The role row has its catalogued scope and rank and exactly its catalogued links. -/
structure RoleProjected (t : CatalogTables) (role : SeededRoleName) (row : RoleRow) : Prop where
  scope : row.scope = role.scope.value
  rank : row.rank = role.rank
  links : ∀ p ∈ t.permissions,
    ⟨row.id, p.id⟩ ∈ t.rolePermissions ↔ p.name ∈ desiredPermissionNames role

/-- The database is an exact projection of the catalog. -/
structure Projected (t : CatalogTables) : Prop where
  permissions : t.PermissionsProjected
  roles : ∀ role : SeededRoleName, ∃ row ∈ t.roles, row.name = role.value ∧ t.RoleProjected role row

theorem mem_grantsOf {t : CatalogTables} {roleId : ℕ} {g : Permission} :
    g ∈ t.grantsOf roleId ↔
      ∃ p ∈ t.permissions, ⟨roleId, p.id⟩ ∈ t.rolePermissions ∧ p.toPermission = g := by
  simp only [grantsOf, List.mem_flatMap, List.mem_filter, List.mem_map, decide_eq_true_eq]
  constructor
  · rintro ⟨⟨roleId', permissionId⟩, ⟨hl, rfl⟩, p, ⟨hp, rfl⟩, rfl⟩
    exact ⟨p, hp, hl, rfl⟩
  · rintro ⟨p, hp, hl, rfl⟩
    exact ⟨⟨roleId, p.id⟩, ⟨hl, rfl⟩, p, ⟨hp, rfl⟩, rfl⟩

end CatalogTables

end NestApi
