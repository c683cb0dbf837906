import NestApi.Grants.PermissionLoader
import NestApi.Workspaces.Memberships

/-!
# Operations that change authority

Each operation of the services, as far as grants are concerned: what it reads under its
locks, what it writes, and whom it invalidates after the commit. The checks are left out,
since an operation that refuses writes nothing and deletes no key; so whatever the services
do to grants is among what is done here. The catalog sync is a script of its own.
-/

namespace NestApi

open Txn.Program

namespace AuthorityChanges

/-! ### After the commit -/

/-- Drop cached grants, one user at a time, and return. -/
def invalidateGrantsFor (userIds : List Uuid) : Task Unit := do
  forEach userIds PermissionLoader.invalidateUser
  emit .operationEnded

/-- A transaction that answers whose authority it changed, then their invalidation. -/
def changeAuthority (body : Task (List Uuid)) : Task Unit := do
  let users ← transaction body fun users => .authorityChanged users
  invalidateGrantsFor users.dedup

/-- A pending write of the database. -/
def write (f : Database → Database) : Task Unit := modify fun s => s.modifyDatabase f

/-- Everybody on the rosters of some workspaces, whatever their status. -/
def rosterOf (workspaceIds : List Uuid) (s : Store) : List Uuid :=
  (s.database.workspaceMemberships.filter fun m => m.workspaceId ∈ workspaceIds).map (·.userId)

/-! ### Platform roles -/

/-- `UserRolesService.assign`. -/
def assign (userId : Uuid) (role : SeededRoleName) : Task (List Uuid) := do
  write fun db => db.insertUserRole ⟨userId, role⟩
  pure [userId]

/-- `UserRolesService.revoke`. -/
def revoke (userId : Uuid) (role : SeededRoleName) : Task (List Uuid) := do
  write fun db => db.deleteUserRole ⟨userId, role⟩
  pure [userId]

/-! ### Rosters -/

/-- The transaction of `add` and of `accept`: a new row, or the row of a former member. -/
def join (m : WorkspaceMembership) (actorId : Uuid) : Task (List Uuid) := do
  lockRow (.user m.userId)
  lockRow (.workspace m.workspaceId)
  let existing ← select fun s => s.database.membershipOf? m.workspaceId m.userId
  match existing with
  | some existing =>
    write fun db => db.updateMemberships [existing.id]
      (WorkspaceMembership.rejoined m.role m.joinedAt m.notes actorId)
  | none => write fun db => db.insertMembership m
  pure [m.userId]

/-- The row of a membership, by id and workspace, under the lock of the workspace. -/
def findInWorkspace (workspaceId membershipId : Uuid) : Task WorkspaceMembership := do
  lockRow (.workspace workspaceId)
  let found ← select fun s =>
    (s.database.workspaceMemberships.find? membershipId).filter fun m =>
      m.workspaceId = workspaceId
  orThrow found .internal

/-- The transaction of `changeRole` and of every status change. -/
def rewriteMembership (workspaceId membershipId : Uuid)
    (f : Txn.Rewrite WorkspaceMembership.id) : Task (List Uuid) := do
  let existing ← findInWorkspace workspaceId membershipId
  write fun db => db.updateMemberships [existing.id] f
  pure [existing.userId]

/-- The transaction of `transferOwnership`: every other active owner is demoted. The actor
is invalidated with the parties, who may be neither. -/
def transferOwnership (workspaceId membershipId actorId : Uuid) : Task (List Uuid) := do
  let target ← findInWorkspace workspaceId membershipId
  let outgoing ← select fun s => s.database.workspaceMemberships.filter fun m =>
    m.workspaceId = workspaceId && decide m.IsActiveOwner && m.id ≠ target.id
  write fun db => db.updateMemberships (outgoing.map (·.id))
    (WorkspaceMembership.withRole .workspaceAdmin actorId)
  write fun db => db.updateMemberships [target.id]
    (WorkspaceMembership.withRole .workspaceOwner actorId)
  pure (target.userId :: actorId :: outgoing.map (·.userId))

/-! ### Workspaces -/

/-- The transaction of `WorkspacesService.create`. A generated id is not in use. -/
def createWorkspace (ws : Workspace) (founder : WorkspaceMembership) : Task (List Uuid) := do
  lockRow (.user founder.userId)
  lockRow (.workspace ws.id)
  let members ← select (rosterOf [ws.id])
  ensure (members = []) .internal
  write fun db => db.insertWorkspace ws
  write fun db => db.insertMembership { founder with workspaceId := ws.id }
  pure [founder.userId]

/-- `WorkspacesService.remove`: the roster is read first, the row is locked by the write. -/
def removeWorkspace (workspaceId actorId : Uuid) (now : ℕ) : Task Unit := do
  let roster ← selectObserved (fun s => .rosterRead workspaceId (rosterOf [workspaceId] s))
    (rosterOf [workspaceId])
  transaction (do
      lockRow (.workspace workspaceId)
      write fun db => db.updateWorkspaces [workspaceId] (Workspace.deleted now actorId))
    fun _ => .workspaceRemoved workspaceId roster
  invalidateGrantsFor roster

/-! ### Accounts -/

/-- The transaction of `deleteAccount` and of `deactivate`. -/
def endAccount (userId : Uuid) (data : UserUpdateInput) : Task (List Uuid) := do
  lockRow (.user userId)
  write fun db => db.updateUser userId data.rewrite
  pure [userId]

/-- The transaction of `gdprErase`: the workspaces that `closeSolelyOwnedWorkspaces` found
are closed under their locks, with the rosters read before. -/
def gdprErase (userId : Uuid) (data : UserUpdateInput) (closed : List Uuid) (now : ℕ) :
    Task (List Uuid) := do
  lockRow (.user userId)
  lockRows ((sortedUnique closed).map .workspace)
  let affectedUserIds ← select (rosterOf closed)
  write fun db => db.updateWorkspaces closed (Workspace.deleted now userId)
  write fun db => db.updateUser userId data.rewrite
  pure (userId :: affectedUserIds)

end AuthorityChanges

/-! ### The catalog sync -/

namespace RbacSeeder

open Authorization

/-- Project the permissions of the catalog, and drop what it no longer defines. -/
def seedPermissions : Task Unit := do
  forEach permissionCatalog fun definition =>
    statement (fun s => s.insertPermission definition.toRow) .catalogSynced
  statement (fun s => s.keepPermissions (permissionCatalog.map PermissionDefinition.toRow))
    .catalogSynced

/-- The roles, in the order of the catalog. -/
def roleNames : List SeededRoleName :=
  [.platformAdmin, .platformEngineer, .platformTechnicalSupport, .platformAppSupport,
    .workspaceOwner, .workspaceAdmin, .workspaceManager, .workspaceStaff]

/-- Reconcile the grants of one role to exactly the catalog's. -/
def seedRole (role : SeededRoleName) : Task Unit := do
  let desired := role.permissions.map PermissionDefinition.toRow
  let found ← select fun s => s.permissions.filter fun p => decide (p ∈ desired)
  ensure (found.length = desired.length) .internal
  statement (fun s => s.keepRolePermissions role desired) .catalogSynced
  forEach found fun p => statement (fun s => s.insertRolePermission ⟨role, p⟩) .catalogSynced

def seedRoles : Task Unit := forEach roleNames seedRole

end RbacSeeder

/-! ### The system of grants -/

open AuthorityChanges in
/-- The program of a request. -/
def grantsBody : GrantsRequest → Task Unit
  | .loadGrants userId => do
    let grants ← PermissionLoader.loadGrants userId
    emit (.loadAnswered userId grants)
  | .invalidateAllUsers => PermissionLoader.invalidateAllUsers
  | .assignPlatformRole userId role => changeAuthority (assign userId role)
  | .revokePlatformRole userId role => changeAuthority (revoke userId role)
  | .addMembership m actorId => changeAuthority (join m actorId)
  | .acceptInvitation m => changeAuthority (join m m.userId)
  | .changeRole workspaceId membershipId actorId role =>
    changeAuthority (rewriteMembership workspaceId membershipId
      (WorkspaceMembership.withRole role actorId))
  | .transition workspaceId membershipId actorId status endedAt =>
    changeAuthority (rewriteMembership workspaceId membershipId
      (WorkspaceMembership.withStatus status endedAt actorId))
  | .transferOwnership workspaceId membershipId actorId =>
    changeAuthority (transferOwnership workspaceId membershipId actorId)
  | .createWorkspace ws founder => changeAuthority (createWorkspace ws founder)
  | .removeWorkspace workspaceId actorId now => removeWorkspace workspaceId actorId now
  | .endAccount userId data => changeAuthority (endAccount userId data)
  | .gdprErase userId data closed now => changeAuthority (gdprErase userId data closed now)
  | .syncCatalog => do
    RbacSeeder.seedPermissions
    RbacSeeder.seedRoles
  | .expireKey cacheKey => statement (fun s => s.deleteGrants cacheKey) (.keyExpired cacheKey)
  | .switchRedis available =>
    statement (fun s => s.setAvailable available) (.redisSwitched available)

/-- A configuration of the system of grants. -/
abbrev GrantsConfig := Txn.Config Store RowLock GrantsEvent Uuid Failure GrantsRequest

/-- The shared part of a configuration. -/
abbrev GrantsWorld := Txn.World Store GrantsEvent Uuid GrantsRequest

end NestApi
