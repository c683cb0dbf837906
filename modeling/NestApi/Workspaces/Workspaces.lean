import NestApi.Workspaces.Memberships

/-!
# Workspaces

Creating a workspace with its founding owner, and soft-deleting one.
-/

namespace NestApi.Workspaces

open Authorization Txn.Program WorkspaceOwnershipPolicy WorkspaceMemberships

/-- The columns of a workspace that a rule can be conditioned on. -/
def workspaceRecord (ws : Workspace) : Record := Record.of "id" ws.id

/-- The writing half of `create`. Nobody else sees the new row before the commit, so its
lock is free. -/
def createTransaction (actorId : Uuid) (dto : CreateWorkspaceDto) : Handler Workspace := do
  assertUserMayHoldActiveMembership actorId
  let id ← freshId
  lockWorkspaceRow id
  let workspace : Workspace :=
    { id, name := dto.name, slug := dto.slug, createdBy := some actorId,
      updatedBy := some actorId, deletedAt := none, deletedBy := none }
  modify fun db => db.insertWorkspace workspace
  let now ← now
  let membershipId ← freshId
  let _ ← createMembership
    { id := membershipId, workspaceId := id, userId := actorId, role := .workspaceOwner,
      status := .active, joinedAt := now, endedAt := none, invitedBy := none, notes := none,
      createdBy := some actorId, updatedBy := some actorId }
  pure workspace

/-- Create a workspace and make the creator its owner. -/
def create (actorId : Uuid) (dto : CreateWorkspaceDto) : Handler Workspace := do
  let slugTaken ← select fun db =>
    db.workspaces.rows.any fun ws => ws.slug = dto.slug && ws.deletedAt = none
  ensure (slugTaken = false) (.api (Errors.uniqueConstraintViolation "slug"))
  transaction (createTransaction actorId dto) fun workspace => .workspaceCreated workspace.id

/-- The workspace the caller may read, else 404. -/
def findById (workspaceId : Uuid) (ability : Ability) : Handler Workspace := do
  let filter ← orRefuse (buildWhereOrEmpty (accessibleByRules workspaceRecord)
    ability .read .workspace (.field fun ws => some (ws.id = workspaceId)))
  let workspace ← select fun db =>
    db.workspaces.rows.find? fun ws => decide (filter.selects ws) && ws.deletedAt = none
  orThrow workspace (.api (Errors.resourceNotFound "Workspace"))

/-- Soft-delete a workspace. The memberships stay: a restore has to bring them back. -/
def remove (workspaceId actorId : Uuid) (ability : Ability) : Handler Unit := do
  let existing ← findById workspaceId ability
  assertCan ability deleteWorkspace (workspaceRecord existing)
  let now ← now
  transaction (do
      lockWorkspaceRow workspaceId
      modify fun db => db.updateWorkspaces [workspaceId] (Workspace.deleted now actorId))
    fun _ => .workspaceRemoved workspaceId

end NestApi.Workspaces
