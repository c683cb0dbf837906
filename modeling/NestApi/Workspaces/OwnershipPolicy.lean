import NestApi.Handler

/-!
# The ownership policy

The one place that answers whether a workspace still has an owner. Every check runs
inside the transaction that acts on it, under the locks taken here: the user row first,
then the workspace rows.
-/

namespace NestApi.WorkspaceOwnershipPolicy

open Txn.Program

/-- The gate on every write that leaves someone with an active membership. -/
def assertUserMayHoldActiveMembership (userId : Uuid) : Handler Unit := do
  lockUserRow userId
  let usable ← select fun db => db.isUsable userId
  ensure (usable = true) (.api (Errors.resourceNotFound "User"))

/-- The owners of a workspace who can act, one membership apart. -/
def remainingOwners (db : Database) (workspaceId excludingMembershipId : Uuid) :
    List WorkspaceMembership :=
  db.workspaceMemberships.filter fun m =>
    m.workspaceId = workspaceId && m.id ≠ excludingMembershipId &&
      decide m.IsActiveOwner && db.isUsable m.userId

/-- Refuse unless the workspace keeps an owner without this membership. -/
def assertAnotherActiveOwnerExists (workspaceId excludingMembershipId : Uuid) :
    Handler Unit := do
  let count ← select fun db => (remainingOwners db workspaceId excludingMembershipId).length
  ensure (count ≠ 0) (.api (Errors.lastOwnerProtected []))

/-- The live workspaces in which the user is an active owner, id and name. -/
def ownedLiveWorkspaces (db : Database) (userId : Uuid) : List (Uuid × String) :=
  ((db.workspaceMemberships.filter fun m => m.userId = userId && decide m.IsActiveOwner).filterMap
    fun m => (db.scopedWorkspace? m.workspaceId).map fun ws => (ws.id, ws.name)).insertionSort
      fun x y => x.1 ≤ y.1

/-- Somebody else is an owner of the workspace who can act. -/
def hasCoOwner (db : Database) (userId workspaceId : Uuid) : Bool :=
  db.workspaceMemberships.rows.any fun m =>
    m.workspaceId = workspaceId && m.userId ≠ userId && decide m.IsActiveOwner &&
      db.isUsable m.userId

/-- The live workspaces this user owns alone. The lock is taken between the two reads. For
a user who owns none, no row is locked. -/
def findSolelyOwnedLiveWorkspaces (userId : Uuid) : Handler (List (Uuid × String)) := do
  let owned ← select fun db => ownedLiveWorkspaces db userId
  lockWorkspaceRows (owned.map Prod.fst)
  let stillOwnedByAnother ← select fun db =>
    (owned.map Prod.fst).filter fun workspaceId => hasCoOwner db userId workspaceId
  pure (owned.filter fun workspace => workspace.1 ∉ stillOwnedByAnother)

/-- Deletion and deactivation: refuse to strand a workspace. -/
def assertUserIsNotASoleOwner (userId : Uuid) : Handler Unit := do
  let blocking ← findSolelyOwnedLiveWorkspaces userId
  ensure (blocking = []) (.api (Errors.lastOwnerProtected blocking))

/-- Erasure: close the workspaces instead of refusing. Their rows are locked already. -/
def closeSolelyOwnedWorkspaces (userId actorId : Uuid) : Handler (List (Uuid × String)) := do
  let workspaces ← findSolelyOwnedLiveWorkspaces userId
  onlyIf (workspaces ≠ []) do
    let now ← now
    modify fun db =>
      db.updateWorkspaces (workspaces.map Prod.fst) (Workspace.deleted now actorId)
  pure workspaces

end NestApi.WorkspaceOwnershipPolicy
