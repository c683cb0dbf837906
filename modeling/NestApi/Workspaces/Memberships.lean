import NestApi.Workspaces.OwnershipPolicy
import NestApi.Workspaces.RoleAssignmentPolicy

/-!
# Workspace memberships

The roster: joining, changing a role, suspending, ending, handing over. Each handler is
the route's guard followed by the service. What is read before the transaction decides
whether the caller may act; what is read under the workspace lock decides whether the
change is possible.
-/

namespace NestApi.WorkspaceMemberships

open Authorization Txn.Program WorkspaceOwnershipPolicy WorkspaceRoleAssignmentPolicy

/-- A membership with the database its relations are read from. -/
abbrev RosterRow := Database × WorkspaceMembership

/-- The columns of a membership that a rule can be conditioned on. -/
def membershipRecord (m : WorkspaceMembership) : Record :=
  ((Record.of "id" m.id).with "workspaceId" m.workspaceId).with "userId" m.userId

/-- One membership of one workspace, of a live user and a live workspace. -/
def membershipWhere (workspaceId membershipId : Uuid) : Where RosterRow :=
  .mk
    [fun row => some (row.2.id = membershipId),
      fun row => some (row.2.workspaceId = workspaceId),
      fun row => some ((row.1.scopedUser? row.2.userId).isSome),
      fun row => some (row.1.isLiveWorkspace row.2.workspaceId)] none [] []

/-- A filter, or the refusal to build one. -/
def orRefuse {α : Type} (x : Except ApiError α) : Handler α :=
  match x with
  | .ok a => .done a
  | .error e => throwApi e

/-- The membership the caller may read, else 404. -/
def findById (workspaceId membershipId : Uuid) (ability : Ability) :
    Handler WorkspaceMembership := do
  let filter ← orRefuse (buildWhereOrEmpty (accessibleByRules fun row => membershipRecord row.2)
    ability .read .workspaceMembership (membershipWhere workspaceId membershipId))
  let membership ← select fun db =>
    db.workspaceMemberships.rows.find? fun m => filter.selects (db, m)
  orThrow membership (.api (Errors.resourceNotFound "Workspace membership"))

/-- `INSERT`: the referenced rows must exist. -/
def createMembership (m : WorkspaceMembership) : Handler WorkspaceMembership := do
  let referenced ← select fun db =>
    (db.workspaces.find? m.workspaceId).isSome && (db.users.find? m.userId).isSome
  ensure (referenced = true) .internal
  modify fun db => db.insertMembership m
  pure m

/-- `UPDATE … WHERE id`. -/
def updateMembership (m : WorkspaceMembership)
    (f : Txn.Rewrite WorkspaceMembership.id) : Handler WorkspaceMembership := do
  modify fun db => db.updateMemberships [m.id] f
  pure (f.row m)

/-! ### Joining -/

/-- The writing half of `add`, under the locks. Re-joining is an update: the row of a
former member is the only one the workspace and the user will ever have. -/
def addTransaction (workspaceId actorId targetUserId : Uuid) (targetRole : SeededRoleName)
    (notes : Option String) (now : ℕ) : Handler WorkspaceMembership := do
  assertUserMayHoldActiveMembership targetUserId
  lockWorkspaceRow workspaceId
  let existing ← select fun db => db.membershipOf? workspaceId targetUserId
  match existing with
  | some existing => do
    ensure (existing.status = .left) (.api
      (Errors.resourceConflict "That person already has a membership in this workspace"))
    updateMembership existing (WorkspaceMembership.rejoined targetRole now notes actorId)
  | none => do
    let id ← freshId
    createMembership
      { id, workspaceId, userId := targetUserId, role := targetRole, status := .active,
        joinedAt := now, endedAt := none, invitedBy := some actorId, notes,
        createdBy := some actorId, updatedBy := some actorId }

/-- Add someone who already has an account. -/
def add (workspaceId actorId : Uuid) (dto : AddWorkspaceMembershipDto) (ability : Ability) :
    Handler WorkspaceMembership := do
  let found ← select fun db =>
    db.users.rows.find? fun u => u.email = dto.email && u.deletedAt = none
  let targetUser ← orThrow found (.api (Errors.resourceNotFound "User"))
  let targetRole ← loadAssignableRole dto.role
  let _ ← assertMayAssign workspaceId actorId targetRole ability (some targetUser.id)
  let mayAnnotate := ability.can updateWorkspaceMembership.action.value
    updateWorkspaceMembership.subject.value (membershipStub workspaceId (some targetUser.id))
  ensure (dto.notes = none ∨ mayAnnotate = true) (.api
    (Errors.permissionDenied updateWorkspaceMembership.action.value
      updateWorkspaceMembership.subject.value))
  let now ← now
  transaction
    (addTransaction workspaceId actorId targetUser.id targetRole
      (if mayAnnotate then dto.notes else none) now)
    fun _ => .rosterChanged .add workspaceId actorId none (some targetRole)

/-! ### Annotating -/

/-- Staff annotation only. One statement, without the lock of the workspace. -/
def update (workspaceId membershipId actorId : Uuid) (dto : UpdateWorkspaceMembershipDto)
    (ability : Ability) : Handler WorkspaceMembership := do
  let existing ← findById workspaceId membershipId ability
  assertCan ability updateWorkspaceMembership (membershipRecord existing)
  transaction
    (updateMembership existing (WorkspaceMembership.annotated dto.notes actorId))
    fun _ => .membershipUpdated membershipId

/-! ### Changing a role -/

/-- The row of a membership, by id and workspace. -/
def findInWorkspace (workspaceId membershipId : Uuid) : Handler WorkspaceMembership := do
  let found ← select fun db =>
    (db.workspaceMemberships.find? membershipId).filter fun m => m.workspaceId = workspaceId
  orThrow found (.api (Errors.resourceNotFound "Workspace membership"))

/-- The writing half of `changeRole`. Answers the row it changed, as it was. -/
def changeRoleTransaction (workspaceId actorId : Uuid) (visible : WorkspaceMembership)
    (targetRole : SeededRoleName) (actorRank : AssignmentCeiling) :
    Handler WorkspaceMembership := do
  assertUserMayHoldActiveMembership visible.userId
  lockWorkspaceRow workspaceId
  let existing ← findInWorkspace workspaceId visible.id
  assertRankPermits actorRank existing.role.rank
  onlyIf (existing.role = .workspaceOwner ∧ targetRole ≠ .workspaceOwner)
    (assertAnotherActiveOwnerExists workspaceId visible.id)
  let _ ← updateMembership existing (WorkspaceMembership.withRole targetRole actorId)
  pure existing

/-- Change a member's role. The target role, the caller's authority and the caller's
rank are read before the lock. -/
def changeRole (workspaceId membershipId actorId : Uuid) (role : Option SeededRoleName)
    (ability : Ability) : Handler WorkspaceMembership := do
  let visible ← findById workspaceId membershipId ability
  assertCan ability assignRoleWorkspaceMembership (membershipRecord visible)
  let targetRole ← loadAssignableRole role
  let actorRank ← assertMayAssign workspaceId actorId targetRole ability none
  transaction (changeRoleTransaction workspaceId actorId visible targetRole actorRank)
    fun existing =>
      .rosterChanged .changeRole workspaceId actorId (some existing) (some targetRole)

/-! ### Suspending, reactivating, ending -/

/-- What the status changes differ in. -/
structure TransitionOptions where
  op : RosterOperation
  required : PermissionDefinition
  fromStatus : Option WorkspaceMembershipStatus
  toStatus : WorkspaceMembershipStatus
  isLastOwnerProtected : Bool

/-- The options of the three routes. Ending is reachable from every live status. -/
def transitionOptions : TransitionKind → TransitionOptions
  | .suspend => ⟨.suspend, suspendWorkspaceMembership, some .active, .suspended, true⟩
  | .reactivate => ⟨.reactivate, suspendWorkspaceMembership, some .suspended, .active, false⟩
  | .remove => ⟨.remove, deleteWorkspaceMembership, none, .left, true⟩

/-- `toLowerCase`, on the letters of addresses. -/
def toLowerCase (s : String) : String := String.ofList (s.toList.map Char.toLower)

/-- The pending invitations to a person in a workspace: by account where the invitation
recorded one, and by address once it is verified where it could not. -/
def isPendingInvitationOf (workspaceId userId : Uuid) (user : Option User)
    (i : WorkspaceInvitation) : Bool :=
  i.workspaceId = workspaceId && i.status = .pending &&
    (i.invitedUserId = some userId ||
      user.any fun u => u.email ≠ "" && u.emailVerifiedAt.isSome &&
        i.invitedUserId = none && i.email = toLowerCase u.email)

/-- Withdraw every pending invitation to this person in this workspace. -/
def revokePendingInvitations (workspaceId userId actorId : Uuid) : Handler Unit := do
  let user ← select fun db => db.users.find? userId
  let now ← now
  let _ ← updateManyInvitations (isPendingInvitationOf workspaceId userId user)
    (WorkspaceInvitation.revoked now actorId)
  pure ()

/-- The writing half of every status change. Answers the row it changed, as it was. -/
def transitionTransaction (workspaceId actorId : Uuid) (visible : WorkspaceMembership)
    (options : TransitionOptions) (endedAt : Option ℕ) (actorRank : AssignmentCeiling) :
    Handler WorkspaceMembership := do
  onlyIf (options.toStatus = .active) (assertUserMayHoldActiveMembership visible.userId)
  lockWorkspaceRow workspaceId
  let existing ← findInWorkspace workspaceId visible.id
  assertRankPermits actorRank existing.role.rank
  ensure (existing.status ≠ options.toStatus) (.api
    (Errors.resourceConflict s!"That membership is already \"{existing.status.value}\""))
  ensure (options.fromStatus = none ∨ options.fromStatus = some existing.status)
    (.api (Errors.membershipNotActive existing.status.value))
  onlyIf (options.isLastOwnerProtected = true ∧ existing.IsActiveOwner)
    (assertAnotherActiveOwnerExists workspaceId visible.id)
  onlyIf (options.toStatus ≠ .active)
    (revokePendingInvitations workspaceId existing.userId actorId)
  let _ ← updateMembership existing
    (WorkspaceMembership.withStatus options.toStatus endedAt actorId)
  pure existing

/-- The one code path every status change goes through. -/
def transition (workspaceId membershipId actorId : Uuid) (ability : Ability)
    (options : TransitionOptions) (endedAt : Option ℕ) : Handler WorkspaceMembership := do
  let visible ← findById workspaceId membershipId ability
  assertCan ability options.required (membershipRecord visible)
  let actorRank ← resolveActorRank workspaceId actorId ability
  transaction (transitionTransaction workspaceId actorId visible options endedAt actorRank)
    fun existing => .rosterChanged options.op workspaceId actorId (some existing) none

/-- Withdraw access without ending the relationship. -/
def suspend (workspaceId membershipId actorId : Uuid) (ability : Ability) :
    Handler WorkspaceMembership :=
  transition workspaceId membershipId actorId ability (transitionOptions .suspend) none

/-- Give access back. -/
def reactivate (workspaceId membershipId actorId : Uuid) (ability : Ability) :
    Handler WorkspaceMembership :=
  transition workspaceId membershipId actorId ability (transitionOptions .reactivate) none

/-- End a membership. The row and the permission are checked once more than the other
status changes do, before the clock is read. -/
def remove (workspaceId membershipId actorId : Uuid) (ability : Ability) :
    Handler WorkspaceMembership := do
  let existing ← findById workspaceId membershipId ability
  assertCan ability deleteWorkspaceMembership (membershipRecord existing)
  let now ← now
  transition workspaceId membershipId actorId ability (transitionOptions .remove) (some now)

/-! ### Handing over -/

/-- The row of a membership of a live user and a live workspace. -/
def findLiveInWorkspace (workspaceId membershipId : Uuid) : Handler WorkspaceMembership := do
  let found ← select fun db =>
    (db.workspaceMemberships.find? membershipId).filter fun m =>
      m.workspaceId = workspaceId && (db.scopedUser? m.userId).isSome &&
        db.isLiveWorkspace m.workspaceId
  orThrow found (.api (Errors.resourceNotFound "Workspace membership"))

/-- The writing half of `transferOwnership`: every current active owner is demoted, not
merely the caller, and the target promoted. Answers the target, as it was. -/
def transferTransaction (workspaceId actorId : Uuid) (visible : WorkspaceMembership) :
    Handler WorkspaceMembership := do
  assertUserMayHoldActiveMembership visible.userId
  lockWorkspaceRow workspaceId
  let target ← findLiveInWorkspace workspaceId visible.id
  ensure (target.status = .active) (.api (Errors.membershipNotActive target.status.value))
  ensure (target.userId ≠ actorId) (.api
    (Errors.resourceConflict "You already own this workspace; transfer it to somebody else"))
  let outgoing ← select fun db => (db.workspaceMemberships.filter fun m =>
    m.workspaceId = workspaceId && decide m.IsActiveOwner && m.id ≠ target.id).map (·.id)
  modify fun db => db.updateMemberships outgoing
    (WorkspaceMembership.withRole .workspaceAdmin actorId)
  let _ ← updateMembership target (WorkspaceMembership.withRole .workspaceOwner actorId)
  pure target

/-- Move the ownership of a workspace to another active member. -/
def transferOwnership (workspaceId membershipId actorId : Uuid) (ability : Ability) :
    Handler WorkspaceMembership := do
  let visible ← findById workspaceId membershipId ability
  transaction (transferTransaction workspaceId actorId visible) fun target =>
    .rosterChanged .transferOwnership workspaceId actorId (some target) (some .workspaceOwner)

end NestApi.WorkspaceMemberships
