import NestApi.Authorization.Guard

/-!
# The role assignment policy

The one place that decides whether a caller may hand out a role. Two bounds: a caller
without role-assignment authority may only hand out the roles that confer none, and
nobody may reach above their own rank. A platform admin has no rank to be bounded by.
-/

namespace NestApi.WorkspaceRoleAssignmentPolicy

open Authorization Txn.Program

/-- A rank, or `none` for unbounded. -/
abbrev AssignmentCeiling := Option ℕ

/-- The roles a caller may hand out without role-assignment authority. -/
def nonPrivilegedWorkspaceRoles : List SeededRoleName := [.workspaceStaff]

/-- A role that may be attached to a membership. -/
def loadAssignableRole (role : Option SeededRoleName) : Handler SeededRoleName := do
  let role ← orThrow role (.api (Errors.resourceNotFound "Role"))
  ensure (role.scope = .workspace) (.api Errors.roleNotAssignable)
  pure role

/-- The caller's rank within this workspace. A caller without an active membership has
no ceiling to compare against and is refused. -/
def resolveActorRank (workspaceId actorId : Uuid) (ability : Ability) :
    Handler AssignmentCeiling :=
  if ability.canType "manage" "all" then pure none
  else do
    let membership ← select fun db => db.membershipOf? workspaceId actorId
    let active ← orThrow (membership.filter fun m => m.status = .active)
      (.api Errors.roleNotAssignable)
    pure (some active.role.rank)

/-- The ceiling is not below the rank. -/
def rankPermits : AssignmentCeiling → ℕ → Bool
  | none, _ => true
  | some actorRank, targetRank => targetRank ≤ actorRank

/-- Refuse to grant, or act upon, a role above the ceiling. -/
def assertRankPermits (actorRank : AssignmentCeiling) (targetRank : ℕ) : Handler Unit :=
  ensure (rankPermits actorRank targetRank = true) (.api Errors.roleNotAssignable)

/-- A membership as a record, with the member where it is known. -/
def membershipStub (workspaceId : Uuid) (targetUserId : Option Uuid) : Record :=
  match targetUserId with
  | some userId => (Record.of "workspaceId" workspaceId).with "userId" userId
  | none => Record.of "workspaceId" workspaceId

/-- Both bounds, applied to one role the caller has chosen. -/
def assertMayAssign (workspaceId actorId : Uuid) (role : SeededRoleName) (ability : Ability)
    (targetUserId : Option Uuid) : Handler AssignmentCeiling := do
  ensure (ability.can assignRoleWorkspaceMembership.action.value
        assignRoleWorkspaceMembership.subject.value
        (membershipStub workspaceId targetUserId) = true ∨
      role ∈ nonPrivilegedWorkspaceRoles) (.api Errors.roleNotAssignable)
  let actorRank ← resolveActorRank workspaceId actorId ability
  assertRankPermits actorRank role.rank
  pure actorRank

end NestApi.WorkspaceRoleAssignmentPolicy
