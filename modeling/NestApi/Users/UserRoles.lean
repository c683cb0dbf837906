import NestApi.Authorization.Guard

/-!
# Platform roles

Granting and taking platform roles, bounded by the caller's own platform rank.
-/

namespace NestApi.UserRolesService

open Authorization Txn.Program

/-- The rank of a caller without a platform role. -/
def noAuthorityRank : ℕ := 0

/-- Only platform roles are assigned to an account. -/
def loadPlatformRole (role : Option SeededRoleName) : Handler SeededRoleName := do
  let role ← orThrow role (.api (Errors.resourceNotFound "Role"))
  ensure (role.scope = .platform) (.api (Errors.badRequest
    ("Only platform-scoped roles can be assigned to a user account. " ++
      "Workspace roles are granted by adding the user to a workspace.")))
  pure role

/-- Refuse a role above the caller's own platform rank. -/
def assertMayAssignRank (actorId : Uuid) (targetRank : ℕ) (ability : Ability) : Handler Unit :=
  onlyIf (ability.canType "manage" "all" = false) do
    let ranks ← select fun db =>
      (db.userRoles.filter fun r => r.userId = actorId).map fun r => r.role.rank
    ensure (targetRank ≤ ranks.foldr max noAuthorityRank)
      (.api (Errors.permissionDenied "assignRole" "User"))

/-- Grant a platform role. -/
def assign (userId : Uuid) (role : Option SeededRoleName) (ability : Ability)
    (actorId : Uuid) : Handler Unit := do
  let targetUser ← select fun db => db.scopedUser? userId
  let _ ← orThrow targetUser (.api (Errors.resourceNotFound "User"))
  let role ← loadPlatformRole role
  assertMayAssignRank actorId role.rank ability
  transaction (modify fun db => db.insertUserRole ⟨userId, role⟩) fun _ =>
    .platformRoleAssigned userId role

/-- Take a platform role away. -/
def revoke (userId : Uuid) (role : Option SeededRoleName) (ability : Ability)
    (actorId : Uuid) : Handler Unit := do
  let role ← loadPlatformRole role
  assertMayAssignRank actorId role.rank ability
  let existing ← select fun db => db.userRoles.find? ⟨userId, role⟩
  let _ ← orThrow existing (.api (Errors.resourceNotFound "Role assignment"))
  transaction (modify fun db => db.deleteUserRole ⟨userId, role⟩) fun _ =>
    .platformRoleRevoked userId role

end NestApi.UserRolesService
