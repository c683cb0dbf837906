import NestApi.Authorization.Guard

/-!
# The store behind the permission loader

Grants live in the database and are cached in Redis, under a key that names the current
epoch and the user. What a role may do is a table here: the catalog is projected onto it,
so it need not agree with the code at every moment. A cached value is the loaded value; its
text in Redis is left out.
-/

namespace NestApi

/-! ### The database -/

/-- A row of `permissions`. Its unique name is made of exactly these columns. -/
structure Permission where
  action : String
  subject : String
  scope : String
  ownership : String
deriving DecidableEq

/-- The row of a catalog permission. -/
def Authorization.PermissionDefinition.toRow (p : PermissionDefinition) : Permission :=
  ⟨p.action.value, p.subject.value, p.scope.value, p.ownership.value⟩

/-- A row of `role_permissions`. -/
structure RolePermission where
  role : SeededRoleName
  permission : Permission
deriving DecidableEq

/-- What the loader selects of a membership. The role stands for its id and its name. -/
structure MembershipRow where
  membershipId : Uuid
  workspaceId : Uuid
  role : SeededRoleName
  status : WorkspaceMembershipStatus
deriving DecidableEq

/-- What the loader selects of an account: platform roles, and active memberships of live
workspaces. -/
structure AuthorityRows where
  platformRoles : List SeededRoleName
  memberships : List MembershipRow
deriving DecidableEq

/-- The selected columns. -/
def WorkspaceMembership.toRow (m : WorkspaceMembership) : MembershipRow :=
  ⟨m.id, m.workspaceId, m.role, m.status⟩

/-- The rows of one user. A deleted or absent account has none. -/
def Database.authorityRows (db : Database) (userId : Uuid) : AuthorityRows :=
  match db.scopedUser? userId with
  | none => ⟨[], []⟩
  | some _ =>
    { platformRoles := (db.userRoles.filter fun r => r.userId = userId).map UserRole.role
      memberships :=
        (db.workspaceMemberships.filter fun m =>
          m.userId = userId && m.status = .active && db.isLiveWorkspace m.workspaceId).map
            WorkspaceMembership.toRow }

/-! ### Loaded grants -/

/-- A membership with what its role may do. -/
structure LoadedMembership where
  row : MembershipRow
  permissions : List Permission
deriving DecidableEq

/-- The grants of a user as the loader returns and caches them. -/
structure LoadedGrants where
  platformPermissions : List Permission
  workspaceMemberships : List LoadedMembership
deriving DecidableEq

/-- The roles that selected rows name. -/
def AuthorityRows.roles (rows : AuthorityRows) : List SeededRoleName :=
  rows.platformRoles ++ rows.memberships.map MembershipRow.role

/-- Selected rows with the permissions of their roles. -/
def AuthorityRows.load (rows : AuthorityRows) (permissionsOf : SeededRoleName → List Permission) :
    LoadedGrants where
  platformPermissions := rows.platformRoles.flatMap permissionsOf
  workspaceMemberships := rows.memberships.map fun m => ⟨m, permissionsOf m.role⟩

/-! ### Redis -/

/-- Redis: the epoch counter and the cached grants. A command fails while it is not
available. -/
structure Redis where
  available : Bool
  epoch : Option ℕ
  grants : String → Option LoadedGrants

/-- The namespace of cached grants. It names the shape they are written in. -/
def grantsKeyPrefix : String := "authz:v1:grants"

/-- The key of a user's grants in an epoch. -/
def buildCacheKey (epoch : ℕ) (userId : Uuid) : String :=
  grantsKeyPrefix ++ ":" ++ toString epoch ++ ":" ++ userId

/-- The epoch in force. An absent counter reads as zero. -/
def Redis.currentEpoch (r : Redis) : ℕ := r.epoch.getD 0

/-- All that grants depend on, and their cache. -/
structure Store where
  database : Database
  permissions : Txn.Table (id : Permission → Permission)
  rolePermissions : Txn.Table (id : RolePermission → RolePermission)
  redis : Redis

namespace Store

variable (s : Store)

/-- What a role may do, as the tables have it. -/
def permissionsOf (role : SeededRoleName) : List Permission :=
  (s.rolePermissions.filter fun r => r.role = role).map RolePermission.permission

/-- The grants of a user, read from the database in one query. -/
def loadGrants (userId : Uuid) : LoadedGrants :=
  (s.database.authorityRows userId).load s.permissionsOf

/-- The cached grants that a request of the user would be served now. -/
def readable (userId : Uuid) : Option LoadedGrants :=
  s.redis.grants (buildCacheKey s.redis.currentEpoch userId)

/-- The store after a write of the database. -/
def modifyDatabase (f : Database → Database) : Store := { s with database := f s.database }

/-- `SET`. -/
def setGrants (cacheKey : String) (grants : LoadedGrants) : Store :=
  { s with
    redis := { s.redis with grants := Function.update s.redis.grants cacheKey (some grants) } }

/-- `DEL`, also what expiry does. -/
def deleteGrants (cacheKey : String) : Store :=
  { s with redis := { s.redis with grants := Function.update s.redis.grants cacheKey none } }

/-- `INCR authz:epoch`. -/
def incrementEpoch : Store :=
  { s with redis := { s.redis with epoch := some (s.redis.currentEpoch + 1) } }

/-- Redis stops or starts answering. -/
def setAvailable (available : Bool) : Store := { s with redis := { s.redis with available } }

/-- One more permission. A row that is there already stays as it is. -/
def insertPermission (p : Permission) : Store := { s with permissions := s.permissions.insert p }

/-- Only the given permissions stay, and only their grants. -/
def keepPermissions (ps : List Permission) : Store :=
  { s with
    permissions := s.permissions.delete (s.permissions.filter fun p => decide (p ∉ ps))
    rolePermissions := s.rolePermissions.delete
      (s.rolePermissions.filter fun r => decide (r.permission ∉ ps)) }

/-- One more grant to a role. -/
def insertRolePermission (r : RolePermission) : Store :=
  { s with rolePermissions := s.rolePermissions.insert r }

/-- Only the given grants to a role stay. -/
def keepRolePermissions (role : SeededRoleName) (ps : List Permission) : Store :=
  { s with
    rolePermissions := s.rolePermissions.delete
      (s.rolePermissions.filter fun r => decide (r.role = role ∧ r.permission ∉ ps)) }

variable {s} {cacheKey k : String} {g : LoadedGrants}

@[simp] theorem grants_setGrants :
    (s.setGrants cacheKey g).redis.grants cacheKey = some g :=
  Function.update_self _ _ _

theorem grants_setGrants_of_ne (h : k ≠ cacheKey) :
    (s.setGrants cacheKey g).redis.grants k = s.redis.grants k :=
  Function.update_of_ne h _ _

@[simp] theorem grants_deleteGrants : (s.deleteGrants cacheKey).redis.grants cacheKey = none :=
  Function.update_self _ _ _

theorem grants_deleteGrants_of_ne (h : k ≠ cacheKey) :
    (s.deleteGrants cacheKey).redis.grants k = s.redis.grants k :=
  Function.update_of_ne h _ _

end Store

/-! ### Keys -/

/-- A key tells its epoch from its user: the digits of the epoch end at the colon. -/
theorem buildCacheKey_inj {n n' : ℕ} {u u' : Uuid} :
    buildCacheKey n u = buildCacheKey n' u' ↔ n = n' ∧ u = u' := by
  constructor
  · intro h
    have hchars : Nat.toDigits 10 n ++ ':' :: u.toList =
        Nat.toDigits 10 n' ++ ':' :: u'.toList := by
      have hlists := congrArg String.toList h
      simpa [buildCacheKey] using hlists
    have hcolon : ∀ k, ':' ∉ Nat.toDigits 10 k := by
      intro k hmem
      simpa using Nat.isDigit_of_mem_toDigits (by decide) (by decide) hmem
    -- both sides split at their first colon
    have hdigits : ∀ (k : ℕ) (cs : List Char),
        (Nat.toDigits 10 k ++ ':' :: cs).takeWhile (· ≠ ':') = Nat.toDigits 10 k := by
      intro k cs
      rw [List.takeWhile_append_of_pos]
      · simp
      · intro c hc
        have hne : c ≠ ':' := fun heq => hcolon k (heq ▸ hc)
        simpa using hne
    have hsame : Nat.toDigits 10 n = Nat.toDigits 10 n' := by
      rw [← hdigits n u.toList, ← hdigits n' u'.toList, hchars]
    have hn : n = n' := by
      rw [← Nat.ofDigitChars_ten_toDigits (n := n), hsame, Nat.ofDigitChars_ten_toDigits]
    rw [hsame] at hchars
    have hrest := List.append_cancel_left hchars
    exact ⟨hn, String.toList_inj.mp (List.cons.inj hrest).2⟩
  · rintro ⟨rfl, rfl⟩
    rfl

end NestApi
