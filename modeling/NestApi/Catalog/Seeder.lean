import NestApi.Catalog.Tables

/-!
# Projecting the catalog

`yarn rbac:sync`: the permissions first, then the roles with their links. Every statement
commits by itself, so a failure leaves what the statements before it wrote. The timestamps that
an update refreshes are left out.
-/

namespace NestApi

open Authorization

/-- Why a sync stops. -/
inductive SeedFailure
  /-- The unique columns of a permission are taken by a row with another name. -/
  | uniqueConstraint (name : String)
  /-- `Role "…" grants permission(s) absent from the permissions table: …` -/
  | absentPermissions (roleName : String) (missing : List String)
deriving DecidableEq

/-- A failure with the tables that it leaves. -/
structure SeedStopped where
  failure : SeedFailure
  tables : CatalogTables
deriving DecidableEq

/-- An id that no row has. -/
def nextId (ids : List ℕ) : ℕ := ids.foldr max 0 + 1

namespace CatalogTables

/-! ### Statements -/

/-- The rows without a name of the catalog. -/
def orphans (t : CatalogTables) : List PermissionRow :=
  t.permissions.filter fun p => p.name ∉ catalogNames

/-- `permission.deleteMany`: the links of a deleted row go with it. -/
def deleteOrphans (t : CatalogTables) : CatalogTables where
  permissions := t.permissions.filter fun p => p.name ∈ catalogNames
  roles := t.roles
  rolePermissions :=
    t.rolePermissions.filter fun l => l.permissionId ∉ t.orphans.map PermissionRow.id

/-- The `update` of a permission upsert. -/
def describe (t : CatalogTables) (name description : String) : CatalogTables :=
  { t with
    permissions := t.permissions.map fun p =>
      if p.name = name then { p with description := description } else p }

/-- The `create` of a permission upsert. -/
def createPermission (t : CatalogTables) (entry : CatalogEntry) : CatalogTables :=
  { t with
    permissions := t.permissions ++
      [⟨entry.toRow, nextId (t.permissions.map PermissionRow.id),
        permissionName entry.toPermissionDefinition, entry.description⟩] }

/-- The columns that a role upsert writes. -/
def catalogRole (id : ℕ) (role : SeededRoleName) : RoleRow :=
  ⟨id, role.value, role.scope.value, role.rank, some (roleDescription role)⟩

/-- `role.upsert`, with the id of the row. -/
def upsertRole (t : CatalogTables) (role : SeededRoleName) : CatalogTables × ℕ :=
  match t.roles.find? fun r => r.name = role.value with
  | some row =>
    ({ t with roles := t.roles.map fun r =>
        if r.name = role.value then catalogRole r.id role else r }, row.id)
  | none =>
    let id := nextId (t.roles.map RoleRow.id)
    ({ t with roles := t.roles ++ [catalogRole id role] }, id)

/-- `permission.findMany` by names. -/
def named (t : CatalogTables) (names : List String) : List PermissionRow :=
  t.permissions.filter fun p => p.name ∈ names

/-- `rolePermission.deleteMany`: the links of a role to permissions that it should not have. -/
def deleteLinks (t : CatalogTables) (roleId : ℕ) (desired : List String) : CatalogTables :=
  { t with
    rolePermissions := t.rolePermissions.filter fun l =>
      ¬ (l.roleId = roleId ∧ ∃ p ∈ t.permissions, p.id = l.permissionId ∧ p.name ∉ desired) }

/-- `rolePermission.upsert`. -/
def upsertLink (t : CatalogTables) (link : RolePermissionRow) : CatalogTables :=
  if link ∈ t.rolePermissions then t
  else { t with rolePermissions := t.rolePermissions ++ [link] }

end CatalogTables

/-! ### The seeder -/

/-- One round of `seedPermissions`. -/
def upsertPermission (t : CatalogTables) (entry : CatalogEntry) :
    Except SeedStopped CatalogTables :=
  let name := permissionName entry.toPermissionDefinition
  if ∃ p ∈ t.permissions, p.name = name then .ok (t.describe name entry.description)
  else if ∃ p ∈ t.permissions, p.toPermission = entry.toRow then
    .error ⟨.uniqueConstraint name, t⟩
  else .ok (t.createPermission entry)

/-- `seedPermissions`. -/
def seedPermissions (t : CatalogTables) : Except SeedStopped CatalogTables := do
  let seeded ← catalogEntries.foldlM upsertPermission t
  pure seeded.deleteOrphans

/-- One round of `seedRoles`. -/
def seedRole (t : CatalogTables) (role : SeededRoleName) : Except SeedStopped CatalogTables :=
  let (t, roleId) := t.upsertRole role
  let desiredNames := desiredPermissionNames role
  let desired := t.named desiredNames
  if desired.length ≠ desiredNames.length then
    let missing := desiredNames.filter fun name => name ∉ desired.map PermissionRow.name
    .error ⟨.absentPermissions role.value missing, t⟩
  else
    .ok (desired.foldl (fun t p => t.upsertLink ⟨roleId, p.id⟩)
      (t.deleteLinks roleId desiredNames))

/-- `seedRoles`. -/
def seedRoles (t : CatalogTables) : Except SeedStopped CatalogTables :=
  roleCatalog.foldlM seedRole t

/-- `main` of the sync script. -/
def syncPermissionCatalog (t : CatalogTables) : Except SeedStopped CatalogTables := do
  let seeded ← seedPermissions t
  seedRoles seeded

end NestApi
