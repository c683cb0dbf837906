import NestApi.Catalog.Tables

/-!
# The boot-time check of the catalog

The application refuses to start when the names in the database differ from those in the
catalog. Names are unique on both sides, so a set of names is its list.
-/

namespace NestApi

open Authorization

/-- One line of the report. -/
def failureLine (names : List String) (text : String) : List String :=
  if names.length > 0 then
    [toString names.length ++ text ++ ": " ++ ", ".intercalate names]
  else []

/-- `PermissionCatalogIntegrityService.assertCatalogMatchesDatabase`. -/
def assertCatalogMatchesDatabase (t : CatalogTables) : Except String Unit :=
  let databasePermissionNames := t.permissions.map PermissionRow.name
  let missingFromDatabase := catalogNames.filter fun name => name ∉ databasePermissionNames
  let orphanedInDatabase := databasePermissionNames.filter fun name => name ∉ catalogNames
  let seededRoleNames := t.roles.map RoleRow.name
  let missingRoles :=
    (roleCatalog.map SeededRoleName.value).filter fun name => name ∉ seededRoleNames
  let failures :=
    failureLine missingFromDatabase
        " permission(s) defined in the catalog but missing from the database" ++
      failureLine orphanedInDatabase " permission(s) in the database but not in the catalog" ++
      failureLine missingRoles " system role(s) missing from the database"
  if failures.length > 0 then
    .error ("Authorization catalog does not match the database.\n  - " ++
      "\n  - ".intercalate failures ++ "\n" ++
      "Run `yarn rbac:sync` to project the catalog onto the database. " ++
      "(Your deploy should already do this — the `migrate` service runs it after " ++
      "`prisma migrate deploy`.) The application will not start with a drifted catalog.")
  else .ok ()

namespace CatalogTables

/-- What the check compares: the permission names are those of the catalog, and every system
role has a row. -/
structure NamesMatch (t : CatalogTables) : Prop where
  missing : ∀ name ∈ catalogNames, name ∈ t.permissions.map PermissionRow.name
  orphaned : ∀ p ∈ t.permissions, p.name ∈ catalogNames
  roles : ∀ role : SeededRoleName, role.value ∈ t.roles.map RoleRow.name

/-- What the check does not compare: the columns of a catalogued permission, and the scope,
the rank and the links of a system role. -/
structure UncheckedMatch (t : CatalogTables) : Prop where
  columns : ∀ p ∈ t.permissions, ∀ d ∈ permissionCatalog, p.name = permissionName d →
    p.toPermission = d.toRow
  roles : ∀ role : SeededRoleName, ∀ row ∈ t.roles, row.name = role.value →
    t.RoleProjected role row

end CatalogTables

/-- A report has a line exactly when there are names. -/
theorem failureLine_eq_nil {names : List String} {text : String} :
    failureLine names text = [] ↔ names = [] := by
  cases names with
  | nil => simp [failureLine]
  | cons name names => simp [failureLine]

theorem assertCatalog_ok_iff {t : CatalogTables} :
    assertCatalogMatchesDatabase t = .ok () ↔ t.NamesMatch := by
  have hok : assertCatalogMatchesDatabase t = .ok () ↔
      (∀ name ∈ catalogNames, name ∈ t.permissions.map PermissionRow.name) ∧
      (∀ name ∈ t.permissions.map PermissionRow.name, name ∈ catalogNames) ∧
      ∀ name ∈ roleCatalog.map SeededRoleName.value, name ∈ t.roles.map RoleRow.name := by
    unfold assertCatalogMatchesDatabase
    simp only [gt_iff_lt, List.length_pos_iff, ne_eq, ite_not, List.append_eq_nil_iff,
      failureLine_eq_nil, List.filter_eq_nil_iff, decide_eq_true_eq, not_not, and_assoc]
    split
    · next h => simpa using h
    · next h => simpa using h
  rw [hok]
  constructor
  · rintro ⟨hmissing, horphaned, hroles⟩
    refine ⟨hmissing, fun p hp => horphaned _ (List.mem_map_of_mem hp), fun role => ?_⟩
    exact hroles _ (List.mem_map_of_mem (mem_roleCatalog role))
  · rintro ⟨hmissing, horphaned, hroles⟩
    refine ⟨hmissing, ?_, ?_⟩
    · rintro name hname
      obtain ⟨p, hp, rfl⟩ := List.mem_map.mp hname
      exact horphaned p hp
    · rintro name hname
      obtain ⟨role, -, rfl⟩ := List.mem_map.mp hname
      exact hroles role

end NestApi
