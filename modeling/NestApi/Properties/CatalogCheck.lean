import NestApi.Catalog.Integrity

/-!
# What the boot-time check reports

The check compares names. It reports every deviation from the catalog exactly when the columns
and links that stand behind matching names are the catalogued ones too.
-/

namespace NestApi

open Authorization

namespace CatalogTables

variable {t : CatalogTables}

/-- An exact projection has matching names and the catalogued data behind them. -/
theorem projected_iff (h : t.Valid) : t.Projected ↔ t.NamesMatch ∧ t.UncheckedMatch := by
  constructor
  · rintro ⟨hpermissions, hroles⟩
    refine ⟨⟨?_, ?_, ?_⟩, ?_, ?_⟩
    · intro name hname
      obtain ⟨d, hd, rfl⟩ := List.mem_map.mp hname
      obtain ⟨p, hp, hpd⟩ := hpermissions.complete d hd
      exact hpd ▸ List.mem_map_of_mem hp
    · intro p hp
      obtain ⟨d, hd, hname, -⟩ := hpermissions.sound p hp
      exact hname ▸ List.mem_map_of_mem hd
    · intro role
      obtain ⟨row, hrow, hname, -⟩ := hroles role
      exact hname ▸ List.mem_map_of_mem hrow
    · intro p hp d hd hname
      obtain ⟨d', hd', hname', hcolumns⟩ := hpermissions.sound p hp
      rw [hcolumns, eq_of_permissionName hd hd' (hname.symm.trans hname')]
    · intro role row hrow hname
      -- names are unique, so the projected row is this row
      obtain ⟨row', hrow', hname', hprojected⟩ := hroles role
      rwa [List.inj_on_of_nodup_map h.roleNames hrow hrow' (hname.trans hname'.symm)]
  · rintro ⟨⟨hmissing, horphaned, hseeded⟩, hcolumns, hroles⟩
    refine ⟨⟨?_, ?_⟩, ?_⟩
    · intro d hd
      obtain ⟨p, hp, hname⟩ := List.mem_map.mp (hmissing _ (List.mem_map_of_mem hd))
      exact ⟨p, hp, hname⟩
    · intro p hp
      obtain ⟨d, hd, hname⟩ := List.mem_map.mp (horphaned p hp)
      exact ⟨d, hd, hname.symm, hcolumns p hp d hd hname.symm⟩
    · intro role
      obtain ⟨row, hrow, hname⟩ := List.mem_map.mp (hseeded role)
      exact ⟨row, hrow, hname, hroles role row hrow hname⟩

/-- The grants of a system role are its linked permissions, so a projection has the declared
ones. -/
theorem Projected.grantsDeclared (h : t.Projected) (hvalid : t.Valid) : t.GrantsDeclared := by
  obtain ⟨-, hunchecked⟩ := (projected_iff hvalid).mp h
  intro role row hrow hname g
  have hlinks := (hunchecked.roles role row hrow hname).links
  rw [mem_grantsOf, List.mem_map]
  constructor
  · rintro ⟨p, hp, hlink, rfl⟩
    obtain ⟨d, hd, hpd⟩ := List.mem_map.mp ((hlinks p hp).mp hlink)
    refine ⟨d, hd, ?_⟩
    exact (hunchecked.columns p hp d ((permissions_of_role role).1 d hd) hpd.symm).symm
  · rintro ⟨d, hd, rfl⟩
    have hcatalog := (permissions_of_role role).1 d hd
    obtain ⟨p, hp, hpd⟩ := h.permissions.complete d hcatalog
    refine ⟨p, hp, (hlinks p hp).mpr ?_, hunchecked.columns p hp d hcatalog hpd⟩
    exact hpd ▸ List.mem_map_of_mem hd

end CatalogTables

/-- The check passes exactly on the projections of the catalog, and it reports every state in
which a system role compiles to other grants than the catalog declares. -/
def CheckComplete (db : CatalogDatabase) : Prop :=
  (assertCatalogMatchesDatabase db.toCatalogTables = .ok () ↔ db.Projected) ∧
    (¬ db.GrantsDeclared → assertCatalogMatchesDatabase db.toCatalogTables ≠ .ok ())

/-- The check is complete for a database exactly when its names deviate, or the columns and
links behind them do not. -/
theorem checkComplete_iff (db : CatalogDatabase) :
    CheckComplete db ↔ (db.NamesMatch → db.UncheckedMatch) := by
  unfold CheckComplete
  rw [assertCatalog_ok_iff]
  constructor
  · rintro ⟨hexact, -⟩ hnames
    exact ((CatalogTables.projected_iff db.valid).mp (hexact.mp hnames)).2
  · intro hunchecked
    have hexact : db.NamesMatch ↔ db.Projected := by
      rw [CatalogTables.projected_iff db.valid]
      exact ⟨fun hnames => ⟨hnames, hunchecked hnames⟩, And.left⟩
    refine ⟨hexact, fun hgrants hnames => ?_⟩
    exact hgrants ((hexact.mp (assertCatalog_ok_iff.mp hnames)).grantsDeclared db.valid)

/-! ### A database without links -/

namespace Sample

/-- The permission rows of the catalog. -/
def permissionRows : List PermissionRow :=
  catalogEntries.zipIdx.map fun (entry, i) =>
    ⟨entry.toRow, i, permissionName entry.toPermissionDefinition, entry.description⟩

/-- The role rows of the catalog. -/
def roleRows : List RoleRow :=
  roleCatalog.zipIdx.map fun (role, i) =>
    ⟨i, role.value, role.scope.value, role.rank, some (roleDescription role)⟩

theorem permissionRows_names : permissionRows.map PermissionRow.name = catalogNames := by
  have hentries : catalogEntries.zipIdx.map Prod.fst = catalogEntries := List.zipIdx_map_fst 0 _
  rw [catalogNames, ← catalogEntries_definitions, ← hentries]
  simp only [permissionRows, List.map_map]
  rfl

/-- Every row of the catalog and no link: no role grants anything. -/
def unlinked : CatalogDatabase where
  permissions := permissionRows
  roles := roleRows
  rolePermissions := []
  valid :=
    { permissionIds := by decide +kernel
      permissionNames := permissionRows_names ▸ nodup_catalogNames
      permissionColumns := by decide +kernel
      roleIds := by decide +kernel
      roleNames := by decide +kernel
      links := List.nodup_nil
      linkedRole := by simp
      linkedPermission := by simp }

end Sample

theorem Sample.unlinked_namesMatch : Sample.unlinked.NamesMatch where
  missing _ hname := Sample.permissionRows_names ▸ hname
  orphaned _ hp := Sample.permissionRows_names ▸ List.mem_map_of_mem hp
  roles role := by cases role <;> decide +kernel

/-- The check passes although no role has a permission. -/
theorem not_checkComplete_unlinked : ¬ CheckComplete Sample.unlinked := by
  rintro ⟨-, hreported⟩
  refine hreported (fun hgrants => ?_) (assertCatalog_ok_iff.mpr Sample.unlinked_namesMatch)
  have hrow : (⟨0, "platform_admin", "platform", 100, some (roleDescription .platformAdmin)⟩ :
      RoleRow) ∈ Sample.unlinked.roles := by decide +kernel
  have hgrant := (hgrants .platformAdmin _ hrow rfl manageEverything.toRow).mpr (by decide)
  simp [CatalogTables.grantsOf, Sample.unlinked] at hgrant

end NestApi
