import NestApi.Catalog.SeederLaws

/-!
# What a sync of the catalog converges to

A sync upserts permissions by name, trusts the columns of a row whose name it knows, and fails
on columns that another name holds. It converges exactly from the tables in which the names and
the columns of the catalog go together.
-/

namespace NestApi

open Authorization

namespace CatalogTables

variable {t t' : CatalogTables}

/-- The tables are as the catalog declares them, descriptions included. -/
structure Declared (t : CatalogTables) : Prop where
  projected : t.Projected
  described : ∀ entry ∈ catalogEntries, ∀ p ∈ t.permissions,
    p.name = permissionName entry.toPermissionDefinition → p.description = entry.description
  roleDescribed : ∀ role : SeededRoleName, ∀ row ∈ t.roles, row.name = role.value →
    row.description = some (roleDescription role)

/-- A row has the name of a permission exactly when it has its columns. -/
def NamesCarryColumns (t : CatalogTables) : Prop :=
  ∀ p ∈ t.permissions, ∀ d ∈ permissionCatalog,
    p.name = permissionName d ↔ p.toPermission = d.toRow

/-- Of two entries with one name there is only one. -/
theorem entry_of_name {entry entry' : CatalogEntry} (h : entry ∈ catalogEntries)
    (h' : entry' ∈ catalogEntries) (hname : permissionName entry.toPermissionDefinition =
      permissionName entry'.toPermissionDefinition) : entry = entry' := by
  have hnames : (catalogEntries.map fun e => permissionName e.toPermissionDefinition).Nodup := by
    have hnodup := nodup_catalogNames
    rwa [catalogNames, ← catalogEntries_definitions, List.map_map] at hnodup
  exact List.inj_on_of_nodup_map hnames h h' hname

theorem mem_catalog_of_entry {entry : CatalogEntry} (h : entry ∈ catalogEntries) :
    entry.toPermissionDefinition ∈ permissionCatalog :=
  catalogEntries_definitions ▸ List.mem_map_of_mem h

theorem exists_entry {d : PermissionDefinition} (h : d ∈ permissionCatalog) :
    ∃ entry ∈ catalogEntries, entry.toPermissionDefinition = d := by
  rw [← catalogEntries_definitions] at h
  exact List.mem_map.mp h

/-! ### The permissions -/

/-- What holds once the given entries are upserted. -/
structure PermissionsSeeded (done : List CatalogEntry) (t : CatalogTables) : Prop where
  valid : t.Valid
  carry : t.NamesCarryColumns
  entries : ∀ entry ∈ done, entry ∈ catalogEntries
  present : ∀ entry ∈ done, ∃ p ∈ t.permissions,
    p.name = permissionName entry.toPermissionDefinition
  described : ∀ entry ∈ done, ∀ p ∈ t.permissions,
    p.name = permissionName entry.toPermissionDefinition → p.description = entry.description

/-- One round keeps it, since a new row has a name and columns that belong together. -/
theorem PermissionsSeeded.round {done : List CatalogEntry} {entry : CatalogEntry}
    (h : PermissionsSeeded done t) (hentry : entry ∈ catalogEntries) :
    ∃ t', upsertPermission t entry = .ok t' ∧ PermissionsSeeded (entry :: done) t' := by
  have hcatalog := mem_catalog_of_entry hentry
  have hentries : ∀ e ∈ entry :: done, e ∈ catalogEntries := by
    rintro e (_ | ⟨_, he⟩)
    · exact hentry
    · exact h.entries e he
  by_cases hname : ∃ p ∈ t.permissions, p.name = permissionName entry.toPermissionDefinition
  · refine ⟨t.describe (permissionName entry.toPermissionDefinition) entry.description, ?_, ?_⟩
    · simp only [upsertPermission, if_pos hname]
    · have hrow : ∀ p' ∈ (t.describe (permissionName entry.toPermissionDefinition)
          entry.description).permissions, ∃ p ∈ t.permissions, p'.name = p.name ∧
            p'.toPermission = p.toPermission ∧ p'.description =
              if p.name = permissionName entry.toPermissionDefinition then entry.description
              else p.description := by
        intro p' hp'
        obtain ⟨p, hp, rfl⟩ := mem_describe.mp hp'
        refine ⟨p, hp, ?_⟩
        by_cases hp : p.name = permissionName entry.toPermissionDefinition <;> simp [hp]
      refine ⟨h.valid.describe, ?_, hentries, ?_, ?_⟩
      · intro p' hp' d hd
        obtain ⟨p, hp, hsame, hcolumns, -⟩ := hrow p' hp'
        rw [hsame, hcolumns]
        exact h.carry p hp d hd
      · have hkept : ∀ e, (∃ p ∈ t.permissions, p.name = permissionName e) →
            ∃ p ∈ (t.describe (permissionName entry.toPermissionDefinition)
              entry.description).permissions, p.name = permissionName e := by
          rintro e ⟨p, hp, hpe⟩
          obtain ⟨p', hp', hsame, -⟩ := rowsKept_describe (t := t) p hp
          exact ⟨p', hp', hsame.trans hpe⟩
        rintro e (_ | ⟨_, he⟩)
        · exact hkept _ hname
        · exact hkept _ (h.present e he)
      · intro e he p' hp' hpe
        obtain ⟨p, hp, hsame, -, hdescription⟩ := hrow p' hp'
        rw [hdescription]
        by_cases hp' : p.name = permissionName entry.toPermissionDefinition
        · have hnames := hp'.symm.trans (hsame.symm.trans hpe)
          rw [if_pos hp', entry_of_name hentry (hentries e he) hnames]
        · rw [if_neg hp']
          rcases List.mem_cons.mp he with rfl | he
          · exact absurd (hsame.symm.trans hpe) hp'
          · exact h.described e he p hp (hsame.symm.trans hpe)
  · have hnone : ∀ p ∈ t.permissions, p.name ≠ permissionName entry.toPermissionDefinition :=
      fun p hp heq => hname ⟨p, hp, heq⟩
    have hcolumns : ∀ p ∈ t.permissions, p.toPermission ≠ entry.toRow := fun p hp heq =>
      hnone p hp ((h.carry p hp _ hcatalog).mpr heq)
    have hfree : ¬ ∃ p ∈ t.permissions, p.toPermission = entry.toRow := by
      rintro ⟨p, hp, heq⟩
      exact hcolumns p hp heq
    refine ⟨t.createPermission entry, ?_, ?_⟩
    · simp only [upsertPermission, if_neg hname, if_neg hfree]
    · have hmem : ∀ p, p ∈ (t.createPermission entry).permissions ↔
          p ∈ t.permissions ∨ p = ⟨entry.toRow, nextId (t.permissions.map PermissionRow.id),
            permissionName entry.toPermissionDefinition, entry.description⟩ := by
        simp [createPermission]
      refine ⟨h.valid.createPermission hnone hcolumns, ?_, hentries, ?_, ?_⟩
      · intro p hp d hd
        rcases (hmem p).mp hp with hp | rfl
        · exact h.carry p hp d hd
        · constructor
          · intro heq
            rw [eq_of_permissionName hcatalog hd heq]
          · intro heq
            rw [toRow_injective heq]
      · rintro e (_ | ⟨_, he⟩)
        · exact ⟨_, (hmem _).mpr (.inr rfl), rfl⟩
        · obtain ⟨p, hp, hpe⟩ := h.present e he
          exact ⟨p, (hmem p).mpr (.inl hp), hpe⟩
      · intro e he p hp hpe
        rcases (hmem p).mp hp with hold | rfl
        · rcases List.mem_cons.mp he with rfl | he
          · exact absurd hpe (hnone p hold)
          · exact h.described e he p hold hpe
        · rw [entry_of_name hentry (hentries e he) hpe]

/-- The permission seeder projects tables in which names and columns go together. -/
theorem seedPermissions_spec (h : t.Valid) (hcarry : t.NamesCarryColumns) :
    ∃ t', seedPermissions t = .ok t' ∧ t'.Valid ∧ t'.PermissionsProjected ∧
      ∀ entry ∈ catalogEntries, ∀ p ∈ t'.permissions,
        p.name = permissionName entry.toPermissionDefinition →
          p.description = entry.description := by
  have hstart : PermissionsSeeded [] t := ⟨h, hcarry, by simp, by simp, by simp⟩
  obtain ⟨s, hloop, hseeded⟩ := Txn.foldlM_progress catalogEntries
    (J := PermissionsSeeded) (fun done s entry hentry hs => hs.round hentry) hstart
  have hall : ∀ entry ∈ catalogEntries, entry ∈ catalogEntries.reverse ++ [] := by simp
  refine ⟨s.deleteOrphans, ?_, hseeded.valid.deleteOrphans, ⟨?_, ?_⟩, ?_⟩
  · rw [seedPermissions, hloop]
    rfl
  · intro d hd
    obtain ⟨entry, hentry, rfl⟩ := exists_entry hd
    obtain ⟨p, hp, hname⟩ := hseeded.present entry (hall entry hentry)
    refine ⟨p, List.mem_filter.mpr ⟨hp, ?_⟩, hname⟩
    simpa [hname] using mem_catalogNames hd
  · intro p hp
    obtain ⟨hp, hname⟩ := List.mem_filter.mp hp
    obtain ⟨d, hd, hpd⟩ := List.mem_map.mp (of_decide_eq_true hname)
    exact ⟨d, hd, hpd.symm, (hseeded.carry p hp d hd).mp hpd.symm⟩
  · intro entry hentry p hp
    exact hseeded.described entry (hall entry hentry) p (List.mem_filter.mp hp).1

/-- The permission seeder changes nothing where it has been. -/
theorem seedPermissions_fixed (h : t.PermissionsProjected)
    (hdescribed : ∀ entry ∈ catalogEntries, ∀ p ∈ t.permissions,
      p.name = permissionName entry.toPermissionDefinition → p.description = entry.description) :
    seedPermissions t = .ok t := by
  have hloop : catalogEntries.foldlM upsertPermission t = .ok t := by
    refine Txn.foldlM_fixed fun entry hentry => upsertPermission_fixed ?_ (hdescribed entry hentry)
    exact h.complete _ (mem_catalog_of_entry hentry)
  have horphans : t.deleteOrphans = t := by
    refine deleteOrphans_fixed fun p hp => ?_
    obtain ⟨d, hd, hname, -⟩ := h.sound p hp
    exact hname ▸ List.mem_map_of_mem hd
  rw [seedPermissions, hloop]
  exact congrArg Except.ok horphans

/-! ### The roles -/

/-- What holds once the given roles are seeded. -/
structure RolesSeeded (permissions : List PermissionRow) (done : List SeededRoleName)
    (t : CatalogTables) : Prop where
  valid : t.Valid
  permissions_eq : t.permissions = permissions
  seeded : ∀ role ∈ done, t.RoleSeeded role

/-- The role seeder seeds every role and leaves the permissions. -/
theorem seedRoles_spec (h : t.Valid)
    (hcomplete : ∀ d ∈ permissionCatalog, ∃ p ∈ t.permissions, p.name = permissionName d) :
    ∃ t', seedRoles t = .ok t' ∧ t'.Valid ∧ t'.permissions = t.permissions ∧
      ∀ role, t'.RoleSeeded role := by
  have hround : ∀ done s role, role ∈ roleCatalog → RolesSeeded t.permissions done s →
      ∃ s', seedRole s role = .ok s' ∧ RolesSeeded t.permissions (role :: done) s' := by
    intro done s role _ hs
    obtain ⟨s', hrun, hvalid, hpermissions, hseeded, hothers⟩ :=
      seedRole_spec role hs.valid (hs.permissions_eq ▸ hcomplete)
    refine ⟨s', hrun, hvalid, hpermissions.trans hs.permissions_eq, fun role' hrole' => ?_⟩
    by_cases hsame : role' = role
    · exact hsame ▸ hseeded
    · rcases List.mem_cons.mp hrole' with heq | hrole'
      · exact absurd heq hsame
      · exact hothers role' hsame (hs.seeded role' hrole')
  have hstart : RolesSeeded t.permissions [] t := ⟨h, rfl, by simp⟩
  obtain ⟨t', hrun, hseeded⟩ := Txn.foldlM_progress roleCatalog hround hstart
  refine ⟨t', hrun, hseeded.valid, hseeded.permissions_eq, fun role => ?_⟩
  exact hseeded.seeded role (by simpa using mem_roleCatalog role)

/-- A role is seeded exactly when its one row is projected and described. -/
theorem roleSeeded_iff (h : t.Valid) {role : SeededRoleName} : t.RoleSeeded role ↔
    (∃ row ∈ t.roles, row.name = role.value ∧ t.RoleProjected role row) ∧
      ∀ row ∈ t.roles, row.name = role.value → row.description = some (roleDescription role) := by
  constructor
  · rintro ⟨row, hrow, hcatalog, hprojected⟩
    have hname : row.name = role.value := by rw [hcatalog]; rfl
    refine ⟨⟨row, hrow, hname, hprojected⟩, fun row' hrow' hname' => ?_⟩
    rw [List.inj_on_of_nodup_map h.roleNames hrow' hrow (hname'.trans hname.symm), hcatalog]
    rfl
  · rintro ⟨⟨row, hrow, hname, hprojected⟩, hdescribed⟩
    refine ⟨row, hrow, ?_, hprojected⟩
    have hdescription := hdescribed row hrow hname
    obtain ⟨hscope, hrank, -⟩ := hprojected
    obtain ⟨id, name, scope, rank, description⟩ := row
    simp only at hname hdescription hscope hrank
    rw [hname, hdescription, hscope, hrank, catalogRole]

/-- The role seeder leaves the permission rows. -/
theorem seedRoles_permissions (h : seedRoles t = .ok t') : t'.permissions = t.permissions := by
  refine Txn.foldlM_invariant (P := fun s => s.permissions = t.permissions) ?_ rfl h
  intro s role s' _ hs hrun
  have hupsert : (s.upsertRole role).1.permissions = s.permissions := by
    unfold upsertRole
    split <;> rfl
  have hlinks : ∀ (roleId : ℕ) (desired : List PermissionRow) (u : CatalogTables),
      (desired.foldl (fun t p => t.upsertLink ⟨roleId, p.id⟩) u).permissions = u.permissions := by
    intro roleId desired
    induction desired with
    | nil => exact fun _ => rfl
    | cons p desired ih =>
      intro u
      rw [List.foldl_cons, ih, upsertLink]
      split <;> rfl
  simp only [seedRole] at hrun
  split at hrun
  · exact absurd hrun (by simp)
  · obtain rfl := Except.ok.inj hrun
    exact (hlinks _ _ _).trans (hupsert.trans hs)

end CatalogTables

open CatalogTables

/-- The sync succeeds, leaves what the catalog declares, and changes nothing when it runs
again. -/
def SyncConverges (db : CatalogDatabase) : Prop :=
  ∃ t, syncPermissionCatalog db.toCatalogTables = .ok t ∧ t.Declared ∧
    syncPermissionCatalog t = .ok t

/-- The sync converges exactly from the tables in which each row holds a name of the catalog
together with its columns. -/
theorem syncConverges_iff (db : CatalogDatabase) : SyncConverges db ↔ db.NamesCarryColumns := by
  constructor
  · rintro ⟨t, hsync, hdeclared, -⟩ p hp d hd
    obtain ⟨s, hseed, hroles⟩ := Txn.ok_of_bind hsync
    obtain ⟨u, hloop, hdelete⟩ := Txn.ok_of_bind hseed
    obtain rfl : u.deleteOrphans = s := Except.ok.inj hdelete
    have hrows : t.permissions = u.deleteOrphans.permissions := seedRoles_permissions hroles
    -- every row passes the loop with its name and its columns
    have hloop' : u.Valid ∧ RowsKept db.toCatalogTables u := by
      refine Txn.foldlM_invariant (P := fun s => s.Valid ∧ RowsKept db.toCatalogTables s)
        ?_ ⟨db.valid, fun p hp => ⟨p, hp, rfl, rfl⟩⟩ hloop
      rintro s entry s' - ⟨hvalid, hkept⟩ hround
      obtain ⟨hvalid', hkept'⟩ := upsertPermission_kept hround hvalid
      exact ⟨hvalid', hkept.trans hkept'⟩
    obtain ⟨hvalid, hkept⟩ := hloop'
    obtain ⟨p', hp', hname, hcolumns⟩ := hkept p hp
    have hsurvives : ∀ q ∈ t.permissions, q ∈ u.permissions ∧ ∀ d ∈ permissionCatalog,
        q.name = permissionName d → q.toPermission = d.toRow := by
      intro q hq
      refine ⟨(List.mem_filter.mp (hrows ▸ hq)).1, fun d hd hqd => ?_⟩
      obtain ⟨d', hd', hname', hcolumns'⟩ := hdeclared.projected.permissions.sound q hq
      rw [hcolumns', eq_of_permissionName hd' hd (hname'.symm.trans hqd)]
    constructor
    · intro hpd
      have hmem : p' ∈ t.permissions := by
        rw [hrows]
        refine List.mem_filter.mpr ⟨hp', ?_⟩
        simpa [hname, hpd] using mem_catalogNames hd
      rw [← hcolumns]
      exact (hsurvives p' hmem).2 d hd (hname.trans hpd)
    · intro hpd
      -- the row under the name has these columns too, and they are unique
      obtain ⟨q, hq, hqd⟩ := hdeclared.projected.permissions.complete d hd
      obtain ⟨hq', hcolumns'⟩ := hsurvives q hq
      have hsame : p' = q := List.inj_on_of_nodup_map hvalid.permissionColumns hp' hq'
        ((hcolumns.trans hpd).trans (hcolumns' d hd hqd).symm)
      rw [← hname, hsame, hqd]
  · intro hcarry
    obtain ⟨s, hseed, hvalid, hprojected, hdescribed⟩ := seedPermissions_spec db.valid hcarry
    obtain ⟨t, hroles, hvalid', hpermissions, hseeded⟩ := seedRoles_spec hvalid hprojected.complete
    have hprojected' : t.PermissionsProjected :=
      ⟨hpermissions ▸ hprojected.complete, hpermissions ▸ hprojected.sound⟩
    have hdescribed' := hpermissions.symm ▸ hdescribed
    refine ⟨t, ?_, ⟨⟨hprojected', fun role => ?_⟩, hdescribed', fun role => ?_⟩, ?_⟩
    · rw [syncPermissionCatalog, hseed]
      exact hroles
    · exact ((roleSeeded_iff hvalid').mp (hseeded role)).1
    · exact ((roleSeeded_iff hvalid').mp (hseeded role)).2
    · rw [syncPermissionCatalog, seedPermissions_fixed hprojected' hdescribed']
      exact Txn.foldlM_fixed fun role _ =>
        seedRole_fixed hvalid' hprojected'.complete (hseeded role)

/-! ### A renamed permission -/

/-- A release that filed `manage all` under another name. -/
def Sample.renamed : CatalogDatabase where
  permissions := [⟨manageEverything.toRow, 1, "platform.everything.manage", "Everything"⟩]
  roles := []
  rolePermissions := []
  valid := by constructor <;> simp

/-- The first upsert meets the unique columns of the old row, so nothing is synced. -/
theorem not_syncConverges_renamed : ¬ SyncConverges Sample.renamed := by
  rintro ⟨t, hsync, -⟩
  have hstopped : syncPermissionCatalog Sample.renamed.toCatalogTables =
      .error ⟨.uniqueConstraint "platform.all.manage", Sample.renamed.toCatalogTables⟩ := by
    decide +kernel
  rw [hstopped] at hsync
  exact absurd hsync (by simp)

end NestApi
