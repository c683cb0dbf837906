import NestApi.Catalog.Seeder
import NestApi.Txn.Loops

/-!
# What the statements of the seeder write

Each statement keeps the constraints of the schema. An upsert of a permission keeps the name
and the columns of every row, and an upsert of a role touches that role only.
-/

namespace NestApi

open Authorization

theorem lt_nextId {ids : List ℕ} {i : ℕ} (h : i ∈ ids) : i < nextId ids := by
  have hle : ∀ ids : List ℕ, i ∈ ids → i ≤ ids.foldr max 0 := by
    intro ids
    induction ids with
    | nil => simp
    | cons j ids ih =>
      intro hi
      rcases List.mem_cons.mp hi with rfl | hi
      · exact Nat.le_max_left _ _
      · exact (ih hi).trans (Nat.le_max_right _ _)
  exact Nat.lt_succ_of_le (hle ids h)

theorem nextId_not_mem (ids : List ℕ) : nextId ids ∉ ids := fun h =>
  absurd (lt_nextId h) (Nat.lt_irrefl _)

/-- Distinct keys stay distinct when a row with a new key is appended. -/
theorem nodup_map_append {α β : Type} {f : α → β} {xs : List α} {x : α}
    (h : (xs.map f).Nodup) (hx : ∀ y ∈ xs, f y ≠ f x) : ((xs ++ [x]).map f).Nodup := by
  rw [List.map_append, List.nodup_append']
  refine ⟨h, by simp, ?_⟩
  simpa using fun y hy => hx y hy

/-- Distinct keys stay distinct among some of the rows. -/
theorem nodup_map_filter {α β : Type} {f : α → β} {xs : List α} {p : α → Bool}
    (h : (xs.map f).Nodup) : ((xs.filter p).map f).Nodup :=
  h.sublist (List.filter_sublist.map f)

namespace CatalogTables

variable {t t' : CatalogTables}

/-! ### Permissions -/

/-- A description is in no constraint. -/
theorem map_describe {β : Type} {f : PermissionRow → β} {name description : String}
    (hf : ∀ p : PermissionRow, f { p with description := description } = f p) :
    (t.describe name description).permissions.map f = t.permissions.map f := by
  simp only [describe, List.map_map]
  refine List.map_congr_left fun p _ => ?_
  by_cases hp : p.name = name
  · simp only [Function.comp_apply, if_pos hp, hf]
  · simp only [Function.comp_apply, if_neg hp]

theorem mem_describe {name description : String} {p' : PermissionRow} :
    p' ∈ (t.describe name description).permissions ↔
      ∃ p ∈ t.permissions,
        (if p.name = name then { p with description := description } else p) = p' := by
  simp [describe]

theorem Valid.describe (h : t.Valid) {name description : String} :
    (t.describe name description).Valid where
  permissionIds := by rw [map_describe fun _ => rfl]; exact h.permissionIds
  permissionNames := by rw [map_describe fun _ => rfl]; exact h.permissionNames
  permissionColumns := by rw [map_describe fun _ => rfl]; exact h.permissionColumns
  roleIds := h.roleIds
  roleNames := h.roleNames
  links := h.links
  linkedRole := h.linkedRole
  linkedPermission := by
    intro l hl
    obtain ⟨p, hp, hid⟩ := h.linkedPermission l hl
    refine ⟨_, mem_describe.mpr ⟨p, hp, rfl⟩, ?_⟩
    by_cases hname : p.name = name <;> simpa [hname] using hid

theorem Valid.createPermission (h : t.Valid) {entry : CatalogEntry}
    (hname : ∀ p ∈ t.permissions, p.name ≠ permissionName entry.toPermissionDefinition)
    (hcolumns : ∀ p ∈ t.permissions, p.toPermission ≠ entry.toRow) :
    (t.createPermission entry).Valid where
  permissionIds := by
    refine nodup_map_append h.permissionIds fun p hp heq => ?_
    have hmem : p.id ∈ t.permissions.map PermissionRow.id := List.mem_map_of_mem hp
    exact nextId_not_mem _ (heq ▸ hmem)
  permissionNames := nodup_map_append h.permissionNames hname
  permissionColumns := nodup_map_append h.permissionColumns hcolumns
  roleIds := h.roleIds
  roleNames := h.roleNames
  links := h.links
  linkedRole := h.linkedRole
  linkedPermission := by
    intro l hl
    obtain ⟨p, hp, hid⟩ := h.linkedPermission l hl
    exact ⟨p, List.mem_append_left _ hp, hid⟩

theorem Valid.deleteOrphans (h : t.Valid) : t.deleteOrphans.Valid where
  permissionIds := nodup_map_filter h.permissionIds
  permissionNames := nodup_map_filter h.permissionNames
  permissionColumns := nodup_map_filter h.permissionColumns
  roleIds := h.roleIds
  roleNames := h.roleNames
  links := h.links.filter _
  linkedRole := by
    intro l hl
    exact h.linkedRole l (List.mem_filter.mp hl).1
  linkedPermission := by
    intro l hl
    obtain ⟨hl, hkept⟩ := List.mem_filter.mp hl
    obtain ⟨p, hp, hid⟩ := h.linkedPermission l hl
    refine ⟨p, List.mem_filter.mpr ⟨hp, ?_⟩, hid⟩
    -- the row of a link that was kept is not an orphan
    by_contra hname
    refine absurd hkept ?_
    have horphan : p ∈ t.orphans := List.mem_filter.mpr ⟨hp, by simpa using hname⟩
    simpa [← hid] using ⟨p, horphan, rfl⟩

/-- What one round of the seeder does with a permission. -/
theorem upsertPermission_cases {entry : CatalogEntry} (h : upsertPermission t entry = .ok t') :
    (∃ p ∈ t.permissions, p.name = permissionName entry.toPermissionDefinition) ∧
        t' = t.describe (permissionName entry.toPermissionDefinition) entry.description ∨
      (∀ p ∈ t.permissions, p.name ≠ permissionName entry.toPermissionDefinition) ∧
        (∀ p ∈ t.permissions, p.toPermission ≠ entry.toRow) ∧ t' = t.createPermission entry := by
  simp only [upsertPermission] at h
  by_cases hname : ∃ p ∈ t.permissions, p.name = permissionName entry.toPermissionDefinition
  · rw [if_pos hname] at h
    exact .inl ⟨hname, (Except.ok.inj h).symm⟩
  · rw [if_neg hname] at h
    by_cases hcolumns : ∃ p ∈ t.permissions, p.toPermission = entry.toRow
    · rw [if_pos hcolumns] at h
      exact absurd h (by simp)
    · rw [if_neg hcolumns] at h
      refine .inr ⟨?_, ?_, (Except.ok.inj h).symm⟩
      · exact fun p hp heq => hname ⟨p, hp, heq⟩
      · exact fun p hp heq => hcolumns ⟨p, hp, heq⟩

/-- Every row of `t` has a row with its name and columns in `t'`. -/
def RowsKept (t t' : CatalogTables) : Prop :=
  ∀ p ∈ t.permissions, ∃ p' ∈ t'.permissions, p'.name = p.name ∧ p'.toPermission = p.toPermission

theorem RowsKept.trans {t'' : CatalogTables} (h : RowsKept t t') (h' : RowsKept t' t'') :
    RowsKept t t'' := by
  intro p hp
  obtain ⟨p', hp', hname, hcolumns⟩ := h p hp
  obtain ⟨p'', hp'', hname', hcolumns'⟩ := h' p' hp'
  exact ⟨p'', hp'', hname'.trans hname, hcolumns'.trans hcolumns⟩

theorem rowsKept_describe {name description : String} :
    RowsKept t (t.describe name description) := by
  intro p hp
  refine ⟨_, mem_describe.mpr ⟨p, hp, rfl⟩, ?_⟩
  by_cases hname : p.name = name <;> simp [hname]

theorem upsertPermission_kept {entry : CatalogEntry} (h : upsertPermission t entry = .ok t')
    (hvalid : t.Valid) : t'.Valid ∧ RowsKept t t' := by
  rcases upsertPermission_cases h with ⟨-, rfl⟩ | ⟨hname, hcolumns, rfl⟩
  · exact ⟨hvalid.describe, rowsKept_describe⟩
  · refine ⟨hvalid.createPermission hname hcolumns, fun p hp => ?_⟩
    exact ⟨p, List.mem_append_left _ hp, rfl, rfl⟩

/-- A permission that is there already, described as the catalog has it. -/
theorem upsertPermission_fixed {entry : CatalogEntry}
    (hname : ∃ p ∈ t.permissions, p.name = permissionName entry.toPermissionDefinition)
    (hdescribed : ∀ p ∈ t.permissions, p.name = permissionName entry.toPermissionDefinition →
      p.description = entry.description) : upsertPermission t entry = .ok t := by
  simp only [upsertPermission]
  rw [if_pos hname]
  have hrows : (t.permissions.map fun p =>
      if p.name = permissionName entry.toPermissionDefinition then
        { p with description := entry.description } else p) = t.permissions := by
    refine (List.map_congr_left fun p hp => ?_).trans (List.map_id _)
    by_cases hp' : p.name = permissionName entry.toPermissionDefinition
    · rw [if_pos hp', ← hdescribed p hp hp']
      rfl
    · simp [hp']
  rw [describe, hrows]

/-- Without orphans there is nothing to delete. -/
theorem deleteOrphans_fixed (h : ∀ p ∈ t.permissions, p.name ∈ catalogNames) :
    t.deleteOrphans = t := by
  have horphans : t.orphans = [] := by simpa [orphans] using h
  have hrows : (t.permissions.filter fun p => p.name ∈ catalogNames) = t.permissions := by
    simpa using h
  rw [deleteOrphans, horphans, hrows]
  simp

/-! ### Roles -/

/-- The row of a system role is as the catalog declares it, with its links. -/
def RoleSeeded (t : CatalogTables) (role : SeededRoleName) : Prop :=
  ∃ row ∈ t.roles, row = catalogRole row.id role ∧ t.RoleProjected role row

/-- What an upsert of a role leaves. -/
structure RoleUpserted (t t' : CatalogTables) (role : SeededRoleName) (roleId : ℕ) : Prop where
  permissions : t'.permissions = t.permissions
  links : t'.rolePermissions = t.rolePermissions
  row : catalogRole roleId role ∈ t'.roles
  others : ∀ row : RoleRow, row.name ≠ role.value → (row ∈ t'.roles ↔ row ∈ t.roles)
  valid : t'.Valid

theorem upsertRole_spec (h : t.Valid) (role : SeededRoleName) :
    RoleUpserted t (t.upsertRole role).1 role (t.upsertRole role).2 := by
  unfold upsertRole
  cases hfind : t.roles.find? fun r => r.name = role.value with
  | none =>
    have hnew : ∀ r ∈ t.roles, r.name ≠ role.value := by
      simpa [List.find?_eq_none] using hfind
    refine ⟨rfl, rfl, by simp, fun row hrow => ?_, ?_⟩
    · have hne : row ≠ catalogRole (nextId (t.roles.map RoleRow.id)) role := by
        rintro rfl
        exact hrow rfl
      simp [hne]
    · refine { h with roleIds := ?_, roleNames := ?_, linkedRole := ?_ }
      · refine nodup_map_append h.roleIds fun r hr heq => ?_
        have hmem : r.id ∈ t.roles.map RoleRow.id := List.mem_map_of_mem hr
        exact nextId_not_mem _ (heq ▸ hmem)
      · exact nodup_map_append h.roleNames hnew
      · intro l hl
        obtain ⟨r, hr, hid⟩ := h.linkedRole l hl
        exact ⟨r, List.mem_append_left _ hr, hid⟩
  | some found =>
    have hmem := List.mem_of_find?_eq_some hfind
    have hname : found.name = role.value := by simpa using List.find?_some hfind
    let rewrite := fun r : RoleRow => if r.name = role.value then catalogRole r.id role else r
    have hid : ∀ r, (rewrite r).id = r.id := fun r => by
      by_cases hr : r.name = role.value <;> simp [rewrite, hr, catalogRole]
    have hnames : ∀ r, (rewrite r).name = r.name := fun r => by
      by_cases hr : r.name = role.value <;> simp [rewrite, hr, catalogRole]
    refine ⟨rfl, rfl, ?_, fun row hrow => ?_, ?_⟩
    · exact List.mem_map.mpr ⟨found, hmem, if_pos hname⟩
    · constructor
      · intro hr
        obtain ⟨r, hr, rfl⟩ := List.mem_map.mp hr
        have hr' : r.name ≠ role.value := hnames r ▸ hrow
        rwa [if_neg hr']
      · exact fun hr => List.mem_map.mpr ⟨row, hr, if_neg hrow⟩
    · refine { h with roleIds := ?_, roleNames := ?_, linkedRole := ?_ }
      · rw [List.map_map, (funext hid : RoleRow.id ∘ rewrite = RoleRow.id)]
        exact h.roleIds
      · rw [List.map_map, (funext hnames : RoleRow.name ∘ rewrite = RoleRow.name)]
        exact h.roleNames
      · intro l hl
        obtain ⟨r, hr, hrid⟩ := h.linkedRole l hl
        exact ⟨rewrite r, List.mem_map_of_mem hr, (hid r).trans hrid⟩

/-- A role that is there already, as the catalog declares it. -/
theorem upsertRole_fixed {role : SeededRoleName} {row : RoleRow} (h : t.Valid)
    (hrow : row ∈ t.roles) (hcatalog : row = catalogRole row.id role) :
    t.upsertRole role = (t, row.id) := by
  have hname : row.name = role.value := by rw [hcatalog]; rfl
  have hunique : ∀ r ∈ t.roles, r.name = role.value → r = row := fun r hr hr' =>
    List.inj_on_of_nodup_map h.roleNames hr hrow (hr'.trans hname.symm)
  have hfind : (t.roles.find? fun r => r.name = role.value) = some row := by
    cases hfound : t.roles.find? fun r => r.name = role.value with
    | none => exact absurd hname (by simpa using List.find?_eq_none.mp hfound row hrow)
    | some found =>
      have hfound' : found.name = role.value := by simpa using List.find?_some hfound
      rw [hunique found (List.mem_of_find?_eq_some hfound) hfound']
  have hrows : (t.roles.map fun r =>
      if r.name = role.value then catalogRole r.id role else r) = t.roles := by
    refine (List.map_congr_left fun r hr => ?_).trans (List.map_id _)
    by_cases hr' : r.name = role.value
    · rw [if_pos hr', hunique r hr hr', ← hcatalog, id]
    · rw [if_neg hr', id]
  simp only [upsertRole, hfind, hrows]

/-! ### Links -/

/-- The links after a loop of upserts. -/
theorem foldl_upsertLink (roleId : ℕ) (desired : List PermissionRow)
    (h : t.rolePermissions.Nodup) :
    let linked := desired.foldl (fun t p => t.upsertLink ⟨roleId, p.id⟩) t
    linked.permissions = t.permissions ∧ linked.roles = t.roles ∧ linked.rolePermissions.Nodup ∧
      ∀ l, l ∈ linked.rolePermissions ↔
        l ∈ t.rolePermissions ∨ ∃ p ∈ desired, l = ⟨roleId, p.id⟩ := by
  induction desired generalizing t with
  | nil => simp [h]
  | cons p desired ih =>
    have hone : (t.upsertLink ⟨roleId, p.id⟩).permissions = t.permissions ∧
        (t.upsertLink ⟨roleId, p.id⟩).roles = t.roles ∧
        (t.upsertLink ⟨roleId, p.id⟩).rolePermissions.Nodup ∧
        ∀ l, l ∈ (t.upsertLink ⟨roleId, p.id⟩).rolePermissions ↔
          l ∈ t.rolePermissions ∨ l = ⟨roleId, p.id⟩ := by
      by_cases hl : (⟨roleId, p.id⟩ : RolePermissionRow) ∈ t.rolePermissions
      · simp only [upsertLink, if_pos hl, true_and]
        refine ⟨h, fun l => ⟨.inl, ?_⟩⟩
        rintro (hmem | rfl)
        · exact hmem
        · exact hl
      · simp only [upsertLink, if_neg hl, true_and, List.mem_append, List.mem_singleton,
          implies_true, and_true]
        rw [List.nodup_append']
        exact ⟨h, by simp, by simpa using hl⟩
    obtain ⟨hpermissions, hroles, hnodup, hmem⟩ := hone
    obtain ⟨hpermissions', hroles', hnodup', hmem'⟩ := ih hnodup
    refine ⟨hpermissions'.trans hpermissions, hroles'.trans hroles, hnodup', fun l => ?_⟩
    rw [List.foldl_cons, hmem', hmem]
    simp [or_assoc]

/-- Names are unique, so as many rows are found as there are names. -/
theorem length_named (role : SeededRoleName) (h : t.Valid)
    (hcomplete : ∀ d ∈ permissionCatalog, ∃ p ∈ t.permissions, p.name = permissionName d) :
    (t.named (desiredPermissionNames role)).length = (desiredPermissionNames role).length := by
  obtain ⟨hsub, hnodup⟩ := permissions_of_role role
  have hnames : (desiredPermissionNames role).Nodup := by
    refine List.Nodup.map_on (fun d hd d' hd' => ?_) hnodup
    exact eq_of_permissionName (hsub d hd) (hsub d' hd')
  have hperm : ((t.named (desiredPermissionNames role)).map PermissionRow.name).Perm
      (desiredPermissionNames role) := by
    refine (List.perm_ext_iff_of_nodup (nodup_map_filter h.permissionNames) hnames).mpr ?_
    intro name
    simp only [List.mem_map, List.mem_filter, decide_eq_true_eq]
    constructor
    · rintro ⟨p, ⟨-, hp⟩, rfl⟩
      exact hp
    · intro hname
      obtain ⟨d, hd, rfl⟩ := List.mem_map.mp hname
      obtain ⟨p, hp, hpd⟩ := hcomplete d (hsub d hd)
      exact ⟨p, ⟨hp, hpd ▸ hname⟩, hpd⟩
  simpa using hperm.length_eq

/-- The links after one round: those of the role are as desired, the others stay. -/
def LinksReconciled (t t' : CatalogTables) (roleId : ℕ) (desired : List String) : Prop :=
  ∀ l : RolePermissionRow, l ∈ t'.rolePermissions ↔
    (l ∈ t.rolePermissions ∧
      ¬ (l.roleId = roleId ∧ ∃ p ∈ t.permissions, p.id = l.permissionId ∧ p.name ∉ desired)) ∨
    ∃ p ∈ t.named desired, l = ⟨roleId, p.id⟩

theorem LinksReconciled.other {roleId : ℕ} {desired : List String} {l : RolePermissionRow}
    (h : LinksReconciled t t' roleId desired) (hl : l.roleId ≠ roleId) :
    l ∈ t'.rolePermissions ↔ l ∈ t.rolePermissions := by
  rw [h]
  constructor
  · rintro (⟨hmem, -⟩ | ⟨p, -, rfl⟩)
    · exact hmem
    · exact absurd rfl hl
  · exact fun hmem => .inl ⟨hmem, fun hrole => hl hrole.1⟩

theorem LinksReconciled.own {roleId : ℕ} {desired : List String} {p : PermissionRow}
    (h : LinksReconciled t t' roleId desired) (hvalid : t.Valid) (hp : p ∈ t.permissions) :
    ⟨roleId, p.id⟩ ∈ t'.rolePermissions ↔ p.name ∈ desired := by
  rw [h]
  constructor
  · rintro (⟨-, hkept⟩ | ⟨p', hp', heq⟩)
    · by_contra hname
      exact hkept ⟨rfl, p, hp, rfl, hname⟩
    · obtain ⟨hp', hname⟩ := List.mem_filter.mp hp'
      have hid : p.id = p'.id := (RolePermissionRow.mk.inj heq).2
      rw [List.inj_on_of_nodup_map hvalid.permissionIds hp hp' hid]
      simpa using hname
  · exact fun hname => .inr ⟨p, List.mem_filter.mpr ⟨hp, by simpa using hname⟩, rfl⟩

/-- One round of the role seeder on tables with every permission of the catalog. -/
theorem seedRole_spec (role : SeededRoleName) (h : t.Valid)
    (hcomplete : ∀ d ∈ permissionCatalog, ∃ p ∈ t.permissions, p.name = permissionName d) :
    ∃ t', seedRole t role = .ok t' ∧ t'.Valid ∧ t'.permissions = t.permissions ∧
      t'.RoleSeeded role ∧
      ∀ role', role' ≠ role → t.RoleSeeded role' → t'.RoleSeeded role' := by
  have hupserted := upsertRole_spec h role
  cases hu : t.upsertRole role with
  | mk u roleId =>
  rw [hu] at hupserted
  obtain ⟨hpermissions, hlinks, hrow, hothers, hvalid⟩ := hupserted
  simp only at hpermissions hlinks hrow hothers hvalid
  have hlength := length_named role hvalid (hpermissions.symm ▸ hcomplete)
  let linked := (u.named (desiredPermissionNames role)).foldl
    (fun t p => t.upsertLink ⟨roleId, p.id⟩) (u.deleteLinks roleId (desiredPermissionNames role))
  have hrun : seedRole t role = .ok linked := by
    simp only [seedRole, hu, hlength, ne_eq, not_true_eq_false, if_false, linked]
  obtain ⟨hpermissions', hroles', hnodup, hmem⟩ :=
    foldl_upsertLink roleId (u.named (desiredPermissionNames role))
      (t := u.deleteLinks roleId (desiredPermissionNames role)) (hvalid.links.filter _)
  have hpermissions' : linked.permissions = u.permissions := hpermissions'
  have hroles' : linked.roles = u.roles := hroles'
  have hreconciled : LinksReconciled u linked roleId (desiredPermissionNames role) := by
    intro l
    rw [hmem]
    simp only [deleteLinks, List.mem_filter, decide_eq_true_eq]
  refine ⟨linked, hrun, ?_, hpermissions'.trans hpermissions, ?_, ?_⟩
  · refine { hvalid with
      permissionIds := hpermissions' ▸ hvalid.permissionIds
      permissionNames := hpermissions' ▸ hvalid.permissionNames
      permissionColumns := hpermissions' ▸ hvalid.permissionColumns
      roleIds := hroles' ▸ hvalid.roleIds
      roleNames := hroles' ▸ hvalid.roleNames
      links := hnodup
      linkedRole := fun l hl => ?_
      linkedPermission := fun l hl => ?_ }
    · rw [hroles']
      rcases (hreconciled l).mp hl with ⟨hl, -⟩ | ⟨p, -, rfl⟩
      · exact hvalid.linkedRole l hl
      · exact ⟨_, hrow, rfl⟩
    · rw [hpermissions']
      rcases (hreconciled l).mp hl with ⟨hl, -⟩ | ⟨p, hp, rfl⟩
      · exact hvalid.linkedPermission l hl
      · exact ⟨p, (List.mem_filter.mp hp).1, rfl⟩
  · refine ⟨catalogRole roleId role, hroles' ▸ hrow, rfl, rfl, rfl, fun p hp => ?_⟩
    exact hreconciled.own hvalid (hpermissions' ▸ hp)
  · rintro role' hne ⟨row, hmem', hcatalog, hprojected⟩
    have hname : row.name = role'.value := by rw [hcatalog]; rfl
    have hother : row.name ≠ role.value := fun heq =>
      hne (roleName_injective (hname.symm.trans heq))
    have hrow' : row ∈ u.roles := (hothers row hother).mpr hmem'
    have hid : row.id ≠ roleId := by
      intro hid
      have hsame := List.inj_on_of_nodup_map hvalid.roleIds hrow' hrow hid
      exact hother (hsame ▸ rfl)
    refine ⟨row, hroles' ▸ hrow', hcatalog, hprojected.scope, hprojected.rank, fun p hp => ?_⟩
    rw [hreconciled.other hid, hlinks]
    exact hprojected.links p (hpermissions ▸ hpermissions' ▸ hp)

/-- A role that is seeded already. -/
theorem seedRole_fixed {role : SeededRoleName} (h : t.Valid)
    (hcomplete : ∀ d ∈ permissionCatalog, ∃ p ∈ t.permissions, p.name = permissionName d)
    (hseeded : t.RoleSeeded role) : seedRole t role = .ok t := by
  obtain ⟨row, hrow, hcatalog, hprojected⟩ := hseeded
  have hdelete : t.deleteLinks row.id (desiredPermissionNames role) = t := by
    have hlinks : t.rolePermissions.filter (fun l => ¬ (l.roleId = row.id ∧
        ∃ p ∈ t.permissions, p.id = l.permissionId ∧ p.name ∉ desiredPermissionNames role)) =
        t.rolePermissions := by
      rw [List.filter_eq_self]
      rintro ⟨roleId, permissionId⟩ hl
      simp only [decide_eq_true_eq]
      rintro ⟨rfl, p, hp, rfl, hname⟩
      exact hname ((hprojected.links p hp).mp hl)
    rw [deleteLinks, hlinks]
  have hlinked : ∀ desired : List PermissionRow,
      (∀ p ∈ desired, (⟨row.id, p.id⟩ : RolePermissionRow) ∈ t.rolePermissions) →
      desired.foldl (fun t p => t.upsertLink ⟨row.id, p.id⟩) t = t := by
    intro desired
    induction desired with
    | nil => exact fun _ => rfl
    | cons p desired ih =>
      intro hmem
      rw [List.foldl_cons, upsertLink, if_pos (hmem p List.mem_cons_self)]
      exact ih fun p' hp' => hmem p' (List.mem_cons_of_mem _ hp')
  have hdesired : ∀ p ∈ t.named (desiredPermissionNames role),
      (⟨row.id, p.id⟩ : RolePermissionRow) ∈ t.rolePermissions := by
    intro p hp
    obtain ⟨hp, hname⟩ := List.mem_filter.mp hp
    exact (hprojected.links p hp).mpr (by simpa using hname)
  simp only [seedRole, upsertRole_fixed h hrow hcatalog, length_named role h hcomplete, ne_eq,
    not_true_eq_false, if_false, hdelete, hlinked _ hdesired]

end CatalogTables

end NestApi
