import NestApi.Grants.Store

/-!
# Whose rows a write changes

Grants change only through the rows the loader selects. A platform role is a row of one
user, and so is a membership; a workspace that closes reaches everybody on its roster. The
loader of the running system and the guard of the services read the same rows.
-/

namespace NestApi

open Txn Authorization

variable {db : Database} {u : Uuid}

/-- The rows of a user depend on the account, the roles and the memberships only. -/
theorem authorityRows_congr {db' : Database}
    (huser : (db'.scopedUser? u).isSome = (db.scopedUser? u).isSome)
    (hroles : (db'.userRoles.filter fun r => r.userId = u) =
      db.userRoles.filter fun r => r.userId = u)
    (hmemberships : (db'.workspaceMemberships.filter fun m =>
        m.userId = u && m.status = .active && db'.isLiveWorkspace m.workspaceId) =
      db.workspaceMemberships.filter fun m =>
        m.userId = u && m.status = .active && db.isLiveWorkspace m.workspaceId) :
    db'.authorityRows u = db.authorityRows u := by
  unfold Database.authorityRows
  cases hold : db.scopedUser? u with
  | none =>
    have hnew : db'.scopedUser? u = none := by simpa [hold] using huser
    rw [hnew]
  | some user =>
    obtain ⟨user', hnew⟩ : ∃ user', db'.scopedUser? u = some user' :=
      Option.isSome_iff_exists.mp (by simpa [hold] using huser)
    simp only [hnew, hroles, hmemberships]

/-- Grants depend on the rows of the user and on what their roles may do. -/
theorem Store.loadGrants_congr {s s' : Store}
    (hrows : s'.database.authorityRows u = s.database.authorityRows u)
    (hroles : ∀ role ∈ (s.database.authorityRows u).roles,
      s'.permissionsOf role = s.permissionsOf role) : s'.loadGrants u = s.loadGrants u := by
  unfold Store.loadGrants
  rw [hrows]
  generalize s.database.authorityRows u = rows at hroles
  have hplatform : rows.platformRoles.flatMap s'.permissionsOf =
      rows.platformRoles.flatMap s.permissionsOf := by
    refine List.flatMap_congr fun role hrole => hroles role ?_
    simp [AuthorityRows.roles, hrole]
  have hmemberships :
      (rows.memberships.map fun m => LoadedMembership.mk m (s'.permissionsOf m.role)) =
      rows.memberships.map fun m => ⟨m, s.permissionsOf m.role⟩ := by
    refine List.map_congr_left fun m hm => ?_
    rw [hroles m.role]
    simp only [AuthorityRows.roles, List.mem_append, List.mem_map]
    exact .inr ⟨m, hm, rfl⟩
  simp only [AuthorityRows.load, hplatform, hmemberships]

/-! ### The loader and the guard -/

/-- A loaded permission as it reaches the factory. -/
def Permission.toGrant (p : Permission) : PermissionGrant :=
  ⟨p.action, p.subject, .string p.scope, .string p.ownership⟩

/-- Loaded grants as they reach the factory. -/
def LoadedGrants.toGrants (g : LoadedGrants) : AuthorizationGrants where
  platformPermissions := g.platformPermissions.map Permission.toGrant
  workspaceMemberships := g.workspaceMemberships.map fun m =>
    ⟨.string m.row.workspaceId, .string m.row.status.value, m.permissions.map Permission.toGrant⟩

/-- The tables are what the catalog says. -/
def Store.InSync (s : Store) : Prop :=
  ∀ role, s.permissionsOf role = role.permissions.map PermissionDefinition.toRow

/-- While the tables are in sync, the loader reads what the guard of the services reads. -/
theorem toGrants_loadGrants {s : Store} (hsync : s.InSync) (userId : Uuid) :
    (s.loadGrants userId).toGrants = loadGrantsFromDatabase s.database userId := by
  have hrole : ∀ role, (s.permissionsOf role).map Permission.toGrant =
      role.permissions.map PermissionDefinition.toPermissionGrant := by
    intro role
    rw [hsync role, List.map_map]
    rfl
  unfold Store.loadGrants Database.authorityRows loadGrantsFromDatabase
  cases s.database.scopedUser? userId with
  | none => rfl
  | some user =>
    simp [LoadedGrants.toGrants, AuthorityRows.load, List.flatMap_map, List.map_flatMap, hrole,
      WorkspaceMembership.toRow, WorkspaceMembership.toGrant, Function.comp_def]

/-! ### Writes -/

/-- A rewrite of memberships that leaves everybody where they are. -/
structure KeepsMember (f : Rewrite WorkspaceMembership.id) : Prop where
  userId : ∀ m, (f.row m).userId = m.userId
  workspaceId : ∀ m, (f.row m).workspaceId = m.workspaceId

theorem keepsMember_rejoined {role : SeededRoleName} {now : ℕ} {notes : Option String}
    {actorId : Uuid} : KeepsMember (WorkspaceMembership.rejoined role now notes actorId) :=
  ⟨fun _ => rfl, fun _ => rfl⟩

theorem keepsMember_withRole {role : SeededRoleName} {actorId : Uuid} :
    KeepsMember (WorkspaceMembership.withRole role actorId) :=
  ⟨fun _ => rfl, fun _ => rfl⟩

theorem keepsMember_withStatus {status : WorkspaceMembershipStatus} {endedAt : Option ℕ}
    {actorId : Uuid} : KeepsMember (WorkspaceMembership.withStatus status endedAt actorId) :=
  ⟨fun _ => rfl, fun _ => rfl⟩

/-- The membership rows of a workspace, in order. -/
def Database.roster (db : Database) (workspaceId : Uuid) : List WorkspaceMembership :=
  db.workspaceMemberships.filter fun m => m.workspaceId = workspaceId

/-- Every row is on the roster of its workspace. -/
theorem mem_roster {m : WorkspaceMembership} :
    m ∈ db.roster m.workspaceId ↔ m ∈ db.workspaceMemberships := by
  simp [Database.roster]

/-- A platform role more or less is of interest to its user only. -/
theorem authorityRows_insertUserRole {r : UserRole} (h : r.userId ≠ u) :
    (db.insertUserRole r).authorityRows u = db.authorityRows u :=
  authorityRows_congr rfl (Table.filter_insert (by simpa using h)) rfl

theorem authorityRows_deleteUserRole {r : UserRole} (h : r.userId ≠ u) :
    (db.deleteUserRole r).authorityRows u = db.authorityRows u := by
  refine authorityRows_congr rfl (Table.filter_delete fun r' _ hr' => ?_) rfl
  obtain rfl : r' = r := by simpa using hr'
  simpa using h

theorem authorityRows_insertMembership {m : WorkspaceMembership} (h : m.userId ≠ u) :
    (db.insertMembership m).authorityRows u = db.authorityRows u :=
  authorityRows_congr rfl rfl (Table.filter_insert (by simp [h]))

theorem authorityRows_updateMemberships {ids : List Uuid} {f : Rewrite WorkspaceMembership.id}
    (hf : KeepsMember f) (h : ∀ m ∈ db.workspaceMemberships, m.id ∈ ids → m.userId ≠ u) :
    (db.updateMemberships ids f).authorityRows u = db.authorityRows u := by
  refine authorityRows_congr rfl rfl (Table.filter_update fun m hm hid => ?_)
  have hother := h m hm hid
  simp [hother, hf.userId]

/-- Rewriting one membership is of interest to its member only. -/
theorem authorityRows_updateMembership {m : WorkspaceMembership}
    {f : Rewrite WorkspaceMembership.id} (hm : m ∈ db.workspaceMemberships) (hf : KeepsMember f)
    (h : m.userId ≠ u) : (db.updateMemberships [m.id] f).authorityRows u = db.authorityRows u := by
  refine authorityRows_updateMemberships hf fun r hr hid => ?_
  have hsame : r = m := Table.eq_of_key hr hm (by simpa using hid)
  exact hsame ▸ h

/-- Rewriting memberships of other workspaces leaves a roster alone. -/
theorem roster_updateMemberships {workspaceId : Uuid} {ids : List Uuid}
    {f : Rewrite WorkspaceMembership.id} (hf : KeepsMember f)
    (h : ∀ m ∈ db.workspaceMemberships, m.id ∈ ids → m.workspaceId ≠ workspaceId) :
    (db.updateMemberships ids f).roster workspaceId = db.roster workspaceId := by
  refine Table.filter_update fun m hm hid => ?_
  have hother := h m hm hid
  simp [hother, hf.workspaceId]

theorem roster_insertMembership {workspaceId : Uuid} {m : WorkspaceMembership}
    (h : m.workspaceId ≠ workspaceId) :
    (db.insertMembership m).roster workspaceId = db.roster workspaceId :=
  Table.filter_insert (by simpa using h)

/-- An account that is rewritten keeps its own rows or loses them; nobody else's change. -/
theorem authorityRows_updateUser {userId : Uuid} {f : Rewrite User.id} (h : userId ≠ u) :
    (db.updateUser userId f).authorityRows u = db.authorityRows u := by
  refine authorityRows_congr ?_ rfl rfl
  have hfind : (db.users.update [userId] f).find? u = db.users.find? u :=
    Table.find?_update_of_not_mem (by simpa using Ne.symm h)
  simp only [Database.scopedUser?, Database.updateUser, hfind]

/-- Two databases with the same live workspaces, as far as the members of `u` go. -/
theorem authorityRows_of_live {db' : Database} (husers : db'.users = db.users)
    (hroles : db'.userRoles = db.userRoles)
    (hmemberships : db'.workspaceMemberships = db.workspaceMemberships)
    (hlive : ∀ m ∈ db.workspaceMemberships, m.userId = u →
      db'.isLiveWorkspace m.workspaceId = db.isLiveWorkspace m.workspaceId) :
    db'.authorityRows u = db.authorityRows u := by
  refine authorityRows_congr (by rw [Database.scopedUser?, husers]; rfl) (by rw [hroles]) ?_
  rw [hmemberships]
  refine List.filter_congr fun m hm => ?_
  by_cases hu : m.userId = u
  · rw [hlive m hm hu]
  · simp [hu]

/-- Closing workspaces is of interest to those on their rosters. -/
theorem authorityRows_updateWorkspaces {ids : List Uuid} {f : Rewrite Workspace.id}
    (h : ∀ m ∈ db.workspaceMemberships, m.workspaceId ∈ ids → m.userId ≠ u) :
    (db.updateWorkspaces ids f).authorityRows u = db.authorityRows u := by
  refine authorityRows_of_live rfl rfl rfl fun m hm hu => ?_
  have hid : m.workspaceId ∉ ids := fun hmem => h m hm hmem hu
  have hiff : (db.updateWorkspaces ids f).LiveWorkspace m.workspaceId ↔
      db.LiveWorkspace m.workspaceId := by
    constructor
    · rintro ⟨ws, hws, heq, hlive⟩
      rcases Table.of_mem_update hws with ⟨hold, -⟩ | ⟨old, -, hk, rfl⟩
      · exact ⟨ws, hold, heq, hlive⟩
      · exact absurd (heq ▸ (f.key_row old).symm ▸ hk) hid
    · rintro ⟨ws, hws, heq, hlive⟩
      exact ⟨ws, Table.mem_update_of_not_mem hws (heq ▸ hid), heq, hlive⟩
  rw [Bool.eq_iff_iff, Database.isLiveWorkspace_iff, Database.isLiveWorkspace_iff]
  exact hiff

/-- A new workspace is of interest to nobody who is not in it. -/
theorem authorityRows_insertWorkspace {ws : Workspace}
    (h : ∀ m ∈ db.workspaceMemberships, m.workspaceId = ws.id → m.userId ≠ u) :
    (db.insertWorkspace ws).authorityRows u = db.authorityRows u := by
  refine authorityRows_of_live rfl rfl rfl fun m hm hu => ?_
  have hid : m.workspaceId ≠ ws.id := fun heq => h m hm heq hu
  have hiff : (db.insertWorkspace ws).LiveWorkspace m.workspaceId ↔
      db.LiveWorkspace m.workspaceId := by
    constructor
    · rintro ⟨other, hother, heq, hlive⟩
      rcases Table.mem_of_mem_insert hother with hold | rfl
      · exact ⟨other, hold, heq, hlive⟩
      · exact absurd heq.symm hid
    · rintro ⟨other, hother, heq, hlive⟩
      exact ⟨other, Table.mem_insert_of_mem hother, heq, hlive⟩
  rw [Bool.eq_iff_iff, Database.isLiveWorkspace_iff, Database.isLiveWorkspace_iff]
  exact hiff

end NestApi
