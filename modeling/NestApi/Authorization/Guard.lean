import NestApi.Authorization.Tenancy
import NestApi.Authorization.Query
import NestApi.Handler

/-!
# Loading grants and guarding routes

Grants are the permissions of the rows a user holds, read in one query. The guard
compiles them into an ability and asks it about the tenant named by the route; services
ask the same ability about records. Every such answer comes down to rows of the
database, which is what the lemmas at the end say.
-/

namespace NestApi

open Authorization Txn.Program

/-! ### Loading -/

/-- A membership row as a grant. -/
def WorkspaceMembership.toGrant (m : WorkspaceMembership) : WorkspaceMembershipGrant :=
  ⟨.string m.workspaceId, .string m.status.value,
    m.role.permissions.map PermissionDefinition.toPermissionGrant⟩

/-- The grants of a live account: its platform roles, and its active memberships of live
workspaces. -/
def loadGrantsFromDatabase (db : Database) (userId : Uuid) : AuthorizationGrants :=
  match db.scopedUser? userId with
  | none => ⟨[], []⟩
  | some _ =>
    { platformPermissions :=
        (db.userRoles.filter fun r => r.userId = userId).flatMap fun r =>
          r.role.permissions.map PermissionDefinition.toPermissionGrant
      workspaceMemberships :=
        (db.workspaceMemberships.filter fun m =>
          m.userId = userId && m.status = .active && db.isLiveWorkspace m.workspaceId).map
            WorkspaceMembership.toGrant }

/-- Compile grants. A subject without its column is an error nothing provides for. -/
def compileAbility (userId : Uuid) (grants : AuthorizationGrants) : Handler Ability :=
  match createForUser userId grants with
  | .ok ability => .done ability
  | .error _ => .fail .internal

/-- The ability of any user, outside of a request of theirs. -/
def createAbilityForUser (userId : Uuid) : Handler Ability := do
  let grants ← select fun db => loadGrantsFromDatabase db userId
  compileAbility userId grants

/-! ### Guarding -/

/-- The partial record of a tenant check: the tenant's key, and the caller's own id when
the subject has an owner. -/
def buildTenantStub (subject : AuthorizationSubject) (workspaceId currentUserId : Uuid) :
    Record :=
  match subjectTenantKey subject.value, subjectOwnerKey subject.value with
  | some tenantKey, some ownerKey =>
    (Record.of tenantKey workspaceId).with ownerKey currentUserId
  | some tenantKey, none => Record.of tenantKey workspaceId
  | none, _ => fun _ => .undefined

/-- The guard of a caller: load, compile, remember. -/
def guardedAbility (actorId : Uuid) : Handler Ability := do
  let grants ← selectObserved (fun _ => .guarded) fun db => loadGrantsFromDatabase db actorId
  compileAbility actorId grants

/-- The guard of a route that names a workspace and requires a permission there. -/
def requirePermission (actorId : Uuid) (required : PermissionDefinition)
    (workspaceId : Uuid) : Handler Ability := do
  let ability ← guardedAbility actorId
  ensure (ability.can required.action.value required.subject.value
      (buildTenantStub required.subject workspaceId actorId) = true)
    (.api (Errors.permissionDenied required.action.value required.subject.value))
  pure ability

/-- Some rule for this is not conditioned on the owner of the record. -/
def hasNonOwnerScopedRule (ability : Ability) (action : AuthorizationAction)
    (subject : AuthorizationSubject) : Bool :=
  match subjectOwnerKey subject.value with
  | none => ability.canType action.value subject.value
  | some ownerKey => ability.any fun rule =>
    rule.relevant action.value subject.value && rule.condition.all fun c => c.1 ≠ ownerKey

/-- The guard of an administrative route, which names no workspace. -/
def requireAdministrative (actorId : Uuid) (action : AuthorizationAction)
    (subject : AuthorizationSubject) : Handler Ability := do
  let ability ← guardedAbility actorId
  ensure (hasNonOwnerScopedRule ability action subject = true ∧
      ability.canType action.value subject.value = true)
    (.api (Errors.permissionDenied action.value subject.value))
  pure ability

/-- The check against a loaded record. -/
def assertCan (ability : Ability) (required : PermissionDefinition) (record : Record) :
    Handler Unit :=
  ensure (ability.can required.action.value required.subject.value record = true)
    (.api (Errors.permissionDenied required.action.value required.subject.value))

/-! ### What an answer rests on -/

namespace Database

variable (db : Database)

/-- The user holds a platform role that may do everything. -/
def ManageAll (userId : Uuid) : Prop :=
  ∃ r ∈ db.userRoles, r.userId = userId ∧ manageEverything ∈ r.role.permissions

/-- The user is an active member of the workspace with this role. -/
def Member (workspaceId userId : Uuid) (role : SeededRoleName) : Prop :=
  ∃ m ∈ db.workspaceMemberships,
    m.workspaceId = workspaceId ∧ m.userId = userId ∧ m.status = .active ∧ m.role = role

/-- The user may do what a workspace permission names: through a platform role, or as an
active member of the workspace, which is live. -/
def Permits (workspaceId userId : Uuid) (p : PermissionDefinition) : Prop :=
  db.ManageAll userId ∨
    db.LiveWorkspace workspaceId ∧ ∃ role, db.Member workspaceId userId role ∧ p ∈ role.permissions

end Database

/-- Every permission a user can hold. -/
def heldPermissions : List PermissionDefinition :=
  authenticatedUserPermissions ++
    [SeededRoleName.platformAdmin, .platformEngineer, .platformTechnicalSupport,
      .platformAppSupport, .workspaceOwner, .workspaceAdmin, .workspaceManager,
      .workspaceStaff].flatMap SeededRoleName.permissions

theorem mem_heldPermissions {role : SeededRoleName} {p : PermissionDefinition}
    (h : p ∈ role.permissions) : p ∈ heldPermissions := by
  refine List.mem_append_right _ (List.mem_flatMap.mpr ⟨role, ?_, h⟩)
  cases role <;> decide

/-- The workspace permissions that no platform role grants, except the one for all. -/
def tenantPermissions : List PermissionDefinition :=
  [deleteWorkspace, transferWorkspaceOwnership, createWorkspaceMembership,
    updateWorkspaceMembership, deleteWorkspaceMembership, assignRoleWorkspaceMembership,
    suspendWorkspaceMembership, createWorkspaceInvitation, deleteWorkspaceInvitation]

theorem platform_covers_tenant : ∀ p ∈ tenantPermissions, ∀ q ∈ heldPermissions,
    q.scope = .platform →
      covers (q.action.value, q.subject.value) (p.action.value, p.subject.value) = true →
        q = manageEverything := by
  decide

theorem workspace_covers_tenant : ∀ p ∈ tenantPermissions, ∀ q ∈ heldPermissions,
    q.scope = .workspace →
      covers (q.action.value, q.subject.value) (p.action.value, p.subject.value) = true →
        q = p := by
  decide

/-- A type check that passes has a record on which the instance check passes. -/
theorem exists_can_of_canType {ability : Ability} {action subject : String}
    (h : ability.canType action subject = true) :
    ∃ record, ability.can action subject record = true := by
  obtain ⟨rule, hmem, hrelevant⟩ := List.any_eq_true.mp h
  cases hcondition : rule.condition with
  | none =>
    exact ⟨fun _ => .undefined, List.any_eq_true.mpr
      ⟨rule, hmem, by simp [hrelevant, Rule.matchesConditions, hcondition]⟩⟩
  | some condition =>
    exact ⟨Record.of condition.1 condition.2, List.any_eq_true.mpr
      ⟨rule, hmem, by simp [hrelevant, Rule.matchesConditions, hcondition, Record.of]⟩⟩

section Grants

variable {db : Database} {userId : Uuid}

/-- A loaded platform permission is intrinsic or belongs to a role the user holds. -/
theorem mem_platformPermissions {g : PermissionGrant}
    (h : g ∈ authenticatedUserPermissions.map PermissionDefinition.toPermissionGrant ++
      (loadGrantsFromDatabase db userId).platformPermissions) :
    ∃ p, p.toPermissionGrant = g ∧ (p ∈ authenticatedUserPermissions ∨
      ∃ r ∈ db.userRoles, r.userId = userId ∧ p ∈ r.role.permissions) := by
  rcases List.mem_append.mp h with h | h
  · obtain ⟨p, hp, rfl⟩ := List.mem_map.mp h
    exact ⟨p, rfl, .inl hp⟩
  · unfold loadGrantsFromDatabase at h
    split at h
    · simp at h
    · obtain ⟨r, hr, hg⟩ := List.mem_flatMap.mp h
      obtain ⟨p, hp, rfl⟩ := List.mem_map.mp hg
      obtain ⟨hmem, huser⟩ := Txn.Table.mem_filter.mp hr
      exact ⟨p, rfl, .inr ⟨r, hmem, by simpa using huser, hp⟩⟩

/-- A loaded membership is an active one, of a live workspace. -/
theorem mem_workspaceMemberships {g : WorkspaceMembershipGrant}
    (h : g ∈ (loadGrantsFromDatabase db userId).workspaceMemberships) :
    ∃ m ∈ db.workspaceMemberships, m.toGrant = g ∧ m.userId = userId ∧ m.status = .active ∧
      db.LiveWorkspace m.workspaceId := by
  unfold loadGrantsFromDatabase at h
  split at h
  · simp at h
  · obtain ⟨m, hm, rfl⟩ := List.mem_map.mp h
    obtain ⟨hmem, hcond⟩ := Txn.Table.mem_filter.mp hm
    simp only [Bool.and_eq_true, decide_eq_true_eq] at hcond
    exact ⟨m, hmem, rfl, hcond.1.1, hcond.1.2, Database.isLiveWorkspace_iff.mp hcond.2⟩

variable {ability : Ability}

/-- Every answer of a compiled ability rests on a row: a platform permission that covers
what was asked, or an active membership of the workspace the record belongs to. -/
theorem row_of_can
    (hability : createForUser userId (loadGrantsFromDatabase db userId) = .ok ability)
    {action subject : String} {record : Record} (hcan : ability.can action subject record = true) :
    (∃ q ∈ heldPermissions, q.scope = .platform ∧
      covers (q.action.value, q.subject.value) (action, subject) = true ∧
        (q ∈ authenticatedUserPermissions ∨
          ∃ r ∈ db.userRoles, r.userId = userId ∧ q ∈ r.role.permissions)) ∨
    ∃ m ∈ db.workspaceMemberships, m.userId = userId ∧ m.status = .active ∧
      db.LiveWorkspace m.workspaceId ∧ ∃ q ∈ m.role.permissions, q.scope = .workspace ∧
        covers (q.action.value, q.subject.value) (action, subject) = true ∧
          ∃ key, resolveTenantKey q.subject.value = .ok key ∧
            record key = .string m.workspaceId := by
  rcases (allows_createForUser hability).mp hcan with
    ⟨g, hg, hscope, hcovers, -⟩ | ⟨g, hg, -, workspaceId, hid, -, p, hp, hscope, hcovers, hkey⟩
  · obtain ⟨q, rfl, hq⟩ := mem_platformPermissions hg
    have hheld : q ∈ heldPermissions := by
      rcases hq with hq | ⟨r, -, -, hq⟩
      · exact List.mem_append_left _ hq
      · exact mem_heldPermissions hq
    have hplatform : q.scope = .platform := by
      rcases hs : q.scope with _ | _
      · rfl
      · simp [PermissionDefinition.toPermissionGrant, hs, RoleScope.value] at hscope
    exact .inl ⟨q, hheld, hplatform, hcovers, hq⟩
  · obtain ⟨m, hm, rfl, huser, hactive, hlive⟩ := mem_workspaceMemberships hg
    obtain ⟨q, hq, rfl⟩ := List.mem_map.mp hp
    have hworkspace : q.scope = .workspace := by
      rcases hs : q.scope with _ | _
      · simp [PermissionDefinition.toPermissionGrant, hs, RoleScope.value] at hscope
      · rfl
    have hid' : m.workspaceId = workspaceId := by
      simpa [WorkspaceMembership.toGrant] using hid
    subst hid'
    exact .inr ⟨m, hm, huser, hactive, hlive, q, hq, hworkspace, hcovers, hkey⟩

/-- A passed check of a tenant permission: the user may do everything, or is an active
member of that live workspace with a role that lists the permission. -/
theorem permits_of_can
    (hability : createForUser userId (loadGrantsFromDatabase db userId) = .ok ability)
    {p : PermissionDefinition} (hp : p ∈ tenantPermissions) {record : Record}
    {workspaceId : Uuid}
    (hrecord : ∀ key, resolveTenantKey p.subject.value = .ok key →
      record key = .string workspaceId)
    (hcan : ability.can p.action.value p.subject.value record = true) :
    db.Permits workspaceId userId p := by
  rcases row_of_can hability hcan with
    ⟨q, hheld, hscope, hcovers, hq⟩ | ⟨m, hm, huser, hactive, hlive, q, hq, hscope, hcovers,
      key, hkey, hvalue⟩
  · obtain rfl := platform_covers_tenant p hp q hheld hscope hcovers
    rcases hq with hq | ⟨r, hr, huser, hq⟩
    · exact absurd hq (by decide)
    · exact .inl ⟨r, hr, huser, hq⟩
  · obtain rfl := workspace_covers_tenant p hp q (mem_heldPermissions hq) hscope hcovers
    have hid : m.workspaceId = workspaceId := by
      simpa [hvalue] using hrecord key hkey
    subst hid
    exact .inr ⟨hlive, m.role, ⟨m, hm, rfl, huser, hactive, rfl⟩, hq⟩

/-- Only a platform role that may do everything passes the check for everything. -/
theorem manageAll_of_canType
    (hability : createForUser userId (loadGrantsFromDatabase db userId) = .ok ability)
    (hcan : ability.canType "manage" "all" = true) : db.ManageAll userId := by
  obtain ⟨record, hrecord⟩ := exists_can_of_canType hcan
  have hall : ∀ q ∈ heldPermissions,
      covers (q.action.value, q.subject.value) ("manage", "all") = true →
        q = manageEverything := by
    decide
  rcases row_of_can hability hrecord with
    ⟨q, hheld, hscope, hcovers, hq⟩ | ⟨m, hm, -, -, -, q, hq, hscope, hcovers, -⟩
  · obtain rfl := hall q hheld hcovers
    rcases hq with hq | ⟨r, hr, huser, hq⟩
    · exact absurd hq (by decide)
    · exact ⟨r, hr, huser, hq⟩
  · obtain rfl := hall q (mem_heldPermissions hq) hcovers
    exact absurd hscope (by decide)

end Grants

/-- The stub of a tenant check carries the tenant. -/
theorem buildTenantStub_tenant {p : PermissionDefinition} (hp : p ∈ tenantPermissions)
    {workspaceId userId : Uuid} {key : String}
    (hkey : resolveTenantKey p.subject.value = .ok key) :
    buildTenantStub p.subject workspaceId userId key = .string workspaceId := by
  have hsubjects : ∀ p ∈ tenantPermissions, p.subject = .workspace ∨
      p.subject = .workspaceMembership ∨ p.subject = .workspaceInvitation := by
    decide
  rcases hsubjects p hp with hs | hs | hs <;> rw [hs] at hkey ⊢ <;>
    obtain rfl := Except.ok.inj hkey <;> rfl

end NestApi
