import NestApi.Authorization.DataIntegrity
import NestApi.Properties.Runs
import NestApi.Txn.Refining

/-!
# No operation writes a role outside its scope

The boot check looks for assignments that no operation should have written. No run of the system
writes one, whatever the database held before: what the check reports after a run was there
before it. Most requests leave every role as it is, which their guarantee already says. The five
that hand out a role are judged once more, by what they write.
-/

namespace NestApi

open Txn Program Authorization WorkspaceMemberships WorkspaceRoleAssignmentPolicy
  WorkspaceOwnershipPolicy

/-! ### Roles within their scope -/

section InScope

variable {κ α : Type} {key : α → κ} {role : α → SeededRoleName} {scope : RoleScope}
  {t₀ t : Table key}

/-- Every row has a role of this scope, or had its role before. -/
def InScope (role : α → SeededRoleName) (scope : RoleScope) (t₀ t : Table key) : Prop :=
  ∀ r ∈ t, (role r).scope = scope ∨ ∃ r₀ ∈ t₀, key r₀ = key r ∧ role r₀ = role r

theorem InScope.refl : InScope role scope t t := fun r hr => .inr ⟨r, hr, rfl, rfl⟩

variable [DecidableEq κ]

theorem InScope.insert {r : α} (h : InScope role scope t₀ t) (hr : (role r).scope = scope) :
    InScope role scope t₀ (t.insert r) := by
  intro s hs
  rcases Table.mem_of_mem_insert hs with hold | rfl
  · exact h s hold
  · exact .inl hr

/-- A rewrite that hands out a role of the scope. -/
theorem InScope.grant {ks : List κ} {f : Rewrite key} (h : InScope role scope t₀ t)
    (hf : ∀ r, (role (f.row r)).scope = scope) : InScope role scope t₀ (t.update ks f) := by
  intro s hs
  rcases Table.of_mem_update hs with ⟨hold, -⟩ | ⟨r, -, -, rfl⟩
  · exact h s hold
  · exact .inl (hf r)

/-- A rewrite that leaves the roles as they are. -/
theorem InScope.update {ks : List κ} {f : Rewrite key} (h : InScope role scope t₀ t)
    (hf : ∀ r, role (f.row r) = role r) : InScope role scope t₀ (t.update ks f) := by
  intro s hs
  rcases Table.of_mem_update hs with ⟨hold, -⟩ | ⟨r, hr, -, rfl⟩
  · exact h s hold
  · rw [hf r, f.key_row r]
    exact h r hr

theorem InScope.delete {ks : List κ} (h : InScope role scope t₀ t) :
    InScope role scope t₀ (t.delete ks) := fun s hs => h s (Table.mem_delete.mp hs).1

end InScope

/-- Every role outside its scope was assigned so before. -/
structure NoNewDefect (init db : Database) : Prop where
  userRoles : InScope UserRole.role .platform init.userRoles db.userRoles
  memberships : InScope WorkspaceMembership.role .workspace init.workspaceMemberships
    db.workspaceMemberships
  invitations : InScope WorkspaceInvitation.role .workspace init.workspaceInvitations
    db.workspaceInvitations

namespace NoNewDefect

variable {init db : Database} {ids : List Uuid}

theorem refl : NoNewDefect db db := ⟨.refl, .refl, .refl⟩

theorem insertMembership {m : WorkspaceMembership} (h : NoNewDefect init db)
    (hm : m.role.scope = .workspace) : NoNewDefect init (db.insertMembership m) :=
  ⟨h.userRoles, h.memberships.insert hm, h.invitations⟩

theorem updateMemberships {f : Rewrite WorkspaceMembership.id} (h : NoNewDefect init db)
    (hf : ∀ m, (f.row m).role = m.role) : NoNewDefect init (db.updateMemberships ids f) :=
  ⟨h.userRoles, h.memberships.update hf, h.invitations⟩

/-- A membership is given a role. -/
theorem grantMemberships {f : Rewrite WorkspaceMembership.id} (h : NoNewDefect init db)
    (hf : ∀ m, (f.row m).role.scope = .workspace) :
    NoNewDefect init (db.updateMemberships ids f) :=
  ⟨h.userRoles, h.memberships.grant hf, h.invitations⟩

theorem insertInvitation {i : WorkspaceInvitation} (h : NoNewDefect init db)
    (hi : i.role.scope = .workspace) : NoNewDefect init (db.insertInvitation i) :=
  ⟨h.userRoles, h.memberships, h.invitations.insert hi⟩

theorem updateInvitations {f : Rewrite WorkspaceInvitation.id} (h : NoNewDefect init db)
    (hf : ∀ i, (f.row i).role = i.role) : NoNewDefect init (db.updateInvitations ids f) :=
  ⟨h.userRoles, h.memberships, h.invitations.update hf⟩

theorem insertUserRole {r : UserRole} (h : NoNewDefect init db)
    (hr : r.role.scope = .platform) : NoNewDefect init (db.insertUserRole r) :=
  ⟨h.userRoles.insert hr, h.memberships, h.invitations⟩

theorem deleteUserRole {r : UserRole} (h : NoNewDefect init db) :
    NoNewDefect init (db.deleteUserRole r) :=
  ⟨h.userRoles.delete, h.memberships, h.invitations⟩

/-- Writes to the other tables do not matter. -/
theorem of_tables {db' : Database} (h : NoNewDefect init db)
    (hroles : db'.userRoles = db.userRoles)
    (hmemberships : db'.workspaceMemberships = db.workspaceMemberships)
    (hinvitations : db'.workspaceInvitations = db.workspaceInvitations) :
    NoNewDefect init db' :=
  ⟨hroles ▸ h.userRoles, hmemberships ▸ h.memberships, hinvitations ▸ h.invitations⟩

end NoNewDefect

/-! ### The requests that hand out a role -/

section Grants

variable {init : Database} {env : Env} {workspaceId actorId userId : Uuid} {ability : Ability}
  {α : Type} {Q : α → Prop}

theorem keeps_loadAssignableRole {role : Option SeededRoleName} :
    Keeps (NoNewDefect init) (loadAssignableRole role) fun r => r.scope = .workspace :=
  keeps_orThrow.bind fun r _ => keeps_ensure.bind fun _ hscope => hscope

theorem keeps_assertUserMayHoldActiveMembership :
    Keeps (NoNewDefect init) (assertUserMayHoldActiveMembership userId) fun _ => True :=
  Keeps.bind (Q := fun _ => True) trivial fun _ _ =>
    keeps_select.bind fun _ _ => keeps_ensure.mono fun _ _ => trivial

theorem keeps_createMembership {m : WorkspaceMembership} (hm : m.role.scope = .workspace) :
    Keeps (NoNewDefect init) (createMembership m) fun _ => True :=
  keeps_select.bind fun _ _ => keeps_ensure.bind fun _ _ =>
    (keeps_modify fun _ h => h.insertMembership hm).bind fun _ _ => trivial

/-- A former member joins again in a role of the scope. -/
theorem keeps_rejoin {m : WorkspaceMembership} {f : Rewrite WorkspaceMembership.id}
    (hf : ∀ m, (f.row m).role.scope = .workspace) :
    Keeps (NoNewDefect init) (updateMembership m f) fun _ => True :=
  (keeps_modify fun _ h => h.grantMemberships hf).bind fun _ _ => trivial

theorem keeps_updateManyInvitations {p : WorkspaceInvitation → Bool}
    {f : Rewrite WorkspaceInvitation.id} (hf : ∀ i, (f.row i).role = i.role) :
    Keeps (NoNewDefect init) (updateManyInvitations p f) fun _ => True :=
  keeps_select.bind fun _ _ => keeps_lockRows.bind fun _ _ => keeps_select.bind fun _ _ =>
    (keeps_modify fun _ h => h.updateInvitations hf).bind fun _ _ => trivial

theorem keeps_guardedAbility :
    Keeps (NoNewDefect init) (guardedAbility actorId) fun _ => True := by
  refine Keeps.bind (Q := fun _ => True) (fun _ _ => trivial) fun grants _ => ?_
  unfold compileAbility
  split <;> trivial

/-- A route on a workspace keeps what its service keeps. -/
theorem keeps_route {required : PermissionDefinition} {x : Ability → Handler α}
    (h : ∀ ability, Keeps (NoNewDefect init) (x ability) Q) :
    Keeps (NoNewDefect init) (requirePermission actorId required workspaceId >>= fun ability =>
      discard (x ability)) fun _ => True := by
  have hguard : Keeps (NoNewDefect init) (requirePermission actorId required workspaceId)
      fun _ => True :=
    keeps_guardedAbility.bind fun _ _ => keeps_ensure.bind fun _ _ => trivial
  exact hguard.bind fun ability _ => (h ability).bind fun _ _ => trivial

theorem keeps_add {dto : AddWorkspaceMembershipDto} :
    Keeps (NoNewDefect init) (WorkspaceMemberships.add workspaceId actorId dto ability)
      fun _ => True := by
  refine keeps_select.bind fun found _ => keeps_orThrow.bind fun target _ =>
    keeps_loadAssignableRole.bind fun role hrole => quiet_assertMayAssign.keeps.bind fun _ _ =>
      keeps_ensure.bind fun _ _ => Keeps.bind (Q := fun _ => True) (fun _ => trivial)
        fun now _ => Keeps.transaction ?_
  refine keeps_assertUserMayHoldActiveMembership.bind fun _ _ =>
    Keeps.bind (Q := fun _ => True) trivial fun _ _ => keeps_select.bind fun existing _ => ?_
  cases existing with
  | none => exact fun _ => keeps_createMembership hrole
  | some existing => exact keeps_ensure.bind fun _ _ => keeps_rejoin fun _ => hrole

theorem keeps_findById {membershipId : Uuid} :
    Keeps (NoNewDefect init) (WorkspaceMemberships.findById workspaceId membershipId ability)
      fun _ => True := by
  unfold WorkspaceMemberships.findById orRefuse
  refine Keeps.bind (Q := fun _ => True) ?_ fun _ _ => keeps_select.bind fun _ _ =>
    keeps_orThrow.mono fun _ _ => trivial
  split <;> trivial

theorem keeps_assertRankPermits {ceiling : AssignmentCeiling} {rank : ℕ} :
    Keeps (NoNewDefect init) (assertRankPermits ceiling rank) fun _ => True :=
  keeps_ensure.mono fun _ _ => trivial

theorem keeps_onlyIf {p : Prop} [Decidable p] {x : Handler Unit}
    (h : Keeps (NoNewDefect init) x fun _ => True) :
    Keeps (NoNewDefect init) (onlyIf p x) fun _ => True := by
  unfold onlyIf
  split
  · exact h
  · trivial

theorem keeps_changeRole {membershipId : Uuid} {role : Option SeededRoleName} :
    Keeps (NoNewDefect init)
      (WorkspaceMemberships.changeRole workspaceId membershipId actorId role ability)
      fun _ => True := by
  refine keeps_findById.bind fun visible _ => keeps_ensure.bind fun _ _ =>
    keeps_loadAssignableRole.bind fun targetRole hrole => quiet_assertMayAssign.keeps.bind
      fun ceiling _ => Keeps.transaction ?_
  refine keeps_assertUserMayHoldActiveMembership.bind fun _ _ =>
    Keeps.bind (Q := fun _ => True) trivial fun _ _ => ?_
  have hfind : Keeps (NoNewDefect init) (findInWorkspace workspaceId visible.id) fun _ => True :=
    keeps_select.bind fun _ _ => keeps_orThrow.mono fun _ _ => trivial
  refine hfind.bind fun existing _ => keeps_assertRankPermits.bind fun _ _ =>
    (keeps_onlyIf ?_).bind fun _ _ => (keeps_rejoin fun _ => hrole).bind fun _ _ => trivial
  exact keeps_select.bind fun _ _ => keeps_ensure.mono fun _ _ => trivial

theorem keeps_createInvitation {dto : CreateWorkspaceInvitationDto} :
    Keeps (NoNewDefect init)
      (WorkspaceInvitations.create env workspaceId actorId dto ability) fun _ => True := by
  refine keeps_loadAssignableRole.bind fun role hrole => quiet_assertMayAssign.keeps.bind
    fun _ _ => keeps_select.bind fun _ _ => keeps_orThrow.bind fun _ _ => keeps_select.bind
      fun _ _ => Keeps.bind (Q := fun _ => True) (fun _ => trivial) fun token _ =>
        Keeps.bind (Q := fun _ => True) (fun _ => trivial) fun now _ => Keeps.transaction ?_
  refine Keeps.bind (Q := fun _ => True) trivial fun _ _ =>
    Keeps.bind (Q := fun _ => True) (fun _ => trivial) fun _ _ =>
      (keeps_updateManyInvitations fun _ => rfl).bind fun _ _ => keeps_select.bind fun _ _ =>
        keeps_ensure.bind fun _ _ => Keeps.bind (Q := fun _ => True) (fun _ => trivial)
          fun id _ => ?_
  exact keeps_select.bind fun _ _ => keeps_ensure.bind fun _ _ =>
    (keeps_modify fun _ h => h.insertInvitation hrole).bind fun _ _ => trivial

/-- Who accepts gets the invited role only if it is one of a workspace. -/
theorem keeps_assertInviterMayStillAssign {invitation : WorkspaceInvitation} :
    Keeps (NoNewDefect init) (WorkspaceInvitations.assertInviterMayStillAssign invitation)
      fun _ => invitation.role.scope = .workspace := by
  refine keeps_orThrow.bind fun inviterId _ => Keeps.bind (Q := fun _ => True)
    (fun _ _ => trivial) fun _ _ => keeps_orThrow.bind fun inviter _ => ?_
  have hability : Keeps (NoNewDefect init) (createAbilityForUser inviter.id) fun _ => True := by
    refine keeps_select.bind fun grants _ => ?_
    unfold compileAbility
    split <;> trivial
  refine hability.bind fun ability _ => ?_
  have hchecked : Keeps (NoNewDefect init)
      (loadAssignableRole (some invitation.role) : Handler SeededRoleName)
      fun _ => invitation.role.scope = .workspace :=
    keeps_orThrow.bind fun r hr => keeps_ensure.bind fun _ hscope =>
      (Option.some_inj.mp hr).symm ▸ hscope
  refine Keeps.handle (Q := fun _ => invitation.role.scope = .workspace) ?_ (fun _ h => h)
    fun _ => trivial
  exact hchecked.bind fun _ hscope => quiet_assertMayAssign.keeps.bind fun _ _ => hscope

theorem keeps_accept {actorEmail token : String} :
    Keeps (NoNewDefect init) (WorkspaceInvitations.accept env token actorId actorEmail)
      fun _ => True := by
  refine Keeps.bind (Q := fun _ => True) (fun _ _ => trivial) fun found _ => keeps_orThrow.bind
    fun read _ => ?_
  refine keeps_ensure.bind fun _ _ => keeps_ensure.bind fun _ _ =>
    quiet_assertIsInvitee.keeps.bind fun _ _ => Keeps.bind (Q := fun _ => True) (fun _ => trivial)
      fun _ _ => keeps_ensure.bind fun _ _ => Keeps.bind (Q := fun _ => True) (fun _ => trivial)
        fun now _ => Keeps.handle (Q := fun _ => True) (Keeps.transaction ?_) (fun _ _ => trivial)
          fun _ => trivial
  refine keeps_assertUserMayHoldActiveMembership.bind fun _ _ =>
    Keeps.bind (Q := fun _ => True) trivial fun _ _ =>
      keeps_assertInviterMayStillAssign.bind fun _ hscope =>
        (keeps_updateManyInvitations fun _ => rfl).bind fun _ _ => keeps_ensure.bind fun _ _ =>
          keeps_select.bind fun previous _ => ?_
  cases previous with
  | none => exact fun _ => keeps_createMembership hscope
  | some previous => exact keeps_ensure.bind fun _ _ => keeps_rejoin fun _ => hscope

theorem keeps_assignPlatformRole {role : Option SeededRoleName} :
    Keeps (NoNewDefect init)
      (requireAdministrative actorId .assignRole .user >>= fun ability =>
        UserRolesService.assign userId role ability actorId) fun _ => True := by
  have hguard : Keeps (NoNewDefect init) (requireAdministrative actorId .assignRole .user)
      fun _ => True :=
    keeps_guardedAbility.bind fun _ _ => keeps_ensure.bind fun _ _ => trivial
  have hrole : Keeps (NoNewDefect init) (UserRolesService.loadPlatformRole role)
      fun r => r.scope = .platform :=
    keeps_orThrow.bind fun r _ => keeps_ensure.bind fun _ hscope => hscope
  refine hguard.bind fun ability _ => keeps_select.bind fun _ _ => keeps_orThrow.bind fun _ _ =>
    hrole.bind fun r hscope => quiet_assertMayAssignRank.keeps.bind fun _ _ => Keeps.transaction ?_
  exact keeps_modify fun _ h => h.insertUserRole hscope

end Grants

/-! ### Every request -/

section Requests

variable {a : Agent Request} {L : RowLock → Prop} {w : SystemWorld} {ev : Event}
  {init db' : Database} {env : Env}

/-- The request may hand out a role that it names, or that an invitation holds. -/
def Request.handsOut : Request → Bool
  | .addMembership .. | .changeRole .. | .createInvitation .. | .acceptInvitation ..
  | .assignPlatformRole .. => true
  | _ => false

/-- A roster operation of another request gives no role but those of owner and administrator. -/
theorem RosterWrite.noNewDefect {workspaceId actorId : Uuid} {n : ℕ} {op : RosterOperation}
    {target : Option WorkspaceMembership} {granted : Option SeededRoleName}
    (h : RosterWrite a L w workspaceId actorId n op target granted db')
    (hreq : a.req.roster = some (op, actorId, workspaceId)) (hkind : a.req.handsOut = false)
    (hnow : NoNewDefect init w.db) : NoNewDefect init db' := by
  have hother : op ≠ .add ∧ op ≠ .changeRole ∧ op ≠ .createInvitation := by
    revert hreq hkind
    rcases a.req with _ | _ | _ | _ | _ | ⟨_ | _ | _⟩ <;>
      simp +contextual [Request.roster, Request.handsOut, eq_comm]
  cases h with
  | add => exact absurd rfl hother.1
  | changeRole => exact absurd rfl hother.2.1
  | createInvitation => exact absurd rfl hother.2.2
  | reactivate => exact hnow.updateMemberships fun _ => rfl
  | leave => exact (hnow.updateInvitations fun _ => rfl).updateMemberships fun _ => rfl
  | transferOwnership =>
    exact (hnow.grantMemberships fun _ => rfl).grantMemberships fun _ => rfl

/-- Whatever commits for a request that hands out no role, no defect is new. -/
theorem Commit.noNewDefect (h : Commit a L w ev db') (hkind : a.req.handsOut = false)
    (hnow : NoNewDefect init w.db) : NoNewDefect init db' := by
  cases h with
  | rosterChanged _ _ _ _ _ _ _ _ hreq _ _ _ hwrite => exact hwrite.noNewDefect hreq hkind hnow
  | workspaceCreated ws m _ _ _ _ _ _ _ _ _ _ howner =>
    refine NoNewDefect.insertMembership (hnow.of_tables rfl rfl rfl) ?_
    rw [howner.1]
    rfl
  | membershipUpdated => exact hnow.updateMemberships fun _ => rfl
  | invitationResent | invitationRevoked => exact hnow.updateInvitations fun _ => rfl
  | invitationAccepted _ _ _ _ _ _ _ _ hreq => simp [hreq, Request.handsOut] at hkind
  | platformRoleAssigned _ _ _ hreq => simp [hreq, Request.handsOut] at hkind
  | platformRoleRevoked => exact hnow.deleteUserRole
  | _ => exact hnow.of_tables rfl rfl rfl

/-- What every process commits, with nothing that a later check would report anew. -/
def scopedProtocol (init : Database) : Protocol Database RowLock Event Uuid Request where
  guar := guarantee.both (keeping RowLock Event Uuid Request (NoNewDefect init))
  Inv w := Inv w ∧ NoNewDefect init w.db
  inv_move := by
    intro w w' hinv hmove
    refine ⟨hinv.1.move (hmove.weaken Guarantee.both_within_left), ?_⟩
    cases hmove with
    | tick n => exact hinv.2
    | issue x p hx => simpa using hinv.2
    | act b L ev db h => exact h.2 hinv.2

theorem body_scoped (Allowed : Request → Prop) :
    (scopedProtocol init).Admits (body env) Allowed := by
  intro a w hallowed hinv
  have hadmitted : wp guarantee a (body env a.req) (fun _ _ _ => True) Ctx.start w :=
    body_admitted Allowed a w hallowed hinv.1
  cases hkind : a.req.handsOut with
  | false =>
    exact wp_strengthen Guarantee.both_within_left
      (fun L w' ev db h => ⟨h, fun hnow => h.noNewDefect hkind hnow⟩) hadmitted
  | true =>
    have hkeeps : Keeps (NoNewDefect init) (body env a.req) fun _ => True := by
      cases hreq : a.req with
      | addMembership actorId workspaceId dto => exact keeps_route fun _ => keeps_add
      | changeRole actorId workspaceId membershipId role =>
        exact keeps_route fun _ => keeps_changeRole
      | createInvitation actorId workspaceId dto =>
        exact keeps_route fun _ => keeps_createInvitation
      | acceptInvitation actorId actorEmail token =>
        exact keeps_accept.bind fun _ _ => trivial
      | assignPlatformRole actorId userId role => exact keeps_assignPlatformRole
      | _ => simp [hreq, Request.handsOut] at hkind
    exact wp_mono (fun _ _ _ _ => trivial)
      (wp_both hadmitted (hkeeps.wp (fun _ h => h) hinv.2))

end Requests

/-! ### Every run -/

section Runs

variable {env : Env} {Allowed : Request → Prop} {init : Database} {σ : SystemConfig}

theorem RunsTo.noNewDefect (hrun : RunsTo env Allowed init σ)
    {l : List (Entry Database Event Request)} (hl : l <:+ σ.world.log) :
    NoNewDefect init (stateOf init l) := by
  obtain ⟨now, hreach⟩ := hrun
  have hstart : (scopedProtocol init).Inv ⟨init, [], now, init.drawn⟩ :=
    ⟨.start fun _ => drawn_of_mentions, .refl⟩
  obtain ⟨hmoves, -, -⟩ := (scopedProtocol init).refines (body_scoped Allowed) hstart hreach
  cases l with
  | nil => exact .refl
  | cons e l =>
    obtain ⟨v, L, -, hinit, hv, hcommit, -⟩ := (scopedProtocol init).entry hstart hmoves hl
    exact hcommit.2 hv.2

end Runs

/-! ### What the check sees -/

section Check

variable {init db : Database} {roleId : SeededRoleName → ℕ}

/-- The rows of `roles`, under some ids. -/
def roleTable (roleId : SeededRoleName → ℕ) : List RoleRow :=
  roleCatalog.map fun role =>
    ⟨roleId role, role.value, role.scope.value, role.rank, some (roleDescription role)⟩

/-- The assignments of a database, as the check reads them. -/
def Database.assignments (roleId : SeededRoleName → ℕ) (db : Database) : AssignmentTables where
  roles := roleTable roleId
  userRoles := db.userRoles.rows.map fun r => roleId r.role
  workspaceMemberships := db.workspaceMemberships.rows.map fun m =>
    ⟨roleId m.role, m.status.value⟩
  workspaceInvitations := db.workspaceInvitations.rows.map fun i =>
    ⟨roleId i.role, i.status.value⟩

theorem hasScope_iff (hids : Function.Injective roleId) {role : SeededRoleName}
    {scope : RoleScope} :
    (db.assignments roleId).HasScope (roleId role) scope ↔ role.scope = scope := by
  simp only [AssignmentTables.HasScope, Database.assignments, roleTable, List.mem_map]
  constructor
  · rintro ⟨row, ⟨other, -, rfl⟩, hid, hscope⟩
    obtain rfl := hids hid
    exact scopeValue_injective hscope
  · rintro rfl
    exact ⟨_, ⟨role, mem_roleCatalog role, rfl⟩, rfl, rfl⟩

/-- The check looks for roles outside their scope: a status of the model is one of the list. -/
theorem assignments_coherent_iff (hids : Function.Injective roleId) :
    (db.assignments roleId).Coherent ↔ (∀ r ∈ db.userRoles, r.role.scope = .platform) ∧
      (∀ m ∈ db.workspaceMemberships, m.role.scope = .workspace) ∧
        ∀ i ∈ db.workspaceInvitations, i.role.scope = .workspace := by
  have hother : ∀ role : SeededRoleName,
      (role.scope ≠ .workspace ↔ role.scope = .platform) ∧
        (role.scope ≠ .platform ↔ role.scope = .workspace) := by
    intro role
    cases role <;> decide
  constructor
  · intro h
    refine ⟨fun r hr => ?_, fun m hm => ?_, fun i hi => ?_⟩
    · exact (hother r.role).1.mp fun hscope =>
        h.userRoles _ (List.mem_map_of_mem hr) ((hasScope_iff hids).mpr hscope)
    · exact (hother m.role).2.mp fun hscope =>
        h.memberships _ (List.mem_map_of_mem hm) ((hasScope_iff hids).mpr hscope)
    · exact (hother i.role).2.mp fun hscope =>
        h.invitations _ (List.mem_map_of_mem hi) ((hasScope_iff hids).mpr hscope)
  · rintro ⟨hroles, hmemberships, hinvitations⟩
    refine ⟨?_, ?_, ?_, ?_, ?_⟩ <;> intro x hx <;> obtain ⟨r, hr, rfl⟩ := List.mem_map.mp hx
    · exact fun hscope => (hother r.role).1.mpr (hroles r hr) ((hasScope_iff hids).mp hscope)
    · exact fun hscope =>
        (hother r.role).2.mpr (hmemberships r hr) ((hasScope_iff hids).mp hscope)
    · exact fun hscope =>
        (hother r.role).2.mpr (hinvitations r hr) ((hasScope_iff hids).mp hscope)
    · cases hstatus : r.status <;> simp [membershipStatuses, hstatus]
    · cases hstatus : r.status <;> simp [invitationStatuses, hstatus]

end Check

theorem assertStoredAssignments_ok_iff {t : AssignmentTables} :
    assertStoredAssignmentsAreCoherent t = .ok () ↔ t.Coherent := by
  rw [← AssignmentTables.findDefects_eq_nil, assertStoredAssignmentsAreCoherent]
  cases t.findDefects <;> simp

/-- Whatever is requested, in whatever order and however interleaved: a role outside its scope
was assigned before the run, to the same row. A database that passed the check passes it in
every later state. -/
theorem no_run_writes_a_defect {env : Env} {Allowed : Request → Prop} {init : Database}
    {σ : SystemConfig} {roleId : SeededRoleName → ℕ} (hids : Function.Injective roleId)
    (hrun : RunsTo env Allowed init σ) {l : List (Entry Database Event Request)}
    (hl : l <:+ σ.world.log) :
    NoNewDefect init (stateOf init l) ∧
      (assertStoredAssignmentsAreCoherent (init.assignments roleId) = .ok () →
        assertStoredAssignmentsAreCoherent ((stateOf init l).assignments roleId) = .ok ()) := by
  have hrows := hrun.noNewDefect hl
  refine ⟨hrows, fun hboot => ?_⟩
  rw [assertStoredAssignments_ok_iff, assignments_coherent_iff hids] at hboot ⊢
  obtain ⟨hroles, hmemberships, hinvitations⟩ := hboot
  refine ⟨fun r hr => ?_, fun m hm => ?_, fun i hi => ?_⟩
  · rcases hrows.userRoles r hr with hscope | ⟨r₀, hr₀, -, hrole⟩
    · exact hscope
    · exact hrole ▸ hroles r₀ hr₀
  · rcases hrows.memberships m hm with hscope | ⟨m₀, hm₀, -, hrole⟩
    · exact hscope
    · exact hrole ▸ hmemberships m₀ hm₀
  · rcases hrows.invitations i hi with hscope | ⟨i₀, hi₀, -, hrole⟩
    · exact hscope
    · exact hrole ▸ hinvitations i₀ hi₀

/-- The position of a role in the catalog. -/
def rolePosition (role : SeededRoleName) : ℕ := roleCatalog.idxOf role

theorem rolePosition_injective : Function.Injective rolePosition := by
  rintro a b
  cases a <;> cases b <;> decide

/-- An owner tries to give a member of staff a platform role, and then gives them one of the
workspace. -/
def promotions : List (Order Request) :=
  [.serve 1 (.changeRole "ann" "acme" "bob-m" (some .platformAdmin)), .proceed 1, .proceed 1,
    .serve 2 (.changeRole "ann" "acme" "bob-m" (some .workspaceManager)), .proceed 2, .proceed 2]

theorem no_run_writes_a_defect_promotions :
    (∃ m ∈ (Sample.perform (Sample.database [("ann", .workspaceOwner), ("bob", .workspaceStaff)]
        []) 5000 promotions).world.db.workspaceMemberships,
      m.id = "bob-m" ∧ m.role = .workspaceManager) ∧
      assertStoredAssignmentsAreCoherent ((Sample.perform (Sample.database
        [("ann", .workspaceOwner), ("bob", .workspaceStaff)] []) 5000
          promotions).world.db.assignments rolePosition) = .ok () := by
  refine ⟨by decide +kernel, ?_⟩
  have hinit : (stateOf (Sample.database [("ann", .workspaceOwner), ("bob", .workspaceStaff)] [])
      (Sample.perform (Sample.database [("ann", .workspaceOwner), ("bob", .workspaceStaff)] [])
        5000 promotions).world.log).assignments rolePosition =
      (Sample.perform (Sample.database [("ann", .workspaceOwner), ("bob", .workspaceStaff)] [])
        5000 promotions).world.db.assignments rolePosition := by
    decide +kernel
  rw [← hinit]
  refine (no_run_writes_a_defect rolePosition_injective (Sample.runsTo_perform _ 5000 promotions)
    (List.suffix_refl _)).2 ?_
  exact assertStoredAssignments_ok_iff.mpr
    ((assignments_coherent_iff rolePosition_injective).mpr (by decide +kernel))

end NestApi
