import NestApi.Judgements.Invitations
import NestApi.Judgements.Accounts

/-!
# The system stays within the guarantee

Workspaces and platform roles, and then every request: whatever it does and whenever its
statements run, its process commits what the guarantee allows and nothing else.
-/

namespace NestApi

open Txn Program Authorization

variable {β : Type} {a : Agent Request} {w : SystemWorld} {workspaceId actorId userId : Uuid}
  {ability : Ability} {env : Env}

/-! ### Workspaces -/

/-- The founder is usable and locked, and nobody else knows the new workspace. -/
theorem createWorkspace_judged {dto : CreateWorkspaceDto} (hinv : Inv w)
    (hreq : a.req = .createWorkspace actorId dto) :
    wp guarantee a (Workspaces.create actorId dto) (fun _ _ _ => True) Ctx.start w := by
  unfold Workspaces.create
  refine wp_select fun w₁ hw₁ => wp_ensure (fun _ => wp_transaction ?_) fun _ => trivial
  unfold Workspaces.createTransaction
  have hinv₁ := hw₁.inv hinv
  refine wp_assertUserMayHoldActiveMembership lenient_true.atEnd rfl fun w₂ hw₂ husable => ?_
  have hinv₂ := hw₂.inv hinv₁
  refine wp_drawId hinv₂ fun w₃ id hw₃ hid => wp_lockWorkspaceRow fun w₄ hw₄ => wp_modify
    fun w₅ hw₅ => wp_now fun w₆ hw₆ => ?_
  have hinv₆ := hw₆.inv (hw₅.inv (hw₄.inv (hw₃.inv hinv₂)))
  refine wp_drawId hinv₆ fun w₇ membershipId hw₇ hmembershipId =>
    wp_createMembership lenient_true.atEnd fun w₈ w₉ hw₈ hw₉ _ => wp_pure
      fun w₁₀ hw₁₀ => ⟨?_, trivial⟩
  have hw₇₁₀ := (hw₈.trans hw₉).trans hw₁₀
  have hw₄₁₀ := ((hw₅.trans hw₆).trans hw₇).trans hw₇₁₀
  have hw₃₁₀ := hw₄.trans (hw₄₁₀.mono fun l hl => .inr hl)
  exact .workspaceCreated _ _ actorId dto hreq (.inl rfl)
    ⟨.inr (.inl rfl), ((hw₃.trans hw₃₁₀).usable hinv₂ (.inl rfl)).mpr husable⟩
    (hid.stable hw₃₁₀) (hmembershipId.stable hw₇₁₀) rfl rfl rfl ⟨rfl, rfl⟩ rfl

theorem removeWorkspace_judged (hinv : Inv w)
    (hreq : a.req = .removeWorkspace actorId workspaceId) :
    wp guarantee a
      (guardedAbility actorId >>= fun ability => Workspaces.remove workspaceId actorId ability)
      (fun _ _ _ => True) Ctx.start w := by
  refine wp_guardedAbility lenient_true hinv fun w₁ d l ability hinv₁ _ _ => ?_
  unfold Workspaces.remove assertCan
  have hquiet : Quiet (Workspaces.findById workspaceId ability) := by
    unfold Workspaces.findById WorkspaceMemberships.orRefuse
    refine Quiet.bind ?_ fun filter => quiet_select.bind fun _ => quiet_orThrow
    split <;> trivial
  refine wp_quiet hquiet (fun existing w₂ hw₂ => wp_ensure (fun _ => wp_now fun w₃ hw₃ =>
    wp_transaction (wp_lockWorkspaceRow fun w₄ hw₄ => ?_)) fun _ => trivial) fun _ _ => trivial
  rw [← bind_pure (Program.modify _)]
  exact wp_modify fun w₅ hw₅ => wp_pure fun w₆ hw₆ =>
    ⟨.workspaceRemoved workspaceId actorId _ hreq (.inl rfl), trivial⟩

/-! ### Platform roles -/

theorem wp_requireAdministrative {action : AuthorizationAction} {subject : AuthorizationSubject}
    {k : Ability → Handler Unit} (hinv : Inv w)
    (h : ∀ (w' : SystemWorld) (ability : Ability), Inv w' →
      wp guarantee a (k ability) (fun _ _ _ => True) Ctx.start w') :
    wp guarantee a (requireAdministrative actorId action subject >>= k) (fun _ _ _ => True)
      Ctx.start w := by
  unfold requireAdministrative
  simp only [bind_assoc, pure_bind]
  exact wp_guardedAbility lenient_true hinv fun w₁ _ _ ability hinv₁ _ _ =>
    wp_ensure (fun _ => h w₁ ability hinv₁) fun _ => trivial

theorem wp_loadPlatformRole {role : Option SeededRoleName} {k : SeededRoleName → Handler Unit}
    (h : ∀ r, role = some r → wp guarantee a (k r) (fun _ _ _ => True) Ctx.start w) :
    wp guarantee a (UserRolesService.loadPlatformRole role >>= k) (fun _ _ _ => True)
      Ctx.start w := by
  unfold UserRolesService.loadPlatformRole
  simp only [bind_assoc, pure_bind]
  exact wp_orThrow (fun r hr => wp_ensure (fun _ => h r hr) fun _ => trivial) fun _ => trivial

theorem quiet_assertMayAssignRank {targetRank : ℕ} :
    Quiet (UserRolesService.assertMayAssignRank actorId targetRank ability) :=
  quiet_onlyIf (quiet_select.bind fun _ => quiet_ensure)

theorem assignPlatformRole_judged {role : Option SeededRoleName}
    (hreq : a.req = .assignPlatformRole actorId userId role) :
    wp guarantee a (UserRolesService.assign userId role ability actorId) (fun _ _ _ => True)
      Ctx.start w := by
  unfold UserRolesService.assign
  refine wp_select fun w₁ hw₁ => wp_orThrow (fun _ _ => wp_loadPlatformRole fun r hr => wp_quiet
    quiet_assertMayAssignRank (fun _ w₂ hw₂ => wp_transaction ?_) fun _ _ => trivial)
      fun _ => trivial
  subst hr
  rw [← bind_pure (Program.modify _)]
  exact wp_modify fun w₃ hw₃ => wp_pure fun w₄ hw₄ =>
    ⟨.platformRoleAssigned actorId userId r hreq, trivial⟩

theorem revokePlatformRole_judged {role : Option SeededRoleName}
    (hreq : a.req = .revokePlatformRole actorId userId role) :
    wp guarantee a (UserRolesService.revoke userId role ability actorId) (fun _ _ _ => True)
      Ctx.start w := by
  unfold UserRolesService.revoke
  refine wp_loadPlatformRole fun r hr => wp_quiet quiet_assertMayAssignRank
    (fun _ w₁ hw₁ => wp_select fun w₂ hw₂ => wp_orThrow (fun _ _ => wp_transaction ?_)
      fun _ => trivial) fun _ _ => trivial
  subst hr
  rw [← bind_pure (Program.modify _)]
  exact wp_modify fun w₃ hw₃ => wp_pure fun w₄ hw₄ =>
    ⟨.platformRoleRevoked actorId userId r hreq, trivial⟩

/-! ### Every request -/

/-- A route on a workspace: the guard, then the service. -/
theorem wp_route {α : Type} {required : PermissionDefinition} {x : Ability → Handler α}
    (hinv : Inv w) (hrequired : required ∈ tenantPermissions)
    (h : ∀ (w' : SystemWorld) (l : List (Entry Database Event Request)) (d : Database)
      (ability : Ability), Inv w' → Guarded a w' l d workspaceId actorId required ability →
        wp guarantee a (x ability) (fun _ _ _ => True) Ctx.start w') :
    wp guarantee a (requirePermission actorId required workspaceId >>= fun ability =>
      discard (x ability)) (fun _ _ _ => True) Ctx.start w :=
  wp_requirePermission lenient_true hinv hrequired fun w' l d ability hinv' hguard =>
    wp_discard (h w' l d ability hinv' hguard)

/-- Every handler stays within the guarantee, from every history that satisfies the
invariant. -/
theorem body_admitted (Allowed : Request → Prop) : protocol.Admits (body env) Allowed := by
  rintro ⟨pid, req⟩ w - hinv
  change wp guarantee ⟨pid, req⟩ (body env req) _ _ _
  have hinv : Inv w := hinv
  cases req with
  | createWorkspace actorId dto => exact wp_discard (createWorkspace_judged hinv rfl)
  | removeWorkspace actorId workspaceId => exact removeWorkspace_judged hinv rfl
  | addMembership actorId workspaceId dto =>
    exact wp_route hinv (by decide) fun _ _ _ _ hinv' hguard => add_judged hinv' rfl hguard
  | updateMembership actorId workspaceId membershipId dto =>
    exact wp_route hinv (by decide) fun _ _ _ _ _ _ => updateMembership_judged
  | changeRole actorId workspaceId membershipId role =>
    exact wp_route hinv (by decide) fun _ _ _ _ hinv' hguard => changeRole_judged hinv' rfl hguard
  | transition kind actorId workspaceId membershipId =>
    cases kind with
    | suspend =>
      exact wp_route hinv (by decide) fun _ _ _ _ hinv' hguard =>
        transition_judged .suspend hinv' (by simp) rfl hguard
    | reactivate =>
      exact wp_route hinv (by decide) fun _ _ _ _ hinv' hguard =>
        transition_judged .reactivate hinv' (by simp) rfl hguard
    | remove =>
      exact wp_route hinv (by decide) fun _ _ _ _ hinv' hguard =>
        removeMembership_judged hinv' rfl hguard
  | transferOwnership actorId workspaceId membershipId =>
    exact wp_route hinv (by decide) fun _ _ _ _ hinv' hguard =>
      transferOwnership_judged hinv' rfl hguard
  | createInvitation actorId workspaceId dto =>
    exact wp_route hinv (by decide) fun _ _ _ _ hinv' hguard =>
      createInvitation_judged hinv' rfl hguard
  | resendInvitation actorId workspaceId invitationId hasBudget =>
    exact wp_requirePermission lenient_true hinv (by decide) fun _ _ _ _ hinv' _ =>
      resendInvitation_judged hinv'
  | revokeInvitation actorId workspaceId invitationId =>
    exact wp_requirePermission lenient_true hinv (by decide) fun _ _ _ _ hinv' _ =>
      revokeInvitation_judged hinv'
  | acceptInvitation actorId actorEmail token => exact wp_discard (accept_judged hinv rfl)
  | updateUser actorId userId dto => exact wp_discard (update_judged hinv rfl)
  | deleteUser actorId userId => exact remove_judged hinv
  | gdprErase userId currentPassword => exact gdprErase_judged hinv
  | login identifier password => exact login_judged hinv
  | refresh presentedToken => exact rotate_judged hinv
  | logout presentedToken => exact logout_judged hinv
  | logoutAll userId => exact logoutAll_judged hinv
  | revokeAllSessions actorId userId => exact revokeAllSessions_judged hinv
  | updateOwnPassword userId currentPassword newPassword =>
    exact updateOwnPassword_judged hinv fun _ _ => by simp
  | updatePasswordAsAdmin actorId userId newPassword => exact updatePasswordAsAdmin_judged hinv
  | deliverPasswordReset userId => exact deliverPasswordReset_judged hinv
  | resetPassword email token newPassword => exact resetPassword_judged hinv
  | updateEmail userId currentPassword newEmail =>
    exact updateEmail_judged hinv fun _ _ => by simp
  | purgeExpired => exact purgeExpired_judged
  | assignPlatformRole actorId userId role =>
    exact wp_requireAdministrative hinv fun _ _ _ => assignPlatformRole_judged rfl
  | revokePlatformRole actorId userId role =>
    exact wp_requireAdministrative hinv fun _ _ _ => revokePlatformRole_judged rfl

end NestApi
