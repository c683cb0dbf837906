import NestApi.Judgements.Ownership

/-!
# Judging the guard and the assignment policy

What a passed guard and a passed policy say about rows of the database, and when these
were read.
-/

namespace NestApi

open Txn Program Authorization WorkspaceRoleAssignmentPolicy

variable {β : Type} {a : Agent Request} {c : Ctx Database RowLock} {w w' : SystemWorld}
  {Q : Except Failure β → Ctx Database RowLock → SystemWorld → Prop}
  {workspaceId actorId : Uuid} {ability : Ability} {op : RosterOperation}
  {l : List (Entry Database Event Request)} {d : Database}

/-! ### The guard -/

/-- After the history `l` the guard read the caller's grants in `d`, compiled the ability
from them, and let the caller pass. -/
structure Guarded (a : Agent Request) (w : SystemWorld) (l : List (Entry Database Event Request))
    (d : Database) (workspaceId actorId : Uuid) (required : PermissionDefinition)
    (ability : Ability) : Prop where
  entry : (⟨a, .guarded, d⟩ :: l) <:+ w.log
  compiled : createForUser actorId (loadGrantsFromDatabase d actorId) = .ok ability
  permits : d.Permits workspaceId actorId required

theorem Guarded.mono {required : PermissionDefinition} (hw : w.Extends w')
    (h : Guarded a w l d workspaceId actorId required ability) :
    Guarded a w' l d workspaceId actorId required ability :=
  ⟨h.entry.trans hw.log, h.compiled, h.permits⟩

theorem Guarded.length_lt {required : PermissionDefinition}
    (h : Guarded a w l d workspaceId actorId required ability) : l.length + 1 ≤ w.log.length := by
  simpa using h.entry.length_le

/-- A workspace that is live at some point after the guard was seen live. -/
theorem Guarded.seenLive {required : PermissionDefinition} (hw : w.Extends w')
    (h : Guarded a w l d workspaceId actorId required ability)
    (hlive : w.db.LiveWorkspace workspaceId) : SeenLive w' (l.length + 1) workspaceId :=
  ⟨w.db, hw.since (w.since_db h.length_lt), hlive⟩

theorem SeenLive.mono {n : ℕ} (hw : w.Extends w') (h : SeenLive w n workspaceId) :
    SeenLive w' n workspaceId := by
  obtain ⟨s, hs, hlive⟩ := h
  exact ⟨s, hw.since hs, hlive⟩

/-- An ability outside of a request of the user's own. -/
theorem wp_createAbilityForUser {userId : Uuid} {k : Ability → Handler β} (hQ : Lenient Q)
    (hpend : c.pend = id)
    (h : ∀ (w' : SystemWorld) (ability : Ability), Interf guarantee a c.held w w' →
      createForUser userId (loadGrantsFromDatabase w'.db userId) = .ok ability →
        wp guarantee a (k ability) Q c w') :
    wp guarantee a (createAbilityForUser userId >>= k) Q c w := by
  unfold createAbilityForUser compileAbility
  simp only [bind_assoc]
  refine wp_select fun w₁ hw₁ => ?_
  rw [hpend, id_eq]
  cases hability : createForUser userId (loadGrantsFromDatabase w₁.db userId) with
  | error e => exact hQ _ _ _
  | ok ability => exact h w₁ ability hw₁ hability

/-- The guard reports its read before it compiles. -/
theorem wp_guardedAbility {k : Ability → Handler β} (hQ : Lenient Q) (hinv : Inv w)
    (h : ∀ (w' : SystemWorld) (d : Database) (l : List (Entry Database Event Request))
      (ability : Ability), Inv w' → (⟨a, .guarded, d⟩ :: l) <:+ w'.log →
        createForUser actorId (loadGrantsFromDatabase d actorId) = .ok ability →
          wp guarantee a (k ability) Q Ctx.start w') :
    wp guarantee a (guardedAbility actorId >>= k) Q Ctx.start w := by
  unfold guardedAbility
  simp only [bind_assoc]
  refine wp_selectObserved fun w₁ hw₁ => ⟨.guarded, ?_⟩
  unfold compileAbility
  cases hability : createForUser actorId (loadGrantsFromDatabase w₁.db actorId) with
  | error e =>
    simp only [Ctx.start, id_eq, hability]
    exact hQ _ _ _
  | ok ability =>
    simp only [Ctx.start, id_eq, hability]
    exact h _ w₁.db w₁.log ability
      ((hw₁.inv hinv).move (.act a (fun _ => False) _ _ .guarded)) (List.suffix_refl _) hability

theorem wp_requirePermission {required : PermissionDefinition} {k : Ability → Handler β}
    (hQ : Lenient Q) (hinv : Inv w) (hrequired : required ∈ tenantPermissions)
    (h : ∀ (w' : SystemWorld) (l : List (Entry Database Event Request)) (d : Database)
      (ability : Ability), Inv w' → Guarded a w' l d workspaceId actorId required ability →
        wp guarantee a (k ability) Q Ctx.start w') :
    wp guarantee a (requirePermission actorId required workspaceId >>= k) Q Ctx.start w := by
  unfold requirePermission
  simp only [bind_assoc, pure_bind]
  refine wp_guardedAbility hQ hinv fun w₁ d l ability hinv₁ hl hability =>
    wp_ensure (fun hcan => ?_) fun _ => hQ _ _ _
  exact h w₁ l d ability hinv₁ ⟨hl, hability, permits_of_can hability hrequired
    (fun key hkey => buildTenantStub_tenant hrequired hkey) hcan⟩

theorem required_mem_tenantPermissions (op : RosterOperation) :
    op.required ∈ tenantPermissions := by
  cases op <;> decide

/-! ### The policy -/

/-- What a rank rests on: everything is allowed, or the caller is an active member. -/
def RankOf (db : Database) (workspaceId actorId : Uuid) (ability : Ability)
    (rank : AssignmentCeiling) : Prop :=
  ability.canType "manage" "all" = true ∨
    ∃ role, db.Member workspaceId actorId role ∧ rank = some role.rank

theorem wp_resolveActorRank {k : AssignmentCeiling → Handler β}
    (hQ : ∀ c w, Q (.error (.api Errors.roleNotAssignable)) c w) (hpend : c.pend = id)
    (h : ∀ (w' : SystemWorld) (rank : AssignmentCeiling), Interf guarantee a c.held w w' →
      RankOf w'.db workspaceId actorId ability rank → wp guarantee a (k rank) Q c w') :
    wp guarantee a (resolveActorRank workspaceId actorId ability >>= k) Q c w := by
  unfold resolveActorRank
  by_cases hall : ability.canType "manage" "all" = true
  · rw [if_pos hall, pure_bind]
    exact h w none .refl (.inl hall)
  · rw [if_neg hall]
    simp only [bind_assoc, pure_bind]
    refine wp_select fun w₁ hw₁ => wp_orThrow (fun m hm => ?_) fun _ => hQ _ _
    rw [hpend] at hm
    obtain ⟨hfound, hactive⟩ := Option.filter_eq_some_iff.mp hm
    obtain ⟨hmem, hworkspace, huser⟩ := Database.of_membershipOf? hfound
    exact h w₁ _ hw₁ (.inr ⟨m.role, ⟨m, hmem, hworkspace, huser, by simpa using hactive, rfl⟩, rfl⟩)

/-- Both bounds of the policy. -/
theorem wp_assertMayAssign {role : SeededRoleName} {targetUserId : Option Uuid}
    {k : AssignmentCeiling → Handler β}
    (hQ : ∀ c w, Q (.error (.api Errors.roleNotAssignable)) c w) (hpend : c.pend = id)
    (h : ∀ (w' : SystemWorld) (rank : AssignmentCeiling), Interf guarantee a c.held w w' →
      (ability.can assignRoleWorkspaceMembership.action.value
          assignRoleWorkspaceMembership.subject.value
          (membershipStub workspaceId targetUserId) = true ∨
        role ∈ nonPrivilegedWorkspaceRoles) →
      RankOf w'.db workspaceId actorId ability rank → rankPermits rank role.rank = true →
        wp guarantee a (k rank) Q c w') :
    wp guarantee a (assertMayAssign workspaceId actorId role ability targetUserId >>= k) Q
      c w := by
  unfold assertMayAssign assertRankPermits
  simp only [bind_assoc, pure_bind]
  refine wp_ensure (fun hmay => wp_resolveActorRank hQ hpend fun w₁ rank hw₁ hrank =>
    wp_ensure (fun hpermits => ?_) fun _ => hQ _ _) fun _ => hQ _ _
  exact h w₁ rank hw₁ hmay hrank hpermits

theorem wp_loadAssignableRole {role : Option SeededRoleName} {k : SeededRoleName → Handler β}
    (hQ : ∀ e c w, Q (.error (.api e)) c w)
    (h : ∀ r, role = some r → wp guarantee a (k r) Q c w) :
    wp guarantee a (loadAssignableRole role >>= k) Q c w := by
  unfold loadAssignableRole
  simp only [bind_assoc, pure_bind]
  exact wp_orThrow (fun r hr => wp_ensure (fun _ => h r hr) fun _ => hQ _ _ _) fun _ => hQ _ _ _

/-! ### Authority over a roster -/

/-- A rank the caller had between the guard, which read `d` after the history `l`, and now. -/
structure Ceiling (a : Agent Request) (w : SystemWorld)
    (l : List (Entry Database Event Request)) (d : Database) (op : RosterOperation)
    (workspaceId actorId : Uuid) (rank : AssignmentCeiling) : Prop where
  entry : (⟨a, .guarded, d⟩ :: l) <:+ w.log
  permits : d.Permits workspaceId actorId op.required
  rank : d.ManageAll actorId ∨ ∃ s, w.Since (l.length + 1) s ∧
    ∃ role, s.Member workspaceId actorId role ∧ rank = some role.rank

theorem Guarded.ceiling (op : RosterOperation) {rank : AssignmentCeiling}
    (h : Guarded a w l d workspaceId actorId op.required ability)
    (hrank : RankOf w.db workspaceId actorId ability rank) :
    Ceiling a w l d op workspaceId actorId rank := by
  refine ⟨h.entry, h.permits, ?_⟩
  rcases hrank with hall | ⟨role, hmember, rfl⟩
  · exact .inl (manageAll_of_canType h.compiled hall)
  · exact .inr ⟨w.db, w.since_db h.length_lt, role, hmember, rfl⟩

theorem Ceiling.mono {rank : AssignmentCeiling} (hw : w.Extends w')
    (h : Ceiling a w l d op workspaceId actorId rank) :
    Ceiling a w' l d op workspaceId actorId rank := by
  refine ⟨h.entry.trans hw.log, h.permits, h.rank.imp_right ?_⟩
  rintro ⟨s, hs, hmember⟩
  exact ⟨s, hw.since hs, hmember⟩

/-- A permitted rank is authority. -/
theorem Ceiling.authorized {rank : AssignmentCeiling} {target : Option WorkspaceMembership}
    {granted : Option SeededRoleName} (h : Ceiling a w l d op workspaceId actorId rank)
    (htarget : ∀ m ∈ target, rankPermits rank m.role.rank = true)
    (hgranted : ∀ r ∈ granted, rankPermits rank r.rank = true)
    (hlive : op ≠ .add → SeenLive w (l.length + 1) workspaceId) :
    Authorized w op workspaceId actorId target granted (l.length + 1) d := by
  refine ⟨h.permits, h.rank.imp_right ?_, hlive⟩
  rintro ⟨s, hs, role, hmember, rfl⟩
  exact ⟨s, hs, role, hmember, fun m hm => by simpa [rankPermits] using htarget m hm,
    fun r hr => by simpa [rankPermits] using hgranted r hr⟩

theorem rank_le_owner (role : SeededRoleName) :
    role.rank ≤ SeededRoleName.workspaceOwner.rank := by
  cases role <;> decide

theorem owner_of_transfer {role : SeededRoleName}
    (h : transferWorkspaceOwnership ∈ role.permissions) : role = .workspaceOwner := by
  cases role <;> first | rfl | exact absurd h (by decide)

/-- Only an owner may hand over, and nobody outranks an owner. -/
theorem Guarded.authorized_transfer {target : Option WorkspaceMembership}
    {granted : Option SeededRoleName}
    (h : Guarded a w l d workspaceId actorId transferWorkspaceOwnership ability)
    (hlive : SeenLive w (l.length + 1) workspaceId) :
    Authorized w .transferOwnership workspaceId actorId target granted (l.length + 1) d := by
  refine ⟨h.permits, h.permits.imp_right ?_, fun _ => hlive⟩
  rintro ⟨-, role, hmember, hlisted⟩
  obtain rfl := owner_of_transfer hlisted
  exact ⟨d, ⟨_, h.entry, by simp, rfl⟩, .workspaceOwner, hmember,
    fun m _ => rank_le_owner m.role, fun r _ => rank_le_owner r⟩

end NestApi
