import NestApi.Judgements.Authority

/-!
# Judging the roster operations

Each operation reads the caller's authority first and the row it writes under the lock of
the workspace. What was read under the lock is still so at the commit.
-/

namespace NestApi

open Txn Program Authorization WorkspaceMemberships WorkspaceRoleAssignmentPolicy
  WorkspaceOwnershipPolicy

variable {β : Type} {a : Agent Request} {c : Ctx Database RowLock} {w w' : SystemWorld}
  {Q : Except Failure β → Ctx Database RowLock → SystemWorld → Prop}
  {workspaceId actorId userId : Uuid} {ability : Ability} {held : RowLock → Prop}
  {db d : Database} {l : List (Entry Database Event Request)}

/-! ### Finding memberships -/

theorem selects_membershipWhere {membershipId : Uuid} {row : RosterRow} :
    (membershipWhere workspaceId membershipId).selects row ↔
      row.2.id = membershipId ∧ row.2.workspaceId = workspaceId ∧
        (row.1.scopedUser? row.2.userId).isSome = true ∧
          row.1.isLiveWorkspace row.2.workspaceId = true := by
  simp [membershipWhere, Where.selects, Where.eval, Where.evalOr, Where.evalAnd, Where.evalNot]

/-- The membership that is found is the one asked for, in a live workspace. -/
theorem wp_findMembership {membershipId : Uuid} {k : WorkspaceMembership → Handler β}
    (hQ : Lenient Q) (hpend : c.pend = id)
    (h : ∀ (w' : SystemWorld) (m : WorkspaceMembership), Interf guarantee a c.held w w' →
      m ∈ w'.db.workspaceMemberships → m.id = membershipId →
        w'.db.LiveWorkspace workspaceId → wp guarantee a (k m) Q c w') :
    wp guarantee a
      (WorkspaceMemberships.findById workspaceId membershipId ability >>= k) Q c w := by
  unfold WorkspaceMemberships.findById
  simp only [bind_assoc]
  cases hfilter : buildWhereOrEmpty (accessibleByRules fun row => membershipRecord row.2) ability
      .read .workspaceMembership (membershipWhere workspaceId membershipId) with
  | error e => exact hQ _ _ _
  | ok filter =>
    refine wp_select fun w₁ hw₁ => wp_orThrow (fun m hm => ?_) fun _ => hQ _ _ _
    rw [hpend] at hm
    have hrow : filter.selects (w₁.db, m) := by simpa using List.find?_some hm
    have hselects := selects_of_buildWhereOrEmpty accessibleByRules_lawful
      (by simp [Where.HasNoEmptyOr, membershipWhere]) hfilter hrow
    obtain ⟨hid, rfl, -, hlive⟩ := selects_membershipWhere.mp hselects
    exact h w₁ m hw₁ (List.mem_of_find?_eq_some hm) hid (Database.isLiveWorkspace_iff.mp hlive)

/-- The row under the lock belongs to the same user as the row that was visible. -/
theorem sameUser {visible existing : WorkspaceMembership} (hinv : Inv w')
    (hw : w.Extends w') (hvisible : visible ∈ w.db.workspaceMemberships)
    (hexisting : existing ∈ w'.db.workspaceMemberships) (hid : existing.id = visible.id) :
    existing.userId = visible.userId := by
  have hidentity := hinv.memberships _ _ (w'.since_db (Nat.zero_le _))
    (hw.since (w.since_db (Nat.zero_le _))) existing hexisting visible hvisible hid
  exact congrArg (fun x => x.2.2) hidentity

theorem wp_findInWorkspace {membershipId : Uuid} {k : WorkspaceMembership → Handler β}
    (hQ : Lenient Q) (hpend : c.pend = id)
    (h : ∀ (w' : SystemWorld) (m : WorkspaceMembership), Interf guarantee a c.held w w' →
      m ∈ w'.db.workspaceMemberships → m.id = membershipId → m.workspaceId = workspaceId →
        wp guarantee a (k m) Q c w') :
    wp guarantee a (findInWorkspace workspaceId membershipId >>= k) Q c w := by
  unfold findInWorkspace
  simp only [bind_assoc]
  refine wp_select fun w₁ hw₁ => wp_orThrow (fun m hm => ?_) fun _ => hQ _ _ _
  rw [hpend] at hm
  obtain ⟨hfind, hworkspace⟩ := Option.filter_eq_some_iff.mp hm
  obtain ⟨hmem, hid⟩ := Table.find?_eq_some.mp hfind
  exact h w₁ m hw₁ hmem hid (by simpa using hworkspace)

/-! ### Joining -/

theorem membershipOf?_stable (hw : Interf guarantee a held w w') (hinv : Inv w)
    (hlock : held (.workspace workspaceId)) (h : w.db.membershipOf? workspaceId userId = none) :
    w'.db.membershipOf? workspaceId userId = none := by
  rw [Database.membershipOf?_eq_none] at h ⊢
  rintro m' hm' ⟨hworkspace, huser⟩
  obtain ⟨m, hm, hlike⟩ := (hw.roster hinv hlock).grown m' hm' hworkspace
  exact h m hm ⟨hlike.workspaceId ▸ hworkspace, hlike.userId ▸ huser⟩

/-- A former member joins again. -/
theorem Joins.of_found {m : WorkspaceMembership} {role : SeededRoleName} {now : ℕ}
    {notes : Option String} (hw : Interf guarantee a held w w') (hinv : Inv w)
    (hlock : held (.workspace workspaceId))
    (hfound : w.db.membershipOf? workspaceId userId = some m) (hleft : m.status = .left) :
    Joins a held w' workspaceId userId role db
      (db.updateMemberships [m.id] (WorkspaceMembership.rejoined role now notes actorId)) := by
  obtain ⟨hmem, hworkspace, huser⟩ := Database.of_membershipOf? hfound
  obtain ⟨m', hm', hlike⟩ := hw.membership hinv hlock hmem hworkspace
  rw [← hlike.id_eq]
  exact .rejoined m' now notes actorId hm' (hlike.workspaceId.trans hworkspace)
    (hlike.userId.trans huser) (hlike.status.trans hleft)

/-- Somebody joins for the first time, in a workspace that was there at `v`. -/
theorem Joins.of_none {v : SystemWorld} {m : WorkspaceMembership}
    (hv : Interf guarantee a held w v) (hw : Interf guarantee a held v w') (hinv : Inv w)
    (hlock : held (.workspace m.workspaceId))
    (hnone : w.db.membershipOf? m.workspaceId m.userId = none)
    (hexists : ∃ ws ∈ v.db.workspaces, ws.id = m.workspaceId) (hactive : m.status = .active)
    (hended : m.endedAt = none) (hdrawn : Drawn a w' m.id) :
    Joins a held w' m.workspaceId m.userId m.role db (db.insertMembership m) := by
  obtain ⟨ws, hws, hid⟩ := hexists
  refine .created m rfl rfl rfl hactive (membershipOf?_stable (hv.trans hw) hinv hlock hnone)
    hdrawn ⟨ws, (Table.mem_congr ?_).mpr hws, hid⟩ hended
  rw [hid]
  exact hw.workspace (hv.inv hinv) hlock

/-- Inserting a membership takes a workspace that is there. -/
theorem wp_createMembership {m : WorkspaceMembership} {k : WorkspaceMembership → Handler β}
    (hQ : Lenient Q)
    (h : ∀ v w' : SystemWorld, Interf guarantee a c.held w v → Interf guarantee a c.held v w' →
      (∃ ws ∈ (c.pend v.db).workspaces, ws.id = m.workspaceId) →
        wp guarantee a (k m) Q ⟨c.held, fun db => (c.pend db).insertMembership m⟩ w') :
    wp guarantee a (createMembership m >>= k) Q c w := by
  unfold createMembership
  simp only [bind_assoc, pure_bind]
  refine wp_select fun w₁ hw₁ => wp_ensure (fun hreferenced => wp_modify fun w₂ hw₂ => ?_)
    fun _ => hQ _ _ _
  obtain ⟨hworkspace, -⟩ := Bool.and_eq_true_iff.mp hreferenced
  obtain ⟨ws, hws⟩ := Option.isSome_iff_exists.mp hworkspace
  exact h w₁ w₂ hw₁ hw₂ ⟨ws, Table.find?_eq_some.mp hws⟩

theorem wp_updateMembership {m : WorkspaceMembership} {f : Rewrite WorkspaceMembership.id}
    {k : WorkspaceMembership → Handler β}
    (h : ∀ w' : SystemWorld, Interf guarantee a c.held w w' →
      wp guarantee a (k (f.row m)) Q
        ⟨c.held, fun db => (c.pend db).updateMemberships [m.id] f⟩ w') :
    wp guarantee a (updateMembership m f >>= k) Q c w := by
  unfold updateMembership
  simp only [bind_assoc, pure_bind]
  exact wp_modify h

theorem addTransaction_judged {targetUserId : Uuid} {role : SeededRoleName}
    {notes : Option String} {now : ℕ} {rank : AssignmentCeiling} (hinv : Inv w)
    (hreq : a.req.roster = some (.add, actorId, workspaceId))
    (hceiling : Ceiling a w l d .add workspaceId actorId rank)
    (hrank : rankPermits rank role.rank = true) :
    wp guarantee a (addTransaction workspaceId actorId targetUserId role notes now)
      (atEnd guarantee a (fun _ => .rosterChanged .add workspaceId actorId none (some role))
        fun _ _ _ => True) Ctx.start w := by
  unfold addTransaction
  refine wp_assertUserMayHoldActiveMembership lenient_true.atEnd rfl fun w₁ hw₁ husable =>
    wp_lockWorkspaceRow fun w₂ hw₂ => wp_select fun w₃ hw₃ => ?_
  have hinv₁ := hw₁.inv hinv
  have hinv₃ := hw₃.inv (hw₂.inv hinv₁)
  -- the commit, once the membership is written
  have hcommit : ∀ (v : SystemWorld) (db' : Database),
      Interf guarantee a (fun l => l = .workspace workspaceId ∨ l = .user targetUserId ∨ False)
        w₃ v → Joins a (fun l => l = .workspace workspaceId ∨ l = .user targetUserId ∨ False) v
          workspaceId targetUserId role v.db db' →
        Commit a (fun l => l = .workspace workspaceId ∨ l = .user targetUserId ∨ False) v
          (.rosterChanged .add workspaceId actorId none (some role)) db' := by
    intro v db' hv hjoins
    have hw₁v := hw₂.trans (((hw₃.trans hv)).mono fun l hl => .inr hl)
    have hbefore := hceiling.mono (hw₁.extends.trans hw₁v.extends)
    exact .rosterChanged .add workspaceId actorId none (some role) l d db' hreq (.inl rfl)
      hbefore.entry (hbefore.authorized (by simp) (by simpa using hrank) (absurd rfl))
      (.add targetUserId role db' ⟨.inr (.inl rfl), (hw₁v.usable hinv₁ (.inl rfl)).mpr husable⟩
        hjoins)
  simp only [Ctx.start, id_eq]
  cases hfound : w₃.db.membershipOf? workspaceId targetUserId with
  | some existing =>
    refine wp_ensure (fun hleft => wp_modify fun w₄ hw₄ => wp_pure fun w₅ hw₅ => ⟨?_, trivial⟩)
      fun _ _ _ => trivial
    exact hcommit w₅ _ (hw₄.trans hw₅)
      (.of_found (hw₄.trans hw₅) hinv₃ (.inl rfl) hfound hleft)
  | none =>
    refine wp_drawId hinv₃ fun w₄ id hw₄ hdrawn => ?_
    rw [← bind_pure (createMembership _)]
    refine wp_createMembership lenient_true.atEnd fun w₅ w₆ hw₅ hw₆ hexists => wp_pure
      fun w₇ hw₇ => ⟨?_, trivial⟩
    have hw₆₇ := hw₆.trans hw₇
    exact hcommit w₇ _ ((hw₄.trans hw₅).trans hw₆₇) (.of_none (hw₄.trans hw₅) hw₆₇ hinv₃ (.inl rfl)
      hfound hexists rfl rfl (hdrawn.stable (hw₅.trans hw₆₇)))

theorem add_judged {dto : AddWorkspaceMembershipDto} (hinv : Inv w)
    (hreq : a.req.roster = some (.add, actorId, workspaceId))
    (hguard : Guarded a w l d workspaceId actorId createWorkspaceMembership ability) :
    wp guarantee a (add workspaceId actorId dto ability) (fun _ _ _ => True) Ctx.start w := by
  unfold add
  refine wp_select fun w₁ hw₁ => wp_orThrow (fun user _ => wp_loadAssignableRole
    (fun _ _ _ => trivial) fun role _ => wp_assertMayAssign (fun _ _ => trivial) rfl
      fun w₂ rank hw₂ _ hrank hpermits => ?_) fun _ => trivial
  refine wp_ensure (fun _ => wp_now fun w₃ hw₃ => wp_transaction ?_) fun _ => trivial
  have hguard₂ := hguard.mono (hw₁.extends.trans hw₂.extends)
  exact addTransaction_judged (hw₃.inv (hw₂.inv (hw₁.inv hinv))) hreq
    ((hguard₂.ceiling .add hrank).mono hw₃.extends) hpermits

/-! ### Annotating -/

theorem updateMembership_judged {membershipId : Uuid} {dto : UpdateWorkspaceMembershipDto} :
    wp guarantee a (WorkspaceMemberships.update workspaceId membershipId actorId dto ability)
      (fun _ _ _ => True) Ctx.start w := by
  unfold WorkspaceMemberships.update assertCan
  refine wp_findMembership lenient_true rfl fun w₁ existing hw₁ _ hid _ => wp_ensure
    (fun _ => wp_transaction ?_) fun _ => trivial
  rw [← bind_pure (updateMembership _ _)]
  refine wp_updateMembership fun w₂ hw₂ => wp_pure fun w₃ hw₃ => ⟨?_, trivial⟩
  rw [hid]
  exact .membershipUpdated membershipId actorId dto.notes

/-! ### Changing a role -/

theorem changeRole_judged {membershipId : Uuid} {role : Option SeededRoleName} (hinv : Inv w)
    (hreq : a.req.roster = some (.changeRole, actorId, workspaceId))
    (hguard : Guarded a w l d workspaceId actorId assignRoleWorkspaceMembership ability) :
    wp guarantee a (changeRole workspaceId membershipId actorId role ability)
      (fun _ _ _ => True) Ctx.start w := by
  unfold changeRole assertCan
  refine wp_findMembership lenient_true rfl fun w₁ visible hw₁ hvisible _ hlive => wp_ensure
    (fun _ => wp_loadAssignableRole (fun _ _ _ => trivial) fun targetRole _ =>
      wp_assertMayAssign (fun _ _ => trivial) rfl fun w₂ rank hw₂ _ hrank hpermits =>
        wp_transaction ?_) fun _ => trivial
  unfold changeRoleTransaction assertRankPermits
  have hinv₂ := hw₂.inv (hw₁.inv hinv)
  refine wp_assertUserMayHoldActiveMembership lenient_true.atEnd rfl fun w₃ hw₃ husable =>
    wp_lockWorkspaceRow fun w₄ hw₄ => wp_findInWorkspace lenient_true.atEnd rfl
      fun w₅ existing hw₅ hmem hid hworkspace => wp_ensure (fun htarget => ?_)
        fun _ _ _ => trivial
  have hinv₃ := hw₃.inv hinv₂
  have hinv₅ := hw₅.inv (hw₄.inv hinv₃)
  refine wp_assertAnotherActiveOwnerExists lenient_true.atEnd rfl fun w₆ hw₆ howned =>
    wp_updateMembership fun w₇ hw₇ => wp_pure fun w₈ hw₈ => ⟨?_, trivial⟩
  have hw₆₈ := hw₇.trans hw₈
  have hw₅₈ := hw₆.trans hw₆₈
  have hw₃₅ := hw₄.trans (hw₅.mono fun l hl => .inr hl)
  have hw₃₈ := hw₃₅.trans (hw₅₈.mono fun l hl => .inr hl)
  have huser : existing.userId = visible.userId := sameUser hinv₅
    ((hw₂.extends.trans hw₃.extends).trans hw₃₅.extends) hvisible hmem hid
  obtain ⟨m, hm, hlike⟩ := hw₅₈.membership hinv₅ (.inl rfl) hmem hworkspace
  have hmember : m.userId = visible.userId := hlike.userId.trans huser
  have hafter : w₁.Extends w₈ := (hw₂.extends.trans hw₃.extends).trans hw₃₈.extends
  have hguard₁ := hguard.mono hw₁.extends
  have hceiling := ((hguard₁.mono hw₂.extends).ceiling .changeRole hrank).mono
    (hw₃.extends.trans hw₃₈.extends)
  rw [← hlike.id_eq]
  refine .rosterChanged .changeRole workspaceId actorId (some existing) (some targetRole) l d _ hreq
    (.inl rfl) hceiling.entry (hceiling.authorized (by simpa using htarget)
      (by simpa using hpermits) fun _ => hguard₁.seenLive hafter hlive)
    (.changeRole existing m targetRole hlike hm (hlike.workspaceId.trans hworkspace)
      ⟨.inr (.inl (by rw [hmember])), ?_⟩ fun howner hrole => ?_)
  · rw [hmember]
    exact (hw₃₈.usable hinv₃ (.inl rfl)).mpr husable
  · have howned₆ := howned ⟨hlike.role ▸ howner, hrole⟩
    rw [hlike.id_eq, hid]
    exact howned₆.stable otherId_of_like hw₆₈ (.inl rfl)

/-! ### Suspending, reactivating, ending -/

/-- The filter of a withdrawal looks at columns that never change, and at the status. -/
theorem isPendingInvitationOf_evolves {user : Option User} {i i' : WorkspaceInvitation}
    (hevolves : i.Evolves i') (h : isPendingInvitationOf workspaceId userId user i' = true) :
    isPendingInvitationOf workspaceId userId user i = true := by
  have hidentity := hevolves.identity
  simp only [WorkspaceInvitation.identity, Prod.mk.injEq] at hidentity
  obtain ⟨-, hworkspace, hemail, hinvited, -⟩ := hidentity
  simp only [isPendingInvitationOf, Bool.and_eq_true, decide_eq_true_eq] at h ⊢
  obtain ⟨⟨hin, hpending⟩, haddressed⟩ := h
  rw [hinvited, hemail] at haddressed
  exact ⟨⟨hworkspace ▸ hin, hevolves.pending hpending⟩, haddressed⟩

/-- Withdrawing invitations writes every pending invitation to the person, as their account is
when it is read. -/
theorem wp_revokePendingInvitations {k : Unit → Handler β} (hinv : Inv w) (hpend : c.pend = id)
    (hlock : c.held (.workspace workspaceId))
    (h : ∀ (w₁ w' : SystemWorld) (found ids : List Uuid) (now : ℕ),
      Interf guarantee a c.held w w₁ → Interf guarantee a c.held w₁ w' →
      (∀ id ∈ ids, id ∈ found) →
      (∀ v, Interf guarantee a
          (fun l => l ∈ found.map RowLock.workspaceInvitation ∨ c.held l) w' v →
        ∀ i ∈ v.db.workspaceInvitations, i.id ∈ ids ↔
          isPendingInvitationOf workspaceId userId (w₁.db.users.find? userId) i = true) →
        wp guarantee a (k ()) Q
          ⟨fun l => l ∈ found.map RowLock.workspaceInvitation ∨ c.held l,
            fun db => (c.pend db).updateInvitations ids
              (WorkspaceInvitation.revoked now actorId)⟩ w') :
    wp guarantee a (revokePendingInvitations workspaceId userId actorId >>= k) Q c w := by
  unfold revokePendingInvitations
  simp only [bind_assoc, pure_bind]
  refine wp_select fun w₁ hw₁ => wp_now fun w₂ hw₂ => wp_updateManyInvitations
    fun w₃ w₄ w₅ found ids hw₃ hw₄ hw₅ hfound hids => ?_
  simp only [hpend, id_eq] at hfound hids
  have hinv₃ := hw₃.inv (hw₂.inv (hw₁.inv hinv))
  have hin : ∀ id ∈ ids, id ∈ found := by
    intro id hid
    obtain ⟨i, -, -, hmem, rfl⟩ := (hids id).mp hid
    exact hmem
  have hw₁₅ := ((hw₂.trans hw₃).trans hw₄).trans (hw₅.mono fun l hl => .inr hl)
  refine h w₁ w₅ found ids w₂.now hw₁ hw₁₅ hin fun v hv i hi => ?_
  refine mem_ids_iff_matches hinv₃ hlock hw₄ (hw₅.trans hv)
    (fun _ _ => isPendingInvitationOf_evolves) (fun i hmatch => ?_) hfound hids hi
  simp only [isPendingInvitationOf, Bool.and_eq_true, decide_eq_true_eq] at hmatch
  exact hmatch.1.1

/-- Suspending and ending: the row under the lock is in a state that allows it, is within
the caller's rank, and is not the last owner. -/
theorem leaveTransaction_judged {kind : TransitionKind} {visible : WorkspaceMembership}
    {endedAt : Option ℕ} {rank : AssignmentCeiling} (hkind : kind ≠ .reactivate) (hinv : Inv w)
    (hended : kind = .remove ↔ endedAt ≠ none)
    (hreq : a.req.roster = some ((transitionOptions kind).op, actorId, workspaceId))
    (hceiling : Ceiling a w l d (transitionOptions kind).op workspaceId actorId rank)
    (hlive : SeenLive w (l.length + 1) workspaceId) :
    wp guarantee a (transitionTransaction workspaceId actorId visible (transitionOptions kind)
        endedAt rank)
      (atEnd guarantee a (fun existing => .rosterChanged (transitionOptions kind).op workspaceId
        actorId (some existing) none) fun _ _ _ => True) Ctx.start w := by
  have hto : (transitionOptions kind).toStatus ≠ .active := by
    cases kind <;> simp_all [transitionOptions]
  have hprotected : (transitionOptions kind).isLastOwnerProtected = true := by
    cases kind <;> simp_all [transitionOptions]
  unfold transitionTransaction assertRankPermits
  refine wp_onlyIf (fun hactive => absurd hactive hto) fun _ => wp_lockWorkspaceRow
    fun w₁ hw₁ => wp_findInWorkspace lenient_true.atEnd rfl fun w₂ existing hw₂ hmem hid
      hworkspace => wp_ensure (fun htarget => ?_) fun _ _ _ => trivial
  have hinv₂ := hw₂.inv (hw₁.inv hinv)
  refine wp_ensure (fun hnot => wp_ensure (fun hfrom => wp_assertAnotherActiveOwnerExists
    lenient_true.atEnd rfl fun w₃ hw₃ howned => wp_onlyIf (fun _ => ?_) fun h => absurd hto h)
      fun _ _ _ => trivial) fun _ _ _ => trivial
  have hinv₃ := hw₃.inv hinv₂
  refine wp_revokePendingInvitations hinv₃ rfl (.inl rfl) fun w₄ w₅ found ids now hw₄ hw₅ hids
    hmatch => wp_updateMembership fun w₆ hw₆ => wp_pure fun w₇ hw₇ => ⟨?_, trivial⟩
  have hw₅₇ := hw₆.trans hw₇
  have hw₄₇ := hw₅.trans (hw₅₇.mono fun l hl => .inr hl)
  have hw₃₇ := hw₄.trans hw₄₇
  have hw₂₇ := hw₃.trans hw₃₇
  have hafter : w.Extends w₇ := (hw₁.extends.trans hw₂.extends).trans hw₂₇.extends
  obtain ⟨m, hm, hlike⟩ := hw₂₇.membership hinv₂ (.inl rfl) hmem hworkspace
  have hread : w₇.Since (l.length + 1) w₄.db := by
    refine hw₄₇.since (w₄.since_db ?_)
    have hbefore := (hw₁.extends.trans hw₂.extends).trans (hw₃.extends.trans hw₄.extends)
    have hguarded := (hceiling.mono hbefore).entry
    simpa using hguarded.length_le
  have hauthorized : Authorized w₇ (transitionOptions kind).op workspaceId actorId
      (some existing) none (l.length + 1) d :=
    (hceiling.mono hafter).authorized (by simpa using htarget) (by simp) fun _ => hlive.mono hafter
  rw [← hlike.id_eq]
  refine .rosterChanged _ workspaceId actorId (some existing) none l d _ hreq (.inr (.inl rfl))
    (hceiling.mono hafter).entry hauthorized (.leave _ _ existing m now endedAt ids hlike ?_ hm
      (hlike.workspaceId.trans hworkspace)
      (fun id hin => .inl (List.mem_map_of_mem (hids id hin))) ⟨w₄.db, hread, ?_⟩ fun howner => ?_)
  · rw [hlike.status]
    cases kind with
    | suspend =>
      refine .inl ⟨rfl, by simpa [transitionOptions, eq_comm] using hfrom, rfl, ?_⟩
      simpa using hended
    | remove => exact .inr ⟨rfl, hnot, rfl, hended.mp rfl⟩
    | reactivate => exact absurd rfl hkind
  · rw [hlike.userId]
    exact hmatch w₇ hw₅₇
  · have howned₃ := howned ⟨hprotected, hlike.isActiveOwner.mp howner⟩
    rw [hlike.id_eq, hid]
    exact howned₃.stable otherId_of_like hw₃₇ (.inl rfl)

/-- Reactivation: the account is usable and the row under the lock is suspended. -/
theorem reactivateTransaction_judged {v : SystemWorld} {visible : WorkspaceMembership}
    {endedAt : Option ℕ} {rank : AssignmentCeiling} (hv : v.Extends w) (hinv : Inv w)
    (hvisible : visible ∈ v.db.workspaceMemberships) (hended : endedAt = none)
    (hreq : a.req.roster = some (.reactivate, actorId, workspaceId))
    (hceiling : Ceiling a w l d .reactivate workspaceId actorId rank)
    (hlive : SeenLive w (l.length + 1) workspaceId) :
    wp guarantee a (transitionTransaction workspaceId actorId visible
        (transitionOptions .reactivate) endedAt rank)
      (atEnd guarantee a (fun existing => .rosterChanged .reactivate workspaceId actorId
        (some existing) none) fun _ _ _ => True) Ctx.start w := by
  subst hended
  unfold transitionTransaction assertRankPermits
  refine wp_onlyIf (fun _ => ?_) fun h => absurd rfl h
  refine wp_assertUserMayHoldActiveMembership lenient_true.atEnd rfl fun w₁ hw₁ husable =>
    wp_lockWorkspaceRow fun w₂ hw₂ => wp_findInWorkspace lenient_true.atEnd rfl
      fun w₃ existing hw₃ hmem hid hworkspace => wp_ensure (fun htarget => ?_)
        fun _ _ _ => trivial
  have hinv₁ := hw₁.inv hinv
  have hinv₃ := hw₃.inv (hw₂.inv hinv₁)
  refine wp_ensure (fun _ => wp_ensure (fun hfrom => wp_assertAnotherActiveOwnerExists
    lenient_true.atEnd rfl fun w₄ hw₄ _ => wp_onlyIf (fun h => absurd rfl h) fun _ =>
      wp_updateMembership fun w₅ hw₅ => wp_pure fun w₆ hw₆ => ⟨?_, trivial⟩)
        fun _ _ _ => trivial) fun _ _ _ => trivial
  have hw₃₆ := (hw₄.trans hw₅).trans hw₆
  have hw₁₃ := hw₂.trans (hw₃.mono fun l hl => .inr hl)
  have hw₁₆ := hw₁₃.trans (hw₃₆.mono fun l hl => .inr hl)
  have huser : existing.userId = visible.userId := sameUser hinv₃
    ((hv.trans hw₁.extends).trans hw₁₃.extends) hvisible hmem hid
  obtain ⟨m, hm, hlike⟩ := hw₃₆.membership hinv₃ (.inl rfl) hmem hworkspace
  have hmember : m.userId = visible.userId := hlike.userId.trans huser
  have hafter : w.Extends w₆ := hw₁.extends.trans hw₁₆.extends
  have hauthorized : Authorized w₆ .reactivate workspaceId actorId (some existing) none
      (l.length + 1) d :=
    (hceiling.mono hafter).authorized (by simpa using htarget) (by simp) fun _ => hlive.mono hafter
  rw [← hlike.id_eq]
  refine .rosterChanged .reactivate workspaceId actorId (some existing) none l d _ hreq (.inl rfl)
    (hceiling.mono hafter).entry hauthorized (.reactivate existing m hlike hm
      (hlike.workspaceId.trans hworkspace) ⟨.inr (.inl (by rw [hmember])), ?_⟩ ?_)
  · rw [hmember]
    exact (hw₁₆.usable hinv₁ (.inl rfl)).mpr husable
  · rw [hlike.status]
    simpa [transitionOptions, eq_comm] using hfrom

theorem transition_judged (kind : TransitionKind) {membershipId : Uuid} {endedAt : Option ℕ}
    (hinv : Inv w) (hended : kind = .remove ↔ endedAt ≠ none)
    (hreq : a.req.roster = some ((transitionOptions kind).op, actorId, workspaceId))
    (hguard : Guarded a w l d workspaceId actorId (transitionOptions kind).op.required ability) :
    wp guarantee a
      (transition workspaceId membershipId actorId ability (transitionOptions kind) endedAt)
      (fun _ _ _ => True) Ctx.start w := by
  unfold transition assertCan
  refine wp_findMembership lenient_true rfl fun w₁ visible hw₁ hvisible _ hlive => wp_ensure
    (fun _ => wp_resolveActorRank (fun _ _ => trivial) rfl fun w₂ rank hw₂ hrank =>
      wp_transaction ?_) fun _ => trivial
  have hguard₁ := hguard.mono hw₁.extends
  have hceiling := (hguard₁.mono hw₂.extends).ceiling (transitionOptions kind).op hrank
  have hseen := hguard₁.seenLive hw₂.extends hlive
  have hinv₂ := hw₂.inv (hw₁.inv hinv)
  by_cases hkind : kind = .reactivate
  · subst hkind
    have hnone : endedAt = none := by simpa using hended
    exact reactivateTransaction_judged hw₂.extends hinv₂ hvisible hnone hreq hceiling hseen
  · exact leaveTransaction_judged hkind hinv₂ hended hreq hceiling hseen

/-- Ending a membership checks the row once more before the common path. -/
theorem removeMembership_judged {membershipId : Uuid} (hinv : Inv w)
    (hreq : a.req.roster = some (.remove, actorId, workspaceId))
    (hguard : Guarded a w l d workspaceId actorId deleteWorkspaceMembership ability) :
    wp guarantee a (WorkspaceMemberships.remove workspaceId membershipId actorId ability)
      (fun _ _ _ => True) Ctx.start w := by
  unfold WorkspaceMemberships.remove assertCan
  refine wp_findMembership lenient_true rfl fun w₁ _ hw₁ _ _ _ => wp_ensure (fun _ => wp_now
    fun w₂ hw₂ => ?_) fun _ => trivial
  exact transition_judged .remove (hw₂.inv (hw₁.inv hinv)) (by simp) hreq
    (hguard.mono (hw₁.extends.trans hw₂.extends))

/-! ### Handing over -/

/-- Under the locks the target is active and somebody else, and the demoted owners are all
the others. -/
theorem transferOwnership_judged {membershipId : Uuid} (hinv : Inv w)
    (hreq : a.req = .transferOwnership actorId workspaceId membershipId)
    (hguard : Guarded a w l d workspaceId actorId transferWorkspaceOwnership ability) :
    wp guarantee a (transferOwnership workspaceId membershipId actorId ability)
      (fun _ _ _ => True) Ctx.start w := by
  unfold transferOwnership
  refine wp_findMembership lenient_true rfl fun w₁ visible hw₁ hvisible hvisibleId _ =>
    wp_transaction ?_
  unfold transferTransaction findLiveInWorkspace
  simp only [bind_assoc]
  have hinv₁ := hw₁.inv hinv
  refine wp_assertUserMayHoldActiveMembership lenient_true.atEnd rfl fun w₂ hw₂ husable =>
    wp_lockWorkspaceRow fun w₃ hw₃ => wp_select fun w₄ hw₄ => wp_orThrow
      (fun target htarget => ?_) fun _ _ _ => trivial
  have hinv₂ := hw₂.inv hinv₁
  have hinv₄ := hw₄.inv (hw₃.inv hinv₂)
  obtain ⟨hfind, hcond⟩ := Option.filter_eq_some_iff.mp htarget
  obtain ⟨hmem, hid⟩ := Table.find?_eq_some.mp hfind
  simp only [Bool.and_eq_true, decide_eq_true_eq] at hcond
  obtain ⟨⟨hworkspace, -⟩, hlive⟩ := hcond
  rw [hworkspace, Database.isLiveWorkspace_iff] at hlive
  refine wp_ensure (fun hactive => wp_ensure (fun hother => ?_) fun _ _ _ => trivial)
    fun _ _ _ => trivial
  refine wp_select fun w₅ hw₅ => wp_modify fun w₆ hw₆ => wp_updateMembership fun w₇ hw₇ =>
    wp_pure fun w₈ hw₈ => ⟨?_, trivial⟩
  have hinv₅ := hw₅.inv hinv₄
  have hw₅₈ := (hw₆.trans hw₇).trans hw₈
  have hw₄₈ := hw₅.trans hw₅₈
  have hw₂₄ := hw₃.trans (hw₄.mono fun l hl => .inr hl)
  have hw₂₈ := hw₂₄.trans (hw₄₈.mono fun l hl => .inr hl)
  have huser : target.userId = visible.userId := sameUser hinv₄
    (hw₂.extends.trans hw₂₄.extends) hvisible hmem hid
  have hbefore : w.Extends w₄ := (hw₁.extends.trans hw₂.extends).trans hw₂₄.extends
  have hguard₈ := (hguard.mono hbefore).mono hw₄₈.extends
  have hseen := (hguard.mono hbefore).seenLive hw₄₈.extends hlive
  obtain ⟨m, hm, hlike⟩ := hw₄₈.membership hinv₄ (.inl rfl) hmem hworkspace
  have hmember : m.userId = visible.userId := hlike.userId.trans huser
  rw [← hlike.id_eq]
  refine .rosterChanged .transferOwnership workspaceId actorId (some target)
    (some .workspaceOwner) l d _ (by rw [hreq]; rfl) (.inl rfl) hguard₈.entry
      (hguard₈.authorized_transfer hseen)
      (.transferOwnership target m _ hlike ((hw₄₈.live hinv₄ (.inl rfl)).mpr hlive) hm
        (hlike.workspaceId.trans hworkspace) ⟨.inr (.inl (by rw [hmember])), ?_⟩
          (hlike.status.trans hactive) (by rwa [hlike.userId]) (fun other hin => ?_) ?_)
  · rw [hmember]
    exact (hw₂₈.usable hinv₂ (.inl rfl)).mpr husable
  · have hroster := hw₅₈.roster hinv₅ (.inl rfl)
    rw [hlike.id_eq]
    simp only [List.mem_map, Table.mem_filter, Bool.and_eq_true, decide_eq_true_eq]
    constructor
    · rintro ⟨r, ⟨hr, ⟨hr₁, hr₂⟩, hr₃⟩, hsame⟩
      obtain ⟨r', hr', hlike'⟩ := hroster.kept r hr hr₁
      obtain rfl := Table.eq_of_key hr' hin (hlike'.id_eq.trans hsame)
      exact ⟨hlike'.workspaceId.trans hr₁, hlike'.isActiveOwner.mpr hr₂, hlike'.id_eq ▸ hr₃⟩
    · rintro ⟨hr₁, hr₂, hr₃⟩
      obtain ⟨r, hr, hlike'⟩ := hroster.grown other hin hr₁
      exact ⟨r, ⟨hr, ⟨hlike'.workspaceId ▸ hr₁, hlike'.isActiveOwner.mp hr₂⟩,
        hlike'.id_eq ▸ hr₃⟩, hlike'.id_eq.symm⟩
  · rw [hreq, hlike.id_eq, hid, hvisibleId]

end NestApi
