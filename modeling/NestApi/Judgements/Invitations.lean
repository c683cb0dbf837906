import NestApi.Judgements.Roster

/-!
# Judging the invitation services

Creating an invitation is judged as a roster operation. Acceptance asks the policy about
the inviter under the lock of the workspace, so what it read of the roster still holds at
the commit, and what it read of platform roles was true at some point before.
-/

namespace NestApi

open Txn Program Authorization WorkspaceInvitations WorkspaceRoleAssignmentPolicy
  WorkspaceMemberships

variable {β : Type} {a : Agent Request} {c : Ctx Database RowLock} {w w' : SystemWorld}
  {Q : Except Failure β → Ctx Database RowLock → SystemWorld → Prop}
  {workspaceId actorId : Uuid} {ability : Ability} {env : Env} {held : RowLock → Prop}
  {l : List (Entry Database Event Request)} {d : Database}

/-! ### Creating, revoking, resending -/

theorem createInvitation_judged {dto : CreateWorkspaceInvitationDto} (hinv : Inv w)
    (hreq : a.req.roster = some (.createInvitation, actorId, workspaceId))
    (hguard : Guarded a w l d workspaceId actorId createWorkspaceInvitation ability) :
    wp guarantee a (create env workspaceId actorId dto ability) (fun _ _ _ => True)
      Ctx.start w := by
  unfold create
  refine wp_loadAssignableRole (fun _ _ _ => trivial) fun role _ => wp_assertMayAssign
    (fun _ _ => trivial) rfl fun w₁ rank hw₁ _ hrank hpermits => wp_select fun w₂ hw₂ =>
      wp_orThrow (fun ws hws => wp_select fun w₃ hw₃ => ?_) fun _ => trivial
  have hinv₃ := hw₃.inv (hw₂.inv (hw₁.inv hinv))
  have hceiling := (hguard.mono hw₁.extends).ceiling .createInvitation hrank
  have hlive : w₂.db.LiveWorkspace workspaceId := by
    obtain ⟨hfind, hnot⟩ := Option.filter_eq_some_iff.mp hws
    exact live_iff_find?.mpr ⟨ws, hfind, by simpa using hnot⟩
  refine wp_drawId hinv₃ fun w₄ token hw₄ _ => wp_now fun w₅ hw₅ => wp_transaction ?_
  unfold createTransaction createPending
  have hinv₅ := hw₅.inv (hw₄.inv hinv₃)
  refine wp_lockWorkspaceRow fun w₆ hw₆ => wp_now fun w₇ hw₇ => wp_updateManyInvitations
    fun w₈ w₉ w₁₀ found ids hw₈ hw₉ hw₁₀ _ hids => wp_select fun w₁₁ hw₁₁ =>
      wp_ensure (fun _ => ?_) fun _ _ _ => trivial
  have hinv₉ := hw₉.inv (hw₈.inv (hw₇.inv (hw₆.inv hinv₅)))
  have hinv₁₁ := hw₁₁.inv (hw₁₀.inv hinv₉)
  refine wp_drawId hinv₁₁ fun w₁₂ id hw₁₂ hdrawn => wp_select fun w₁₃ hw₁₃ => wp_ensure
    (fun _ => wp_modify fun w₁₄ hw₁₄ => wp_pure fun w₁₅ hw₁₅ => ⟨?_, trivial⟩)
      fun _ _ _ => trivial
  have hw₁₂₁₅ := (hw₁₃.trans hw₁₄).trans hw₁₅
  have hw₉₁₅ := ((hw₁₀.trans hw₁₁).trans hw₁₂).trans hw₁₂₁₅
  have hw₂₉ : w₂.Extends w₉ := (((hw₃.extends.trans hw₄.extends).trans
    (hw₅.extends.trans hw₆.extends)).trans (hw₇.extends.trans hw₈.extends)).trans hw₉.extends
  have hafter : w₂.Extends w₁₅ := hw₂₉.trans hw₉₁₅.extends
  have hceiling₁₅ := hceiling.mono (hw₂.extends.trans hafter)
  have hseen := (hguard.mono (hw₁.extends.trans hw₂.extends)).seenLive hafter hlive
  refine .rosterChanged .createInvitation workspaceId actorId none (some role) l d _ hreq
    (.inr (.inl rfl)) hceiling₁₅.entry
      (hceiling₁₅.authorized (by simp) (by simpa using hpermits) fun _ => hseen)
        (.createInvitation _ role ids rfl rfl (fun id hid => ?_) (fun other hother hin => ?_)
          rfl rfl (hdrawn.stable hw₁₂₁₅))
  · obtain ⟨i, -, -, hmem, rfl⟩ := (hids id).mp hid
    exact .inl (List.mem_map_of_mem hmem)
  · obtain ⟨i, hi, hsame, hmatch⟩ := matches_of_locked hinv₉ hw₉₁₅ hids hin
    obtain rfl := Table.eq_of_key hi hother hsame
    simp only [Bool.and_eq_true, decide_eq_true_eq] at hmatch
    exact ⟨hmatch.1.2, hmatch.1.1.1⟩

theorem quiet_findVisibleInvitation {invitationId : Uuid} :
    Quiet (findVisibleInvitation workspaceId invitationId ability) := by
  unfold findVisibleInvitation
  refine Quiet.bind ?_ fun filter => quiet_select.bind fun _ => quiet_orThrow
  unfold orRefuse
  split <;> trivial

theorem quiet_assertMayAssign {role : SeededRoleName} {targetUserId : Option Uuid} :
    Quiet (assertMayAssign workspaceId actorId role ability targetUserId) := by
  unfold assertMayAssign assertRankPermits
  refine quiet_ensure.bind fun _ => Quiet.bind ?_ fun _ => quiet_ensure.bind fun _ => trivial
  unfold resolveActorRank
  split
  · trivial
  · exact quiet_select.bind fun _ => quiet_orThrow.bind fun _ => trivial

/-- An update that named one invitation and wrote one row wrote that invitation, which was
pending and is locked. -/
theorem one_of_written {v : SystemWorld} {p : WorkspaceInvitation → Bool} {invitationId : Uuid}
    {found ids : List Uuid} (hinv : Inv w)
    (hw : Interf guarantee a
      (fun l => l ∈ found.map RowLock.workspaceInvitation ∨ held l) w v)
    (hp : ∀ i : WorkspaceInvitation, p i = true → i.id = invitationId)
    (hids : ∀ id, id ∈ ids ↔ ∃ i ∈ w.db.workspaceInvitations,
      p i = true ∧ i.id ∈ found ∧ i.id = id) (hone : ids.length = 1) :
    ids = [invitationId] ∧ RowLock.workspaceInvitation invitationId ∈
        found.map RowLock.workspaceInvitation ∧
      ∃ i ∈ v.db.workspaceInvitations, i.id = invitationId ∧ p i = true := by
  obtain ⟨id, rfl⟩ := List.length_eq_one_iff.mp hone
  have hmem : id ∈ [id] := List.mem_singleton_self id
  obtain ⟨i, hi, rfl, hmatch⟩ := matches_of_locked hinv hw hids hmem
  obtain ⟨i', -, -, hfound, hsame⟩ := (hids i.id).mp hmem
  have hid := hp i hmatch
  refine ⟨by rw [hid], List.mem_map_of_mem (hid ▸ hsame ▸ hfound), i, hi, hid, hmatch⟩

theorem revokeInvitation_judged {invitationId : Uuid} (hinv : Inv w) :
    wp guarantee a (revoke workspaceId invitationId actorId ability) (fun _ _ _ => True)
      Ctx.start w := by
  unfold revoke
  refine wp_quiet quiet_findVisibleInvitation (fun _ w₁ hw₁ => wp_now fun w₂ hw₂ =>
    wp_transaction (wp_updateManyInvitations fun w₃ w₄ w₅ found ids hw₃ hw₄ hw₅ _ hids => ?_))
      fun _ _ => trivial
  rw [← bind_pure (ensure _ _)]
  refine wp_ensure (fun hone => wp_pure fun w₆ hw₆ => ⟨?_, trivial⟩) fun _ _ _ => trivial
  have hinv₄ := hw₄.inv (hw₃.inv (hw₂.inv (hw₁.inv hinv)))
  obtain ⟨rfl, hlocked, i, hi, hid, hmatch⟩ := one_of_written hinv₄ (hw₅.trans hw₆)
    (fun i hmatch => by simp only [Bool.and_eq_true, decide_eq_true_eq] at hmatch; exact hmatch.1)
    hids hone
  refine .invitationRevoked invitationId _ actorId (.inl hlocked) ⟨i, hi, hid, ?_⟩
  simp only [Bool.and_eq_true, decide_eq_true_eq] at hmatch
  exact hmatch.2

theorem resendInvitation_judged {invitationId : Uuid} {hasBudget : Bool} (hinv : Inv w) :
    wp guarantee a (resend env workspaceId invitationId actorId hasBudget ability)
      (fun _ _ _ => True) Ctx.start w := by
  unfold resend
  refine wp_quiet quiet_findVisibleInvitation (fun _ w₁ hw₁ => wp_quiet quiet_assertMayAssign
    (fun _ w₂ hw₂ => wp_select fun w₃ hw₃ => wp_orThrow (fun _ _ => ?_) fun _ => trivial)
      fun _ _ => trivial) fun _ _ => trivial
  have hinv₃ := hw₃.inv (hw₂.inv (hw₁.inv hinv))
  unfold onlyIf
  split
  · refine wp_quiet quiet_freshId (fun token w₄ hw₄ => wp_now fun w₅ hw₅ => wp_transaction
      (wp_updateManyInvitations fun w₆ w₇ w₈ found ids hw₆ hw₇ hw₈ _ hids => ?_))
        fun _ _ => trivial
    rw [← bind_pure (ensure _ _)]
    refine wp_ensure (fun hone => wp_pure fun w₉ hw₉ => ⟨?_, trivial⟩) fun _ _ _ => trivial
    have hinv₇ := hw₇.inv (hw₆.inv (hw₅.inv (hw₄.inv hinv₃)))
    obtain ⟨rfl, hlocked, i, hi, hid, hmatch⟩ := one_of_written hinv₇ (hw₈.trans hw₉)
      (fun i hmatch => by simp only [Bool.and_eq_true, decide_eq_true_eq] at hmatch; exact hmatch.1)
      hids hone
    refine .invitationResent invitationId _ _ actorId (.inl hlocked) ⟨i, hi, hid, ?_⟩
    simp only [Bool.and_eq_true, decide_eq_true_eq] at hmatch
    exact hmatch.2
  · trivial

/-! ### Acceptance -/

theorem InviterChecked.stable {invitation : WorkspaceInvitation} {inviterId : Uuid}
    (hw : Interf guarantee a held w w') (hinv : Inv w)
    (hlock : held (.workspace invitation.workspaceId))
    (h : InviterChecked a w invitation inviterId) : InviterChecked a w' invitation inviterId := by
  obtain ⟨l, d, hl, husable, g, hg, hmay, hrank⟩ := h
  refine ⟨l, d, hl.trans hw.log_suffix, husable, g, hw.since hg, ?_, ?_⟩
  · refine hmay.imp_right (Or.imp_right ?_)
    rintro ⟨hlive, role, hmember, hlisted⟩
    exact ⟨(hw.live hinv hlock).mpr hlive, role, (hw.member hinv hlock).mpr hmember, hlisted⟩
  · refine hrank.imp_right ?_
    rintro ⟨role, hmember, hle⟩
    exact ⟨role, (hw.member hinv hlock).mpr hmember, hle⟩

theorem membershipStub_tenant {key : String}
    (hkey : resolveTenantKey assignRoleWorkspaceMembership.subject.value = .ok key) :
    membershipStub workspaceId none key = .string workspaceId := by
  obtain rfl := Except.ok.inj hkey
  rfl

/-- The inviter is usable when read, and the policy passes on what is read after that. -/
theorem wp_assertInviterMayStillAssign {invitation : WorkspaceInvitation} {k : Unit → Handler β}
    (hQ : Lenient Q) (hinv : Inv w) (hlock : c.held (.workspace invitation.workspaceId))
    (hpend : c.pend = id)
    (h : ∀ (w' : SystemWorld) (inviterId : Uuid), Interf guarantee a c.held w w' →
      invitation.invitedBy = some inviterId → InviterChecked a w' invitation inviterId →
        wp guarantee a (k ()) Q c w') :
    wp guarantee a (assertInviterMayStillAssign invitation >>= k) Q c w := by
  unfold assertInviterMayStillAssign
  simp only [bind_assoc]
  refine wp_orThrow (fun inviterId hinviter => wp_selectObserved fun w₁ hw₁ =>
    ⟨.inviterRead inviterId, wp_orThrow (fun inviter hfound => ?_) fun _ => hQ _ _ _⟩)
      fun _ => hQ _ _ _
  rw [hpend] at hfound
  obtain ⟨hmem, rfl, husable⟩ := of_eligible hfound
  have hw₁' := hw₁.own (G := guarantee) (.inviterRead inviter.id)
  refine wp_createAbilityForUser hQ hpend fun w₂ ability hw₂ hability => ?_
  have hinv₂ := hw₂.inv (hw₁'.inv hinv)
  refine wp_bind (wp_catchError (wp_loadAssignableRole (fun _ _ _ => hQ _ _ _) fun role hrole =>
    wp_assertMayAssign (fun _ _ => hQ _ _ _) hpend fun w₃ rank hw₃ hmay hrank hpermits => ?_))
  obtain rfl := Option.some_inj.mp hrole
  refine h w₃ inviter.id ((hw₁'.trans hw₂).trans hw₃) hinviter ⟨w₁.log, w₁.db,
    hw₂.log_suffix.trans hw₃.log_suffix, ⟨inviter, hmem, rfl, husable⟩, w₂.db, ?_, ?_, ?_⟩
  · exact hw₃.since (w₂.since_db hw₂.log_suffix.length_le)
  · rcases hmay with hcan | hplain
    · rcases permits_of_can hability (by decide) (fun _ => membershipStub_tenant) hcan with
        hall | ⟨hlive, role, hmember, hlisted⟩
      · exact .inr (.inl hall)
      · exact .inr (.inr ⟨(hw₃.live hinv₂ hlock).mpr hlive, role,
          (hw₃.member hinv₂ hlock).mpr hmember, hlisted⟩)
    · exact .inl hplain
  · rcases hrank with hall | ⟨role, hmember, rfl⟩
    · exact .inl (manageAll_of_canType hability hall)
    · exact .inr ⟨role, hmember, by simpa [rankPermits] using hpermits⟩

theorem quiet_assertIsInvitee {invitation : WorkspaceInvitation} {actorEmail : String} :
    Quiet (assertIsInvitee invitation actorId actorEmail) := by
  unfold assertIsInvitee
  split
  · exact quiet_ensure
  · exact quiet_ensure.bind fun _ => quiet_select.bind fun _ => quiet_ensure

/-- The writing half of acceptance: the inviter is checked and the membership is looked up
under the lock of the workspace. -/
theorem acceptTransaction_judged {invitation : WorkspaceInvitation} {actorEmail token : String}
    {now : ℕ} (hinv : Inv w) (hreq : a.req = .acceptInvitation actorId actorEmail token)
    (hread : ∃ l d, (⟨a, .invitationRead (some invitation), d⟩ :: l) <:+ w.log ∧
      invitation ∈ d.workspaceInvitations ∧ d.LiveWorkspace invitation.workspaceId) :
    wp guarantee a (acceptTransaction invitation actorId now)
      (atEnd guarantee a (fun _ => .invitationAccepted invitation actorId)
        (rescue guarantee a (fun e => fail (consumedAsInvalid e)) fun _ _ _ => True))
      Ctx.start w := by
  unfold acceptTransaction
  have hlenient : Lenient (atEnd guarantee a
      (fun _ : WorkspaceMembership => Event.invitationAccepted invitation actorId)
      (rescue guarantee a (fun e => fail (consumedAsInvalid e)) fun _ _ _ => True)) :=
    fun _ _ _ _ _ => trivial
  refine wp_assertUserMayHoldActiveMembership hlenient rfl fun w₁ hw₁ husable =>
    wp_lockWorkspaceRow fun w₂ hw₂ => ?_
  have hinv₁ := hw₁.inv hinv
  have hinv₂ := hw₂.inv hinv₁
  refine wp_assertInviterMayStillAssign hlenient hinv₂ (.inl rfl) rfl
    fun w₃ inviterId hw₃ hinviter hchecked => wp_updateManyInvitations
      fun w₄ w₅ w₆ found ids hw₄ hw₅ hw₆ _ hids => wp_ensure (fun hone => wp_select
        fun w₇ hw₇ => ?_) fun _ => hlenient _ _ _
  have hinv₃ := hw₃.inv hinv₂
  have hinv₅ := hw₅.inv (hw₄.inv hinv₃)
  have hinv₇ := hw₇.inv (hw₆.inv hinv₅)
  -- the commit, once the membership is written
  have hcommit : ∀ (v : SystemWorld) (L : RowLock → Prop) (db' : Database),
      (∀ l, L l ↔ l ∈ found.map RowLock.workspaceInvitation ∨
        l = .workspace invitation.workspaceId ∨ l = .user actorId ∨ False) →
      Interf guarantee a L w₇ v → Joins a L v invitation.workspaceId actorId invitation.role
        (v.db.updateInvitations ids (WorkspaceInvitation.accepted now actorId)) db' →
      Commit a L v (.invitationAccepted invitation actorId) db' := by
    intro v L db' hL hv hjoins
    have hw₅v := (hw₆.trans hw₇).trans (hv.mono fun l hl => (hL l).mpr hl)
    have hw₃v := (hw₄.trans hw₅).trans (hw₅v.mono fun l hl => .inr hl)
    have hw₁v := hw₂.trans ((hw₃.trans hw₃v).mono fun l hl => .inr hl)
    obtain ⟨rfl, hlocked, current, hcurrent, hid, hmatch⟩ := one_of_written hinv₅ hw₅v
      (fun i hmatch => by
        simp only [Bool.and_eq_true, decide_eq_true_eq] at hmatch; exact hmatch.1.1)
      hids hone
    simp only [Bool.and_eq_true, decide_eq_true_eq] at hmatch
    obtain ⟨l, d, hl, hrest⟩ := hread
    exact .invitationAccepted invitation current actorId inviterId actorEmail token now db' hreq
      ((hL _).mpr (.inr (.inl rfl))) ((hL _).mpr (.inl hlocked))
      ⟨(hL _).mpr (.inr (.inr (.inl rfl))), (hw₁v.usable hinv₁ (.inl rfl)).mpr husable⟩
      ⟨l, d, hl.trans (hw₁.log_suffix.trans hw₁v.log_suffix), hrest⟩ hcurrent hid hmatch.1.2
      hmatch.2 hinviter (hchecked.stable hw₃v hinv₃ (.inl rfl)) hjoins
  have hheld : ∀ l, (l ∈ found.map RowLock.workspaceInvitation ∨
      l = .workspace invitation.workspaceId ∨ l = .user actorId ∨ False) ↔ _ := fun _ => .rfl
  have hlookup : (w₇.db.updateInvitations ids
      (WorkspaceInvitation.accepted now actorId)).membershipOf? invitation.workspaceId actorId =
        w₇.db.membershipOf? invitation.workspaceId actorId := rfl
  simp only [Ctx.start, id_eq, hlookup]
  cases hfound : w₇.db.membershipOf? invitation.workspaceId actorId with
  | some previous =>
    refine wp_ensure (fun hleft => wp_modify fun w₈ hw₈ => wp_pure fun w₉ hw₉ => ⟨?_, trivial⟩)
      fun _ => hlenient _ _ _
    exact hcommit w₉ _ _ hheld (hw₈.trans hw₉)
      (.of_found (hw₈.trans hw₉) hinv₇ (.inr (.inl rfl)) hfound hleft)
  | none =>
    refine wp_drawId hinv₇ fun w₈ id hw₈ hdrawn => ?_
    rw [← bind_pure (createMembership _)]
    refine wp_createMembership hlenient fun w₉ w₁₀ hw₉ hw₁₀ hexists => wp_pure
      fun w₁₁ hw₁₁ => ⟨?_, trivial⟩
    have hw₁₀₁₁ := hw₁₀.trans hw₁₁
    exact hcommit w₁₁ _ _ hheld ((hw₈.trans hw₉).trans hw₁₀₁₁) (.of_none (hw₈.trans hw₉) hw₁₀₁₁
      hinv₇ (.inr (.inl rfl)) hfound hexists rfl rfl (hdrawn.stable (hw₉.trans hw₁₀₁₁)))

theorem accept_judged {actorEmail token : String} (hinv : Inv w)
    (hreq : a.req = .acceptInvitation actorId actorEmail token) :
    wp guarantee a (accept env token actorId actorEmail) (fun _ _ _ => True) Ctx.start w := by
  unfold accept
  refine wp_selectObserved fun w₁ hw₁ => ?_
  have hlookup : Commit a (fun _ => False) w₁
      (.invitationRead (findByToken env token w₁.db)) w₁.db :=
    .invitationRead _ fun i hi => List.mem_of_find?_eq_some hi
  have hinv₁ := (hw₁.inv hinv).move (.act a _ _ _ hlookup)
  simp only [Ctx.start, id_eq]
  refine ⟨hlookup, wp_orThrow (fun found hfound => ?_) fun _ => trivial⟩
  obtain ⟨invitation, hfind, rfl⟩ := Option.map_eq_some_iff.mp hfound
  refine wp_ensure (fun hstatus => wp_ensure (fun hlive => wp_quiet quiet_assertIsInvitee
    (fun _ w₂ hw₂ => wp_now fun w₃ hw₃ => wp_ensure (fun hfresh => wp_now fun w₄ hw₄ =>
      wp_catchError (wp_transaction ?_)) fun _ => trivial) fun _ _ => trivial) fun _ => trivial)
        fun _ => trivial
  have hw₁₄ := (hw₂.trans hw₃).trans hw₄
  refine acceptTransaction_judged (hw₁₄.inv hinv₁) hreq ⟨w₁.log, w₁.db, ?_,
    List.mem_of_find?_eq_some hfind, Database.isLiveWorkspace_iff.mp hlive⟩
  rw [← hfind]
  exact hw₁₄.log_suffix

end NestApi
