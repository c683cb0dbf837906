import NestApi.Properties.Runs

/-!
# Every live workspace has an owner

Each commit that touches a roster or takes an account out of service leaves every live
workspace an owner who can act. The operations lock different rows, so the argument goes by
the workspace lock: without it a commit cannot end an ownership, and under it the check the
operation made is still true.
-/

namespace NestApi

open Txn

variable {a : Agent Request} {L : RowLock → Prop} {w : SystemWorld} {ev : Event}
  {db db' : Database} {workspaceId actorId userId : Uuid}

/-- The workspace has an owner who can act. -/
def Database.Owned (db : Database) (workspaceId : Uuid) : Prop :=
  ∃ m, db.EffectiveOwner workspaceId m

/-- Every workspace that is not soft-deleted has an owner who can act. -/
def Database.AllOwned (db : Database) : Prop :=
  ∀ workspaceId, db.LiveWorkspace workspaceId → db.Owned workspaceId

/-- The entry is an update that sets an account inactive without the guarded path. -/
def plainDeactivation (e : Entry Database Event Request) : Bool :=
  match e.event, e.agent.req with
  | .userUpdated _, .updateUser _ _ dto => dto.isActive = some false
  | _, _ => false

/-- Every update of the history that set an account inactive read an active account, and took
the guarded path. -/
def DeactivationsGuarded (log : List (Entry Database Event Request)) : Prop :=
  ∀ e ∈ log, plainDeactivation e = false

instance (log : List (Entry Database Event Request)) : Decidable (DeactivationsGuarded log) :=
  inferInstanceAs (Decidable (∀ e ∈ log, plainDeactivation e = false))

/-! ### Rosters -/

theorem usable_updateUser_of_ne {x : Uuid} {f : Rewrite User.id} (hx : x ≠ userId) :
    (db.updateUser userId f).Usable x ↔ db.Usable x := by
  have hfind : (db.updateUser userId f).users.find? x = db.users.find? x :=
    Table.find?_update_of_not_mem (by simpa using hx)
  rw [usable_iff_find?, usable_iff_find?, hfind]

/-- An owner keeps the membership when the row that is written is another one. -/
theorem owner_of_updateMembership {m owner : WorkspaceMembership}
    {f : Rewrite WorkspaceMembership.id} (howner : db.EffectiveOwner workspaceId owner)
    (hne : owner.id ≠ m.id) :
    (db.updateMemberships [m.id] f).EffectiveOwner workspaceId owner := by
  obtain ⟨hmem, hrest⟩ := howner
  have hkept : owner ∈ (db.updateMemberships [m.id] f).workspaceMemberships :=
    Table.mem_update_of_not_mem hmem (by simpa using hne)
  exact ⟨hkept, hrest⟩

/-- Joining ends no ownership. -/
theorem Joins.owned {role : SeededRoleName} (h : Joins a L w workspaceId userId role db db')
    (hdb : db.workspaceMemberships = w.db.workspaceMemberships) {owner : WorkspaceMembership}
    (howner : db.EffectiveOwner workspaceId owner) : db'.EffectiveOwner workspaceId owner := by
  cases h with
  | created m =>
    obtain ⟨hmem, hrest⟩ := howner
    exact ⟨Table.mem_insert_of_mem hmem, hrest⟩
  | rejoined m _ _ _ hmem _ _ hleft =>
    refine owner_of_updateMembership howner fun hid => ?_
    have hsame : owner = m := Table.eq_of_key (hdb ▸ howner.1) hmem hid
    have hactive : owner.status = .active := howner.2.2.1.2
    rw [hsame, hleft] at hactive
    cases hactive

/-- A roster operation leaves its workspace an owner. -/
theorem RosterWrite.owned {op : RosterOperation} {target : Option WorkspaceMembership}
    {granted : Option SeededRoleName} {n : ℕ}
    (h : RosterWrite a L w workspaceId actorId n op target granted db') (hstale : ¬ Stale w)
    (hlive : w.db.LiveWorkspace workspaceId) (howned : w.db.Owned workspaceId) :
    db'.Owned workspaceId := by
  obtain ⟨owner, howner⟩ := howned
  -- what a check under the lock found is there
  have hchecked : ∀ {P : WorkspaceMembership → Prop}, OwnedBy P w workspaceId →
      ∃ m, w.db.EffectiveOwner workspaceId m ∧ P m := by
    intro P hP
    rcases hP with hbad | hclosed | hother
    · exact absurd hbad hstale
    · exact absurd hlive hclosed
    · exact hother
  cases h with
  | add _ _ _ _ hjoins => exact ⟨owner, hjoins.owned rfl howner⟩
  | changeRole _ m role _ hmem hworkspace happoint hother =>
    by_cases hid : owner.id = m.id
    · have hsame : owner = m := Table.eq_of_key howner.1 hmem hid
      subst hsame
      by_cases hrole : role = .workspaceOwner
      · refine ⟨(WorkspaceMembership.withRole role actorId).row owner, ?_, hworkspace,
          ⟨hrole, howner.2.2.1.2⟩, happoint.2⟩
        exact Table.mem_update_of_mem hmem (by simp)
      · obtain ⟨other, hactive, hne⟩ := hchecked (hother howner.2.2.1.1 hrole)
        exact ⟨other, owner_of_updateMembership hactive hne⟩
    · exact ⟨owner, owner_of_updateMembership howner hid⟩
  | reactivate _ m _ hmem hworkspace happoint hsuspended =>
    refine ⟨owner, owner_of_updateMembership howner fun hid => ?_⟩
    have hsame : owner = m := Table.eq_of_key howner.1 hmem hid
    have hactive : owner.status = .active := howner.2.2.1.2
    rw [hsame, hsuspended] at hactive
    cases hactive
  | leave _ _ _ m _ _ _ _ _ hmem _ _ _ hother =>
    by_cases hid : owner.id = m.id
    · have hsame : owner = m := Table.eq_of_key howner.1 hmem hid
      obtain ⟨other, hactive, hne⟩ := hchecked (hother (hsame ▸ howner.2.2.1))
      exact ⟨other, owner_of_updateMembership hactive hne⟩
    · exact ⟨owner, owner_of_updateMembership howner hid⟩
  | transferOwnership _ m outgoing _ _ hmem hworkspace happoint hactive _ houtgoing =>
    have hkept : m ∈ (w.db.updateMemberships outgoing
        (WorkspaceMembership.withRole .workspaceAdmin actorId)).workspaceMemberships :=
      Table.mem_update_of_not_mem hmem fun hid => ((houtgoing m hmem).mp hid).2.2 rfl
    refine ⟨(WorkspaceMembership.withRole .workspaceOwner actorId).row m, ?_, hworkspace,
      ⟨rfl, hactive⟩, happoint.2⟩
    exact Table.mem_update_of_mem hkept (by simp)
  | createInvitation => exact ⟨owner, howner⟩

/-! ### Accounts -/

/-- An account that leaves service owns no live workspace alone. -/
theorem Commit.sessionsEnded_owned {reason : SessionEnd} {cutoff : ℕ}
    (h : Commit a L w (.sessionsEnded reason userId cutoff) db') (hstale : ¬ Stale w)
    (hlive : db'.LiveWorkspace workspaceId) (howned : w.db.Owned workspaceId) :
    db'.Owned workspaceId := by
  have hwas : w.db.LiveWorkspace workspaceId := (h.live hlive).resolve_right (by simp)
  obtain ⟨owner, hmem, hworkspace, hactive, husable⟩ := howned
  cases h with
  | sessionsEnded _ _ _ data actorId closed _ closedAt _ hends hreason =>
    by_cases huser : owner.userId = userId
    · by_cases hkept : ((w.db.updateWorkspaces closed
          (Workspace.deleted closedAt userId)).updateUser userId
            (data.endSessions actorId cutoff)).Usable userId
      · exact ⟨owner, hmem, hworkspace, hactive, huser ▸ hkept⟩
      · have hleaves : LeavesService L w userId closed := by
          cases reason with
          | deactivation => exact hreason.2.1
          | deletion => exact hreason.2.1
          | erasure => exact hreason.1
          | passwordChange | emailChange | revocation =>
            refine absurd ((usable_updateUser fun u => ?_).mpr (huser ▸ husable)) hkept
            simp [UserUpdateInput.endSessions, UserUpdateInput.apply, User.IsUsable, hreason.2.1,
              hreason.2.2]
        obtain ⟨-, hclosed | hother⟩ :=
          hleaves workspaceId hwas ⟨owner, hmem, hworkspace, huser, hactive⟩
        · obtain ⟨ws', hws', hid, hdeleted⟩ := hlive
          rcases Table.of_mem_update hws' with ⟨-, hnot⟩ | ⟨ws, -, -, rfl⟩
          · exact absurd (hid ▸ hclosed) hnot
          · cases hdeleted
        · rcases hother with hbad | hdead | ⟨other, ⟨hmem', hworkspace', hactive', husable'⟩, hne⟩
          · exact absurd hbad hstale
          · exact absurd hwas hdead
          · exact ⟨other, hmem', hworkspace', hactive', (usable_updateUser_of_ne hne).mpr husable'⟩
    · exact ⟨owner, hmem, hworkspace, hactive, (usable_updateUser_of_ne huser).mpr husable⟩

/-! ### Every commit -/

/-- A plain update that sets no account inactive leaves every account usable that was. -/
theorem Commit.userUpdated_usable (h : Commit a L w (.userUpdated userId) db')
    (hguarded : plainDeactivation ⟨a, .userUpdated userId, db'⟩ = false) {x : Uuid}
    (husable : w.db.Usable x) : db'.Usable x := by
  cases h with
  | userUpdated _ existing dto actorId hreq =>
    have hdto : dto.isActive ≠ some false := by
      simpa [plainDeactivation, hreq] using hguarded
    by_cases hx : x = userId
    · subst hx
      obtain ⟨u, hu, hid, hlive, hactive⟩ := husable
      refine ⟨(UsersService.updateData existing dto actorId).rewrite.row u,
        Table.mem_update_of_mem hu (by simp [hid]), hid, hlive, ?_⟩
      have hvalue : dto.isActive.getD u.isActive = true := by
        rcases hd : dto.isActive with _ | _ | _
        · exact hactive
        · exact absurd hd hdto
        · rfl
      exact hvalue
    · exact (usable_updateUser_of_ne hx).mpr husable

/-- The step: a commit keeps every live workspace owned. -/
theorem Commit.allOwned (h : Commit a L w ev db') (hstale : ¬ Stale w)
    (hguarded : plainDeactivation ⟨a, ev, db'⟩ = false) (howned : w.db.AllOwned) :
    db'.AllOwned := by
  intro workspaceId hlive
  rcases h.live hlive with hwas | ⟨rfl, hdrawn⟩
  · obtain ⟨owner, howner⟩ := howned workspaceId hwas
    have hsame : db'.workspaceMemberships = w.db.workspaceMemberships →
        (∀ x, w.db.Usable x → db'.Usable x) → db'.Owned workspaceId := by
      intro hmembers husers
      exact ⟨owner, hmembers ▸ howner.1, howner.2.1, howner.2.2.1, husers _ howner.2.2.2⟩
    cases h with
    | workspaceCreated ws m =>
      exact ⟨owner, Table.mem_insert_of_mem howner.1, howner.2⟩
    | rosterChanged op id actorId target granted _ _ _ _ _ _ _ hwrite =>
      by_cases hid : workspaceId = id
      · subst hid
        exact hwrite.owned hstale hwas ⟨owner, howner⟩
      · have hne : owner.workspaceId ≠ id := fun h => hid (howner.2.1 ▸ h)
        refine ⟨owner, (hwrite.memberships hne).mpr howner.1, howner.2.1, howner.2.2.1, ?_⟩
        exact (usable_of_users_eq hwrite.tables.1).mpr howner.2.2.2
    | invitationAccepted invitation _ _ _ _ _ _ _ _ _ _ _ _ _ _ _ _ _ _ hjoins =>
      by_cases hid : workspaceId = invitation.workspaceId
      · subst hid
        exact ⟨owner, hjoins.owned rfl howner⟩
      · have hne : owner.workspaceId ≠ invitation.workspaceId := fun h => hid (howner.2.1 ▸ h)
        refine ⟨owner, (hjoins.memberships rfl hne).mpr howner.1, howner.2.1, howner.2.2.1, ?_⟩
        exact (usable_of_users_eq hjoins.tables.1).mpr howner.2.2.2
    | userUpdated userId existing dto actorId hreq hlock hread hbranch =>
      refine hsame rfl fun x hx => ?_
      exact Commit.userUpdated_usable (.userUpdated userId existing dto actorId hreq hlock hread
        hbranch) hguarded hx
    | passwordResetMinted x data _ hactive hdeleted =>
      refine hsame rfl fun x hx => (usable_updateUser fun u => ?_).mpr hx
      simp [UserUpdateInput.rewrite, UserUpdateInput.apply, User.IsUsable, hactive, hdeleted]
    | sessionsEnded reason userId cutoff data actorId closed revoked closedAt revokedAt hends
        hreason =>
      exact Commit.sessionsEnded_owned (.sessionsEnded reason userId cutoff data actorId closed
        revoked closedAt revokedAt hends hreason) hstale hlive ⟨owner, howner⟩
    | membershipUpdated =>
      obtain ⟨m, hm, hlike⟩ := SameRoster.of_annotated.kept owner howner.1 howner.2.1
      refine ⟨m, hm, hlike.workspaceId.trans howner.2.1, ?_, ?_⟩
      · exact hlike.isActiveOwner.mpr howner.2.2.1
      · exact hlike.userId ▸ howner.2.2.2
    | _ => exact hsame rfl fun _ hx => hx
  · cases h with
    | workspaceCreated ws m actorId dto _ _ happoint _ hm _ hworkspace huser howner =>
      have hfresh : ∀ x ∈ w.db.workspaceMemberships, x.id ≠ m.id := by
        intro x hx hid
        exact hm.unused w.db (w.since_db (Nat.zero_le _)) (.inr (.inr (.inl ⟨x, hx, .inl hid⟩)))
      have hmem : m ∈ (w.db.insertWorkspace ws).workspaceMemberships.insert m :=
        (Table.mem_insert hfresh).mpr (.inr rfl)
      exact ⟨m, hmem, hworkspace, howner, huser ▸ happoint.2⟩

/-! ### Every run -/

variable {env : Env} {Allowed : Request → Prop} {init : Database} {σ : SystemConfig}

/-- Ownership is an invariant: whatever the requests and however they interleave, every live
workspace has an active owner whose account is usable. -/
theorem workspaces_owned (hrun : RunsTo env Allowed init σ) (hinit : init.AllOwned)
    (hguarded : DeactivationsGuarded σ.world.log) : σ.world.db.AllOwned := by
  have hall : DeactivationsGuarded σ.world.log → ¬ Stale σ.world ∧ σ.world.db.AllOwned := by
    refine hrun.history (J := fun w => DeactivationsGuarded w.log → ¬ Stale w ∧ w.db.AllOwned)
      (fun now _ => ⟨?_, hinit⟩) id id ?_
    · rintro ⟨e, l, hl, -⟩
      simp at hl
    · intro w a L ev db _ _ _ hcommit hJ hlog
      obtain ⟨hstale, howned⟩ := hJ fun e he => hlog e (by simp [World.push, he])
      have hplain : plainDeactivation ⟨a, ev, db⟩ = false :=
        hlog ⟨a, ev, db⟩ (by simp [World.push])
      refine ⟨?_, hcommit.allOwned hstale hplain howned⟩
      rintro ⟨e, l, hl, userId, hev, husable, hretired⟩
      rcases List.suffix_cons_iff.mp hl with hnew | hold
      · obtain ⟨rfl, rfl⟩ := List.cons.inj hnew
        simp only at hev hretired
        subst hev
        exact hretired (hcommit.userUpdated_usable hplain husable)
      · exact hstale ⟨e, l, hold, userId, hev, husable, hretired⟩
  exact (hall hguarded).2

/-- The invariant is a check over rows. -/
theorem allOwned_of_rows (h : ∀ ws ∈ db.workspaces.rows, ws.deletedAt = none →
    ∃ m ∈ db.workspaceMemberships.rows, m.workspaceId = ws.id ∧ m.IsActiveOwner ∧
      db.isUsable m.userId = true) : db.AllOwned := by
  rintro _ ⟨ws, hws, rfl, hlive⟩
  obtain ⟨m, hm, hworkspace, howner, husable⟩ := h ws hws hlive
  exact ⟨m, hm, hworkspace, howner, Database.isUsable_iff.mp husable⟩

/-- Two owners leave at once: one is deactivated while the other suspends them. -/
def bothLeave : List (Order Request) :=
  [.serve 1 (.updateUser none "ann" ⟨none, none, some false⟩), .statements 1 3,
    .serve 2 (.transition .suspend "ann" "acme" "bob-m"), .proceed 2, .proceed 2, .proceed 1,
    .proceed 2]

theorem workspaces_owned_bothLeave :
    (Sample.perform (Sample.database [("ann", .workspaceOwner), ("bob", .workspaceOwner)] [])
      5000 bothLeave).world.db.AllOwned :=
  workspaces_owned (Sample.runsTo_perform _ _ _)
    (allOwned_of_rows (by decide +kernel)) (by decide +kernel)

end NestApi
