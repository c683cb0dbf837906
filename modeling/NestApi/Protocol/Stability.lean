import NestApi.Protocol.Invariant

/-!
# What a lock keeps still

While a process holds a lock, what it read under that lock stays true whatever the others
commit. Ownership is the one fact that needs locks of two kinds: under the lock of a
workspace its owners stay owners, and their accounts stay usable because taking one out of
service needs that lock too.
-/

namespace NestApi

open Txn

variable {a b : Agent Request} {L held : RowLock → Prop} {w w' : SystemWorld} {ev : Event}
  {db : Database} {workspaceId userId : Uuid}

/-- What no commit under other locks destroys survives interference. -/
theorem Txn.Interf.keeps {P : Database → Prop} (hw : Interf guarantee a held w w') (hinv : Inv w)
    (hcommit : ∀ {v : SystemWorld} {b L ev db}, Inv v → (∀ l, held l → ¬ L l) →
      Commit b L v ev db → P v.db → P db) (hP : P w.db) : P w'.db := by
  refine (hw.stable (P := fun v => Inv v ∧ P v.db) (fun {v v'} hv henv => ?_) ⟨hinv, hP⟩).2
  refine ⟨hv.1.move henv.move, ?_⟩
  cases henv with
  | tick | issue | own => exact hv.2
  | other b others ev db _ hdisjoint h => exact hcommit hv.1 hdisjoint h hv.2

section Locked

variable (hw : Interf guarantee a held w w') (hinv : Inv w)

include hw hinv

/-! ### Rows -/

theorem Txn.Interf.user (hlock : held (.user userId)) :
    w'.db.users.find? userId = w.db.users.find? userId :=
  hw.keeps (P := fun db => db.users.find? userId = w.db.users.find? userId) hinv
    (fun _ hdisjoint h hold =>
      ((h.users userId).resolve_left (hdisjoint _ hlock)).trans hold) rfl

theorem Txn.Interf.usable (hlock : held (.user userId)) :
    w'.db.Usable userId ↔ w.db.Usable userId := by
  rw [usable_iff_find?, usable_iff_find?, hw.user hinv hlock]

theorem Txn.Interf.workspace (hlock : held (.workspace workspaceId)) :
    w'.db.workspaces.find? workspaceId = w.db.workspaces.find? workspaceId :=
  hw.keeps (P := fun db => db.workspaces.find? workspaceId = w.db.workspaces.find? workspaceId)
    hinv (fun _ hdisjoint h hold =>
      ((h.workspaces workspaceId).resolve_left (hdisjoint _ hlock)).trans hold) rfl

/-- A token under lock keeps its row. -/
theorem Txn.Interf.token {t : RefreshToken} (hlock : held (.refreshToken t.id))
    (ht : t ∈ w.db.refreshTokens) : t ∈ w'.db.refreshTokens := by
  refine hw.keeps (P := fun db => t ∈ db.refreshTokens) hinv ?_ ht
  intro v b L ev db _ hdisjoint h ht
  rcases h.tokens t.id with hL | hdrawn | hfind
  · exact absurd hL (hdisjoint _ hlock)
  · refine absurd ?_ (hdrawn.unused v.db (v.since_db (Nat.zero_le _)))
    exact .inr (.inr (.inr (.inr ⟨t, ht, .inl rfl⟩)))
  · exact (Table.mem_congr hfind).mpr ht

/-! ### Rows of a workspace, of a user, of a family -/

/-- Under the lock of a workspace its roster stands still, annotations apart. -/
theorem Txn.Interf.roster (hlock : held (.workspace workspaceId)) :
    SameRoster workspaceId w.db w'.db :=
  hw.keeps (P := fun db => SameRoster workspaceId w.db db) hinv
    (fun _ hdisjoint h hold =>
      hold.trans ((h.memberships workspaceId).resolve_left (hdisjoint _ hlock))) (.of_eq rfl)

/-- A membership that was read under the lock of its workspace is still there. -/
theorem Txn.Interf.membership {m : WorkspaceMembership} (hlock : held (.workspace workspaceId))
    (hm : m ∈ w.db.workspaceMemberships) (hworkspace : m.workspaceId = workspaceId) :
    ∃ m' ∈ w'.db.workspaceMemberships, m.Like m' :=
  (hw.roster hinv hlock).kept m hm hworkspace

theorem Txn.Interf.member (hlock : held (.workspace workspaceId)) {role : SeededRoleName} :
    w'.db.Member workspaceId userId role ↔ w.db.Member workspaceId userId role := by
  have hroster := hw.roster hinv hlock
  constructor
  · rintro ⟨m', hm', hworkspace, huser, hactive, hrole⟩
    obtain ⟨m, hm, hlike⟩ := hroster.grown m' hm' hworkspace
    exact ⟨m, hm, hlike.workspaceId ▸ hworkspace, hlike.userId ▸ huser, hlike.status ▸ hactive,
      hlike.role ▸ hrole⟩
  · rintro ⟨m, hm, hworkspace, huser, hactive, hrole⟩
    obtain ⟨m', hm', hlike⟩ := hroster.kept m hm hworkspace
    exact ⟨m', hm', hlike.workspaceId.trans hworkspace, hlike.userId.trans huser,
      hlike.status.trans hactive, hlike.role.trans hrole⟩

/-- An invitation under lock keeps its row. -/
theorem Txn.Interf.invitation {i : WorkspaceInvitation} (hlock : held (.workspaceInvitation i.id))
    (hi : i ∈ w.db.workspaceInvitations) : i ∈ w'.db.workspaceInvitations := by
  refine hw.keeps (P := fun db => i ∈ db.workspaceInvitations) hinv ?_ hi
  intro v b L ev db _ hdisjoint h hi
  rcases h.invitations i.id with hL | hdrawn | hfind
  · exact absurd hL (hdisjoint _ hlock)
  · refine absurd ?_ (hdrawn.unused v.db (v.since_db (Nat.zero_le _)))
    exact .inr (.inr (.inr (.inl ⟨i, hi, rfl⟩)))
  · exact (Table.mem_congr hfind).mpr hi

/-- Under the lock of a workspace no invitation to it is added. -/
theorem Txn.Interf.invitationOf (hlock : held (.workspace workspaceId))
    {i' : WorkspaceInvitation} (hi' : i' ∈ w'.db.workspaceInvitations)
    (hworkspace : i'.workspaceId = workspaceId) :
    ∃ i ∈ w.db.workspaceInvitations, i.Evolves i' := by
  refine hw.keeps (P := fun db => ∀ i' ∈ db.workspaceInvitations, i'.workspaceId = workspaceId →
    ∃ i ∈ w.db.workspaceInvitations, i.Evolves i') hinv ?_ (fun i hi _ => ⟨i, hi, .refl i⟩) i' hi'
      hworkspace
  intro v b L ev db _ hdisjoint h hold i' hi' hworkspace
  rcases h.invitationBorn hi' with ⟨i, hi, hevolves⟩ | ⟨-, hL, -⟩
  · obtain ⟨i₀, hi₀, hevolves₀⟩ := hold i hi (hevolves.workspaceId ▸ hworkspace)
    exact ⟨i₀, hi₀, hevolves₀.trans hevolves⟩
  · exact absurd (hworkspace ▸ hL) (hdisjoint _ hlock)

/-- Under the lock of a user no token of theirs is added. -/
theorem Txn.Interf.tokenOf (hlock : held (.user userId)) {t' : RefreshToken}
    (ht' : t' ∈ w'.db.refreshTokens) (huser : t'.userId = userId) :
    ∃ t ∈ w.db.refreshTokens, t.Evolves t' := by
  refine hw.keeps (P := fun db => ∀ t' ∈ db.refreshTokens, t'.userId = userId →
    ∃ t ∈ w.db.refreshTokens, t.Evolves t') hinv ?_ (fun t ht _ => ⟨t, ht, .refl t⟩) t' ht' huser
  intro v b L ev db _ hdisjoint h hold t' ht' huser
  rcases h.tokenBorn ht' with ⟨t, ht, hevolves⟩ | ⟨-, hL, -⟩
  · obtain ⟨t₀, ht₀, hevolves₀⟩ := hold t ht (hevolves.userId ▸ huser)
    exact ⟨t₀, ht₀, hevolves₀.trans hevolves⟩
  · exact absurd (huser ▸ hL) (hdisjoint _ hlock)

omit hinv in
/-- A family that was used and has no token left never has one again. -/
theorem Txn.Interf.noFamily {familyId : Uuid} (hknown : ∃ db, w.Since 0 db ∧ db.Mentions familyId)
    (hempty : ∀ t ∈ w.db.refreshTokens, t.familyId ≠ familyId) :
    ∀ t ∈ w'.db.refreshTokens, t.familyId ≠ familyId := by
  refine (hw.stable (P := fun v => (∃ db, v.Since 0 db ∧ db.Mentions familyId) ∧
    ∀ t ∈ v.db.refreshTokens, t.familyId ≠ familyId) (fun {v v'} hv henv => ?_)
      ⟨hknown, hempty⟩).2
  obtain ⟨⟨d, hd, hmentions⟩, hnone⟩ := hv
  refine ⟨⟨d, Interf.since (.single henv) hd, hmentions⟩, ?_⟩
  cases henv with
  | tick | issue | own => exact hnone
  | other b others ev db _ _ h =>
    intro t' ht' hid
    rcases Commit.tokenBorn h ht' with ⟨t, ht, hevolves⟩ | ⟨-, -, hdrawn | ⟨t, ht, hid', -⟩⟩
    · exact hnone t ht (hevolves.familyId ▸ hid)
    · exact hdrawn.unused d hd (hid ▸ hmentions)
    · exact hnone t ht (hid'.trans hid)

/-! ### Ownership -/

theorem Txn.Interf.live (hlock : held (.workspace workspaceId)) :
    w'.db.LiveWorkspace workspaceId ↔ w.db.LiveWorkspace workspaceId := by
  rw [live_iff_find?, live_iff_find?, hw.workspace hinv hlock]

/-- Under the lock of a user they do not become an owner of one more live workspace. -/
theorem Txn.Interf.owned (hlock : held (.user userId))
    (howned : w'.db.LiveWorkspace workspaceId ∧ w'.db.ActiveOwner workspaceId userId) :
    w.db.LiveWorkspace workspaceId ∧ w.db.ActiveOwner workspaceId userId := by
  refine hw.keeps (P := fun db => db.LiveWorkspace workspaceId ∧
    db.ActiveOwner workspaceId userId → w.db.LiveWorkspace workspaceId ∧
      w.db.ActiveOwner workspaceId userId) hinv ?_ id howned
  intro v b L ev db _ hdisjoint h hold howned
  exact hold ((h.appoints howned.1 howned.2).resolve_left (hdisjoint _ hlock))

end Locked

theorem Stale.mono (h : Stale w) (hlog : w.log <:+ w'.log) (hinit : w'.init = w.init) :
    Stale w' := by
  obtain ⟨e, l, hl, userId, hevent, husable⟩ := h
  exact ⟨e, l, hl.trans hlog, userId, hevent, by rwa [hinit]⟩

/-- A commit under other locks leaves the workspace its owner. -/
theorem OwnedBy.push {P : WorkspaceMembership → Prop} (hP : ∀ {m m'}, m.Like m' → P m → P m')
    (h : OwnedBy P w workspaceId) (hcommit : Commit b L w ev db)
    (hlock : ¬ L (.workspace workspaceId)) :
    OwnedBy P (w.push b ev db) workspaceId := by
  have hfind := (hcommit.workspaces workspaceId).resolve_left hlock
  have hmembers := (hcommit.memberships workspaceId).resolve_left hlock
  rcases h with hstale | hclosed | ⟨m, ⟨hm, hworkspace, howner, husable⟩, hother⟩
  · exact .inl (hstale.mono (List.suffix_cons _ _) rfl)
  · exact .inr (.inl (by rwa [World.db_push, live_iff_find?, hfind, ← live_iff_find?]))
  · by_cases hlive : w.db.LiveWorkspace workspaceId
    · by_cases hkept : db.Usable m.userId
      · obtain ⟨m', hm', hlike⟩ := hmembers.kept m hm hworkspace
        have howner' : db.EffectiveOwner workspaceId m' :=
          ⟨hm', hlike.workspaceId.trans hworkspace, hlike.isActiveOwner.mpr howner,
            hlike.userId ▸ hkept⟩
        exact .inr (.inr ⟨m', howner', hP hlike hother⟩)
      · rcases hcommit.retires husable hkept with rfl | hlocked
        · exact .inl ⟨_, _, List.suffix_refl _, _, rfl, husable, hkept⟩
        · exact absurd (hlocked workspaceId hlive ⟨m, hm, hworkspace, rfl, howner⟩) hlock
    · exact .inr (.inl (by rwa [World.db_push, live_iff_find?, hfind, ← live_iff_find?]))

/-- Under the lock of a workspace its owner stays. -/
theorem OwnedBy.stable {P : WorkspaceMembership → Prop} (hP : ∀ {m m'}, m.Like m' → P m → P m')
    (hw : Interf guarantee a held w w') (hlock : held (.workspace workspaceId))
    (h : OwnedBy P w workspaceId) : OwnedBy P w' workspaceId := by
  refine hw.stable (P := fun v => OwnedBy P v workspaceId) (fun {v v'} hv henv => ?_) h
  cases henv with
  | tick | issue => exact hv
  | other b others ev db _ hdisjoint h => exact hv.push hP h (hdisjoint _ hlock)
  | own ev h => exact hv.push hP h id

/-- Being somebody else's membership is no annotation. -/
theorem otherUser_of_like {m m' : WorkspaceMembership} (hlike : m.Like m')
    (h : m.userId ≠ userId) : m'.userId ≠ userId := by
  rwa [hlike.userId]

theorem otherId_of_like {id : Uuid} {m m' : WorkspaceMembership} (hlike : m.Like m')
    (h : m.id ≠ id) : m'.id ≠ id := by
  rwa [hlike.id_eq]

/-! ### Cutoffs -/

theorem Commit.sessionsEnded_locked {reason : SessionEnd} {cutoff : ℕ}
    (h : Commit a L w (.sessionsEnded reason userId cutoff) db) : L (.user userId) := by
  cases h with
  | sessionsEnded _ _ _ _ _ _ _ _ _ hends => exact hends.lock

/-- Under the lock of a user no other session end moves the cutoff. -/
theorem Txn.Interf.cutoffs {cutoff : ℕ} (hw : Interf guarantee a held w w')
    (hlock : held (.user userId))
    (h : ∀ e ∈ w.log, ∀ reason earlier,
      e.event = .sessionsEnded reason userId earlier → earlier ≤ cutoff) :
    ∀ e ∈ w'.log, ∀ reason earlier,
      e.event = .sessionsEnded reason userId earlier → earlier ≤ cutoff := by
  refine hw.stable (P := fun v => ∀ e ∈ v.log, ∀ reason earlier,
    e.event = .sessionsEnded reason userId earlier → earlier ≤ cutoff)
      (fun {v v'} hv henv => ?_) h
  cases henv with
  | tick | issue => exact hv
  | other b others ev db _ hdisjoint h =>
    intro e he reason earlier hev
    rcases List.mem_cons.mp he with rfl | he
    · subst hev
      exact absurd (Commit.sessionsEnded_locked h) (hdisjoint _ hlock)
    · exact hv e he reason earlier hev
  | own ev h =>
    intro e he reason earlier hev
    rcases List.mem_cons.mp he with rfl | he
    · subst hev
      exact absurd (Commit.sessionsEnded_locked h) id
    · exact hv e he reason earlier hev

/-! ### What a session end knows -/

theorem EndsSessions.stable {cutoff : ℕ} {revoked : List Uuid}
    (hw : Interf guarantee a held w w') (hinv : Inv w)
    (h : EndsSessions held w userId cutoff revoked) :
    EndsSessions held w' userId cutoff revoked where
  lock := h.lock
  complete t' ht' huser hrevoked := by
    obtain ⟨t, ht, hevolves⟩ := hw.tokenOf hinv h.lock ht' huser
    rw [hevolves.id_eq]
    exact h.complete t ht (hevolves.userId ▸ huser) (hevolves.revoked hrevoked)
  locked := h.locked
  instant := by
    obtain ⟨t, ht, hcutoff⟩ := h.instant
    exact ⟨t, ht.trans hw.now_le, hcutoff⟩
  latest := hw.cutoffs h.lock h.latest

theorem LeavesService.stable {closed : List Uuid} (hw : Interf guarantee a held w w')
    (hinv : Inv w) (hlock : held (.user userId)) (h : LeavesService held w userId closed) :
    LeavesService held w' userId closed := by
  intro workspaceId hlive howner
  obtain ⟨hlive₀, howner₀⟩ := hw.owned hinv hlock ⟨hlive, howner⟩
  obtain ⟨hlocked, howned⟩ := h workspaceId hlive₀ howner₀
  exact ⟨hlocked, howned.imp_right (OwnedBy.stable otherUser_of_like hw hlocked)⟩

theorem EndReason.stable {data : UserUpdateInput} {closed : List Uuid} {reason : SessionEnd}
    (hw : Interf guarantee a held w w') (hinv : Inv w) (hlock : held (.user userId))
    (h : EndReason a held w userId data closed reason) :
    EndReason a held w' userId data closed reason := by
  cases reason with
  | deactivation => exact ⟨h.1, h.2.1.stable hw hinv hlock, h.2.2⟩
  | deletion => exact ⟨h.1, h.2.1.stable hw hinv hlock, h.2.2⟩
  | erasure => exact ⟨h.1.stable hw hinv hlock, h.2⟩
  | passwordChange | emailChange | revocation => exact h

/-- Holding more locks says more. -/
theorem LeavesService.mono {L' : RowLock → Prop} {closed : List Uuid} (hsub : ∀ l, L l → L' l)
    (h : LeavesService L w userId closed) : LeavesService L' w userId closed :=
  fun workspaceId hlive howner =>
    (h workspaceId hlive howner).imp_left (hsub _)

theorem EndReason.mono {L' : RowLock → Prop} {data : UserUpdateInput} {closed : List Uuid}
    {reason : SessionEnd} (hsub : ∀ l, L l → L' l) (h : EndReason a L w userId data closed reason) :
    EndReason a L' w userId data closed reason := by
  cases reason with
  | deactivation => exact ⟨h.1, h.2.1.mono hsub, h.2.2⟩
  | deletion => exact ⟨h.1, h.2.1.mono hsub, h.2.2⟩
  | erasure => exact ⟨h.1.mono hsub, fun id hid => hsub _ (h.2.1 id hid), h.2.2⟩
  | passwordChange | emailChange | revocation => exact h

end NestApi
