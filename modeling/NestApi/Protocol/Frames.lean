import NestApi.Protocol.Guarantee

/-!
# What a commit leaves alone

Every row is written under its own lock, memberships under the lock of their workspace,
and new rows carry identifiers drawn for them. Two facts about ownership go across tables:
nobody becomes an owner without the lock on their account, and nobody stops being a usable
owner, except by a plain update, without the locks on what they own.
-/

namespace NestApi

open Txn Authorization WorkspaceMemberships

variable {a : Agent Request} {L : RowLock → Prop} {w : SystemWorld} {ev : Event}
  {db db' : Database} {workspaceId actorId userId : Uuid} {op : RosterOperation}
  {target : Option WorkspaceMembership} {granted : Option SeededRoleName}
  {role : SeededRoleName} {n : ℕ}

/-- Joining writes memberships only. -/
theorem Joins.tables (h : Joins a L w workspaceId userId role db db') :
    db'.users = db.users ∧ db'.workspaces = db.workspaces ∧
      db'.workspaceInvitations = db.workspaceInvitations ∧
        db'.refreshTokens = db.refreshTokens ∧ db'.userRoles = db.userRoles := by
  cases h <;> exact ⟨rfl, rfl, rfl, rfl, rfl⟩

/-- Roster operations write memberships and invitations only. -/
theorem RosterWrite.tables (h : RosterWrite a L w workspaceId actorId n op target granted db') :
    db'.users = w.db.users ∧ db'.workspaces = w.db.workspaces ∧
      db'.refreshTokens = w.db.refreshTokens ∧ db'.userRoles = w.db.userRoles := by
  cases h with
  | add _ _ _ _ hjoins =>
    obtain ⟨hu, hw, -, ht, hr⟩ := hjoins.tables
    exact ⟨hu, hw, ht, hr⟩
  | changeRole | reactivate | leave | transferOwnership | createInvitation =>
    exact ⟨rfl, rfl, rfl, rfl⟩

/-- Closing workspaces is something only an erasure does. -/
theorem EndReason.closed_locked {data : UserUpdateInput} {closed : List Uuid}
    {reason : SessionEnd} (h : EndReason a L w userId data closed reason) :
    ∀ id ∈ closed, L (.workspace id) := by
  cases reason with
  | erasure => exact h.2.1
  | deactivation | deletion | passwordChange | emailChange | revocation => simp [h.1]

/-! ### Rows and their locks -/

theorem Commit.users (h : Commit a L w ev db') (x : Uuid) :
    L (.user x) ∨ db'.users.find? x = w.db.users.find? x := by
  cases h with
  | rosterChanged _ _ _ _ _ _ _ _ _ _ _ _ hwrite => exact .inr (by rw [hwrite.tables.1])
  | invitationAccepted _ _ _ _ _ _ _ _ _ _ _ _ _ _ _ _ _ _ _ hjoins =>
    exact .inr (by rw [hjoins.tables.1]; rfl)
  | userUpdated userId _ _ _ _ hlock | passwordResetMinted userId _ hlock =>
    by_cases hx : x = userId
    · exact .inl (hx ▸ hlock)
    · exact .inr (Table.find?_update_of_not_mem (by simpa using hx))
  | sessionsEnded _ userId _ _ _ _ _ _ _ hends =>
    by_cases hx : x = userId
    · exact .inl (hx ▸ hends.lock)
    · exact .inr (Table.find?_update_of_not_mem (by simpa using hx))
  | _ => exact .inr rfl

theorem Commit.workspaces (h : Commit a L w ev db') (x : Uuid) :
    L (.workspace x) ∨ db'.workspaces.find? x = w.db.workspaces.find? x := by
  cases h with
  | rosterChanged _ _ _ _ _ _ _ _ _ _ _ _ hwrite => exact .inr (by rw [hwrite.tables.2.1])
  | invitationAccepted _ _ _ _ _ _ _ _ _ _ _ _ _ _ _ _ _ _ _ hjoins =>
    exact .inr (by rw [hjoins.tables.2.1]; rfl)
  | workspaceCreated ws _ _ _ _ hlock =>
    by_cases hx : x = ws.id
    · exact .inl (hx ▸ hlock)
    · exact .inr (Table.find?_insert hx)
  | workspaceRemoved workspaceId _ _ _ hlock =>
    by_cases hx : x = workspaceId
    · exact .inl (hx ▸ hlock)
    · exact .inr (Table.find?_update_of_not_mem (by simpa using hx))
  | sessionsEnded _ _ _ _ _ closed _ _ _ _ hreason =>
    by_cases hx : x ∈ closed
    · exact .inl (hreason.closed_locked x hx)
    · exact .inr (Table.find?_update_of_not_mem hx)
  | _ => exact .inr rfl

theorem Commit.tokens (h : Commit a L w ev db') (x : Uuid) :
    L (.refreshToken x) ∨ Drawn a w x ∨
      db'.refreshTokens.find? x = w.db.refreshTokens.find? x := by
  cases h with
  | rosterChanged _ _ _ _ _ _ _ _ _ _ _ _ hwrite => exact .inr (.inr (by rw [hwrite.tables.2.2.1]))
  | invitationAccepted _ _ _ _ _ _ _ _ _ _ _ _ _ _ _ _ _ _ _ hjoins =>
    exact .inr (.inr (by rw [hjoins.tables.2.2.2.1]; rfl))
  | sessionsEnded _ _ _ _ _ _ revoked _ _ hends =>
    by_cases hx : x ∈ revoked
    · exact .inl (hends.locked x hx)
    · exact .inr (.inr (Table.find?_update_of_not_mem hx))
  | sessionStarted t _ _ _ _ _ _ hdrawn =>
    by_cases hx : x = t.id
    · exact .inr (.inl (hx ▸ hdrawn))
    · exact .inr (.inr (Table.find?_insert hx))
  | tokenRotated t child _ _ _ hrow _ _ _ _ _ _ _ _ _ hdrawn =>
    by_cases hc : x = child.id
    · exact .inr (.inl (hc ▸ hdrawn))
    · by_cases hx : x = t.id
      · exact .inl (hx ▸ hrow)
      · exact .inr (.inr ((Table.find?_insert hc).trans
          (Table.find?_update_of_not_mem (by simpa using hx))))
  | familyRevoked _ revoked _ hlocked =>
    by_cases hx : x ∈ revoked
    · exact .inl (hlocked x hx)
    · exact .inr (.inr (Table.find?_update_of_not_mem hx))
  | tokensPurged ids hlocked =>
    by_cases hx : x ∈ ids
    · exact .inl (hlocked x hx)
    · exact .inr (.inr (Table.find?_delete hx))
  | _ => exact .inr (.inr rfl)

/-! ### Memberships and the lock of their workspace -/

/-- An update by id that does not name a membership leaves it, and adds none that was not
written over one of the named. -/
theorem mem_updateMembership {m m' : WorkspaceMembership}
    {f : Rewrite WorkspaceMembership.id} (hmem : m ∈ db.workspaceMemberships)
    (hf : (f.row m).workspaceId = m.workspaceId) (hw : m'.workspaceId ≠ m.workspaceId) :
    m' ∈ (db.updateMemberships [m.id] f).workspaceMemberships ↔ m' ∈ db.workspaceMemberships := by
  have honly : ∀ r ∈ db.workspaceMemberships, r.id ∈ [m.id] → r = m := fun r hr hid =>
    Table.eq_of_key hr hmem (by simpa using hid)
  refine Table.mem_update_frame (q := fun r => r.workspaceId ≠ m.workspaceId) hw ?_ ?_
  · intro r hr hid
    simp [honly r hr hid]
  · intro r hr hid
    simp [honly r hr hid, hf]

/-- Joining writes in one workspace. -/
theorem Joins.memberships (h : Joins a L w workspaceId userId role db db')
    (hdb : db.workspaceMemberships = w.db.workspaceMemberships) {m' : WorkspaceMembership}
    (hm' : m'.workspaceId ≠ workspaceId) :
    m' ∈ db'.workspaceMemberships ↔ m' ∈ w.db.workspaceMemberships := by
  rw [← hdb]
  cases h with
  | created m hworkspace =>
    have hne : m' ≠ m := fun he => hm' (he ▸ hworkspace)
    exact ⟨fun h => (Table.mem_of_mem_insert h).resolve_right hne, Table.mem_insert_of_mem⟩
  | rejoined m _ _ _ hmem hworkspace =>
    exact mem_updateMembership (hdb ▸ hmem) rfl (hworkspace ▸ hm')

theorem RosterWrite.memberships
    (h : RosterWrite a L w workspaceId actorId n op target granted db') {m' : WorkspaceMembership}
    (hm' : m'.workspaceId ≠ workspaceId) :
    m' ∈ db'.workspaceMemberships ↔ m' ∈ w.db.workspaceMemberships := by
  cases h with
  | add _ _ _ _ hjoins => exact hjoins.memberships rfl hm'
  | changeRole _ m _ _ hmem hworkspace | reactivate _ m _ hmem hworkspace
  | leave _ _ _ m _ _ _ _ _ hmem hworkspace =>
    exact mem_updateMembership hmem rfl (hworkspace ▸ hm')
  | transferOwnership _ m outgoing _ _ hmem hworkspace _ _ _ houtgoing =>
    have hin : ∀ r ∈ w.db.workspaceMemberships, r.id ∈ outgoing → r.workspaceId = workspaceId :=
      fun r hr hid => ((houtgoing r hr).mp hid).1
    have hdemoted : m' ∈ (w.db.updateMemberships outgoing
        (WorkspaceMembership.withRole .workspaceAdmin actorId)).workspaceMemberships ↔
          m' ∈ w.db.workspaceMemberships :=
      Table.mem_update_frame (q := fun r => r.workspaceId ≠ workspaceId) hm'
        (fun r hr hid => by simp [hin r hr hid])
        (fun r hr hid => by simp [WorkspaceMembership.withRole, hin r hr hid])
    rw [← hdemoted]
    refine mem_updateMembership (m := m) ?_ rfl (hworkspace ▸ hm')
    exact Table.mem_update_of_not_mem hmem fun hid => ((houtgoing m hmem).mp hid).2.2 rfl
  | createInvitation => rfl

/-- The roster of a workspace is the same, up to annotations. -/
structure SameRoster (workspaceId : Uuid) (db db' : Database) : Prop where
  kept : ∀ m ∈ db.workspaceMemberships, m.workspaceId = workspaceId →
    ∃ m' ∈ db'.workspaceMemberships, m.Like m'
  grown : ∀ m' ∈ db'.workspaceMemberships, m'.workspaceId = workspaceId →
    ∃ m ∈ db.workspaceMemberships, m.Like m'

theorem SameRoster.of_mem_iff (h : ∀ m, m.workspaceId = workspaceId →
    (m ∈ db'.workspaceMemberships ↔ m ∈ db.workspaceMemberships)) :
    SameRoster workspaceId db db' where
  kept m hm hworkspace := ⟨m, (h m hworkspace).mpr hm, .refl m⟩
  grown m hm hworkspace := ⟨m, (h m hworkspace).mp hm, .refl m⟩

theorem SameRoster.of_eq (h : db'.workspaceMemberships = db.workspaceMemberships) :
    SameRoster workspaceId db db' :=
  .of_mem_iff fun _ _ => by rw [h]

theorem SameRoster.trans {db'' : Database} (h : SameRoster workspaceId db db')
    (h' : SameRoster workspaceId db' db'') : SameRoster workspaceId db db'' where
  kept m hm hworkspace := by
    obtain ⟨m', hm', hlike⟩ := h.kept m hm hworkspace
    obtain ⟨m'', hm'', hlike'⟩ := h'.kept m' hm' (hlike.workspaceId.trans hworkspace)
    exact ⟨m'', hm'', hlike.trans hlike'⟩
  grown m'' hm'' hworkspace := by
    obtain ⟨m', hm', hlike'⟩ := h'.grown m'' hm'' hworkspace
    obtain ⟨m, hm, hlike⟩ := h.grown m' hm' (hlike'.workspaceId.symm.trans hworkspace)
    exact ⟨m, hm, hlike.trans hlike'⟩

/-- Annotating memberships changes no roster. -/
theorem SameRoster.of_annotated {ids : List Uuid} {notes : Option (Option String)} :
    SameRoster workspaceId db
      (db.updateMemberships ids (WorkspaceMembership.annotated notes actorId)) where
  kept m hm _ := by
    by_cases hid : m.id ∈ ids
    · exact ⟨_, Table.mem_update_of_mem hm hid, rfl⟩
    · exact ⟨m, Table.mem_update_of_not_mem hm hid, .refl m⟩
  grown m' hm' _ := by
    rcases Table.of_mem_update hm' with ⟨hold, -⟩ | ⟨m, hm, -, rfl⟩
    · exact ⟨m', hold, .refl m'⟩
    · exact ⟨m, hm, rfl⟩

/-- The memberships of a workspace change under its lock only, annotations apart. -/
theorem Commit.memberships (h : Commit a L w ev db') (workspaceId : Uuid) :
    L (.workspace workspaceId) ∨ SameRoster workspaceId w.db db' := by
  cases h with
  | workspaceCreated ws m _ _ _ hlock _ _ _ _ hworkspace =>
    by_cases hx : workspaceId = ws.id
    · exact .inl (hx ▸ hlock)
    · refine .inr (.of_mem_iff fun m' hm' => ⟨fun h => ?_, Table.mem_insert_of_mem⟩)
      exact (Table.mem_of_mem_insert h).resolve_right fun he =>
        hx (hm' ▸ (he ▸ hworkspace))
  | rosterChanged _ id _ _ _ _ _ _ _ hlock _ _ hwrite =>
    by_cases hx : workspaceId = id
    · exact .inl (hx ▸ hlock)
    · exact .inr (.of_mem_iff fun m' hm' => hwrite.memberships (hm' ▸ hx))
  | invitationAccepted invitation _ _ _ _ _ _ _ _ hlock _ _ _ _ _ _ _ _ _ hjoins =>
    by_cases hx : workspaceId = invitation.workspaceId
    · exact .inl (hx ▸ hlock)
    · exact .inr (.of_mem_iff fun m' hm' => hjoins.memberships rfl (hm' ▸ hx))
  | membershipUpdated => exact .inr .of_annotated
  | _ => exact .inr (.of_eq rfl)

/-! ### Where rows come from -/

/-- The row of an updated table is a version of an old row. -/
theorem version_of_mem_update {α : Type} {key : α → Uuid} {t : Table key} {ids : List Uuid}
    {f : Rewrite key} {R : α → α → Prop} (hrefl : ∀ r, R r r) (hf : ∀ r, R r (f.row r)) {s : α}
    (h : s ∈ t.update ids f) : ∃ r ∈ t, R r s := by
  rcases Table.of_mem_update h with ⟨hmem, -⟩ | ⟨r, hr, -, rfl⟩
  · exact ⟨s, hmem, hrefl s⟩
  · exact ⟨r, hr, hf r⟩

/-- Accounts are never created. -/
theorem Commit.userKept (h : Commit a L w ev db') {u' : User} (hu' : u' ∈ db'.users) :
    ∃ u ∈ w.db.users, u.id = u'.id := by
  cases h with
  | rosterChanged _ _ _ _ _ _ _ _ _ _ _ _ hwrite => exact ⟨u', hwrite.tables.1 ▸ hu', rfl⟩
  | invitationAccepted _ _ _ _ _ _ _ _ _ _ _ _ _ _ _ _ _ _ _ hjoins =>
    exact ⟨u', hjoins.tables.1 ▸ hu', rfl⟩
  | userUpdated | passwordResetMinted | sessionsEnded =>
    exact version_of_mem_update (R := fun u u' : User => u.id = u'.id) (fun _ => rfl)
      (fun _ => rfl) hu'
  | _ => exact ⟨u', hu', rfl⟩

/-- A workspace is created, or it was there, and live if it is live now. -/
theorem Commit.workspaceBorn (h : Commit a L w ev db') {ws' : Workspace}
    (hws' : ws' ∈ db'.workspaces) :
    (∃ ws ∈ w.db.workspaces, ws.id = ws'.id ∧ (ws'.deletedAt = none → ws.deletedAt = none)) ∨
      ev = .workspaceCreated ws'.id ∧ Drawn a w ws'.id := by
  cases h with
  | rosterChanged _ _ _ _ _ _ _ _ _ _ _ _ hwrite =>
    exact .inl ⟨ws', hwrite.tables.2.1 ▸ hws', rfl, id⟩
  | invitationAccepted _ _ _ _ _ _ _ _ _ _ _ _ _ _ _ _ _ _ _ hjoins =>
    exact .inl ⟨ws', hjoins.tables.2.1 ▸ hws', rfl, id⟩
  | workspaceCreated ws _ _ _ _ _ _ hdrawn =>
    rcases Table.mem_of_mem_insert hws' with hmem | rfl
    · exact .inl ⟨ws', hmem, rfl, id⟩
    · exact .inr ⟨rfl, hdrawn⟩
  | workspaceRemoved | sessionsEnded =>
    exact .inl (version_of_mem_update (R := fun ws ws' : Workspace =>
      ws.id = ws'.id ∧ (ws'.deletedAt = none → ws.deletedAt = none)) (fun _ => ⟨rfl, id⟩)
        (fun _ => ⟨rfl, by simp [Workspace.deleted]⟩) hws')
  | _ => exact .inl ⟨ws', hws', rfl, id⟩

/-- An updated membership keeps the columns that identify it. -/
theorem identity_of_mem_update {ids : List Uuid} {f : Rewrite WorkspaceMembership.id}
    (hf : ∀ m, (f.row m).identity = m.identity) {m' : WorkspaceMembership}
    (h : m' ∈ (db.updateMemberships ids f).workspaceMemberships) :
    ∃ m ∈ db.workspaceMemberships, m.identity = m'.identity :=
  version_of_mem_update (R := fun m m' : WorkspaceMembership => m.identity = m'.identity)
    (fun _ => rfl) (fun m => (hf m).symm) h

theorem Joins.memberBorn (h : Joins a L w workspaceId userId role db db')
    {m' : WorkspaceMembership} (hm' : m' ∈ db'.workspaceMemberships) :
    (∃ m ∈ db.workspaceMemberships, m.identity = m'.identity) ∨
      Drawn a w m'.id ∧ ∃ ws ∈ w.db.workspaces, ws.id = m'.workspaceId := by
  cases h with
  | created m hworkspace _ _ _ _ hdrawn hexists =>
    rcases Table.mem_of_mem_insert hm' with hmem | rfl
    · exact .inl ⟨m', hmem, rfl⟩
    · exact .inr ⟨hdrawn, hworkspace ▸ hexists⟩
  | rejoined => exact .inl (identity_of_mem_update (fun _ => rfl) hm')

theorem RosterWrite.memberBorn
    (h : RosterWrite a L w workspaceId actorId n op target granted db')
    {m' : WorkspaceMembership} (hm' : m' ∈ db'.workspaceMemberships) :
    (∃ m ∈ w.db.workspaceMemberships, m.identity = m'.identity) ∨
      Drawn a w m'.id ∧ ∃ ws ∈ w.db.workspaces, ws.id = m'.workspaceId := by
  cases h with
  | add _ _ _ _ hjoins => exact hjoins.memberBorn hm'
  | changeRole | reactivate | leave => exact .inl (identity_of_mem_update (fun _ => rfl) hm')
  | transferOwnership =>
    obtain ⟨m, hm, hid⟩ := identity_of_mem_update (fun _ => rfl) hm'
    obtain ⟨m₀, hm₀, hid₀⟩ := identity_of_mem_update (fun _ => rfl) hm
    exact .inl ⟨m₀, hm₀, hid₀.trans hid⟩
  | createInvitation => exact .inl ⟨m', hm', rfl⟩

/-- A membership is new, in a workspace that is there or new itself, or a version of an old
one. -/
theorem Commit.memberBorn (h : Commit a L w ev db') {m' : WorkspaceMembership}
    (hm' : m' ∈ db'.workspaceMemberships) :
    (∃ m ∈ w.db.workspaceMemberships, m.identity = m'.identity) ∨
      Drawn a w m'.id ∧
        (Drawn a w m'.workspaceId ∨ ∃ ws ∈ w.db.workspaces, ws.id = m'.workspaceId) := by
  cases h with
  | rosterChanged _ _ _ _ _ _ _ _ _ _ _ _ hwrite =>
    exact (hwrite.memberBorn hm').imp_right fun h => ⟨h.1, .inr h.2⟩
  | invitationAccepted _ _ _ _ _ _ _ _ _ _ _ _ _ _ _ _ _ _ _ hjoins =>
    exact (hjoins.memberBorn hm').imp_right fun h => ⟨h.1, .inr h.2⟩
  | workspaceCreated ws m _ _ _ _ _ hws hdrawn _ hworkspace =>
    rcases Table.mem_of_mem_insert hm' with hmem | rfl
    · exact .inl ⟨m', hmem, rfl⟩
    · exact .inr ⟨hdrawn, .inl (hworkspace ▸ hws)⟩
  | membershipUpdated => exact .inl (identity_of_mem_update (fun _ => rfl) hm')
  | _ => exact .inl ⟨m', hm', rfl⟩

/-- An update of pending invitations makes later versions of them. -/
theorem evolves_of_mem_updateInvitations {ids : List Uuid} {f : Rewrite WorkspaceInvitation.id}
    (hf : ∀ i, (f.row i).identity = i.identity)
    (hpending : ∀ i ∈ db.workspaceInvitations, i.id ∈ ids → i.status = .pending)
    {i' : WorkspaceInvitation} (h : i' ∈ (db.updateInvitations ids f).workspaceInvitations) :
    ∃ i ∈ db.workspaceInvitations, i.Evolves i' := by
  rcases Table.of_mem_update h with ⟨hold, -⟩ | ⟨i, hi, hid, rfl⟩
  · exact ⟨i', hold, .refl i'⟩
  · exact ⟨i, hi, hf i, fun hsettled => absurd (hpending i hi hid) hsettled⟩

/-- One pending invitation is what its id names. -/
theorem pending_of_singleton {i : WorkspaceInvitation} (hi : i ∈ db.workspaceInvitations)
    (hpending : i.status = .pending) :
    ∀ other ∈ db.workspaceInvitations, other.id ∈ [i.id] → other.status = .pending := by
  intro other hother hid
  rw [Table.eq_of_key hother hi (by simpa using hid)]
  exact hpending

/-- The invitations that a suspension or a removal withdraws are pending. -/
theorem pending_of_withdrawn {userId : Uuid} {user : Option User} {withdrawn : List Uuid}
    (h : ∀ i ∈ db.workspaceInvitations,
      i.id ∈ withdrawn ↔ isPendingInvitationOf workspaceId userId user i = true) :
    ∀ i ∈ db.workspaceInvitations, i.id ∈ withdrawn → i.status = .pending := by
  intro i hi hid
  have hmatch := (h i hi).mp hid
  simp only [isPendingInvitationOf, Bool.and_eq_true, decide_eq_true_eq] at hmatch
  exact hmatch.1.2

/-- An invitation is a version of an old one, or the caller created it under the lock of its
workspace. -/
theorem Commit.invitationBorn (h : Commit a L w ev db') {i' : WorkspaceInvitation}
    (hi' : i' ∈ db'.workspaceInvitations) :
    (∃ i ∈ w.db.workspaceInvitations, i.Evolves i') ∨
      Drawn a w i'.id ∧ L (.workspace i'.workspaceId) ∧ ∃ actorId,
        i'.invitedBy = some actorId ∧
          a.req.roster = some (.createInvitation, actorId, i'.workspaceId) := by
  cases h with
  | rosterChanged _ _ actorId _ _ _ _ _ hreq hlock _ _ hwrite =>
    cases hwrite with
    | add _ _ _ _ hjoins => exact .inl ⟨i', hjoins.tables.2.2.1 ▸ hi', .refl i'⟩
    | changeRole | reactivate | transferOwnership => exact .inl ⟨i', hi', .refl i'⟩
    | leave _ _ _ _ _ _ _ _ _ _ _ _ hwithdrawn =>
      obtain ⟨s, -, hmatch⟩ := hwithdrawn
      exact .inl (evolves_of_mem_updateInvitations (fun _ => rfl) (pending_of_withdrawn hmatch)
        hi')
    | createInvitation i _ _ _ _ _ hlapsed hworkspace hinviter hdrawn =>
      rcases Table.mem_of_mem_insert hi' with hmem | rfl
      · exact .inl (evolves_of_mem_updateInvitations (fun _ => rfl)
          (fun other hother hid => (hlapsed other hother hid).1) hmem)
      · exact .inr ⟨hdrawn, hworkspace ▸ hlock, actorId, hinviter, hworkspace ▸ hreq⟩
  | invitationAccepted _ _ _ _ _ _ _ _ _ _ _ _ _ hcurrent hid hpending _ _ _ hjoins =>
    rw [hjoins.tables.2.2.1, ← hid] at hi'
    exact .inl (evolves_of_mem_updateInvitations (fun _ => rfl)
      (pending_of_singleton hcurrent hpending) hi')
  | invitationResent _ _ _ _ _ hpending | invitationRevoked _ _ _ _ hpending =>
    obtain ⟨i, hi, rfl, hstatus⟩ := hpending
    exact .inl (evolves_of_mem_updateInvitations (fun _ => rfl)
      (pending_of_singleton hi hstatus) hi')
  | _ => exact .inl ⟨i', hi', .refl i'⟩

/-- An invitation is written under its lock, or created by the process that drew its id. -/
theorem Commit.invitations (h : Commit a L w ev db') (x : Uuid) :
    L (.workspaceInvitation x) ∨ Drawn a w x ∨
      db'.workspaceInvitations.find? x = w.db.workspaceInvitations.find? x := by
  cases h with
  | rosterChanged _ _ _ _ _ _ _ _ _ _ _ _ hwrite =>
    cases hwrite with
    | add _ _ _ _ hjoins => exact .inr (.inr (by rw [hjoins.tables.2.2.1]))
    | changeRole | reactivate | transferOwnership => exact .inr (.inr rfl)
    | leave _ _ _ _ _ _ withdrawn _ _ _ _ hlocked =>
      by_cases hx : x ∈ withdrawn
      · exact .inl (hlocked x hx)
      · exact .inr (.inr (Table.find?_update_of_not_mem hx))
    | createInvitation i _ lapsed _ _ hlocked _ _ _ hdrawn =>
      by_cases hi : x = i.id
      · exact .inr (.inl (hi ▸ hdrawn))
      · by_cases hx : x ∈ lapsed
        · exact .inl (hlocked x hx)
        · exact .inr (.inr ((Table.find?_insert hi).trans (Table.find?_update_of_not_mem hx)))
  | invitationAccepted invitation _ _ _ _ _ _ _ _ _ hlocked _ _ _ _ _ _ _ _ hjoins =>
    by_cases hx : x = invitation.id
    · exact .inl (hx ▸ hlocked)
    · refine .inr (.inr ?_)
      rw [hjoins.tables.2.2.1]
      exact Table.find?_update_of_not_mem (by simpa using hx)
  | invitationResent invitationId _ _ _ hlocked | invitationRevoked invitationId _ _ hlocked =>
    by_cases hx : x = invitationId
    · exact .inl (hx ▸ hlocked)
    · exact .inr (.inr (Table.find?_update_of_not_mem (by simpa using hx)))
  | _ => exact .inr (.inr rfl)

/-- An update of pending invitations loses none. -/
theorem evolves_into_updateInvitations {ids : List Uuid} {f : Rewrite WorkspaceInvitation.id}
    (hf : ∀ i, (f.row i).identity = i.identity)
    (hpending : ∀ i ∈ db.workspaceInvitations, i.id ∈ ids → i.status = .pending)
    {i : WorkspaceInvitation} (h : i ∈ db.workspaceInvitations) :
    ∃ i' ∈ (db.updateInvitations ids f).workspaceInvitations, i.Evolves i' ∧
      (i' = i ∨ i.id ∈ ids ∧ i' = f.row i) := by
  by_cases hid : i.id ∈ ids
  · refine ⟨f.row i, Table.mem_update_of_mem h hid, ⟨hf i, fun hsettled => ?_⟩, .inr ⟨hid, rfl⟩⟩
    exact absurd (hpending i h hid) hsettled
  · exact ⟨i, Table.mem_update_of_not_mem h hid, .refl i, .inl rfl⟩

/-- What a link of an invitation depends on: the columns that a resend replaces. -/
def WorkspaceInvitation.link (i : WorkspaceInvitation) : String × ℕ := (i.tokenHash, i.expiresAt)

/-- No invitation is ever deleted, and only a resend gives it another link. -/
theorem Commit.invitationKept (h : Commit a L w ev db') {i : WorkspaceInvitation}
    (hi : i ∈ w.db.workspaceInvitations) :
    ∃ i' ∈ db'.workspaceInvitations, i.Evolves i' ∧
      (ev = .invitationResent i.id ∨ i'.link = i.link) := by
  -- an update that leaves the links alone
  have hkept : ∀ {ids : List Uuid} {f : Rewrite WorkspaceInvitation.id},
      (∀ i, (f.row i).identity = i.identity) → (∀ i, (f.row i).link = i.link) →
        (∀ i ∈ w.db.workspaceInvitations, i.id ∈ ids → i.status = .pending) →
          ∃ i' ∈ (w.db.updateInvitations ids f).workspaceInvitations, i.Evolves i' ∧
            (ev = .invitationResent i.id ∨ i'.link = i.link) := by
    intro ids f hf hlink hpending
    obtain ⟨i', hi', hevolves, hrow⟩ := evolves_into_updateInvitations hf hpending hi
    refine ⟨i', hi', hevolves, .inr ?_⟩
    rcases hrow with rfl | ⟨-, rfl⟩
    · rfl
    · exact hlink i
  cases h with
  | rosterChanged _ _ actorId _ _ _ _ _ _ _ _ _ hwrite =>
    cases hwrite with
    | add _ _ _ _ hjoins => exact ⟨i, hjoins.tables.2.2.1 ▸ hi, .refl i, .inr rfl⟩
    | changeRole | reactivate | transferOwnership => exact ⟨i, hi, .refl i, .inr rfl⟩
    | leave _ _ _ _ _ _ _ _ _ _ _ _ hwithdrawn =>
      obtain ⟨s, -, hmatch⟩ := hwithdrawn
      exact hkept (fun _ => rfl) (fun _ => rfl) (pending_of_withdrawn hmatch)
    | createInvitation _ _ _ _ _ _ hlapsed =>
      obtain ⟨i', hi', hrest⟩ := hkept (f := WorkspaceInvitation.expired actorId) (fun _ => rfl)
        (fun _ => rfl) fun other hother hid => (hlapsed other hother hid).1
      exact ⟨i', Table.mem_insert_of_mem hi', hrest⟩
  | invitationAccepted _ _ _ _ _ _ _ _ _ _ _ _ _ hcurrent hid hpending _ _ _ hjoins =>
    rw [hjoins.tables.2.2.1, ← hid]
    exact hkept (fun _ => rfl) (fun _ => rfl) (pending_of_singleton hcurrent hpending)
  | invitationRevoked _ _ _ _ hpending =>
    obtain ⟨current, hcurrent, rfl, hstatus⟩ := hpending
    exact hkept (fun _ => rfl) (fun _ => rfl) (pending_of_singleton hcurrent hstatus)
  | invitationResent _ tokenHash expiresAt actorId _ hpending =>
    obtain ⟨current, hcurrent, rfl, hstatus⟩ := hpending
    obtain ⟨i', hi', hevolves, hrow⟩ := evolves_into_updateInvitations
      (f := WorkspaceInvitation.resent tokenHash expiresAt actorId) (fun _ => rfl)
      (pending_of_singleton hcurrent hstatus) hi
    refine ⟨i', hi', hevolves, ?_⟩
    rcases hrow with rfl | ⟨hid, -⟩
    · exact .inr rfl
    · exact .inl (by rw [List.mem_singleton.mp hid])
  | _ => exact ⟨i, hi, .refl i, .inr rfl⟩

/-- An updated token is a version of an old one. -/
theorem evolves_of_mem_updateTokens {ids : List Uuid} {f : Rewrite RefreshToken.id}
    (hf : ∀ t : RefreshToken, t.Evolves (f.row t)) {t' : RefreshToken}
    (h : t' ∈ (db.updateTokens ids f).refreshTokens) : ∃ t ∈ db.refreshTokens, t.Evolves t' :=
  version_of_mem_update .refl hf h

theorem RefreshToken.evolves_revoked (now : ℕ) (t : RefreshToken) :
    t.Evolves ((RefreshToken.revoked now).row t) :=
  ⟨rfl, fun h => h, by simp [RefreshToken.revoked]⟩

theorem RefreshToken.evolves_consumed (now : ℕ) (t : RefreshToken) :
    t.Evolves ((RefreshToken.consumed now).row t) :=
  ⟨rfl, by simp [RefreshToken.consumed], fun h => h⟩

/-- A token is a version of an old one, or new, made under the lock of its user, in a new
family or a family of theirs. -/
theorem Commit.tokenBorn (h : Commit a L w ev db') {t' : RefreshToken}
    (ht' : t' ∈ db'.refreshTokens) :
    (∃ t ∈ w.db.refreshTokens, t.Evolves t') ∨
      Drawn a w t'.id ∧ L (.user t'.userId) ∧ (Drawn a w t'.familyId ∨
        ∃ t ∈ w.db.refreshTokens, t.familyId = t'.familyId ∧ t.userId = t'.userId) := by
  cases h with
  | rosterChanged _ _ _ _ _ _ _ _ _ _ _ _ hwrite =>
    exact .inl ⟨t', hwrite.tables.2.2.1 ▸ ht', .refl t'⟩
  | invitationAccepted _ _ _ _ _ _ _ _ _ _ _ _ _ _ _ _ _ _ _ hjoins =>
    exact .inl ⟨t', hjoins.tables.2.2.2.1 ▸ ht', .refl t'⟩
  | sessionsEnded | familyRevoked =>
    exact .inl (evolves_of_mem_updateTokens (RefreshToken.evolves_revoked _) ht')
  | sessionStarted t _ hlock _ _ _ _ hdrawn hfamily =>
    rcases Table.mem_of_mem_insert ht' with hmem | rfl
    · exact .inl ⟨t', hmem, .refl t'⟩
    · exact .inr ⟨hdrawn, hlock, .inl hfamily⟩
  | tokenRotated t child _ _ hlock _ hmem _ _ _ _ _ hfamily huser _ hdrawn =>
    rcases Table.mem_of_mem_insert ht' with hold | rfl
    · exact .inl (evolves_of_mem_updateTokens (RefreshToken.evolves_consumed _) hold)
    · exact .inr ⟨hdrawn, huser ▸ hlock, .inr ⟨t, hmem, hfamily.symm, huser.symm⟩⟩
  | tokensPurged => exact .inl ⟨t', (Table.mem_delete.mp ht').1, .refl t'⟩
  | _ => exact .inl ⟨t', ht', .refl t'⟩

/-- What a commit mentions was mentioned before or drawn for it. -/
theorem Commit.mentions (h : Commit a L w ev db') {x : Uuid} (hx : db'.Mentions x) :
    w.db.Mentions x ∨ Drawn a w x := by
  rcases hx with ⟨u', hu', rfl⟩ | ⟨ws', hws', rfl⟩ | ⟨m', hm', hx⟩ | ⟨i', hi', rfl⟩ | ⟨t', ht', hx⟩
  · exact .inl (.inl (h.userKept hu'))
  · rcases h.workspaceBorn hws' with ⟨ws, hws, hid, -⟩ | ⟨-, hdrawn⟩
    · exact .inl (.inr (.inl ⟨ws, hws, hid⟩))
    · exact .inr hdrawn
  · rcases h.memberBorn hm' with ⟨m, hm, hid⟩ | ⟨hdrawn, hworkspace⟩
    · simp only [WorkspaceMembership.identity, Prod.mk.injEq] at hid
      exact .inl (.inr (.inr (.inl ⟨m, hm, by rwa [hid.1, hid.2.1]⟩)))
    · rcases hx with rfl | rfl
      · exact .inr hdrawn
      · rcases hworkspace with hdrawn | hworkspace
        · exact .inr hdrawn
        · exact .inl (.inr (.inl hworkspace))
  · rcases h.invitationBorn hi' with ⟨i, hi, hevolves⟩ | ⟨hdrawn, -⟩
    · exact .inl (.inr (.inr (.inr (.inl ⟨i, hi, (congrArg Prod.fst hevolves.identity).symm⟩))))
    · exact .inr hdrawn
  · rcases h.tokenBorn ht' with ⟨t, ht, hevolves⟩ | ⟨hdrawn, -, hfamily⟩
    · exact .inl (.inr (.inr (.inr (.inr ⟨t, ht, by
        rwa [← hevolves.id_eq, ← hevolves.familyId]⟩))))
    · rcases hx with rfl | rfl
      · exact .inr hdrawn
      · rcases hfamily with hdrawn | ⟨t, ht, hid, -⟩
        · exact .inr hdrawn
        · exact .inl (.inr (.inr (.inr (.inr ⟨t, ht, .inr hid⟩))))

/-! ### Who owns what -/

/-- An updated membership is one of the others or the rewritten row. -/
theorem of_mem_updateMembership {m m' : WorkspaceMembership}
    {f : Rewrite WorkspaceMembership.id} (hmem : m ∈ db.workspaceMemberships)
    (h : m' ∈ (db.updateMemberships [m.id] f).workspaceMemberships) :
    m' ∈ db.workspaceMemberships ∧ m'.id ≠ m.id ∨ m' = f.row m := by
  rcases Table.of_mem_update h with ⟨hold, hid⟩ | ⟨r, hr, hid, rfl⟩
  · exact .inl ⟨hold, by simpa using hid⟩
  · exact .inr (by rw [Table.eq_of_key hr hmem (by simpa using hid)])

/-- Joining adds one active membership, of the user and in the role given. -/
theorem Joins.row (h : Joins a L w workspaceId userId role db db')
    (hdb : db.workspaceMemberships = w.db.workspaceMemberships) {m' : WorkspaceMembership}
    (hm' : m' ∈ db'.workspaceMemberships) :
    m' ∈ w.db.workspaceMemberships ∨ m'.workspaceId = workspaceId ∧ m'.userId = userId ∧
      m'.role = role ∧ m'.status = .active := by
  cases h with
  | created m hworkspace huser hrole hactive =>
    rcases Table.mem_of_mem_insert hm' with hmem | rfl
    · exact .inl (hdb ▸ hmem)
    · exact .inr ⟨hworkspace, huser, hrole, hactive⟩
  | rejoined m _ _ _ hmem hworkspace huser =>
    rcases of_mem_updateMembership (hdb ▸ hmem) hm' with ⟨hold, -⟩ | rfl
    · exact .inl (hdb ▸ hold)
    · exact .inr ⟨hworkspace, huser, rfl, rfl⟩

/-- A membership after a roster operation is an old one, or not active, or an appointment
to the role that was handed out or held before, or a demoted owner. -/
theorem RosterWrite.row (h : RosterWrite a L w workspaceId actorId n op target granted db')
    {m' : WorkspaceMembership} (hm' : m' ∈ db'.workspaceMemberships) :
    m' ∈ w.db.workspaceMemberships ∨ m'.status ≠ .active ∨
      Appointable L w m'.userId ∧ (granted = some m'.role ∨ ∃ m ∈ target, m.role = m'.role) ∨
        m'.role = .workspaceAdmin ∧ ∃ m ∈ w.db.workspaceMemberships,
          m.identity = m'.identity ∧ m.IsActiveOwner := by
  cases h with
  | add userId _ _ happoint hjoins =>
    rcases hjoins.row rfl hm' with hmem | ⟨-, huser, hrole, -⟩
    · exact .inl hmem
    · exact .inr (.inr (.inl ⟨huser ▸ happoint, .inl (by rw [hrole])⟩))
  | changeRole _ m _ _ hmem _ happoint =>
    rcases of_mem_updateMembership hmem hm' with ⟨hold, -⟩ | rfl
    · exact .inl hold
    · exact .inr (.inr (.inl ⟨happoint, .inl rfl⟩))
  | reactivate existing m hlike hmem _ happoint =>
    rcases of_mem_updateMembership hmem hm' with ⟨hold, -⟩ | rfl
    · exact .inl hold
    · exact .inr (.inr (.inl ⟨happoint, .inr ⟨existing, rfl, hlike.role.symm⟩⟩))
  | leave _ toStatus _ m _ _ _ _ hkind hmem =>
    rcases of_mem_updateMembership hmem hm' with ⟨hold, -⟩ | rfl
    · exact .inl hold
    · refine .inr (.inl ?_)
      rcases hkind with ⟨-, -, rfl, -⟩ | ⟨-, -, rfl, -⟩ <;>
        simp [WorkspaceMembership.withStatus]
  | transferOwnership _ m outgoing _ _ hmem _ happoint _ _ houtgoing =>
    have hkept : m ∈ (w.db.updateMemberships outgoing
        (WorkspaceMembership.withRole .workspaceAdmin actorId)).workspaceMemberships :=
      Table.mem_update_of_not_mem hmem fun hid => ((houtgoing m hmem).mp hid).2.2 rfl
    rcases of_mem_updateMembership hkept hm' with ⟨hold, -⟩ | rfl
    · rcases Table.of_mem_update hold with ⟨hold, -⟩ | ⟨r, hr, hid, rfl⟩
      · exact .inl hold
      · exact .inr (.inr (.inr ⟨rfl, r, hr, rfl, ((houtgoing r hr).mp hid).2.1⟩))
    · exact .inr (.inr (.inl ⟨happoint, .inl rfl⟩))
  | createInvitation => exact .inl hm'

/-- A workspace that is live was live, or it is new and nobody was a member. -/
theorem Commit.live (h : Commit a L w ev db') (hlive : db'.LiveWorkspace workspaceId) :
    w.db.LiveWorkspace workspaceId ∨
      ev = .workspaceCreated workspaceId ∧ Drawn a w workspaceId := by
  obtain ⟨ws', hws', rfl, hdeleted⟩ := hlive
  rcases h.workspaceBorn hws' with ⟨ws, hws, hid, hkept⟩ | hborn
  · exact .inl ⟨ws, hws, hid, hkept hdeleted⟩
  · exact .inr hborn

/-- Nobody becomes an owner of a live workspace without the lock on their account. -/
theorem Commit.appoints (h : Commit a L w ev db') (hlive : db'.LiveWorkspace workspaceId)
    (howner : db'.ActiveOwner workspaceId userId) :
    L (.user userId) ∨
      w.db.LiveWorkspace workspaceId ∧ w.db.ActiveOwner workspaceId userId := by
  have hcases := h.live hlive
  obtain ⟨m', hm', hworkspace, huser, hactive⟩ := howner
  have hkept : m' ∈ w.db.workspaceMemberships →
      ¬ (ev = .workspaceCreated workspaceId ∧ Drawn a w workspaceId) →
        L (.user userId) ∨ w.db.LiveWorkspace workspaceId ∧ w.db.ActiveOwner workspaceId userId :=
    fun hmem hnew => .inr ⟨hcases.resolve_right hnew, m', hmem, hworkspace, huser, hactive⟩
  cases h with
  | workspaceCreated ws m _ _ _ _ happoint _ _ _ _ howner =>
    rcases Table.mem_of_mem_insert hm' with hmem | rfl
    · refine hkept hmem fun hnew => hnew.2.unused w.db (World.since_db (Nat.zero_le _)) ?_
      exact .inr (.inr (.inl ⟨m', hmem, .inr hworkspace⟩))
    · exact .inl (huser ▸ howner ▸ happoint.1)
  | rosterChanged _ _ _ _ _ _ _ _ _ _ _ _ hwrite =>
    rcases hwrite.row hm' with hmem | hstatus | ⟨happoint, -⟩ | ⟨hrole, -⟩
    · exact hkept hmem (by simp)
    · exact absurd hactive.2 hstatus
    · exact .inl (huser ▸ happoint.1)
    · simp [hactive.1] at hrole
  | invitationAccepted _ _ _ _ _ _ _ _ _ _ _ happoint _ _ _ _ _ _ _ hjoins =>
    rcases hjoins.row rfl hm' with hmem | ⟨-, hactor, -⟩
    · exact hkept hmem (by simp)
    · exact .inl (huser ▸ hactor ▸ happoint.1)
  | membershipUpdated =>
    obtain ⟨m, hm, hlike⟩ := SameRoster.of_annotated.grown m' hm' hworkspace
    refine .inr ⟨hcases.resolve_right (by simp), m, hm, ?_⟩
    exact ⟨hlike.workspaceId.symm.trans hworkspace, hlike.userId.symm.trans huser,
      hlike.isActiveOwner.mp hactive⟩
  | _ => exact hkept hm' (by simp)

theorem live_iff_find? :
    db.LiveWorkspace workspaceId ↔ ∃ ws ∈ db.workspaces.find? workspaceId, ws.deletedAt = none := by
  constructor
  · rintro ⟨ws, hws, rfl, hlive⟩
    exact ⟨ws, Table.find?_of_mem hws, hlive⟩
  · rintro ⟨ws, hws, hlive⟩
    obtain ⟨hmem, hid⟩ := Table.find?_eq_some.mp hws
    exact ⟨ws, hmem, hid, hlive⟩

theorem usable_iff_find? : db.Usable userId ↔ ∃ u ∈ db.users.find? userId, u.IsUsable := by
  constructor
  · rintro ⟨u, hu, rfl, husable⟩
    exact ⟨u, Table.find?_of_mem hu, husable⟩
  · rintro ⟨u, hu, husable⟩
    obtain ⟨hmem, hid⟩ := Table.find?_eq_some.mp hu
    exact ⟨u, hmem, hid, husable⟩

/-- An update that leaves the columns in question alone leaves the account usable. -/
theorem usable_updateUser {f : Rewrite User.id} (hf : ∀ u, (f.row u).IsUsable ↔ u.IsUsable)
    {x : Uuid} : (db.updateUser userId f).Usable x ↔ db.Usable x := by
  rw [usable_iff_find?, usable_iff_find?, Database.updateUser, Table.find?_update]
  by_cases hx : x ∈ [userId] <;> simp [hx, hf]

theorem usable_of_users_eq (h : db'.users = db.users) {x : Uuid} :
    db'.Usable x ↔ db.Usable x := by
  unfold Database.Usable
  rw [h]

/-- A usable account is taken out of service by a plain update, or under the locks on every
live workspace it owns. -/
theorem Commit.retires (h : Commit a L w ev db') (husable : w.db.Usable userId)
    (hretired : ¬ db'.Usable userId) :
    ev = .userUpdated userId ∨ ∀ workspaceId, w.db.LiveWorkspace workspaceId →
      w.db.ActiveOwner workspaceId userId → L (.workspace workspaceId) := by
  have hsame : db'.users.find? userId ≠ w.db.users.find? userId := fun hfind =>
    hretired (by rwa [usable_iff_find?, hfind, ← usable_iff_find?])
  cases h with
  | rosterChanged _ _ _ _ _ _ _ _ _ _ _ _ hwrite =>
    exact absurd ((usable_of_users_eq hwrite.tables.1).mpr husable) hretired
  | invitationAccepted _ _ _ _ _ _ _ _ _ _ _ _ _ _ _ _ _ _ _ hjoins =>
    exact absurd ((usable_of_users_eq hjoins.tables.1).mpr husable) hretired
  | userUpdated x =>
    by_cases hx : userId = x
    · exact .inl (by rw [hx])
    · exact absurd (Table.find?_update_of_not_mem (by simpa using hx)) hsame
  | passwordResetMinted x data _ hactive hdeleted =>
    refine absurd ((usable_updateUser fun u => ?_).mpr husable) hretired
    simp [UserUpdateInput.rewrite, UserUpdateInput.apply, User.IsUsable, hactive, hdeleted]
  | sessionsEnded reason x _ data _ _ _ _ _ _ hreason =>
    by_cases hx : userId = x
    · subst hx
      cases reason with
      | deactivation => exact .inr fun id hlive howner => (hreason.2.1 id hlive howner).1
      | deletion => exact .inr fun id hlive howner => (hreason.2.1 id hlive howner).1
      | erasure => exact .inr fun id hlive howner => (hreason.1 id hlive howner).1
      | passwordChange | emailChange | revocation =>
        refine absurd ((usable_updateUser fun u => ?_).mpr husable) hretired
        simp [UserUpdateInput.endSessions, UserUpdateInput.apply, User.IsUsable, hreason.2.1,
          hreason.2.2]
    · exact absurd (Table.find?_update_of_not_mem (by simpa using hx)) hsame
  | _ => exact absurd husable hretired

end NestApi
