import NestApi.System
import NestApi.Txn.Soundness

/-!
# Histories

What a history says about identifiers and about the past. An identifier is drawn by one
process and used once, and a row keeps the columns that identify it in every state.
-/

namespace NestApi

open Txn

/-- The identifier names a row or a token family of the database, or the workspace of a
membership. -/
def Database.Mentions (db : Database) (x : Uuid) : Prop :=
  (∃ u ∈ db.users, u.id = x) ∨ (∃ ws ∈ db.workspaces, ws.id = x) ∨
    (∃ m ∈ db.workspaceMemberships, m.id = x ∨ m.workspaceId = x) ∨
      (∃ i ∈ db.workspaceInvitations, i.id = x) ∨
        ∃ t ∈ db.refreshTokens, t.id = x ∨ t.familyId = x

/-- The columns of a membership that never change. -/
def WorkspaceMembership.identity (m : WorkspaceMembership) : Uuid × Uuid × Uuid :=
  (m.id, m.workspaceId, m.userId)

/-- The columns of a token that never change. -/
def RefreshToken.identity (t : RefreshToken) : Uuid × Uuid × Uuid × ℕ × ℕ :=
  (t.id, t.userId, t.familyId, t.createdAt, t.expiresAt)

/-- A later version of a token: what is spent or withdrawn stays so. -/
structure RefreshToken.Evolves (t t' : RefreshToken) : Prop where
  identity : t'.identity = t.identity
  consumed : t'.consumedAt = none → t.consumedAt = none
  revoked : t'.revokedAt = none → t.revokedAt = none

/-- The columns of an invitation that never change. -/
def WorkspaceInvitation.identity (i : WorkspaceInvitation) :
    Uuid × Uuid × String × Option Uuid × SeededRoleName × Option Uuid :=
  (i.id, i.workspaceId, i.email, i.invitedUserId, i.role, i.invitedBy)

/-- A later version of an invitation: what was answered or withdrawn never changes again. -/
structure WorkspaceInvitation.Evolves (i i' : WorkspaceInvitation) : Prop where
  identity : i'.identity = i.identity
  settled : i.status ≠ .pending → i' = i

/-- Two rows are one membership, up to its annotation. -/
def WorkspaceMembership.Like (m m' : WorkspaceMembership) : Prop := m'.core = m.core

theorem RefreshToken.Evolves.refl (t : RefreshToken) : t.Evolves t :=
  ⟨rfl, fun h => h, fun h => h⟩

theorem RefreshToken.Evolves.trans {t t' t'' : RefreshToken} (h : t.Evolves t')
    (h' : t'.Evolves t'') : t.Evolves t'' :=
  ⟨h'.identity.trans h.identity, fun hc => h.consumed (h'.consumed hc),
    fun hr => h.revoked (h'.revoked hr)⟩

theorem RefreshToken.Evolves.id_eq {t t' : RefreshToken} (h : t.Evolves t') : t'.id = t.id :=
  congrArg Prod.fst h.identity

theorem RefreshToken.Evolves.userId {t t' : RefreshToken} (h : t.Evolves t') :
    t'.userId = t.userId :=
  congrArg (fun x => x.2.1) h.identity

theorem RefreshToken.Evolves.familyId {t t' : RefreshToken} (h : t.Evolves t') :
    t'.familyId = t.familyId :=
  congrArg (fun x => x.2.2.1) h.identity

theorem RefreshToken.Evolves.expiresAt {t t' : RefreshToken} (h : t.Evolves t') :
    t'.expiresAt = t.expiresAt :=
  congrArg (fun x => x.2.2.2.2) h.identity

theorem WorkspaceInvitation.Evolves.refl (i : WorkspaceInvitation) : i.Evolves i :=
  ⟨rfl, fun _ => rfl⟩

theorem WorkspaceInvitation.Evolves.trans {i i' i'' : WorkspaceInvitation} (h : i.Evolves i')
    (h' : i'.Evolves i'') : i.Evolves i'' where
  identity := h'.identity.trans h.identity
  settled hsettled := by
    have hfirst : i' = i := h.settled hsettled
    rw [h'.settled (by rwa [hfirst]), hfirst]

theorem WorkspaceInvitation.Evolves.id_eq {i i' : WorkspaceInvitation} (h : i.Evolves i') :
    i'.id = i.id :=
  congrArg Prod.fst h.identity

theorem WorkspaceInvitation.Evolves.workspaceId {i i' : WorkspaceInvitation}
    (h : i.Evolves i') : i'.workspaceId = i.workspaceId :=
  congrArg (fun x => x.2.1) h.identity

/-- A pending invitation was pending in every earlier version. -/
theorem WorkspaceInvitation.Evolves.pending {i i' : WorkspaceInvitation} (h : i.Evolves i')
    (hpending : i'.status = .pending) : i.status = .pending := by
  by_contra hsettled
  exact hsettled (h.settled hsettled ▸ hpending)

section Like

variable {m m' m'' : WorkspaceMembership}

theorem WorkspaceMembership.Like.refl (m : WorkspaceMembership) : m.Like m := rfl

theorem WorkspaceMembership.Like.symm (h : m.Like m') : m'.Like m := Eq.symm h

theorem WorkspaceMembership.Like.trans (h : m.Like m') (h' : m'.Like m'') : m.Like m'' :=
  Eq.trans h' h

/-- Two versions of a membership agree on every column that is not annotation. -/
theorem WorkspaceMembership.Like.column {α : Type} (h : m.Like m') (f : WorkspaceMembership → α)
    (hf : ∀ r, f r.core = f r) : f m' = f m := by
  have hcore : m'.core = m.core := h
  rw [← hf m', ← hf m, hcore]

theorem WorkspaceMembership.Like.id_eq (h : m.Like m') : m'.id = m.id :=
  h.column WorkspaceMembership.id fun _ => rfl

theorem WorkspaceMembership.Like.workspaceId (h : m.Like m') : m'.workspaceId = m.workspaceId :=
  h.column WorkspaceMembership.workspaceId fun _ => rfl

theorem WorkspaceMembership.Like.userId (h : m.Like m') : m'.userId = m.userId :=
  h.column WorkspaceMembership.userId fun _ => rfl

theorem WorkspaceMembership.Like.role (h : m.Like m') : m'.role = m.role :=
  h.column WorkspaceMembership.role fun _ => rfl

theorem WorkspaceMembership.Like.status (h : m.Like m') : m'.status = m.status :=
  h.column WorkspaceMembership.status fun _ => rfl

theorem WorkspaceMembership.Like.isActiveOwner (h : m.Like m') :
    m'.IsActiveOwner ↔ m.IsActiveOwner := by
  unfold WorkspaceMembership.IsActiveOwner
  rw [h.role, h.status]

end Like

/-- The process drew the identifier, and no state mentions it. -/
structure Drawn (a : Agent Request) (w : SystemWorld) (x : Uuid) : Prop where
  issued : w.issued.find? x = some (x, some a.pid)
  unused : ∀ db, w.Since 0 db → ¬ db.Mentions x

/-- Rows with one key agree on the columns that never change, in all states. -/
def Agree {α ι : Type} {key : α → Uuid} (rows : Database → Table key) (identity : α → ι)
    (w : SystemWorld) : Prop :=
  ∀ db db', w.Since 0 db → w.Since 0 db' → ∀ r ∈ rows db, ∀ r' ∈ rows db', key r = key r' →
    identity r = identity r'

/-- What holds of every history. Identifiers in use were drawn, rows keep the columns that
identify them, and no cutoff lies further ahead than the second that has begun. -/
structure Inv (w : SystemWorld) : Prop where
  issued : ∀ db, w.Since 0 db → ∀ x, db.Mentions x → w.issued.find? x ≠ none
  memberships : Agree Database.workspaceMemberships WorkspaceMembership.identity w
  invitations : Agree Database.workspaceInvitations WorkspaceInvitation.identity w
  tokens : Agree Database.refreshTokens RefreshToken.identity w
  cutoffs : ∀ e ∈ w.log, ∀ reason userId cutoff,
    e.event = .sessionsEnded reason userId cutoff → cutoff ≤ nextWholeSecond w.now

/-- There is one state in which nothing happened yet. -/
theorem since_start {init db : Database} {now n : ℕ}
    {ids : Table (Prod.fst : Uuid × Option ℕ → Uuid)}
    (h : (⟨init, [], now, ids⟩ : SystemWorld).Since n db) : db = init := by
  obtain ⟨l, hl, -, rfl⟩ := h
  obtain rfl : l = [] := List.suffix_nil.mp hl
  rfl

theorem Agree.start {α ι : Type} {key : α → Uuid} {rows : Database → Table key}
    {identity : α → ι} {init : Database} {now : ℕ}
    {ids : Table (Prod.fst : Uuid × Option ℕ → Uuid)} :
    Agree rows identity ⟨init, [], now, ids⟩ := by
  intro db db' hdb hdb' r hr r' hr' hkey
  obtain rfl := since_start hdb
  obtain rfl := since_start hdb'
  rw [Table.eq_of_key hr hr' hkey]

/-- A start whose identifiers are all recorded as drawn satisfies the invariant. -/
theorem Inv.start {init : Database} {now : ℕ} {ids : Table (Prod.fst : Uuid × Option ℕ → Uuid)}
    (hids : ∀ x, init.Mentions x → ids.find? x ≠ none) : Inv ⟨init, [], now, ids⟩ where
  issued db hdb x hx := hids x (since_start hdb ▸ hx)
  memberships := .start
  invitations := .start
  tokens := .start
  cutoffs e he := absurd he (by simp)

end NestApi
