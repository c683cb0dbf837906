import NestApi.Properties.Cutoffs
import NestApi.Properties.Ownership

/-!
# Deactivations

Taking an account out of service checks under the locks that it owns no workspace alone, and
ends its sessions in the same transaction. An update decides before any lock whether it is a
deactivation. When somebody reactivates the account after that read, the plain update
deactivates it a second time, and does neither.
-/

namespace NestApi

open Txn

variable {a : Agent Request} {L : RowLock → Prop} {w : SystemWorld} {ev : Event}
  {db db' : Database} {userId : Uuid}

/-! ### The law -/

/-- The active flag of an account, if the account is there. -/
def Database.isActive? (db : Database) (userId : Uuid) : Option Bool :=
  (db.users.find? userId).map User.isActive

/-- Every live workspace that the account owns has another owner who can act. -/
def Database.NotSoleOwner (db : Database) (userId : Uuid) : Prop :=
  ∀ m ∈ db.workspaceMemberships, m.userId = userId → m.IsActiveOwner →
    db.isLiveWorkspace m.workspaceId = true →
      ∃ other ∈ db.workspaceMemberships, other.workspaceId = m.workspaceId ∧
        other.IsActiveOwner ∧ db.isUsable other.userId = true ∧ other.userId ≠ userId

instance (db : Database) (userId : Uuid) : Decidable (db.NotSoleOwner userId) :=
  inferInstanceAs (Decidable (∀ m ∈ db.workspaceMemberships, _ → _ → _ → _))

/-- The cutoff that a deactivation of the account sets. -/
def Event.deactivation? (userId : Uuid) : Event → Option ℕ
  | .sessionsEnded .deactivation id cutoff => if id = userId then some cutoff else none
  | _ => none

/-- The entry, after the history, takes the account out of service the guarded way: somebody
else owns its workspaces, the cutoff moves on, and no refresh token stays unrevoked. -/
structure GuardedDeactivation (init : Database) (userId : Uuid)
    (e : Entry Database Event Request) (l : List (Entry Database Event Request)) : Prop where
  owned : (stateOf init l).NotSoleOwner userId
  ended : ∃ cutoff ∈ e.event.deactivation? userId, e.db.cutoff? userId = some (some cutoff) ∧
    ∀ x ∈ l, ∀ earlier ∈ x.event.cutoff? userId, earlier ≤ cutoff
  revoked : ∀ t ∈ e.db.refreshTokens, t.userId = userId → t.revokedAt ≠ none

instance (init : Database) (userId : Uuid) (e : Entry Database Event Request)
    (l : List (Entry Database Event Request)) : Decidable (GuardedDeactivation init userId e l) :=
  decidable_of_iff (_ ∧ _ ∧ _)
    ⟨fun h => ⟨h.1, h.2.1, h.2.2⟩, fun h => ⟨h.owned, h.ended, h.revoked⟩⟩

/-- Every commit that sets an active account inactive is a guarded deactivation. -/
def EveryDeactivationGuarded (init : Database) (log : List (Entry Database Event Request)) :
    Prop :=
  EveryEntry (fun e l => ∀ u ∈ (stateOf init l).users, u.isActive = true →
    e.db.isActive? u.id = some false → GuardedDeactivation init u.id e l) log

instance (init : Database) (log : List (Entry Database Event Request)) :
    Decidable (EveryDeactivationGuarded init log) :=
  inferInstanceAs (Decidable (EveryEntry _ log))

/-- A plain update that sets an account inactive finds it inactive when it commits. -/
def PlainUpdatesSettled (init : Database) (log : List (Entry Database Event Request)) : Prop :=
  EveryEntry (fun e l => plainDeactivation e = true →
    ∀ u ∈ (stateOf init l).users, e.event = .userUpdated u.id → u.isActive = false) log

instance (init : Database) (log : List (Entry Database Event Request)) :
    Decidable (PlainUpdatesSettled init log) :=
  inferInstanceAs (Decidable (EveryEntry _ log))

/-! ### What sets an account inactive -/

theorem isActive?_of_mem {u : User} (hu : u ∈ db.users) : db.isActive? u.id = some u.isActive := by
  unfold Database.isActive?
  rw [Table.find?_of_mem hu]
  rfl

/-- The active flag after an update of some account. -/
theorem isActive?_updateUser {f : Rewrite User.id} {u : User} (hu : u ∈ db.users) :
    (db.updateUser userId f).isActive? u.id =
      some (if u.id = userId then (f.row u).isActive else u.isActive) := by
  by_cases hid : u.id = userId
  · have hrow : f.row u ∈ (db.updateUser userId f).users :=
      Table.mem_update_of_mem hu (by simp [hid])
    have hactive := isActive?_of_mem hrow
    rw [f.key_row] at hactive
    rw [hactive, if_pos hid]
  · have hrow : u ∈ (db.updateUser userId f).users :=
      Table.mem_update_of_not_mem hu (by simpa using hid)
    rw [isActive?_of_mem hrow, if_neg hid]

/-- An active account is set inactive by a plain update, or by a deactivation. -/
theorem Commit.deactivates (h : Commit a L w ev db') {u : User} (hu : u ∈ w.db.users)
    (hactive : u.isActive = true) (hset : db'.isActive? u.id = some false) :
    (ev = .userUpdated u.id ∧ plainDeactivation ⟨a, ev, db'⟩ = true) ∨
      ∃ cutoff, ev = .sessionsEnded .deactivation u.id cutoff := by
  have hsame : db'.users = w.db.users → False := by
    intro husers
    have hstill : db'.isActive? u.id = some u.isActive := by
      unfold Database.isActive?
      rw [husers, Table.find?_of_mem hu]
      rfl
    rw [hset, hactive] at hstill
    cases hstill
  cases h with
  | rosterChanged _ _ _ _ _ _ _ _ _ _ _ _ hwrite => exact absurd hwrite.tables.1 hsame
  | invitationAccepted _ _ _ _ _ _ _ _ _ _ _ _ _ _ _ _ _ _ _ hjoins =>
    exact absurd hjoins.tables.1 hsame
  | userUpdated id existing dto actorId hreq =>
    rw [isActive?_updateUser hu] at hset
    by_cases hid : u.id = id
    · have hvalue : dto.isActive.getD u.isActive = false := by
        simpa [hid, UserUpdateInput.rewrite, UserUpdateInput.apply, UsersService.updateData]
          using hset
      have hdto : dto.isActive = some false := by
        rcases hd : dto.isActive with _ | value
        · simp [hd, hactive] at hvalue
        · simpa [hd] using hvalue
      exact .inl ⟨by rw [hid], by simp [plainDeactivation, hreq, hdto]⟩
    · simp [hid, hactive] at hset
  | passwordResetMinted id data _ hkept =>
    rw [isActive?_updateUser hu] at hset
    by_cases hid : u.id = id <;>
      simp [hid, UserUpdateInput.rewrite, UserUpdateInput.apply, hkept, hactive] at hset
  | sessionsEnded reason id cutoff data actorId closed revoked closedAt _ _ hreason =>
    have hset' : ((w.db.updateWorkspaces closed (Workspace.deleted closedAt id)).updateUser id
        (data.endSessions actorId cutoff)).isActive? u.id = some false := hset
    have hu' : u ∈ (w.db.updateWorkspaces closed (Workspace.deleted closedAt id)).users := hu
    rw [isActive?_updateUser hu'] at hset'
    by_cases hid : u.id = id
    · subst hid
      have hvalue : data.isActive.getD u.isActive = false := by
        simpa [UserUpdateInput.endSessions, UserUpdateInput.apply] using hset'
      have hkeeps : data.isActive ≠ none := by
        intro hnone
        simp [hnone, hactive] at hvalue
      cases reason with
      | deactivation => exact .inr ⟨cutoff, rfl⟩
      | deletion | erasure => exact absurd hreason.2.2 hkeeps
      | passwordChange | emailChange | revocation => exact absurd hreason.2.1 hkeeps
    · simp [hid, hactive] at hset'
  | _ => exact absurd rfl hsame

/-- A plain update that sets an account inactive does so. -/
theorem Commit.plainlyDeactivated (h : Commit a L w (.userUpdated userId) db')
    (hplain : plainDeactivation ⟨a, .userUpdated userId, db'⟩ = true) {u : User}
    (hu : u ∈ w.db.users) (hid : u.id = userId) : db'.isActive? u.id = some false := by
  cases h with
  | userUpdated _ existing dto actorId hreq =>
    have hdto : dto.isActive = some false := by
      simpa [plainDeactivation, hreq] using hplain
    rw [isActive?_updateUser hu, if_pos hid]
    simp [UserUpdateInput.rewrite, UserUpdateInput.apply, UsersService.updateData, hdto]

/-- The deactivation of an account is guarded, where the check of ownership can be trusted. -/
theorem Commit.guardedDeactivation {cutoff : ℕ}
    (h : Commit a L w (.sessionsEnded .deactivation userId cutoff) db') (hstale : ¬ Stale w)
    (hknown : ∃ u ∈ w.db.users, u.id = userId) :
    GuardedDeactivation w.init userId ⟨a, .sessionsEnded .deactivation userId cutoff, db'⟩
      w.log := by
  have hended : db'.cutoff? userId = some (some cutoff) := by
    obtain ⟨u, hu, hid⟩ := hknown
    have hthere : w.db.cutoff? userId = some u.passwordChangedAt := by
      unfold Database.cutoff?
      rw [← hid, Table.find?_of_mem hu]
      rfl
    rcases h.cutoff? userId with ⟨hnone, -⟩ | ⟨c, hset, hnow⟩
    · simp [Event.cutoff?] at hnone
    · obtain rfl : cutoff = c := by simpa [Event.cutoff?] using hset
      rw [hnow, hthere]
      rfl
  cases h with
  | sessionsEnded _ _ _ data actorId closed revoked _ revokedAt hends hreason =>
    obtain ⟨rfl, hleaves, -⟩ := hreason
    constructor
    · intro m hm huser howner hlive
      have hworkspace := Database.isLiveWorkspace_iff.mp hlive
      obtain ⟨-, hclosed | hother⟩ :=
        hleaves m.workspaceId hworkspace ⟨m, hm, rfl, huser, howner⟩
      · simp at hclosed
      · rcases hother with hbad | hdead | ⟨other, ⟨hmem, hin, hactive, husable⟩, hne⟩
        · exact absurd hbad hstale
        · exact absurd hworkspace hdead
        · exact ⟨other, hmem, hin, hactive, Database.isUsable_iff.mpr husable, hne⟩
    · refine ⟨cutoff, by simp [Event.deactivation?], hended, ?_⟩
      intro x hx earlier hearlier
      obtain ⟨ax, evx, dbx⟩ := x
      cases evx with
      | sessionsEnded reason id c =>
        by_cases hid : id = userId
        · obtain rfl : c = earlier := by simpa [Event.cutoff?, hid] using hearlier
          exact hends.latest _ hx reason c (by rw [hid])
        · simp [Event.cutoff?, hid] at hearlier
      | _ => cases hearlier
    · intro t ht huser
      rcases Table.of_mem_update ht with ⟨hold, hnot⟩ | ⟨t₀, -, -, rfl⟩
      · intro hlive
        exact hnot (hends.complete t hold huser hlive)
      · simp [RefreshToken.revoked]

/-! ### Every run -/

variable {env : Env} {Allowed : Request → Prop} {init : Database} {σ : SystemConfig}

/-- Where plain updates find their account inactive, none takes an account out of service. -/
theorem RunsTo.not_stale (hrun : RunsTo env Allowed init σ)
    (hsettled : PlainUpdatesSettled init σ.world.log) (hlog : w.log <:+ σ.world.log)
    (hinit : w.init = init) : ¬ Stale w := by
  rintro ⟨e, l, hl, userId, hev, husable, hretired⟩
  have hentry := hl.trans hlog
  obtain ⟨v, L, rfl, rfl, -, hcommit⟩ := hrun.entry hentry
  rw [hinit] at husable
  have hplain : plainDeactivation e = true := by
    by_contra hguarded
    rw [Bool.not_eq_true] at hguarded
    rw [hev] at hcommit
    obtain ⟨b, evb, dbb⟩ := e
    simp only at hev
    subst hev
    exact hretired (hcommit.userUpdated_usable hguarded husable)
  obtain ⟨u, hu, hid, -, hactive⟩ := husable
  have hinactive := everyEntry_iff.mp hsettled e v.log hentry hplain u hu (by rw [hev, hid])
  rw [hactive] at hinactive
  cases hinactive

/-- Ann is deactivated, and again when she is inactive already. -/
def deactivateTwice : List (Order Request) :=
  [.serve 1 (.updateUser none "ann" ⟨none, none, some false⟩), .proceed 1,
    .serve 2 (.updateUser none "ann" ⟨none, none, some false⟩), .proceed 2]

/-- The only owner signs in between a reactivation and an update that still takes the account
for inactive. -/
def deactivateReactivated : List (Order Request) :=
  [.serve 1 (.updateUser none "ann" ⟨none, none, some false⟩), .statements 1 1,
    .serve 2 (.updateUser none "ann" ⟨none, none, some true⟩), .proceed 2,
    .serve 3 (.login "ann" "secret"), .proceed 3, .proceed 3, .proceed 1]

/-- The workspace `acme` with one owner, whose account is inactive. -/
def inactiveOwner : Database :=
  let db := Sample.database [("ann", .workspaceOwner)] []
  { db with users := Sample.table User.id [{ Sample.user "ann" with isActive := false }] }

end NestApi
