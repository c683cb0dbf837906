import NestApi.Properties.Runs

/-!
# Withdrawing a member's invitations

Suspending or removing a member revokes the pending invitations that this person could still
redeem. The filter of the withdrawal and the test at acceptance are two predicates, written in
two services, and they denote the same invitations.
-/

namespace NestApi

open Txn Program WorkspaceMemberships WorkspaceInvitations

variable {a : Agent Request} {L : RowLock → Prop} {w : SystemWorld} {ev : Event}
  {db db' : Database} {workspaceId actorId userId : Uuid} {i : WorkspaceInvitation}

/-! ### Who an invitation admits -/

/-- The invitation is for this account: by its id, or by its verified address where no account
was recorded. -/
def Database.Admits (db : Database) (i : WorkspaceInvitation) (userId : Uuid) : Prop :=
  i.invitedUserId = some userId ∨
    i.invitedUserId = none ∧ ∃ u ∈ db.users.find? userId,
      u.emailVerifiedAt ≠ none ∧ i.email = toLowerCase u.email

/-- The test at acceptance admits nobody else. -/
theorem admits_of_assertIsInvitee {u : User} (hu : u ∈ db.users)
    (h : (assertIsInvitee i u.id u.email).outcome db = some (.ok ())) : db.Admits i u.id := by
  unfold assertIsInvitee at h
  cases hinvited : i.invitedUserId with
  | some invitedUserId =>
    rw [hinvited] at h
    by_cases hid : invitedUserId = u.id
    · exact .inl (by rw [hinvited, hid])
    · simp [ensure, hid, outcome] at h
  | none =>
    rw [hinvited] at h
    have hfind : db.users.find? u.id = some u := Table.find?_of_mem hu
    by_cases hemail : i.email = toLowerCase u.email
    · refine .inr ⟨hinvited, u, hfind, fun hnone => ?_, hemail⟩
      have hcaller : ((db.scopedUser? u.id).bind User.emailVerifiedAt).isSome = false := by
        unfold Database.scopedUser?
        rw [hfind]
        by_cases hdeleted : u.deletedAt = none <;> simp [Option.filter, hdeleted, hnone]
      simp [ensure, hemail, Bind.bind, Program.bind, handle, select, outcome, hcaller] at h
    · simp [ensure, hemail, Bind.bind, Program.bind, handle, outcome] at h

/-- The filter of the withdrawal selects the pending invitations of the workspace that admit
the user. -/
theorem isPendingInvitationOf_iff {s : Database}
    (hmail : ∀ u ∈ s.users.find? userId, u.email ≠ "") :
    isPendingInvitationOf workspaceId userId (s.users.find? userId) i = true ↔
      i.workspaceId = workspaceId ∧ i.status = .pending ∧ s.Admits i userId := by
  unfold isPendingInvitationOf Database.Admits
  cases hu : s.users.find? userId with
  | none => simp [and_assoc]
  | some u =>
    have hne : u.email ≠ "" := hmail u hu
    simp only [Option.any_some, Bool.and_eq_true, Bool.or_eq_true, decide_eq_true_eq, hne,
      Option.isSome_iff_ne_none, Option.mem_some_iff, exists_eq_left', not_false_eq_true, ne_eq,
      true_and, and_assoc]
    constructor
    · rintro ⟨hworkspace, hpending, haccount | ⟨hverified, hnone, hemail⟩⟩
      · exact ⟨hworkspace, hpending, .inl haccount⟩
      · exact ⟨hworkspace, hpending, .inr ⟨hnone, hverified, hemail⟩⟩
    · rintro ⟨hworkspace, hpending, haccount | ⟨hnone, hverified, hemail⟩⟩
      · exact ⟨hworkspace, hpending, .inl haccount⟩
      · exact ⟨hworkspace, hpending, .inr ⟨hverified, hnone, hemail⟩⟩

/-- The address of an account, and when it was verified. -/
def Database.address (db : Database) (userId : Uuid) : Option (String × Option ℕ) :=
  (db.users.find? userId).map fun u => (u.email, u.emailVerifiedAt)

/-- Whom an invitation admits depends on the address only. -/
theorem admits_congr {s : Database} (h : db.address userId = s.address userId) :
    db.Admits i userId ↔ s.Admits i userId := by
  unfold Database.address at h
  unfold Database.Admits
  cases hu : db.users.find? userId <;> cases hs : s.users.find? userId <;> simp_all

/-! ### Suspensions and removals -/

/-- The workspace and the user of an event that suspends or removes a member. -/
def Event.withdraws? : Event → Option (Uuid × Uuid)
  | .rosterChanged .suspend workspaceId _ (some m) _ => some (workspaceId, m.userId)
  | .rosterChanged .remove workspaceId _ (some m) _ => some (workspaceId, m.userId)
  | _ => none

theorem of_withdraws? {x : Uuid × Uuid} (h : x ∈ ev.withdraws?) :
    ∃ op workspaceId actorId m granted,
      ev = .rosterChanged op workspaceId actorId (some m) granted ∧
        (op = .suspend ∨ op = .remove) ∧ x = (workspaceId, m.userId) := by
  unfold Event.withdraws? at h
  split at h
  · exact ⟨_, _, _, _, _, rfl, .inl rfl, (Option.some_inj.mp h).symm⟩
  · exact ⟨_, _, _, _, _, rfl, .inr rfl, (Option.some_inj.mp h).symm⟩
  · cases h

/-- The doors of a user to a workspace are closed, and nothing else happens to invitations. -/
structure ClosesDoors (before after : Database) (workspaceId userId : Uuid) : Prop where
  closed : ∀ i ∈ after.workspaceInvitations, i.workspaceId = workspaceId →
    i.status = .pending → ¬ after.Admits i userId
  refused : ∀ i ∈ after.workspaceInvitations, i.workspaceId = workspaceId →
    i.status = .pending → ∀ u ∈ after.users, u.id = userId →
      (assertIsInvitee i u.id u.email).outcome after ≠ some (.ok ())
  others : ∀ i ∈ before.workspaceInvitations,
    ¬ (i.workspaceId = workspaceId ∧ i.status = .pending ∧ before.Admits i userId) →
      i ∈ after.workspaceInvitations
  known : ∀ i ∈ after.workspaceInvitations, ∃ i' ∈ before.workspaceInvitations, i'.id = i.id

/-- In every suspension and removal, the address of the member is there, and it is what it was
at the guard of the request. -/
def AddressesSettled (init : Database) (log : List (Entry Database Event Request)) : Prop :=
  EveryEntry (fun e l => ∀ x ∈ e.event.withdraws?,
    (∀ u ∈ (stateOf init l).users.find? x.2, u.email ≠ "") ∧
      Undisturbed (· = .guarded)
        (fun r k => r.db.address x.2 ≠ (stateOf init k).address x.2) e.agent l) log

instance (init : Database) (log : List (Entry Database Event Request)) :
    Decidable (AddressesSettled init log) :=
  inferInstanceAs (Decidable (EveryEntry _ log))

/-- Withdrawing the pending invitations that admit a user closes their doors. -/
theorem closesDoors_of_withdrawn {withdrawn : List Uuid} {now : ℕ}
    (husers : db'.users = db.users)
    (hrows : db'.workspaceInvitations =
      db.workspaceInvitations.update withdrawn (WorkspaceInvitation.revoked now actorId))
    (h : ∀ i ∈ db.workspaceInvitations, i.id ∈ withdrawn ↔
      i.workspaceId = workspaceId ∧ i.status = .pending ∧ db.Admits i userId) :
    ClosesDoors db db' workspaceId userId := by
  have hclosed : ∀ i ∈ db'.workspaceInvitations, i.workspaceId = workspaceId →
      i.status = .pending → ¬ db'.Admits i userId := by
    intro i hi hworkspace hpending hadmits
    rw [hrows] at hi
    rcases Table.of_mem_update hi with ⟨hold, hnot⟩ | ⟨i₀, -, -, rfl⟩
    · have hbefore : db.Admits i userId := by
        unfold Database.Admits at hadmits ⊢
        rwa [husers] at hadmits
      exact hnot ((h i hold).mpr ⟨hworkspace, hpending, hbefore⟩)
    · simp [WorkspaceInvitation.revoked] at hpending
  constructor
  · exact hclosed
  · intro i hi hworkspace hpending u hu huser houtcome
    have hadmits : db'.Admits i u.id := admits_of_assertIsInvitee hu houtcome
    exact hclosed i hi hworkspace hpending (huser ▸ hadmits)
  · intro i hi hnot
    rw [hrows]
    exact Table.mem_update_of_not_mem hi fun hid => hnot ((h i hi).mp hid)
  · intro i hi
    rw [hrows] at hi
    rcases Table.of_mem_update hi with ⟨hold, -⟩ | ⟨i₀, hi₀, -, rfl⟩
    · exact ⟨i, hold, rfl⟩
    · exact ⟨i₀, hi₀, rfl⟩

variable {env : Env} {Allowed : Request → Prop} {init : Database} {σ : SystemConfig}

/-- Suspending or removing a member closes exactly that member's open doors, in every run in
which the address does not change under the operation. -/
theorem withdrawals_exact (hrun : RunsTo env Allowed init σ)
    (hsettled : AddressesSettled init σ.world.log) :
    ∀ e l, (e :: l) <:+ σ.world.log → ∀ x ∈ e.event.withdraws?,
      ClosesDoors (stateOf init l) e.db x.1 x.2 := by
  intro e l hl x hx
  obtain ⟨hmail, haddress⟩ := everyEntry_iff.mp hsettled e l hl x hx
  obtain ⟨w, L, rfl, rfl, -, hcommit⟩ := hrun.entry hl
  obtain ⟨op, workspaceId, actorId, m, granted, hev, hop, rfl⟩ := of_withdraws? hx
  rw [hev] at hcommit
  have hkept : Undisturbed (· = .guarded)
      (fun r k => r.db.address m.userId ≠ (stateOf w.init k).address m.userId) e.agent w.log :=
    haddress
  change ClosesDoors w.db e.db workspaceId m.userId
  generalize e.db = db' at hcommit ⊢
  cases hcommit with
  | rosterChanged _ _ _ _ _ k d _ _ _ hguard _ hwrite =>
    cases hwrite with
    | changeRole | reactivate | transferOwnership => rcases hop with hop | hop <;> cases hop
    | leave _ _ _ r _ _ withdrawn hlike _ _ _ _ hwithdrawn =>
      obtain ⟨s, hs, hmatch⟩ := hwithdrawn
      have hsame : w.db.address m.userId = s.address m.userId :=
        World.persists_since (D := fun db => db.address m.userId = s.address m.userId)
          (P := (· = .guarded)) hkept hguard rfl rfl hs rfl fun _ _ hsame hbefore =>
            (not_not.mp hsame).trans hbefore
      refine closesDoors_of_withdrawn rfl rfl fun i hi => ?_
      rw [hmatch i hi, hlike.userId, isPendingInvitationOf_iff, admits_congr hsame]
      -- the address that the withdrawal read is the one that is there now
      intro u hu
      have hread : s.address m.userId = some (u.email, u.emailVerifiedAt) := by
        unfold Database.address
        rw [hu]
        rfl
      obtain ⟨v, hv, haddr⟩ := Option.map_eq_some_iff.mp (hsame.trans hread)
      have hvmail : v.email ≠ "" := hmail v hv
      rwa [(Prod.mk.inj haddr).1] at hvmail

/-- A member leaves the workspace with an invitation pending, and is suspended. -/
def guestMember : Database :=
  { Sample.database [("ann", .workspaceOwner), ("bob", .workspaceStaff)] [] with
    workspaceInvitations := Sample.table WorkspaceInvitation.id [Sample.invitation "bob" "ann"] }

def suspendGuest : List (Order Request) :=
  [.serve 1 (.transition .suspend "ann" "acme" "bob-m"), .proceed 1, .proceed 1]

theorem withdrawals_exact_suspendGuest :
    EveryEntry (fun e l => ∀ x ∈ e.event.withdraws?,
      ClosesDoors (stateOf guestMember l) e.db x.1 x.2)
        (Sample.perform guestMember 5000 suspendGuest).world.log :=
  everyEntry_iff.mpr (withdrawals_exact (Sample.runsTo_perform _ _ _) (by decide +kernel))

end NestApi
