import NestApi.Properties.Redemption

/-!
# The roster of a deleted workspace

Deleting a workspace leaves its memberships and invitations, for a restore. Whether the
workspace is live is asked before the lock in most operations, under it in the transfer of
ownership, and by the guard alone in the addition of a member, so a deletion that commits in
between is not noticed.
-/

namespace NestApi

open Txn

variable {a : Agent Request} {L : RowLock → Prop} {w : SystemWorld} {ev : Event}
  {db db' : Database} {workspaceId actorId userId : Uuid}

/-! ### The law -/

/-- No membership of the workspace is inserted, becomes active or gets another role, and no
invitation of it is created or accepted. -/
structure RosterFrozen (workspaceId : Uuid) (before after : Database) : Prop where
  memberships : ∀ m' ∈ after.workspaceMemberships, m'.workspaceId = workspaceId →
    ∃ m ∈ before.workspaceMemberships, m.identity = m'.identity ∧ m.role = m'.role ∧
      (m'.status = .active → m.status = .active)
  invitations : ∀ i' ∈ after.workspaceInvitations, i'.workspaceId = workspaceId →
    ∃ i ∈ before.workspaceInvitations, i.id = i'.id ∧
      (i'.status = .accepted → i.status = .accepted)

instance (workspaceId : Uuid) (before after : Database) :
    Decidable (RosterFrozen workspaceId before after) :=
  decidable_of_iff (_ ∧ _) ⟨fun h => ⟨h.1, h.2⟩, fun h => ⟨h.memberships, h.invitations⟩⟩

/-- After every deletion of a workspace, each commit leaves its roster frozen. -/
def DeletedFrozen (init : Database) (log : List (Entry Database Event Request)) : Prop :=
  EveryEntry (fun e l => ∀ ws ∈ (stateOf init l).workspaces, ws.deletedAt ≠ none →
    RosterFrozen ws.id (stateOf init l) e.db) log

instance (init : Database) (log : List (Entry Database Event Request)) :
    Decidable (DeletedFrozen init log) :=
  inferInstanceAs (Decidable (EveryEntry _ log))

/-! ### Which commits touch a roster -/

/-- The event lets a roster grow or rise: every roster operation but a suspension and a
removal, and the acceptance of an invitation. -/
def Event.Enrols (workspaceId : Uuid) : Event → Prop
  | .rosterChanged op id _ _ _ => id = workspaceId ∧ op ≠ .suspend ∧ op ≠ .remove
  | .invitationAccepted i _ => i.workspaceId = workspaceId
  | _ => False

theorem RosterFrozen.of_eq (hmembers : db'.workspaceMemberships = db.workspaceMemberships)
    (hinvitations : db'.workspaceInvitations = db.workspaceInvitations) :
    RosterFrozen workspaceId db db' where
  memberships m' hm' _ := ⟨m', hmembers ▸ hm', rfl, rfl, id⟩
  invitations i' hi' _ := ⟨i', hinvitations ▸ hi', rfl, id⟩

/-- An update of invitations that accepts none. -/
theorem invitation_of_update {ids : List Uuid} {f : Rewrite WorkspaceInvitation.id}
    (hf : ∀ i, (f.row i).status = .accepted → i.status = .accepted)
    {i' : WorkspaceInvitation} (hi' : i' ∈ (db.updateInvitations ids f).workspaceInvitations) :
    ∃ i ∈ db.workspaceInvitations, i.id = i'.id ∧ (i'.status = .accepted → i.status = .accepted) :=
  version_of_mem_update (R := fun i i' : WorkspaceInvitation => i.id = i'.id ∧
    (i'.status = .accepted → i.status = .accepted)) (fun _ => ⟨rfl, id⟩)
      (fun i => ⟨(f.key_row i).symm, hf i⟩) hi'

theorem RosterWrite.frozen {id : Uuid} {op : RosterOperation}
    {target : Option WorkspaceMembership} {granted : Option SeededRoleName} {n : ℕ}
    (h : RosterWrite a L w id actorId n op target granted db')
    (hev : ¬ (id = workspaceId ∧ op ≠ .suspend ∧ op ≠ .remove)) :
    RosterFrozen workspaceId w.db db' := by
  -- an operation on another workspace leaves the memberships of this one
  have hother : id ≠ workspaceId → ∀ m' ∈ db'.workspaceMemberships,
      m'.workspaceId = workspaceId → ∃ m ∈ w.db.workspaceMemberships,
        m.identity = m'.identity ∧ m.role = m'.role ∧ (m'.status = .active → m.status = .active) :=
    fun hne m' hm' hworkspace =>
      ⟨m', (h.memberships fun hid => hne (hid.symm.trans hworkspace)).mp hm', rfl, rfl, fun h => h⟩
  have helse : op ≠ .suspend → op ≠ .remove → id ≠ workspaceId :=
    fun hsuspend hremove hid => hev ⟨hid, hsuspend, hremove⟩
  cases h with
  | add _ _ _ _ hjoins =>
    refine ⟨hother (helse (by simp) (by simp)), fun i' hi' _ => ⟨i', ?_, rfl, fun h => h⟩⟩
    rwa [hjoins.tables.2.2.1] at hi'
  | changeRole | reactivate | transferOwnership =>
    exact ⟨hother (helse (by simp) (by simp)), fun i' hi' _ => ⟨i', hi', rfl, fun h => h⟩⟩
  | leave _ toStatus _ m _ _ _ _ hkind hmem =>
    constructor
    · intro m' hm' _
      rcases of_mem_updateMembership hmem hm' with
        ⟨hold, -⟩ | rfl
      · exact ⟨m', hold, rfl, rfl, fun h => h⟩
      · refine ⟨m, hmem, rfl, rfl, fun hactive => ?_⟩
        rcases hkind with ⟨-, -, rfl, -⟩ | ⟨-, -, rfl, -⟩ <;>
          simp [WorkspaceMembership.withStatus] at hactive
    · intro i' hi' _
      exact invitation_of_update (fun _ => by simp [WorkspaceInvitation.revoked]) hi'
  | createInvitation i _ lapsed _ _ _ _ hworkspace =>
    have hne := helse (by simp) (by simp)
    refine ⟨hother hne, fun i' hi' hin => ?_⟩
    rcases Table.mem_of_mem_insert hi' with hold | rfl
    · exact invitation_of_update (fun _ => by simp [WorkspaceInvitation.expired]) hold
    · exact absurd (hworkspace.symm.trans hin) hne

/-- Every other commit leaves the roster of a workspace frozen. -/
theorem Commit.frozen (h : Commit a L w ev db') (hinv : Inv w) (hev : ¬ ev.Enrols workspaceId)
    (hknown : ∃ ws ∈ w.db.workspaces, ws.id = workspaceId) :
    RosterFrozen workspaceId w.db db' := by
  cases h with
  | workspaceCreated ws m _ _ _ _ _ hws _ _ hworkspace =>
    refine ⟨fun m' hm' hin => ?_, fun i' hi' _ => ⟨i', hi', rfl, fun h => h⟩⟩
    rcases Table.mem_of_mem_insert hm' with hold | rfl
    · exact ⟨m', hold, rfl, rfl, fun h => h⟩
    · obtain ⟨ws', hws', hid⟩ := hknown
      refine absurd ?_ (hws.unused w.db (w.since_db (Nat.zero_le _)))
      exact .inr (.inl ⟨ws', hws', hid.trans (hin.symm.trans hworkspace)⟩)
  | rosterChanged _ _ _ _ _ _ _ _ _ _ _ _ hwrite => exact hwrite.frozen hev
  | invitationAccepted invitation current actorId _ _ _ now _ _ _ _ _ hread hcurrent hid _ _ _ _
      hjoins =>
    have hne : invitation.workspaceId ≠ workspaceId := hev
    refine ⟨fun m' hm' hin => ?_, fun i' hi' hin => ?_⟩
    · have hother : m'.workspaceId ≠ invitation.workspaceId := fun h => hne (h.symm.trans hin)
      exact ⟨m', (hjoins.memberships rfl hother).mp hm', rfl, rfl, fun h => h⟩
    · rw [hjoins.tables.2.2.1] at hi'
      rcases Table.of_mem_update hi' with ⟨hold, -⟩ | ⟨i, hi, hkey, rfl⟩
      · exact ⟨i', hold, rfl, fun h => h⟩
      · have hsame : i.id = invitation.id := List.mem_singleton.mp hkey
        have hworkspace : invitation.workspaceId = i.workspaceId :=
          congrArg (fun x => x.2.1) (identity_of_read hinv hread hi hsame)
        exact absurd (hworkspace.trans hin) hne
  | membershipUpdated =>
    refine ⟨fun m' hm' _ => ?_, fun i' hi' _ => ⟨i', hi', rfl, fun h => h⟩⟩
    rcases Table.of_mem_update hm' with ⟨hold, -⟩ | ⟨m, hm, -, rfl⟩
    · exact ⟨m', hold, rfl, rfl, fun h => h⟩
    · exact ⟨m, hm, rfl, rfl, fun h => h⟩
  | invitationResent =>
    exact ⟨fun m' hm' _ => ⟨m', hm', rfl, rfl, fun h => h⟩, fun i' hi' _ =>
      invitation_of_update (fun _ h => h) hi'⟩
  | invitationRevoked =>
    exact ⟨fun m' hm' _ => ⟨m', hm', rfl, rfl, fun h => h⟩, fun i' hi' _ =>
      invitation_of_update (fun _ => by simp [WorkspaceInvitation.revoked]) hi'⟩
  | _ => exact .of_eq rfl rfl

/-! ### Every run -/

/-- The workspace that an enrolling event is about, and the event in which its process asked
whether it is live. -/
def Event.enrolment? : Event → Option (Uuid × Event)
  | .rosterChanged op workspaceId _ _ _ =>
    if op = .suspend ∨ op = .remove then none else some (workspaceId, .guarded)
  | .invitationAccepted i _ => some (i.workspaceId, .invitationRead (some i))
  | _ => none

/-- The workspace that an addition is about. -/
def Event.addition? : Event → Option Uuid
  | .rosterChanged .add workspaceId _ _ _ => some workspaceId
  | _ => none

/-- The entry, after the history, deletes the workspace. -/
def Deletes (init : Database) (workspaceId : Uuid) (e : Entry Database Event Request)
    (l : List (Entry Database Event Request)) : Prop :=
  (stateOf init l).isLiveWorkspace workspaceId = true ∧ e.db.isLiveWorkspace workspaceId = false

instance (init : Database) (workspaceId : Uuid) (e : Entry Database Event Request)
    (l : List (Entry Database Event Request)) : Decidable (Deletes init workspaceId e l) :=
  inferInstanceAs (Decidable (_ ∧ _))

/-- No deletion of a workspace committed between the guard of an operation on its roster, or the
lookup of an invitation to it, and the commit; and nobody was added to a workspace that was not
live at the guard. -/
def EnrolmentsUndisturbed (init : Database) (log : List (Entry Database Event Request)) : Prop :=
  EveryEntry (fun e l =>
    (∀ x ∈ e.event.enrolment?, Undisturbed (· = x.2) (Deletes init x.1) e.agent l) ∧
      ∀ workspaceId ∈ e.event.addition?, ∀ g ∈ l, g.agent = e.agent → g.event = .guarded →
        g.db.isLiveWorkspace workspaceId = true) log

instance (init : Database) (log : List (Entry Database Event Request)) :
    Decidable (EnrolmentsUndisturbed init log) :=
  inferInstanceAs (Decidable (EveryEntry _ log))

theorem enrolment?_of_enrols (h : ev.Enrols workspaceId) :
    ∃ asked, ev.enrolment? = some (workspaceId, asked) := by
  cases ev with
  | rosterChanged op id =>
    obtain ⟨rfl, hsuspend, hremove⟩ := h
    exact ⟨.guarded, by simp [Event.enrolment?, hsuspend, hremove]⟩
  | invitationAccepted i =>
    obtain rfl : i.workspaceId = workspaceId := h
    exact ⟨.invitationRead (some i), rfl⟩
  | _ => exact absurd h id

/-- An enrolling commit was preceded by the event in which its process asked. Unless it is an
addition, the workspace was seen live then or later. -/
theorem Commit.asked (h : Commit a L w ev db') {asked : Event}
    (hasked : ev.enrolment? = some (workspaceId, asked)) :
    ∃ k d, (⟨a, asked, d⟩ :: k) <:+ w.log ∧
      (asked = .guarded ∧ ev.addition? = some workspaceId ∨
        SeenLive w (k.length + 1) workspaceId) := by
  cases h with
  | rosterChanged op _ _ _ _ k d _ _ _ hguard hauthorized =>
    by_cases hop : op = .suspend ∨ op = .remove
    · simp [Event.enrolment?, hop] at hasked
    · simp only [Event.enrolment?, hop, if_false, Option.some.injEq, Prod.mk.injEq] at hasked
      obtain ⟨rfl, rfl⟩ := hasked
      refine ⟨k, d, hguard, ?_⟩
      by_cases hadd : op = .add
      · exact .inl ⟨rfl, by rw [hadd]; rfl⟩
      · exact .inr (hauthorized.live hadd)
  | invitationAccepted _ _ _ _ _ _ _ _ _ _ _ _ hread =>
    obtain ⟨k, d, hk, -, hlive⟩ := hread
    obtain ⟨rfl, rfl⟩ := Prod.mk.inj (Option.some_inj.mp hasked)
    exact ⟨k, d, hk, .inr ⟨d, ⟨_, hk, by simp, rfl⟩, hlive⟩⟩
  | _ => cases hasked

variable {env : Env} {Allowed : Request → Prop} {init : Database} {σ : SystemConfig}

/-- Where nobody deletes a workspace under an operation on its roster, a deleted workspace has
a frozen roster. -/
theorem deletedFrozen_of_undisturbed (hrun : RunsTo env Allowed init σ)
    (hundisturbed : EnrolmentsUndisturbed init σ.world.log) : DeletedFrozen init σ.world.log := by
  rw [DeletedFrozen, everyEntry_iff]
  intro e l hl ws hws hdeleted
  obtain ⟨w, L, rfl, rfl, hinv, hcommit⟩ := hrun.entry hl
  refine hcommit.frozen hinv (fun henrols => ?_) ⟨ws, hws, rfl⟩
  obtain ⟨asked, hasked⟩ := enrolment?_of_enrols henrols
  obtain ⟨k, d, hk, hseen⟩ := hcommit.asked hasked
  obtain ⟨hkept, hadded⟩ := everyEntry_iff.mp hundisturbed e w.log hl
  -- the workspace was live when the process asked or later, and nobody deleted it since
  have hlive : ∃ s, w.Since (k.length + 1) s ∧ s.isLiveWorkspace ws.id = true := by
    rcases hseen with ⟨rfl, haddition⟩ | ⟨s, hs, hlive⟩
    · have hguard := hadded ws.id haddition ⟨e.agent, .guarded, d⟩ (hk.subset (by simp)) rfl rfl
      exact ⟨d, ⟨_, hk, by simp, rfl⟩, hguard⟩
    · exact ⟨s, hs, Database.isLiveWorkspace_iff.mpr hlive⟩
  obtain ⟨s, hs, halive⟩ := hlive
  have hnow : w.db.isLiveWorkspace ws.id = true := by
    refine World.persists_since (D := fun db => db.isLiveWorkspace ws.id = true)
      (P := (· = asked)) (hkept _ hasked) hk rfl rfl hs halive fun r m hr hbefore => ?_
    by_contra hdead
    exact hr ⟨hbefore, by simpa using hdead⟩
  obtain ⟨ws', hws', hid, hundeleted⟩ := Database.isLiveWorkspace_iff.mp hnow
  rw [Table.eq_of_key hws' hws hid] at hundeleted
  exact hdeleted hundeleted

/-- Carl is added to a workspace, which is deleted afterwards. -/
def addThenRemove : List (Order Request) :=
  [.serve 1 (.addMembership "ann" "acme" ⟨"carl", some .workspaceStaff, none⟩), .proceed 1,
    .proceed 1, .serve 2 (.removeWorkspace "ann" "acme"), .proceed 2, .proceed 2]

theorem deletedFrozen_addThenRemove :
    DeletedFrozen (Sample.database [("ann", .workspaceOwner)] ["carl"])
      (Sample.perform (Sample.database [("ann", .workspaceOwner)] ["carl"]) 5000
        addThenRemove).world.log :=
  deletedFrozen_of_undisturbed (Sample.runsTo_perform _ _ _)
    (by decide +kernel)

/-- The workspace is deleted after the guard has let the addition pass. -/
def addUnderRemove : List (Order Request) :=
  [.serve 1 (.addMembership "ann" "acme" ⟨"carl", some .workspaceStaff, none⟩), .proceed 1,
    .serve 2 (.removeWorkspace "ann" "acme"), .proceed 2, .proceed 2, .proceed 1]

theorem deletedFrozen_addUnderRemove :
    RunsTo Sample.env (fun _ => True) (Sample.database [("ann", .workspaceOwner)] ["carl"])
        (Sample.perform (Sample.database [("ann", .workspaceOwner)] ["carl"]) 5000
          addUnderRemove) ∧
      ¬ DeletedFrozen (Sample.database [("ann", .workspaceOwner)] ["carl"])
        (Sample.perform (Sample.database [("ann", .workspaceOwner)] ["carl"]) 5000
          addUnderRemove).world.log :=
  ⟨Sample.runsTo_perform _ _ _, by decide +kernel⟩

end NestApi
