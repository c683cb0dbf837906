import NestApi.Properties.Authority
import NestApi.Properties.Redemption

/-!
# The inviter's authority at acceptance

An invitation is a role assignment, deferred. Acceptance asks again whether the inviter may
hand out the role, under the workspace lock, but not whether the inviter may still invite: the
assignment policy lets a mere member of staff hand out the role of staff. What the inviter is
platform-wide changes without that lock.
-/

namespace NestApi

open Txn Authorization WorkspaceRoleAssignmentPolicy

variable {a : Agent Request} {L : RowLock → Prop} {w : SystemWorld} {db' : Database}

/-! ### The law -/

/-- The user may invite somebody into the workspace in this role: the account is in service,
and may do everything, or is an active member of the live workspace who may invite and whom the
assignment policy lets hand out the role. -/
def Database.MayInvite (db : Database) (workspaceId userId : Uuid) (role : SeededRoleName) :
    Prop :=
  db.isUsable userId = true ∧ (db.ManageAll userId ∨ db.isLiveWorkspace workspaceId = true ∧
    ∃ own ∈ db.workspaceMemberships, own.workspaceId = workspaceId ∧ own.userId = userId ∧
      own.status = .active ∧ createWorkspaceInvitation ∈ own.role.permissions ∧
        (assignRoleWorkspaceMembership ∈ own.role.permissions ∨
          role ∈ nonPrivilegedWorkspaceRoles) ∧ role.rank ≤ own.role.rank)

instance (db : Database) (workspaceId userId : Uuid) (role : SeededRoleName) :
    Decidable (db.MayInvite workspaceId userId role) :=
  inferInstanceAs (Decidable (_ ∧ (_ ∨ _ ∧ ∃ own ∈ db.workspaceMemberships, _)))

/-- Every invitation is accepted in a state in which its inviter may create it. -/
def InvitersAuthorized (init : Database) (log : List (Entry Database Event Request)) : Prop :=
  EveryEntry (fun e l => ∀ i ∈ e.event.accepted?, ∃ inviterId ∈ i.invitedBy,
    (stateOf init l).MayInvite i.workspaceId inviterId i.role) log

instance (init : Database) (log : List (Entry Database Event Request)) :
    Decidable (InvitersAuthorized init log) :=
  inferInstanceAs (Decidable (EveryEntry _ log))

/-! ### The condition -/

/-- The user may do everything, or is an active member of the live workspace in a role that may
invite. -/
def Database.StillInvites (db : Database) (workspaceId userId : Uuid) : Prop :=
  db.ManageAll userId ∨ db.isLiveWorkspace workspaceId = true ∧
    ∃ own ∈ db.workspaceMemberships, own.workspaceId = workspaceId ∧ own.userId = userId ∧
      own.status = .active ∧ createWorkspaceInvitation ∈ own.role.permissions

instance (db : Database) (workspaceId userId : Uuid) :
    Decidable (db.StillInvites workspaceId userId) :=
  inferInstanceAs (Decidable (_ ∨ _ ∧ ∃ own ∈ db.workspaceMemberships, _))

/-- The entry, after the history, takes the account out of service, or takes its platform role
that may do everything. -/
def Disqualifies (init : Database) (userId : Uuid) (e : Entry Database Event Request)
    (l : List (Entry Database Event Request)) : Prop :=
  ((stateOf init l).isUsable userId = true ∧ e.db.isUsable userId = false) ∨
    ((stateOf init l).ManageAll userId ∧ ¬ e.db.ManageAll userId)

instance (init : Database) (userId : Uuid) (e : Entry Database Event Request)
    (l : List (Entry Database Event Request)) : Decidable (Disqualifies init userId e l) :=
  inferInstanceAs (Decidable ((_ ∧ _) ∨ (_ ∧ _)))

/-- An invitation to the role of staff is accepted only while its inviter may invite, and no
inviter is disqualified between the check at acceptance and its commit. -/
def InvitersUndisturbed (init : Database) (log : List (Entry Database Event Request)) : Prop :=
  EveryEntry (fun e l => ∀ i ∈ e.event.accepted?, ∀ inviterId ∈ i.invitedBy,
    (i.role ∈ nonPrivilegedWorkspaceRoles →
      (stateOf init l).StillInvites i.workspaceId inviterId) ∧
        Undisturbed (· = .inviterRead inviterId) (Disqualifies init inviterId) e.agent l) log

instance (init : Database) (log : List (Entry Database Event Request)) :
    Decidable (InvitersUndisturbed init log) :=
  inferInstanceAs (Decidable (EveryEntry _ log))

/-! ### Acceptance -/

/-- Whoever may hand out privileged roles may invite. -/
theorem invites_of_assigns {role : SeededRoleName}
    (h : assignRoleWorkspaceMembership ∈ role.permissions) :
    createWorkspaceInvitation ∈ role.permissions := by
  revert h
  cases role <;> decide

/-- The checks at acceptance and the permission to invite are the authority to create the
invitation. -/
theorem InviterChecked.mayInvite {i : WorkspaceInvitation} {inviterId : Uuid}
    (h : InviterChecked a w i inviterId) (hone : w.db.OneMembership)
    (hinvites : i.role ∈ nonPrivilegedWorkspaceRoles →
      w.db.StillInvites i.workspaceId inviterId)
    (hkept : Undisturbed (· = .inviterRead inviterId) (Disqualifies w.init inviterId) a w.log) :
    w.db.MayInvite i.workspaceId inviterId i.role := by
  obtain ⟨k, d, hk, husable, g, hg, hmay, hrank⟩ := h
  have hread : w.Since (k.length + 1) d := ⟨_, hk, by simp, rfl⟩
  constructor
  · refine World.persists_since (D := fun db => db.isUsable inviterId = true)
      (P := (· = .inviterRead inviterId)) hkept hk rfl rfl hread
        (Database.isUsable_iff.mpr husable) fun e l hquiet hbefore => ?_
    by_contra hretired
    exact hquiet (.inl ⟨hbefore, by simpa using hretired⟩)
  have hplatform : g.ManageAll inviterId → w.db.ManageAll inviterId := by
    intro hall
    refine World.persists_since (D := fun db => db.ManageAll inviterId)
      (P := (· = .inviterRead inviterId)) hkept hk rfl rfl hg hall fun e l hquiet hbefore => ?_
    by_contra hlost
    exact hquiet (.inr ⟨hbefore, hlost⟩)
  rcases hrank with hall | ⟨role, ⟨own, hown, hworkspace, huser, hactive, rfl⟩, hle⟩
  · exact .inl (hplatform hall)
  -- the rank and the permissions rest on one row
  have hrow : ∀ m ∈ w.db.workspaceMemberships, m.workspaceId = i.workspaceId →
      m.userId = inviterId → m = own := fun m hm hin hof =>
    hone m hm own hown (hin.trans hworkspace.symm) (hof.trans huser.symm)
  rcases hmay with hplain | hall | ⟨hlive, role, ⟨m, hm, hin, hof, -, rfl⟩, hassigns⟩
  · rcases hinvites hplain with hall | ⟨hlive, m, hm, hin, hof, -, hlisted⟩
    · exact .inl hall
    · obtain rfl := hrow m hm hin hof
      exact .inr ⟨hlive, m, hown, hworkspace, huser, hactive, hlisted, .inr hplain, hle⟩
  · exact .inl (hplatform hall)
  · obtain rfl := hrow m hm hin hof
    exact .inr ⟨Database.isLiveWorkspace_iff.mpr hlive, m, hown, hworkspace, huser, hactive,
      invites_of_assigns hassigns, .inl hassigns, hle⟩

/-- An acceptance has checked the inviter of the row that it looked up. -/
theorem Commit.inviterChecked {i : WorkspaceInvitation} {actorId : Uuid}
    (h : Commit a L w (.invitationAccepted i actorId) db') :
    ∃ inviterId, i.invitedBy = some inviterId ∧ InviterChecked a w i inviterId := by
  cases h with
  | invitationAccepted _ _ _ inviterId _ _ _ _ _ _ _ _ _ _ _ _ _ hinviter hchecked =>
    exact ⟨inviterId, hinviter, hchecked⟩

/-! ### Every run -/

variable {env : Env} {Allowed : Request → Prop} {init : Database} {σ : SystemConfig}

/-- Where inviters keep the permission to invite and are not disqualified under an acceptance,
every invitation is accepted on authority that its inviter still has. -/
theorem invitersAuthorized_of_undisturbed (hrun : RunsTo env Allowed init σ)
    (hone : init.OneMembership) (hundisturbed : InvitersUndisturbed init σ.world.log) :
    InvitersAuthorized init σ.world.log := by
  rw [InvitersAuthorized, everyEntry_iff]
  intro e l hl i hi
  have hquiet := everyEntry_iff.mp hundisturbed e l hl i hi
  have hone' : (stateOf init l).OneMembership :=
    hrun.always hone Commit.oneMembership ((List.suffix_cons _ _).trans hl)
  obtain ⟨w, L, rfl, rfl, -, hcommit⟩ := hrun.entry hl
  obtain ⟨b, evb, dbb⟩ := e
  cases evb with
  | invitationAccepted i' actorId =>
    obtain rfl := Option.some_inj.mp hi
    obtain ⟨inviterId, hinviter, hchecked⟩ := hcommit.inviterChecked
    obtain ⟨hinvites, hkept⟩ := hquiet inviterId hinviter
    exact ⟨inviterId, hinviter, hchecked.mayInvite hone' hinvites hkept⟩
  | _ => cases hi

/-- The workspace `acme` with an owner and a manager, who has invited somebody as staff. -/
def invitedByManager : Database :=
  { Sample.database [("ann", .workspaceOwner), ("bob", .workspaceManager)] ["carl"] with
    workspaceInvitations := Sample.table WorkspaceInvitation.id [Sample.invitation "carl" "bob"] }

/-- Carl accepts. -/
def acceptInvitation : List (Order Request) :=
  [.serve 1 (.acceptInvitation "carl" "carl" "link"), .proceed 1, .proceed 1, .proceed 1]

theorem invitersAuthorized_acceptInvitation :
    InvitersAuthorized invitedByManager
      (Sample.perform invitedByManager 5000 acceptInvitation).world.log :=
  invitersAuthorized_of_undisturbed (Sample.runsTo_perform invitedByManager 5000 acceptInvitation)
    (by unfold Database.OneMembership; decide +kernel) (by decide +kernel)

/-- Bob is demoted to staff before Carl accepts. -/
def acceptFromDemoted : List (Order Request) :=
  [.serve 1 (.changeRole "ann" "acme" "bob-m" (some .workspaceStaff)), .proceed 1, .proceed 1,
    .serve 2 (.acceptInvitation "carl" "carl" "link"), .proceed 2, .proceed 2, .proceed 2]

theorem invitersAuthorized_acceptFromDemoted :
    RunsTo Sample.env (fun _ => True) invitedByManager
        (Sample.perform invitedByManager 5000 acceptFromDemoted) ∧
      ¬ InvitersAuthorized invitedByManager
        (Sample.perform invitedByManager 5000 acceptFromDemoted).world.log :=
  ⟨Sample.runsTo_perform _ _ _, by decide +kernel⟩

end NestApi
