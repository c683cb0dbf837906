import NestApi.Properties.Redemption
import Mathlib.Data.Set.Defs

/-!
# Collusion inside a workspace

People who hold no platform role cannot raise themselves above the highest rank that one of them
had, whatever they do to the roster together. A rank is handed out by somebody who held it at
some point of the run, even where it was read before a lock, and an invitation is accepted only
while its inviter holds the rank.
-/

namespace NestApi

open Txn

variable {a : Agent Request} {L : RowLock → Prop} {w : SystemWorld} {ev : Event}
  {init db' : Database} {workspaceId : Uuid} {C : Set Uuid}

/-! ### The law -/

/-- Who makes a request that adds to a roster, changes it, or answers an invitation to it. -/
def Request.rosterCaller? : Request → Option Uuid
  | .addMembership actorId _ _ => some actorId
  | .changeRole actorId _ _ _ => some actorId
  | .transition _ actorId _ _ => some actorId
  | .transferOwnership actorId _ _ => some actorId
  | .createInvitation actorId _ _ => some actorId
  | .resendInvitation actorId _ _ _ => some actorId
  | .acceptInvitation actorId _ _ => some actorId
  | _ => none

/-- The request is one of these, and one of the group makes it. -/
def MadeBy (C : Set Uuid) (req : Request) : Prop :=
  ∃ actorId ∈ req.rosterCaller?, actorId ∈ C

/-- Somebody of the group held this rank at the start, as an active member of the workspace. -/
def HeldAtStart (C : Set Uuid) (workspaceId : Uuid) (init : Database) (rank : ℕ) : Prop :=
  ∃ m ∈ init.workspaceMemberships, m.workspaceId = workspaceId ∧ m.userId ∈ C ∧
    m.status = .active ∧ rank ≤ m.role.rank

/-- What the group has in the workspace: no platform role, no pending invitation of an outsider,
and no rank above what one of them had at the start. -/
structure Contained (C : Set Uuid) (workspaceId : Uuid) (init db : Database) : Prop where
  platform : ∀ r ∈ db.userRoles, r.userId ∉ C
  invited : ∀ i ∈ db.workspaceInvitations, i.workspaceId = workspaceId → i.status = .pending →
    ∀ inviterId ∈ i.invitedBy, inviterId ∈ C
  ranked : ∀ m ∈ db.workspaceMemberships, m.workspaceId = workspaceId → m.userId ∈ C →
    m.status = .active → HeldAtStart C workspaceId init m.role.rank

/-! ### What the group may do -/

theorem HeldAtStart.mono {rank rank' : ℕ} (h : HeldAtStart C workspaceId init rank)
    (hle : rank' ≤ rank) : HeldAtStart C workspaceId init rank' := by
  obtain ⟨m, hm, hworkspace, huser, hactive, hheld⟩ := h
  exact ⟨m, hm, hworkspace, huser, hactive, hle.trans hheld⟩

/-- Nobody of the group may do everything. -/
theorem Contained.not_manageAll {db : Database} {userId : Uuid}
    (h : Contained C workspaceId init db) (huser : userId ∈ C) : ¬ db.ManageAll userId := by
  rintro ⟨r, hr, rfl, -⟩
  exact h.platform r hr huser

/-- The rank of a member of the group is one that was held at the start. -/
theorem Contained.held {db : Database} {userId : Uuid} {role : SeededRoleName}
    (h : Contained C workspaceId init db) (huser : userId ∈ C)
    (hmember : db.Member workspaceId userId role) :
    HeldAtStart C workspaceId init role.rank := by
  obtain ⟨m, hm, hworkspace, rfl, hactive, rfl⟩ := hmember
  exact h.ranked m hm hworkspace huser hactive

section Authorized

variable {op : RosterOperation} {actorId : Uuid} {target : Option WorkspaceMembership}
  {granted : Option SeededRoleName} {n : ℕ} {d : Database}

/-- One of the group acts on the roster: the target and the role that is handed out rank no
higher than somebody of the group did at the start. -/
theorem Authorized.held (h : Authorized w op workspaceId actorId target granted n d)
    (hd : w.Since 0 d) (hpast : ∀ s, w.Since 0 s → Contained C workspaceId init s)
    (hactor : actorId ∈ C) :
    (∀ m ∈ target, HeldAtStart C workspaceId init m.role.rank) ∧
      ∀ r ∈ granted, HeldAtStart C workspaceId init r.rank := by
  rcases h.rank with hall | ⟨s, hs, role, hmember, htarget, hgranted⟩
  · exact absurd hall ((hpast d hd).not_manageAll hactor)
  · have hpoint : w.Since 0 s := by
      obtain ⟨l, hl, -, hstate⟩ := hs
      exact ⟨l, hl, Nat.zero_le _, hstate⟩
    have hheld := (hpast s hpoint).held hactor hmember
    constructor
    · intro m hm
      exact hheld.mono (htarget m hm)
    · intro r hr
      exact hheld.mono (hgranted r hr)

/-- A roster operation of the group leaves every rank of the group within what was held at the
start. -/
theorem RosterWrite.ranked {operatedId : Uuid}
    (h : RosterWrite a L w operatedId actorId n op target granted db')
    (hnow : Contained C workspaceId init w.db)
    (hheld : operatedId = workspaceId →
      (∀ m ∈ target, HeldAtStart C workspaceId init m.role.rank) ∧
        ∀ r ∈ granted, HeldAtStart C workspaceId init r.rank)
    {m' : WorkspaceMembership} (hm' : m' ∈ db'.workspaceMemberships)
    (hworkspace : m'.workspaceId = workspaceId) (huser : m'.userId ∈ C)
    (hactive : m'.status = .active) : HeldAtStart C workspaceId init m'.role.rank := by
  by_cases hin : m'.workspaceId = operatedId
  · obtain ⟨htarget, hgranted⟩ := hheld (hin.symm.trans hworkspace)
    rcases h.row hm' with hold | hended | ⟨-, hrole⟩ | ⟨hrole, m, hm, hid, howner⟩
    · exact hnow.ranked m' hold hworkspace huser hactive
    · exact absurd hactive hended
    · rcases hrole with hgiven | ⟨m, hm, hsame⟩
      · exact hgranted m'.role hgiven
      · rw [← hsame]
        exact htarget m hm
    · -- an owner who was demoted ranked higher
      simp only [WorkspaceMembership.identity, Prod.mk.injEq] at hid
      have hwas : HeldAtStart C workspaceId init m.role.rank := by
        refine hnow.ranked m hm ?_ ?_ howner.2
        · rw [hid.2.1, hworkspace]
        · rw [hid.2.2]
          exact huser
      refine hwas.mono ?_
      rw [hrole, howner.1]
      decide
  · exact hnow.ranked m' ((h.memberships hin).mp hm') hworkspace huser hactive

end Authorized

/-- Every request of the group that changes a roster is made by one of them. -/
theorem mem_of_roster {op : RosterOperation} {actorId operatedId : Uuid}
    (h : a.req.roster = some (op, actorId, operatedId)) (hmade : MadeBy C a.req) : actorId ∈ C := by
  obtain ⟨caller, hcaller, hmem⟩ := hmade
  have hsame : caller = actorId := by
    revert h hcaller
    rcases a.req with _ | _ | _ | _ | _ | ⟨_ | _ | _⟩ <;>
      simp +contextual [Request.roster, Request.rosterCaller?, eq_comm]
  rwa [← hsame]

/-- The step: what one of the group commits keeps the group contained. -/
theorem Commit.contained (h : Commit a L w ev db') (hinv : Inv w) (hmade : MadeBy C a.req)
    (hpast : ∀ s, w.Since 0 s → Contained C workspaceId init s) :
    Contained C workspaceId init db' := by
  have hnow := hpast w.db (w.since_db (Nat.zero_le _))
  constructor
  · intro r hr
    cases h with
    | rosterChanged _ _ _ _ _ _ _ _ _ _ _ _ hwrite =>
      rw [hwrite.tables.2.2.2] at hr
      exact hnow.platform r hr
    | invitationAccepted _ _ _ _ _ _ _ _ _ _ _ _ _ _ _ _ _ _ _ hjoins =>
      rw [hjoins.tables.2.2.2.2] at hr
      exact hnow.platform r hr
    | platformRoleAssigned _ _ _ hreq =>
      obtain ⟨caller, hcaller, -⟩ := hmade
      simp [hreq, Request.rosterCaller?] at hcaller
    | platformRoleRevoked => exact hnow.platform r (Table.mem_delete.mp hr).1
    | _ => exact hnow.platform r hr
  · intro i' hi' hworkspace hpending inviterId hinviter
    rcases h.invitationBorn hi' with ⟨i, hi, hevolves⟩ | ⟨-, -, actorId, hsender, hreq⟩
    · have hidentity := hevolves.identity
      simp only [WorkspaceInvitation.identity, Prod.mk.injEq] at hidentity
      refine hnow.invited i hi (hevolves.workspaceId.symm.trans hworkspace)
        (hevolves.pending hpending) inviterId ?_
      rw [← hidentity.2.2.2.2.2]
      exact hinviter
    · obtain rfl : actorId = inviterId := Option.some_inj.mp (hsender.symm.trans hinviter)
      exact mem_of_roster hreq hmade
  · intro m' hm' hworkspace huser hactive
    cases h with
    | workspaceCreated _ _ _ _ hreq =>
      obtain ⟨caller, hcaller, -⟩ := hmade
      simp [hreq, Request.rosterCaller?] at hcaller
    | rosterChanged op operatedId actorId target granted k d _ hreq _ hguard hauthorized hwrite =>
      refine hwrite.ranked hnow ?_ hm' hworkspace huser hactive
      rintro rfl
      exact hauthorized.held ⟨_, hguard, Nat.zero_le _, rfl⟩ hpast (mem_of_roster hreq hmade)
    | invitationAccepted i current actorId inviterId _ _ _ _ _ _ _ _ hread hcurrent hid hpending _
        hinviter hchecked hjoins =>
      rcases hjoins.row rfl hm' with hold | ⟨hin, -, hrole, -⟩
      · exact hnow.ranked m' hold hworkspace huser hactive
      · have hidentity := identity_of_read hinv hread hcurrent hid
        simp only [WorkspaceInvitation.identity, Prod.mk.injEq] at hidentity
        have hinvited : i.workspaceId = workspaceId := hin.symm.trans hworkspace
        have hsender : inviterId ∈ C := by
          refine hnow.invited current hcurrent ?_ hpending inviterId ?_
          · rw [← hidentity.2.1, hinvited]
          · rw [← hidentity.2.2.2.2.2]
            exact hinviter
        obtain ⟨k, d, hk, -, g, ⟨l, hl, -, hstate⟩, -, hrank⟩ := hchecked
        rw [hrole]
        rcases hrank with hall | ⟨role, hmember, hle⟩
        · exact absurd hall ((hpast g ⟨l, hl, Nat.zero_le _, hstate⟩).not_manageAll hsender)
        · rw [hinvited] at hmember
          exact (hnow.held hsender hmember).mono hle
    | membershipUpdated =>
      obtain ⟨m, hm, hlike⟩ := SameRoster.of_annotated.grown m' hm' hworkspace
      rw [hlike.role]
      refine hnow.ranked m hm (hlike.workspaceId.symm.trans hworkspace) ?_
        (hlike.status.symm.trans hactive)
      rw [← hlike.userId]
      exact huser
    | _ => exact hnow.ranked m' hm' hworkspace huser hactive

/-! ### Every run -/

variable {env : Env} {σ : SystemConfig}

/-- Whatever the group does to rosters, in whatever order and however interleaved, none of them
is ever an active member of the workspace in a higher rank than one of them held at the start.
In particular none of them gets in where none was a member. -/
theorem collusion_contained (hrun : RunsTo env (MadeBy C) init σ)
    (hplatform : ∀ r ∈ init.userRoles, r.userId ∉ C)
    (hinvited : ∀ i ∈ init.workspaceInvitations, i.workspaceId = workspaceId →
      i.status = .pending → ∀ inviterId ∈ i.invitedBy, inviterId ∈ C)
    {l : List (Entry Database Event Request)} (hl : l <:+ σ.world.log) {m : WorkspaceMembership}
    (hm : m ∈ (stateOf init l).workspaceMemberships) (hworkspace : m.workspaceId = workspaceId)
    (huser : m.userId ∈ C) (hactive : m.status = .active) :
    ∃ m₀ ∈ init.workspaceMemberships, m₀.workspaceId = workspaceId ∧ m₀.userId ∈ C ∧
      m₀.status = .active ∧ m.role.rank ≤ m₀.role.rank := by
  have hstart : Contained C workspaceId init init :=
    ⟨hplatform, hinvited, fun m hm hworkspace huser hactive =>
      ⟨m, hm, hworkspace, huser, hactive, le_rfl⟩⟩
  have hall : ∀ s, σ.world.Since 0 s → Contained C workspaceId init s := by
    refine hrun.history (J := fun w => ∀ s, w.Since 0 s → Contained C workspaceId init s)
      ?_ id id ?_
    · intro now s hs
      obtain rfl := since_start hs
      exact hstart
    · intro w a L ev db hinv _ hserved hcommit hpast s hs
      have hmade : MadeBy C a.req := hserved ⟨a, ev, db⟩ (by simp [World.push])
      rcases World.since_push.mp hs with hold | ⟨-, rfl⟩
      · exact hpast s hold
      · exact hcommit.contained hinv hmade hpast
  exact (hall _ (hrun.since hl)).ranked m hm hworkspace huser hactive

/-- A manager and a friend who is not a member yet. -/
def managerAndFriend : Set Uuid := fun userId => userId = "bob" ∨ userId = "carl"

/-- The manager adds the friend, and tries in vain to make an administrator of them. -/
def addAndPromote : List (Order Request) :=
  [.serve 1 (.addMembership "bob" "acme" ⟨"carl", some .workspaceStaff, none⟩), .proceed 1,
    .proceed 1, .serve 2 (.changeRole "bob" "acme" "#iiiiii" (some .workspaceAdmin)), .proceed 2]

theorem collusion_contained_addAndPromote :
    ∃ m ∈ (Sample.perform (Sample.database [("ann", .workspaceOwner), ("bob", .workspaceManager)]
        ["carl"]) 5000 addAndPromote).world.db.workspaceMemberships, m.userId = "carl" ∧
      ∃ m₀ ∈ (Sample.database [("ann", .workspaceOwner), ("bob", .workspaceManager)]
          ["carl"]).workspaceMemberships, m₀.workspaceId = "acme" ∧
        m₀.userId ∈ managerAndFriend ∧ m₀.status = .active ∧ m.role.rank ≤ m₀.role.rank := by
  have hjoined : ∃ m ∈ (stateOf (Sample.database [("ann", .workspaceOwner),
      ("bob", .workspaceManager)] ["carl"]) (Sample.perform (Sample.database
        [("ann", .workspaceOwner), ("bob", .workspaceManager)] ["carl"]) 5000
          addAndPromote).world.log).workspaceMemberships,
      m.workspaceId = "acme" ∧ m.userId = "carl" ∧ m.status = .active := by
    decide +kernel
  have hrun : RunsTo Sample.env (MadeBy managerAndFriend) (Sample.database
      [("ann", .workspaceOwner), ("bob", .workspaceManager)] ["carl"]) (Sample.perform
        (Sample.database [("ann", .workspaceOwner), ("bob", .workspaceManager)] ["carl"]) 5000
          addAndPromote) := by
    refine Sample.runsTo_allowed fun o ho req hreq => ?_
    simp only [addAndPromote, List.mem_cons, List.not_mem_nil, or_false] at ho
    rcases ho with rfl | rfl | rfl | rfl | rfl <;>
      simp only [Order.request, Option.mem_def, Option.some.injEq, reduceCtorEq] at hreq <;>
        exact hreq ▸ ⟨"bob", rfl, .inl rfl⟩
  obtain ⟨m, hm, hworkspace, huser, hactive⟩ := hjoined
  refine ⟨m, hm, huser, ?_⟩
  exact collusion_contained hrun (fun r hr => absurd hr Table.not_mem_empty)
    (fun i hi => absurd hi Table.not_mem_empty) (List.suffix_refl _) hm hworkspace
      (.inr huser) hactive

end NestApi
