import Mathlib.Data.Set.Defs
import NestApi.Properties.Runs
import NestApi.Txn.Refining

/-!
# Platform roles come from platform administrators

The guarantee of the system says who asked for a change of platform roles and not with what
right. A second judgement of the two requests adds it: the guard had read the grants of a live
account that may do everything. So a group without such an account gets no platform role that is
not given by somebody outside, whatever its members do together.
-/

namespace NestApi

open Txn Program Authorization

variable {a : Agent Request} {L : RowLock → Prop} {w w' : SystemWorld} {ev : Event}
  {init d db' : Database} {actorId userId : Uuid} {ability : Ability}

/-! ### Authority -/

/-- The account exists, is not deleted, and holds a role that may do everything. -/
def Database.PlatformAdmin (db : Database) (userId : Uuid) : Prop :=
  db.ManageAll userId ∧ ∃ u, db.scopedUser? userId = some u

/-- Who asks for a change of platform roles. -/
def Request.platformCaller? : Request → Option Uuid
  | .assignPlatformRole actorId _ _ | .revokePlatformRole actorId _ _ => some actorId
  | _ => none

/-- The event is a change of platform roles. -/
def Event.isPlatformChange : Event → Bool
  | .platformRoleAssigned .. | .platformRoleRevoked .. => true
  | _ => false

/-- The guard of the request read the grants of a platform administrator, who is its caller. -/
def AdminGuarded (a : Agent Request) (w : SystemWorld) : Prop :=
  ∃ actorId ∈ a.req.platformCaller?, ∃ l d, (⟨a, .guarded, d⟩ :: l) <:+ w.log ∧
    d.PlatformAdmin actorId

/-- Platform roles are changed for administrators only. -/
def adminOnly : Guarantee Database RowLock Event Uuid Request :=
  fun a _ w ev _ => ev.isPlatformChange = true → AdminGuarded a w

/-- The permission to assign platform roles is part of no role but the one for everything. -/
theorem covers_assignRole : ∀ q ∈ heldPermissions,
    covers (q.action.value, q.subject.value) ("assignRole", "User") = true →
      q = manageEverything := by
  decide

/-- Who passes the check for assigning platform roles is a platform administrator. -/
theorem platformAdmin_of_canType
    (hability : createForUser userId (loadGrantsFromDatabase d userId) = .ok ability)
    (hcan : ability.canType "assignRole" "User" = true) : d.PlatformAdmin userId := by
  obtain ⟨record, hrecord⟩ := exists_can_of_canType hcan
  have hplatform : ¬ manageEverything.scope = .workspace := by decide
  have hintrinsic : manageEverything ∉ authenticatedUserPermissions := by decide
  constructor
  · rcases row_of_can hability hrecord with
      ⟨q, hheld, -, hcovers, hq⟩ | ⟨m, hm, -, -, -, q, hq, hscope, hcovers, -⟩
    · obtain rfl := covers_assignRole q hheld hcovers
      rcases hq with hq | ⟨r, hr, huser, hq⟩
      · exact absurd hq hintrinsic
      · exact ⟨r, hr, huser, hq⟩
    · obtain rfl := covers_assignRole q (mem_heldPermissions hq) hcovers
      exact absurd hscope hplatform
  · -- a deleted account is left with what everybody may do
    cases huser : d.scopedUser? userId with
    | some u => exact ⟨u, rfl⟩
    | none =>
      rcases (allows_createForUser hability).mp hrecord with
        ⟨g, hg, -, hcovers, -⟩ | ⟨m, hm, -⟩
      · simp only [loadGrantsFromDatabase, huser, List.append_nil] at hg
        obtain ⟨q, hq, rfl⟩ := List.mem_map.mp hg
        have hall := covers_assignRole q (List.mem_append_left _ hq) hcovers
        exact absurd (hall ▸ hq) hintrinsic
      · simp [loadGrantsFromDatabase, huser] at hm

theorem AdminGuarded.extends (h : AdminGuarded a w) (hw : w.log <:+ w'.log) :
    AdminGuarded a w' := by
  obtain ⟨actorId, hcaller, l, d, hl, hadmin⟩ := h
  exact ⟨actorId, hcaller, l, d, hl.trans hw, hadmin⟩

/-! ### Judging the two requests -/

theorem wp_requireAssignRole {k : Ability → Handler Unit}
    (hcaller : a.req.platformCaller? = some actorId)
    (h : ∀ (v : SystemWorld) (ability : Ability), AdminGuarded a v →
      wp adminOnly a (k ability) (fun _ _ _ => True) Ctx.start v) :
    wp adminOnly a (requireAdministrative actorId .assignRole .user >>= k) (fun _ _ _ => True)
      Ctx.start w := by
  unfold requireAdministrative guardedAbility
  simp only [bind_assoc, pure_bind]
  refine wp_selectObserved fun v _ => ⟨fun hchange => absurd hchange (by decide), ?_⟩
  unfold compileAbility
  cases hability : createForUser actorId (loadGrantsFromDatabase v.db actorId) with
  | error e =>
    simp only [Ctx.start, id_eq, hability]
    trivial
  | ok ability =>
    simp only [Ctx.start, id_eq, hability]
    refine wp_ensure (fun hallowed => h _ ability ?_) fun _ => trivial
    exact ⟨actorId, hcaller, v.log, v.db, List.suffix_refl _,
      platformAdmin_of_canType hability hallowed.2⟩

/-- One write for an administrator. -/
theorem wp_changePlatformRoles {f : Database → Database} {event : Event}
    (hguard : AdminGuarded a w) :
    wp adminOnly a (transaction (modify f) fun _ => event : Handler Unit) (fun _ _ _ => True)
      Ctx.start w := by
  refine wp_transaction ?_
  rw [← bind_pure (Program.modify _)]
  exact wp_modify fun v hv => wp_pure fun v' hv' =>
    ⟨fun _ => hguard.extends (hv.log_suffix.trans hv'.log_suffix), trivial⟩

theorem wp_loadPlatformRole_admin {role : Option SeededRoleName}
    {k : SeededRoleName → Handler Unit}
    (h : ∀ r, wp adminOnly a (k r) (fun _ _ _ => True) Ctx.start w) :
    wp adminOnly a (UserRolesService.loadPlatformRole role >>= k) (fun _ _ _ => True)
      Ctx.start w := by
  unfold UserRolesService.loadPlatformRole
  simp only [bind_assoc, pure_bind]
  exact wp_orThrow (fun r _ => wp_ensure (fun _ => h r) fun _ => trivial) fun _ => trivial

theorem assign_admin {role : Option SeededRoleName} (hguard : AdminGuarded a w) :
    wp adminOnly a (UserRolesService.assign userId role ability actorId) (fun _ _ _ => True)
      Ctx.start w := by
  unfold UserRolesService.assign
  refine wp_select fun v hv => wp_orThrow (fun _ _ => wp_loadPlatformRole_admin fun r =>
    wp_quiet quiet_assertMayAssignRank (fun _ v' hv' => ?_) fun _ _ => trivial) fun _ => trivial
  exact wp_changePlatformRoles (hguard.extends (hv.log_suffix.trans hv'.log_suffix))

theorem revoke_admin {role : Option SeededRoleName} (hguard : AdminGuarded a w) :
    wp adminOnly a (UserRolesService.revoke userId role ability actorId) (fun _ _ _ => True)
      Ctx.start w := by
  unfold UserRolesService.revoke
  refine wp_loadPlatformRole_admin fun r => wp_quiet quiet_assertMayAssignRank
    (fun _ v hv => wp_select fun v' hv' => wp_orThrow (fun _ _ => ?_) fun _ => trivial)
      fun _ _ => trivial
  exact wp_changePlatformRoles (hguard.extends (hv.log_suffix.trans hv'.log_suffix))

/-! ### Every request -/

/-- No other request changes platform roles. -/
theorem Commit.adminOnly (h : Commit a L w ev db') (hother : a.req.platformCaller? = none) :
    adminOnly a L w ev db' := by
  intro hchange
  cases h with
  | platformRoleAssigned _ _ _ hreq => simp [hreq, Request.platformCaller?] at hother
  | platformRoleRevoked _ _ _ hreq => simp [hreq, Request.platformCaller?] at hother
  | _ => simp [Event.isPlatformChange] at hchange

/-- The guarantee of the system, with the right to change platform roles. -/
def adminProtocol : Protocol Database RowLock Event Uuid Request where
  guar := guarantee.both adminOnly
  Inv := Inv
  inv_move hinv hmove := hinv.move (hmove.weaken Guarantee.both_within_left)

theorem body_adminOnly {env : Env} (Allowed : Request → Prop) :
    adminProtocol.Admits (body env) Allowed := by
  intro a w hallowed hinv
  have hadmitted : wp guarantee a (body env a.req) (fun _ _ _ => True) Ctx.start w :=
    body_admitted Allowed a w hallowed hinv
  have hboth : wp adminOnly a (body env a.req) (fun _ _ _ => True) Ctx.start w →
      wp (guarantee.both adminOnly) a (body env a.req) (fun _ _ _ => True) Ctx.start w :=
    fun h => wp_mono (fun _ _ _ _ => trivial) (wp_both hadmitted h)
  cases hcaller : a.req.platformCaller? with
  | none =>
    exact wp_strengthen Guarantee.both_within_left
      (fun L v ev db h => ⟨h, h.adminOnly hcaller⟩) hadmitted
  | some actorId =>
    refine hboth ?_
    cases hreq : a.req with
    | assignPlatformRole caller userId role =>
      refine wp_requireAssignRole (by rw [hreq]; rfl) fun v ability hguard => ?_
      exact assign_admin hguard
    | revokePlatformRole caller userId role =>
      refine wp_requireAssignRole (by rw [hreq]; rfl) fun v ability hguard => ?_
      exact revoke_admin hguard
    | _ => simp [hreq, Request.platformCaller?] at hcaller

/-! ### Every run -/

section Runs

variable {env : Env} {Allowed : Request → Prop} {σ : SystemConfig}

/-- Every entry of a run, within both guarantees. -/
theorem RunsTo.adminEntry (hrun : RunsTo env Allowed init σ) {e : Entry Database Event Request}
    {l : List (Entry Database Event Request)} (hl : (e :: l) <:+ σ.world.log) :
    ∃ (v : SystemWorld) (L : RowLock → Prop), v.log = l ∧ v.init = init ∧
      Commit e.agent L v e.event e.db ∧ adminOnly e.agent L v e.event e.db := by
  obtain ⟨now, hreach⟩ := hrun
  have hstart : adminProtocol.Inv ⟨init, [], now, init.drawn⟩ := .start fun _ => drawn_of_mentions
  obtain ⟨hmoves, -, -⟩ := adminProtocol.refines (body_adminOnly Allowed) hstart hreach
  obtain ⟨v, L, hlog, hinit, -, hentry, -⟩ := adminProtocol.entry hstart hmoves hl
  exact ⟨v, L, hlog, hinit, hentry.1, hentry.2⟩

/-- Only changes of platform roles change them. -/
theorem Commit.userRoles_eq (h : Commit a L w ev db') (hchange : ev.isPlatformChange = false) :
    db'.userRoles = w.db.userRoles := by
  cases h with
  | rosterChanged _ _ _ _ _ _ _ _ _ _ _ _ hwrite => exact hwrite.tables.2.2.2
  | invitationAccepted _ _ _ _ _ _ _ _ _ _ _ _ _ _ _ _ _ _ _ hjoins =>
    exact hjoins.tables.2.2.2.2
  | platformRoleAssigned | platformRoleRevoked => simp [Event.isPlatformChange] at hchange
  | _ => rfl

/-- Nobody outside of the group gives one of its members a platform role. -/
def GivenWithin (C : Set Uuid) (req : Request) : Prop :=
  ∀ actorId userId role, req = .assignPlatformRole actorId userId role → userId ∈ C → actorId ∈ C

/-- The step: an entry gives the group no role, if no earlier state had one of them as an
administrator. -/
theorem RunsTo.platformStep {C : Set Uuid} (hrun : RunsTo env (GivenWithin C) init σ)
    {e : Entry Database Event Request} {l : List (Entry Database Event Request)}
    (hl : (e :: l) <:+ σ.world.log)
    (hpast : ∀ k, k <:+ l → ∀ userId ∈ C, ¬ (stateOf init k).ManageAll userId)
    {r : UserRole} (hr : r ∈ e.db.userRoles) (hmember : r.userId ∈ C) :
    r ∈ (stateOf init l).userRoles := by
  obtain ⟨⟨pid, req⟩, ev, db'⟩ := e
  have hallowed : GivenWithin C req := by
    obtain ⟨now, -, -, hserved⟩ := hrun.moves
    exact hserved _ (hl.subset List.mem_cons_self)
  obtain ⟨v, L, hlog, hinit, hcommit, hadmin⟩ := hrun.adminEntry hl
  simp only at hcommit hadmin hr
  have hstate : v.db = stateOf init l := by rw [World.db, hlog, hinit]
  rw [← hstate]
  cases hchange : ev.isPlatformChange with
  | false => rwa [hcommit.userRoles_eq hchange] at hr
  | true =>
    obtain ⟨actorId, hcaller, k, d, hk, hcould, -⟩ := hadmin hchange
    rw [hlog] at hk
    have houtside : actorId ∉ C := fun hin => hpast _ hk actorId hin hcould
    cases hcommit with
    | platformRoleAssigned caller userId role hreq =>
      obtain rfl : req = .assignPlatformRole caller userId (some role) := hreq
      obtain rfl : caller = actorId := Option.some_inj.mp hcaller
      rcases Table.mem_of_mem_insert hr with hold | rfl
      · exact hold
      · exact absurd (hallowed caller userId _ rfl hmember) houtside
    | platformRoleRevoked => exact (Table.mem_delete.mp hr).1
    | _ => simp [Event.isPlatformChange] at hchange

/-- A platform administrator, an engineer, and somebody without a role. -/
def staff : Database :=
  { Sample.database [] ["ann", "bob", "carl"] with
    userRoles := (Table.empty.insert ⟨"ann", .platformAdmin⟩).insert ⟨"bob", .platformEngineer⟩ }

/-- The administrator makes the engineer a colleague, for support. -/
def appointment : List (Order Request) :=
  [.serve 1 (.assignPlatformRole "ann" "carl" (some .platformAppSupport)), .proceed 1,
    .proceed 1]

/-- The engineer tries to make themselves and a friend administrators. -/
def selfAppointment : List (Order Request) :=
  [.serve 1 (.assignPlatformRole "bob" "bob" (some .platformAdmin)), .proceed 1, .proceed 1,
    .serve 2 (.assignPlatformRole "bob" "carl" (some .platformAdmin)), .proceed 2, .proceed 2]

/-- The engineer and the friend. -/
def engineerAndFriend : Set Uuid := fun userId => userId = "bob" ∨ userId = "carl"

end Runs

end NestApi
