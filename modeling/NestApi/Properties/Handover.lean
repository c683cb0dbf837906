import NestApi.Properties.Runs
import NestApi.Txn.CommitsLast

/-!
# Handing a workspace over

`transferOwnership` demotes every other active owner and promotes the target, whoever asks. The
owners are read and rewritten under the lock of the workspace, so no co-owner appears in between,
and a transfer that fails has written nothing.
-/

namespace NestApi

open Txn Program WorkspaceMemberships WorkspaceOwnershipPolicy Authorization

variable {env : Env} {Allowed : Request → Prop} {init : Database} {σ : SystemConfig}
  {actorId workspaceId membershipId : Uuid}

/-! ### The program of a transfer -/

/-- The actor, the workspace and the membership of a transfer. -/
def Request.transfer? : Request → Option (Uuid × Uuid × Uuid)
  | .transferOwnership actorId workspaceId membershipId =>
    some (actorId, workspaceId, membershipId)
  | _ => none

/-- The commit of a transfer. -/
def TransferWritten (actorId workspaceId : Uuid) (ev : Event) : Prop :=
  ∃ target, ev = .rosterChanged .transferOwnership workspaceId actorId (some target)
    (some .workspaceOwner)

section Program

variable {seen : Event → Prop} {ability : Ability}

theorem uncommitted_orRefuse {α : Type} {x : Except ApiError α} :
    (orRefuse x : Handler α).Uncommitted seen := by
  unfold orRefuse
  split <;> trivial

theorem uncommitted_requirePermission {required : PermissionDefinition}
    (hseen : seen .guarded) :
    (requirePermission actorId required workspaceId).Uncommitted seen := by
  unfold requirePermission guardedAbility compileAbility
  refine CommitsLast.bind (CommitsLast.selectObserved fun db => ⟨hseen, ?_⟩) fun _ =>
    commitsLast_ensure.bind fun _ => trivial
  split <;> trivial

theorem uncommitted_transferTransaction {visible : WorkspaceMembership} :
    (transferTransaction workspaceId actorId visible).Uncommitted seen := by
  unfold transferTransaction assertUserMayHoldActiveMembership findLiveInWorkspace
  refine CommitsLast.bind (CommitsLast.bind commitsLast_lockRow fun _ => commitsLast_select.bind
    fun _ => commitsLast_ensure) fun _ => CommitsLast.bind commitsLast_lockRow fun _ =>
      CommitsLast.bind (commitsLast_select.bind fun _ => commitsLast_orThrow) fun target => ?_
  exact commitsLast_ensure.bind fun _ => commitsLast_ensure.bind fun _ =>
    commitsLast_select.bind fun _ => commitsLast_modify.bind fun _ =>
      CommitsLast.bind (commitsLast_modify.bind fun _ => trivial) fun _ => trivial

/-- A transfer reads its caller's grants, and commits last. -/
theorem transferOwnership_commitsLast :
    (body env (.transferOwnership actorId workspaceId membershipId)).CommitsLast (· = .guarded)
      (TransferWritten actorId workspaceId) := by
  have hguard : (requirePermission actorId transferWorkspaceOwnership workspaceId).Uncommitted
      (· = .guarded) := uncommitted_requirePermission rfl
  refine hguard.bind fun ability => CommitsLast.map ?_
  unfold WorkspaceMemberships.transferOwnership WorkspaceMemberships.findById
  refine CommitsLast.bind (uncommitted_orRefuse.bind fun _ => commitsLast_select.bind fun _ =>
    commitsLast_orThrow) fun visible => ?_
  exact uncommitted_transferTransaction.transaction fun target => ⟨target, rfl⟩

end Program

/-- Every transfer of a run is tracked. -/
theorem RunsTo.transfers (hrun : RunsTo env Allowed init σ)
    (actorId workspaceId membershipId : Uuid) :
    Config.AllTracked (fun req => req.transfer? = some (actorId, workspaceId, membershipId))
      (fun _ => (· = .guarded)) (fun _ => TransferWritten actorId workspaceId) σ := by
  obtain ⟨now, hreach⟩ := hrun
  refine Config.reaches_tracked (fun req hreq => ?_) hreach
  cases req with
  | transferOwnership actor workspace membership =>
    obtain ⟨rfl, rfl, rfl⟩ : actor = actorId ∧ workspace = workspaceId ∧
        membership = membershipId := by simpa [Request.transfer?] using hreq
    exact transferOwnership_commitsLast
  | _ => cases hreq

/-! ### What a transfer does to the rows -/

/-- The rows of the memberships before and after a transfer of the workspace to the membership
`targetId`. -/
structure HandedOver (before after : Database) (actorId workspaceId targetId : Uuid) : Prop where
  /-- The target is active and an owner. -/
  promoted : ∃ m ∈ before.workspaceMemberships, m.id = targetId ∧ m.workspaceId = workspaceId ∧
    m.status = .active ∧
      { m with role := .workspaceOwner, updatedBy := some actorId } ∈ after.workspaceMemberships
  /-- No other membership is an active ownership. -/
  sole : ∀ m ∈ after.workspaceMemberships, m.workspaceId = workspaceId → m.IsActiveOwner →
    m.id = targetId
  demoted : ∀ m ∈ before.workspaceMemberships, m.workspaceId = workspaceId → m.IsActiveOwner →
    m.id ≠ targetId →
      { m with role := .workspaceAdmin, updatedBy := some actorId } ∈ after.workspaceMemberships
  kept : ∀ m ∈ before.workspaceMemberships, m.id ≠ targetId →
    ¬ (m.workspaceId = workspaceId ∧ m.IsActiveOwner) → m ∈ after.workspaceMemberships
  /-- Nobody joins and no row disappears. -/
  same : ∀ id, (∃ m ∈ after.workspaceMemberships, m.id = id) ↔
    ∃ m ∈ before.workspaceMemberships, m.id = id

section Rows

variable {db : Database} {m : WorkspaceMembership} {outgoing : List Uuid}

/-- An update keeps the keys. -/
theorem exists_id_update {ids : List Uuid} {f : Rewrite WorkspaceMembership.id} {id : Uuid} :
    (∃ m ∈ (db.updateMemberships ids f).workspaceMemberships, m.id = id) ↔
      ∃ m ∈ db.workspaceMemberships, m.id = id := by
  constructor
  · rintro ⟨m, hm, rfl⟩
    rcases Table.of_mem_update hm with ⟨hold, -⟩ | ⟨r, hr, -, rfl⟩
    · exact ⟨m, hold, rfl⟩
    · exact ⟨r, hr, (f.key_row r).symm⟩
  · rintro ⟨m, hm, rfl⟩
    by_cases hid : m.id ∈ ids
    · exact ⟨f.row m, Table.mem_update_of_mem hm hid, f.key_row m⟩
    · exact ⟨m, Table.mem_update_of_not_mem hm hid, rfl⟩

/-- Demoting the owners that were read and promoting the target hands the workspace over. -/
theorem handedOver_of_writes (hmem : m ∈ db.workspaceMemberships)
    (hworkspace : m.workspaceId = workspaceId) (hactive : m.status = .active)
    (houtgoing : ∀ other ∈ db.workspaceMemberships, other.id ∈ outgoing ↔
      other.workspaceId = workspaceId ∧ other.IsActiveOwner ∧ other.id ≠ m.id) :
    HandedOver db ((db.updateMemberships outgoing
      (WorkspaceMembership.withRole .workspaceAdmin actorId)).updateMemberships [m.id]
        (WorkspaceMembership.withRole .workspaceOwner actorId)) actorId workspaceId m.id := by
  have hnot : m.id ∉ outgoing := fun hid => ((houtgoing m hmem).mp hid).2.2 rfl
  refine ⟨⟨m, hmem, rfl, hworkspace, hactive, ?_⟩, fun r hr hr₁ hr₂ => ?_,
    fun r hr hr₁ hr₂ hne => ?_, fun r hr hne hr₁ => ?_,
    fun id => exists_id_update.trans exists_id_update⟩
  · exact Table.mem_update_of_mem (f := WorkspaceMembership.withRole .workspaceOwner actorId)
      (Table.mem_update_of_not_mem hmem hnot) (List.mem_singleton_self m.id)
  · rcases Table.of_mem_update hr with ⟨hr, hne⟩ | ⟨r, -, hid, rfl⟩
    · -- an owner other than the target was among those that were demoted
      rcases Table.of_mem_update hr with ⟨hold, hkept⟩ | ⟨r, -, -, rfl⟩
      · refine absurd ((houtgoing r hold).mpr ⟨hr₁, hr₂, ?_⟩) hkept
        simpa using hne
      · cases hr₂.1
    · exact List.mem_singleton.mp hid
  · have hid : r.id ∈ outgoing := (houtgoing r hr).mpr ⟨hr₁, hr₂, hne⟩
    exact Table.mem_update_of_not_mem
      (Table.mem_update_of_mem (f := WorkspaceMembership.withRole .workspaceAdmin actorId) hr hid)
      (by simpa [WorkspaceMembership.withRole] using hne)
  · have hid : r.id ∉ outgoing := fun hid => hr₁
      ⟨((houtgoing r hr).mp hid).1, ((houtgoing r hr).mp hid).2.1⟩
    exact Table.mem_update_of_not_mem (Table.mem_update_of_not_mem hr hid) (by simpa using hne)

end Rows

/-! ### Every run -/

/-- Every transfer of a history either hands the workspace over or changes nothing. -/
structure TransfersExact (init : Database) (σ : SystemConfig) : Prop where
  moved : ∀ e l actorId workspaceId membershipId, (e :: l) <:+ σ.world.log →
    e.agent.req = .transferOwnership actorId workspaceId membershipId →
      TransferWritten actorId workspaceId e.event →
        HandedOver (stateOf init l) e.db actorId workspaceId membershipId
  whole : ∀ e l actorId workspaceId membershipId, (e :: l) <:+ σ.world.log →
    e.agent.req = .transferOwnership actorId workspaceId membershipId →
      ¬ TransferWritten actorId workspaceId e.event → e.db = stateOf init l
  failed : ∀ p proc actorId workspaceId membershipId err, σ.procs p = some proc →
    proc.req = .transferOwnership actorId workspaceId membershipId → proc.prog = .fail err →
      ∀ e l, (e :: l) <:+ σ.world.log → e.agent.pid = p → e.db = stateOf init l

/-- Whatever else runs, a transfer that commits leaves the workspace to its target alone, every
other row as it was, and a transfer that fails leaves every row as it was. -/
theorem transfers_exact (hrun : RunsTo env Allowed init σ) : TransfersExact init σ where
  moved e l actorId workspaceId membershipId hl hreq hwritten := by
    obtain ⟨w, L, rfl, rfl, -, hcommit⟩ := hrun.entry hl
    obtain ⟨agent, ev, db⟩ := e
    obtain ⟨target, rfl⟩ := hwritten
    cases hcommit with
    | rosterChanged _ _ _ _ _ _ _ _ _ _ _ _ hwrite =>
      cases hwrite with
      | transferOwnership _ m outgoing _ _ hmem hworkspace _ hactive _ houtgoing hrequested =>
        obtain rfl : m.id = membershipId := by
          simpa using hrequested.symm.trans hreq
        exact handedOver_of_writes hmem hworkspace hactive houtgoing
  whole e l actorId workspaceId membershipId hl hreq hnot := by
    have hentry := (hrun.transfers actorId workspaceId membershipId).entry hl
      (by rw [hreq]; rfl)
    exact hrun.init_eq ▸ (hentry.resolve_right hnot).2
  failed p proc actorId workspaceId membershipId err hproc hreq hfail e l hl hp := by
    have hqueried := (hrun.transfers actorId workspaceId membershipId).failed hproc
      (by rw [hreq]; rfl) hfail hl hp
    exact hrun.init_eq ▸ hqueried.2

/-- Two owners hand the workspace to each other at once, and one of them is suspended. -/
def handOverAtOnce : List (Order Request) :=
  [.serve 1 (.transferOwnership "ann" "acme" "bob-m"), .proceed 1,
    .serve 2 (.transferOwnership "bob" "acme" "ann-m"), .proceed 2, .proceed 1, .proceed 2,
    .serve 3 (.transition .suspend "bob" "acme" "ann-m"), .proceed 3, .proceed 3]

theorem transfers_exact_atOnce :
    TransfersExact (Sample.database [("ann", .workspaceOwner), ("bob", .workspaceOwner)] [])
      (Sample.perform (Sample.database [("ann", .workspaceOwner), ("bob", .workspaceOwner)] [])
        5000 handOverAtOnce) :=
  transfers_exact (Sample.runsTo_perform _ _ _)

end NestApi
