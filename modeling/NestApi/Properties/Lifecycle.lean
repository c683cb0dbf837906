import NestApi.Properties.Runs

/-!
# The life of a membership

One row a workspace and a user, for good. Its status moves between ACTIVE and SUSPENDED, ends in
LEFT, and comes back only when the person joins again. A commit changes a row in one of a few
ways, and each of them keeps the law.
-/

namespace NestApi

open Txn

variable {a : Agent Request} {L : RowLock → Prop} {w : SystemWorld} {ev : Event}
  {db db' : Database} {workspaceId actorId userId : Uuid}

/-! ### The law -/

/-- The status changes that a row can make. -/
def WorkspaceMembershipStatus.movesTo : WorkspaceMembershipStatus → WorkspaceMembershipStatus → Prop
  | .active, .suspended | .suspended, .active => True
  | .active, .left | .suspended, .left => True
  | .left, .active => True
  | _, _ => False

/-- The event lets somebody join: an addition, or an accepted invitation. -/
def Event.joins : Event → Prop
  | .rosterChanged .add _ _ _ _ => True
  | .invitationAccepted _ _ => True
  | _ => False

/-- There is one membership a workspace and a user. -/
def Database.OneMembership (db : Database) : Prop :=
  ∀ m ∈ db.workspaceMemberships, ∀ m' ∈ db.workspaceMemberships,
    m.workspaceId = m'.workspaceId → m.userId = m'.userId → m = m'

/-- A row has an end exactly when it is LEFT. -/
def Database.EndsStamped (db : Database) : Prop :=
  ∀ m ∈ db.workspaceMemberships, m.endedAt ≠ none ↔ m.status = .left

/-- What a commit with this event may do to a row: `m` becomes `m'`. -/
structure RowMove (ev : Event) (m m' : WorkspaceMembership) : Prop where
  identity : m'.identity = m.identity
  status : m'.status = m.status ∨ m.status.movesTo m'.status
  rejoins : m.status = .left → m'.status = .active → ev.joins
  joinedAt : m'.joinedAt = m.joinedAt ∨ m.status = .left ∧ m'.status = .active
  untouched : ev.joins → m.status ≠ .left → m' = m
  stamped : (m.endedAt ≠ none ↔ m.status = .left) → (m'.endedAt ≠ none ↔ m'.status = .left)

/-- The law over a history. `kept` and `born` say of every commit what becomes of the rows that
are there, and what a row that was not there looks like. -/
structure Lifecycle (init : Database) (log : List (Entry Database Event Request)) : Prop where
  one : ∀ l, l <:+ log → (stateOf init l).OneMembership
  stamped : ∀ l, l <:+ log → (stateOf init l).EndsStamped
  kept : ∀ e l, (e :: l) <:+ log → ∀ m ∈ (stateOf init l).workspaceMemberships,
    ∃ m' ∈ e.db.workspaceMemberships, RowMove e.event m m'
  born : ∀ e l, (e :: l) <:+ log → ∀ m' ∈ e.db.workspaceMemberships,
    (∀ m ∈ (stateOf init l).workspaceMemberships,
      ¬ (m.workspaceId = m'.workspaceId ∧ m.userId = m'.userId)) → m'.status = .active

/-! ### Rows under a commit -/

/-- A row that stays as it is. -/
theorem RowMove.refl (ev : Event) (m : WorkspaceMembership) : RowMove ev m m where
  identity := rfl
  status := .inl rfl
  rejoins hleft hactive := by simp [hleft] at hactive
  joinedAt := .inl rfl
  untouched _ _ := rfl
  stamped h := h

/-- The same tenure of the same membership, in another role perhaps. -/
structure SameTenure (m m' : WorkspaceMembership) : Prop where
  identity : m'.identity = m.identity
  status : m'.status = m.status
  endedAt : m'.endedAt = m.endedAt
  joinedAt : m'.joinedAt = m.joinedAt

theorem SameTenure.trans {m m' m'' : WorkspaceMembership} (h : SameTenure m m')
    (h' : SameTenure m' m'') : SameTenure m m'' where
  identity := h'.identity.trans h.identity
  status := h'.status.trans h.status
  endedAt := h'.endedAt.trans h.endedAt
  joinedAt := h'.joinedAt.trans h.joinedAt

/-- A row whose tenure goes on, written by something else than a join. -/
theorem SameTenure.rowMove {m m' : WorkspaceMembership} (h : SameTenure m m')
    (hev : ¬ ev.joins) : RowMove ev m m' where
  identity := h.identity
  status := .inl h.status
  rejoins hleft hactive := by simp [← h.status, hactive] at hleft
  joinedAt := .inl h.joinedAt
  untouched hjoins _ := absurd hjoins hev
  stamped hm := by rw [h.endedAt, h.status, hm]

/-- A row whose status is moved. -/
theorem RowMove.withStatus {m : WorkspaceMembership} {toStatus : WorkspaceMembershipStatus}
    {endedAt : Option ℕ} (hev : ¬ ev.joins) (hmove : m.status.movesTo toStatus)
    (hlive : m.status ≠ .left) (hended : endedAt ≠ none ↔ toStatus = .left) :
    RowMove ev m ((WorkspaceMembership.withStatus toStatus endedAt actorId).row m) where
  identity := rfl
  status := .inr hmove
  rejoins hleft _ := absurd hleft hlive
  joinedAt := .inl rfl
  untouched hjoins _ := absurd hjoins hev
  stamped h := by
    have hnone : m.endedAt = none := by
      by_contra hsome
      exact hlive (h.mp hsome)
    simpa [WorkspaceMembership.withStatus, hnone] using hended

/-- A former member joins again. -/
theorem RowMove.rejoined {m : WorkspaceMembership} {role : SeededRoleName} {now : ℕ}
    {notes : Option String} (hev : ev.joins) (hleft : m.status = .left) :
    RowMove ev m ((WorkspaceMembership.rejoined role now notes actorId).row m) where
  identity := rfl
  status := .inr (by rw [hleft]; trivial)
  rejoins _ _ := hev
  joinedAt := .inr ⟨hleft, rfl⟩
  untouched _ hlive := absurd hleft hlive
  stamped _ := by simp [WorkspaceMembership.rejoined]

/-- The row of an updated table. -/
theorem rowMove_of_update {ids : List Uuid} {f : Rewrite WorkspaceMembership.id}
    {m : WorkspaceMembership} (hm : m ∈ db.workspaceMemberships)
    (hf : m.id ∈ ids → RowMove ev m (f.row m)) :
    ∃ m' ∈ (db.updateMemberships ids f).workspaceMemberships, RowMove ev m m' := by
  by_cases hid : m.id ∈ ids
  · exact ⟨f.row m, Table.mem_update_of_mem hm hid, hf hid⟩
  · exact ⟨m, Table.mem_update_of_not_mem hm hid, .refl ev m⟩

theorem Joins.rowMove {role : SeededRoleName} (h : Joins a L w workspaceId userId role db db')
    (hdb : db.workspaceMemberships = w.db.workspaceMemberships) (hev : ev.joins)
    {m : WorkspaceMembership} (hm : m ∈ w.db.workspaceMemberships) :
    ∃ m' ∈ db'.workspaceMemberships, RowMove ev m m' := by
  cases h with
  | created => exact ⟨m, Table.mem_insert_of_mem (hdb ▸ hm), .refl ev m⟩
  | rejoined r now notes actorId hr _ _ hleft =>
    refine rowMove_of_update (hdb ▸ hm) fun hid => ?_
    have hsame : m = r := Table.eq_of_key hm hr (List.mem_singleton.mp hid)
    rw [hsame]
    exact .rejoined hev hleft

/-- An update of other columns. -/
theorem sameTenure_of_update (ids : List Uuid) {f : Rewrite WorkspaceMembership.id}
    (hf : ∀ m, SameTenure m (f.row m)) {m : WorkspaceMembership}
    (hm : m ∈ db.workspaceMemberships) :
    ∃ m' ∈ (db.updateMemberships ids f).workspaceMemberships, SameTenure m m' := by
  by_cases hid : m.id ∈ ids
  · exact ⟨f.row m, Table.mem_update_of_mem hm hid, hf m⟩
  · exact ⟨m, Table.mem_update_of_not_mem hm hid, rfl, rfl, rfl, rfl⟩

theorem RosterWrite.rowMove {op : RosterOperation} {target : Option WorkspaceMembership}
    {granted : Option SeededRoleName} {n : ℕ}
    (h : RosterWrite a L w workspaceId actorId n op target granted db')
    {m : WorkspaceMembership} (hm : m ∈ w.db.workspaceMemberships) :
    ∃ m' ∈ db'.workspaceMemberships,
      RowMove (.rosterChanged op workspaceId actorId target granted) m m' := by
  cases h with
  | add userId role _ _ hjoins =>
    have hev : (Event.rosterChanged .add workspaceId actorId none (some role)).joins := trivial
    exact hjoins.rowMove rfl hev hm
  | changeRole => exact rowMove_of_update hm fun _ => SameTenure.rowMove ⟨rfl, rfl, rfl, rfl⟩ id
  | reactivate _ r _ hr _ _ hsuspended =>
    refine rowMove_of_update hm fun hid => ?_
    have hsame : m = r := Table.eq_of_key hm hr (List.mem_singleton.mp hid)
    subst hsame
    exact .withStatus id (by rw [hsuspended]; trivial) (by simp [hsuspended]) (by simp)
  | leave op toStatus _ r _ endedAt _ _ hkind hr =>
    refine rowMove_of_update hm fun hid => ?_
    have hsame : m = r := Table.eq_of_key hm hr (List.mem_singleton.mp hid)
    subst hsame
    rcases hkind with ⟨rfl, hactive, rfl, rfl⟩ | ⟨rfl, hlive, rfl, hended⟩
    · exact .withStatus id (by rw [hactive]; trivial) (by simp [hactive]) (by simp)
    · refine .withStatus id ?_ hlive (by simp [hended])
      cases hstatus : m.status with
      | active | suspended => trivial
      | left => exact absurd hstatus hlive
  | transferOwnership _ r outgoing =>
    -- both updates write a role and nothing else
    obtain ⟨m', hm', hdemoted⟩ := sameTenure_of_update
      outgoing (f := WorkspaceMembership.withRole .workspaceAdmin actorId)
      (fun _ => ⟨rfl, rfl, rfl, rfl⟩) hm
    obtain ⟨m'', hm'', hpromoted⟩ := sameTenure_of_update
      [r.id] (f := WorkspaceMembership.withRole .workspaceOwner actorId)
      (fun _ => ⟨rfl, rfl, rfl, rfl⟩) hm'
    exact ⟨m'', hm'', (hdemoted.trans hpromoted).rowMove id⟩
  | createInvitation => exact ⟨m, hm, .refl _ m⟩

/-- What a commit does to a row that is there. -/
theorem Commit.rowMove (h : Commit a L w ev db') {m : WorkspaceMembership}
    (hm : m ∈ w.db.workspaceMemberships) :
    ∃ m' ∈ db'.workspaceMemberships, RowMove ev m m' := by
  cases h with
  | workspaceCreated => exact ⟨m, Table.mem_insert_of_mem hm, .refl _ m⟩
  | rosterChanged _ _ _ _ _ _ _ _ _ _ _ _ hwrite => exact hwrite.rowMove hm
  | invitationAccepted invitation _ actorId _ _ _ _ _ _ _ _ _ _ _ _ _ _ _ _ hjoins =>
    have hev : (Event.invitationAccepted invitation actorId).joins := trivial
    exact hjoins.rowMove rfl hev hm
  | membershipUpdated =>
    exact rowMove_of_update hm fun _ => SameTenure.rowMove ⟨rfl, rfl, rfl, rfl⟩ id
  | _ => exact ⟨m, hm, .refl _ m⟩

/-! ### New rows -/

/-- A commit writes over rows that were there, and adds one row at most: an active membership
of somebody who had none in that workspace. -/
inductive RosterGrowth (w : SystemWorld) (db' : Database) : Prop
  | rewritten (h : ∀ m' ∈ db'.workspaceMemberships,
      ∃ m ∈ w.db.workspaceMemberships, m.identity = m'.identity)
  | grown (new : WorkspaceMembership) (hactive : new.status = .active)
      (hended : new.endedAt = none)
      (hnone : ∀ m ∈ w.db.workspaceMemberships,
        ¬ (m.workspaceId = new.workspaceId ∧ m.userId = new.userId))
      (h : ∀ m' ∈ db'.workspaceMemberships, m' = new ∨ m' ∈ w.db.workspaceMemberships)

theorem Joins.growth {role : SeededRoleName} (h : Joins a L w workspaceId userId role db db')
    (hdb : db.workspaceMemberships = w.db.workspaceMemberships) : RosterGrowth w db' := by
  cases h with
  | created m hworkspace huser _ hactive hnew _ _ hended =>
    refine .grown m hactive hended ?_ fun m' hm' => ?_
    · rw [hworkspace, huser]
      exact Database.membershipOf?_eq_none.mp hnew
    · exact (Table.mem_of_mem_insert hm').symm.imp_right fun hmem => hdb ▸ hmem
  | rejoined =>
    refine .rewritten fun m' hm' => ?_
    obtain ⟨m, hm, hid⟩ := identity_of_mem_update (fun _ => rfl) hm'
    exact ⟨m, hdb ▸ hm, hid⟩

theorem Commit.growth (h : Commit a L w ev db') : RosterGrowth w db' := by
  have hsame : db'.workspaceMemberships = w.db.workspaceMemberships → RosterGrowth w db' :=
    fun heq => .rewritten fun m' hm' => ⟨m', heq ▸ hm', rfl⟩
  cases h with
  | workspaceCreated ws m _ _ _ _ _ hdrawn _ _ hworkspace _ howner hended =>
    refine .grown m howner.2 hended (fun r hr hkey => ?_) fun m' hm' =>
      (Table.mem_of_mem_insert hm').symm
    refine hdrawn.unused w.db (w.since_db (Nat.zero_le _)) ?_
    exact .inr (.inr (.inl ⟨r, hr, .inr (hkey.1.trans hworkspace)⟩))
  | rosterChanged _ _ _ _ _ _ _ _ _ _ _ _ hwrite =>
    cases hwrite with
    | add _ _ _ _ hjoins => exact hjoins.growth rfl
    | changeRole | reactivate | leave =>
      exact .rewritten fun m' hm' => identity_of_mem_update (fun _ => rfl) hm'
    | transferOwnership =>
      refine .rewritten fun m'' hm'' => ?_
      obtain ⟨m', hm', hid'⟩ := identity_of_mem_update (fun _ => rfl) hm''
      obtain ⟨m, hm, hid⟩ := identity_of_mem_update (fun _ => rfl) hm'
      exact ⟨m, hm, hid.trans hid'⟩
    | createInvitation => exact hsame rfl
  | invitationAccepted _ _ _ _ _ _ _ _ _ _ _ _ _ _ _ _ _ _ _ hjoins => exact hjoins.growth rfl
  | membershipUpdated =>
    exact .rewritten fun m' hm' => identity_of_mem_update (fun _ => rfl) hm'
  | _ => exact hsame rfl

/-- The step: a commit keeps the rows of a roster apart. -/
theorem Commit.oneMembership (h : Commit a L w ev db') (hone : w.db.OneMembership) :
    db'.OneMembership := by
  intro m hm m' hm' hworkspace huser
  cases h.growth with
  | rewritten hrows =>
    obtain ⟨r, hr, hid⟩ := hrows m hm
    obtain ⟨r', hr', hid'⟩ := hrows m' hm'
    simp only [WorkspaceMembership.identity, Prod.mk.injEq] at hid hid'
    have hsame : r = r' := by
      refine hone r hr r' hr' ?_ ?_
      · rw [hid.2.1, hid'.2.1, hworkspace]
      · rw [hid.2.2, hid'.2.2, huser]
    exact Table.eq_of_key hm hm' (by rw [← hid.1, ← hid'.1, hsame])
  | grown new _ _ hnone hrows =>
    rcases hrows m hm with rfl | hold <;> rcases hrows m' hm' with rfl | hold'
    · rfl
    · exact absurd ⟨hworkspace.symm, huser.symm⟩ (hnone m' hold')
    · exact absurd ⟨hworkspace, huser⟩ (hnone m hold)
    · exact hone m hold m' hold' hworkspace huser

/-- The step: a commit stamps the rows that end, and no others. -/
theorem Commit.endsStamped (h : Commit a L w ev db') (hstamped : w.db.EndsStamped) :
    db'.EndsStamped := by
  intro m' hm'
  have hrewritten : ∀ m ∈ w.db.workspaceMemberships, m.id = m'.id →
      (m'.endedAt ≠ none ↔ m'.status = .left) := by
    intro m hm hid
    obtain ⟨m'', hm'', hmove⟩ := h.rowMove hm
    have hkey : m''.id = m'.id := (congrArg Prod.fst hmove.identity).trans hid
    obtain rfl := Table.eq_of_key hm'' hm' hkey
    exact hmove.stamped (hstamped m hm)
  cases h.growth with
  | rewritten hrows =>
    obtain ⟨m, hm, hid⟩ := hrows m' hm'
    exact hrewritten m hm (congrArg Prod.fst hid)
  | grown new hactive hended _ hrows =>
    rcases hrows m' hm' with rfl | hold
    · simp [hactive, hended]
    · exact hrewritten m' hold rfl

/-! ### Every run -/

variable {env : Env} {Allowed : Request → Prop} {init : Database} {σ : SystemConfig}

/-- What every commit keeps holds in every state of a run. -/
theorem RunsTo.always (hrun : RunsTo env Allowed init σ) {P : Database → Prop} (hinit : P init)
    (hstep : ∀ {a L w ev db'}, Commit a L w ev db' → P w.db → P db')
    {l : List (Entry Database Event Request)} (hl : l <:+ σ.world.log) : P (stateOf init l) :=
  hrun.persists (List.nil_suffix) hl hinit fun _ _ _ _ hcommit => hstep hcommit

/-- Memberships live by the law in every run, whatever the requests and however they
interleave. -/
theorem memberships_lifecycle (hrun : RunsTo env Allowed init σ) (hone : init.OneMembership)
    (hstamped : init.EndsStamped) : Lifecycle init σ.world.log where
  one _ hl := hrun.always hone Commit.oneMembership hl
  stamped _ hl := hrun.always hstamped Commit.endsStamped hl
  kept e l hl m hm := by
    obtain ⟨w, L, rfl, rfl, -, hcommit⟩ := hrun.entry hl
    exact hcommit.rowMove hm
  born e l hl m' hm' hnew := by
    obtain ⟨w, L, rfl, rfl, -, hcommit⟩ := hrun.entry hl
    cases hcommit.growth with
    | rewritten hrows =>
      obtain ⟨m, hm, hid⟩ := hrows m' hm'
      simp only [WorkspaceMembership.identity, Prod.mk.injEq] at hid
      exact absurd hid.2 (hnew m hm)
    | grown new hactive _ _ hrows =>
      rcases hrows m' hm' with rfl | hold
      · exact hactive
      · exact absurd ⟨rfl, rfl⟩ (hnew m' hold)

/-- Bob is removed and added again. -/
def leaveAndRejoin : List (Order Request) :=
  [.serve 1 (.transition .remove "ann" "acme" "bob-m"), .proceed 1, .proceed 1,
    .serve 2 (.addMembership "ann" "acme" ⟨"bob", some .workspaceStaff, none⟩), .proceed 2,
    .proceed 2]

theorem memberships_lifecycle_leaveAndRejoin :
    Lifecycle (Sample.database [("ann", .workspaceOwner), ("bob", .workspaceManager)] [])
      (Sample.perform (Sample.database [("ann", .workspaceOwner), ("bob", .workspaceManager)] [])
        5000 leaveAndRejoin).world.log :=
  memberships_lifecycle (Sample.runsTo_perform _ _ _)
    (by unfold Database.OneMembership; decide +kernel)
    (by unfold Database.EndsStamped; decide +kernel)

end NestApi
