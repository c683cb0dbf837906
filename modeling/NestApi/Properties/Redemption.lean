import NestApi.Properties.Runs
import NestApi.Txn.CommitsLast

/-!
# Redeeming an invitation

An invitation leaves PENDING once. Accepting it and writing the membership are one commit, and
an accept that fails has written nothing. Which token opens it is decided when the token is
looked up, before the transaction: a resend in between replaces the token, but not the row that
the redemption goes on with.
-/

namespace NestApi

open Txn Program WorkspaceInvitations WorkspaceMemberships WorkspaceOwnershipPolicy
  WorkspaceRoleAssignmentPolicy Authorization

variable {env : Env} {Allowed : Request → Prop} {init : Database} {σ : SystemConfig}
  {e : Entry Database Event Request} {l : List (Entry Database Event Request)}

/-! ### The program of a redemption -/

/-- The raw token that a redemption presents. -/
def Request.invitationToken? : Request → Option String
  | .acceptInvitation _ _ token => some token
  | _ => none

/-- What the redemption of a token reads: the inviter, or an invitation on that token. -/
def RedemptionRead (env : Env) (token : String) (ev : Event) : Prop :=
  (∃ inviterId, ev = .inviterRead inviterId) ∨ ∃ found, ev = .invitationRead found ∧
    ∀ i ∈ found, i.tokenHash = env.hashOpaqueToken token

/-- What it commits: the acceptance of an invitation that was on that token. -/
def RedemptionWritten (env : Env) (token : String) (ev : Event) : Prop :=
  ∃ i actorId, ev = .invitationAccepted i actorId ∧ i.tokenHash = env.hashOpaqueToken token

section Program

variable {token : String} {actorId : Uuid} {seen : Event → Prop}

theorem uncommitted_assertUserMayHoldActiveMembership :
    (assertUserMayHoldActiveMembership actorId).Uncommitted seen :=
  CommitsLast.bind commitsLast_lockRow fun _ => commitsLast_select.bind fun _ =>
    commitsLast_ensure

theorem uncommitted_updateManyInvitations {p : WorkspaceInvitation → Bool}
    {f : Rewrite WorkspaceInvitation.id} : (updateManyInvitations p f).Uncommitted seen :=
  commitsLast_select.bind fun _ => commitsLast_lockRows.bind fun _ => commitsLast_select.bind
    fun _ => commitsLast_modify.bind fun _ => trivial

theorem uncommitted_assertMayAssign {workspaceId : Uuid} {role : SeededRoleName}
    {ability : Ability} {targetUserId : Option Uuid} :
    (assertMayAssign workspaceId actorId role ability targetUserId).Uncommitted seen := by
  unfold assertMayAssign assertRankPermits
  refine commitsLast_ensure.bind fun _ => CommitsLast.bind ?_ fun _ =>
    commitsLast_ensure.bind fun _ => trivial
  unfold resolveActorRank
  split
  · trivial
  · exact commitsLast_select.bind fun _ => commitsLast_orThrow.bind fun _ => trivial

theorem uncommitted_assertInviterMayStillAssign {invitation : WorkspaceInvitation}
    (hseen : ∀ inviterId, seen (.inviterRead inviterId)) :
    (assertInviterMayStillAssign invitation).Uncommitted seen := by
  unfold assertInviterMayStillAssign createAbilityForUser compileAbility loadAssignableRole
  refine commitsLast_orThrow.bind fun inviterId => CommitsLast.bind
    (fun db => ⟨hseen inviterId, trivial⟩) fun _ => commitsLast_orThrow.bind fun inviter =>
      CommitsLast.bind (commitsLast_select.bind fun grants => ?_) fun ability =>
        CommitsLast.catchError ?_ fun _ => trivial
  · split <;> trivial
  · exact CommitsLast.bind (commitsLast_orThrow.bind fun _ => commitsLast_ensure.bind fun _ =>
      trivial) fun _ => uncommitted_assertMayAssign.bind fun _ => trivial

theorem uncommitted_createMembership {m : WorkspaceMembership} :
    (createMembership m).Uncommitted seen :=
  commitsLast_select.bind fun _ => commitsLast_ensure.bind fun _ => commitsLast_modify.bind
    fun _ => trivial

theorem uncommitted_acceptTransaction {invitation : WorkspaceInvitation} {now : ℕ}
    (hseen : ∀ inviterId, seen (.inviterRead inviterId)) :
    (acceptTransaction invitation actorId now).Uncommitted seen := by
  unfold acceptTransaction
  refine uncommitted_assertUserMayHoldActiveMembership.bind fun _ => CommitsLast.bind
    commitsLast_lockRow fun _ => (uncommitted_assertInviterMayStillAssign hseen).bind fun _ =>
      uncommitted_updateManyInvitations.bind fun _ => commitsLast_ensure.bind fun _ =>
        commitsLast_select.bind fun previous => ?_
  cases previous with
  | some m => exact commitsLast_ensure.bind fun _ => commitsLast_modify.bind fun _ => trivial
  | none => exact commitsLast_freshId.bind fun _ => uncommitted_createMembership

theorem uncommitted_assertIsInvitee {invitation : WorkspaceInvitation} {actorEmail : String} :
    (assertIsInvitee invitation actorId actorEmail).Uncommitted seen := by
  unfold assertIsInvitee
  split
  · exact commitsLast_ensure
  · exact commitsLast_ensure.bind fun _ => commitsLast_select.bind fun _ => commitsLast_ensure

/-- A redemption looks up an invitation on its token, and commits last. -/
theorem accept_commitsLast {actorEmail : String} :
    (accept env token actorId actorEmail).CommitsLast (RedemptionRead env token)
      (RedemptionWritten env token) := by
  unfold accept
  refine CommitsLast.selectObserved fun db => ?_
  have hhash : ∀ i ∈ findByToken env token db, i.tokenHash = env.hashOpaqueToken token :=
    fun i hi => by simpa using List.find?_some hi
  refine ⟨.inr ⟨_, rfl, hhash⟩, ?_⟩
  cases hfound : findByToken env token db with
  | none =>
    rw [Option.map_none]
    trivial
  | some invitation =>
    rw [Option.map_some]
    have hwritten : ∀ _ : WorkspaceMembership,
        RedemptionWritten env token (.invitationAccepted invitation actorId) :=
      fun _ => ⟨invitation, actorId, rfl, hhash invitation hfound⟩
    refine commitsLast_ensure.bind fun _ => commitsLast_ensure.bind fun _ =>
      uncommitted_assertIsInvitee.bind fun _ => commitsLast_now.bind fun _ =>
        commitsLast_ensure.bind fun _ => commitsLast_now.bind fun now => ?_
    have hbody : (acceptTransaction invitation actorId now).Uncommitted
        (RedemptionRead env token) :=
      uncommitted_acceptTransaction fun inviterId => .inl ⟨inviterId, rfl⟩
    exact CommitsLast.catchError (hbody.transaction hwritten) fun _ => trivial

end Program

/-- Every redemption of a run is tracked. -/
theorem RunsTo.redemptions (hrun : RunsTo env Allowed init σ) (token : String) :
    Config.AllTracked (fun req => req.invitationToken? = some token)
      (fun _ => RedemptionRead env token) (fun _ => RedemptionWritten env token) σ := by
  obtain ⟨now, hreach⟩ := hrun
  refine Config.reaches_tracked (fun req hreq => ?_) hreach
  cases req with
  | acceptInvitation actorId actorEmail presented =>
    obtain rfl : presented = token := Option.some_inj.mp hreq
    exact accept_commitsLast.map
  | _ => cases hreq

/-! ### The life of an invitation -/

/-- The rows of an invitation at two points of a history. -/
theorem RunsTo.invitationLater (hrun : RunsTo env Allowed init σ)
    {l' : List (Entry Database Event Request)} (hl : l <:+ l') (hl' : l' <:+ σ.world.log)
    {i : WorkspaceInvitation} (hi : i ∈ (stateOf init l).workspaceInvitations) :
    ∃ i' ∈ (stateOf init l').workspaceInvitations, i.Evolves i' := by
  refine hrun.persists (P := fun db => ∃ i' ∈ db.workspaceInvitations, i.Evolves i') hl hl'
    ⟨i, hi, .refl i⟩ ?_
  rintro w a L ev db - - - - hcommit ⟨i', hi', hevolves⟩
  obtain ⟨i'', hi'', hevolves', -⟩ := hcommit.invitationKept hi'
  exact ⟨i'', hi'', hevolves.trans hevolves'⟩

/-- The entry, after the history, takes the invitation out of PENDING. -/
def Settles (init : Database) (l : List (Entry Database Event Request))
    (e : Entry Database Event Request) (invitationId : Uuid) : Prop :=
  (∃ i ∈ (stateOf init l).workspaceInvitations, i.id = invitationId ∧ i.status = .pending) ∧
    ∃ i ∈ e.db.workspaceInvitations, i.id = invitationId ∧ i.status ≠ .pending

/-- The entry, after the history, makes the invitation ACCEPTED. -/
def Accepts (init : Database) (l : List (Entry Database Event Request))
    (e : Entry Database Event Request) (invitationId : Uuid) : Prop :=
  (∀ i ∈ (stateOf init l).workspaceInvitations, i.id = invitationId → i.status ≠ .accepted) ∧
    ∃ i ∈ e.db.workspaceInvitations, i.id = invitationId ∧ i.status = .accepted

/-- Between two states the user joins the workspace in this role: a membership is inserted, or
moved from LEFT to ACTIVE. -/
def JoinsBetween (db db' : Database) (workspaceId userId : Uuid) (role : SeededRoleName) : Prop :=
  ∃ m' ∈ db'.workspaceMemberships, m'.workspaceId = workspaceId ∧ m'.userId = userId ∧
    m'.role = role ∧ m'.status = .active ∧
      ((∀ m ∈ db.workspaceMemberships, m.id ≠ m'.id) ∨
        ∃ m ∈ db.workspaceMemberships, m.identity = m'.identity ∧ m.status = .left)

/-- A redemption by `actorId` made the invitation ACCEPTED and the actor a member in the
invited role. -/
def Redeems (init : Database) (l : List (Entry Database Event Request))
    (e : Entry Database Event Request) (invitationId : Uuid) : Prop :=
  ∃ read actorId, e.event = .invitationAccepted read actorId ∧ read.id = invitationId ∧
    ∃ i ∈ e.db.workspaceInvitations, i.id = invitationId ∧ i.status = .accepted ∧
      i.acceptedBy = some actorId ∧
        JoinsBetween (stateOf init l) e.db i.workspaceId actorId i.role

/-- Acceptance of every invitation is exactly-once and atomic. -/
structure RedeemedOnce (init : Database) (σ : SystemConfig) : Prop where
  once : ∀ e l e' l' invitationId, (e :: l) <:+ σ.world.log → (e' :: l') <:+ σ.world.log →
    Settles init l e invitationId → Settles init l' e' invitationId → e :: l = e' :: l'
  settled : ∀ l l', l <:+ l' → l' <:+ σ.world.log →
    ∀ i ∈ (stateOf init l).workspaceInvitations, i.status ≠ .pending →
      i ∈ (stateOf init l').workspaceInvitations
  joins : ∀ e l invitationId, (e :: l) <:+ σ.world.log →
    (Accepts init l e invitationId ↔ Redeems init l e invitationId)
  whole : ∀ e l, (e :: l) <:+ σ.world.log → e.agent.req.invitationToken? ≠ none →
    e.db = stateOf init l ∨ ∃ read actorId, e.event = .invitationAccepted read actorId
  failed : ∀ p proc err, σ.procs p = some proc → proc.req.invitationToken? ≠ none →
    proc.prog = .fail err → ∀ e l, (e :: l) <:+ σ.world.log → e.agent.pid = p →
      e.db = stateOf init l

section Commit

variable {a : Agent Request} {L : RowLock → Prop} {w : SystemWorld} {ev : Event}
  {db db' : Database}

/-- Joining is a new membership or one that was left. -/
theorem Joins.between {workspaceId userId : Uuid} {role : SeededRoleName}
    (h : Joins a L w workspaceId userId role db db')
    (hdb : db.workspaceMemberships = w.db.workspaceMemberships) :
    JoinsBetween w.db db' workspaceId userId role := by
  cases h with
  | created m hworkspace huser hrole hactive _ hdrawn =>
    have hfresh : ∀ x ∈ w.db.workspaceMemberships, x.id ≠ m.id := fun x hx hid =>
      hdrawn.unused w.db (w.since_db (Nat.zero_le _)) (.inr (.inr (.inl ⟨x, hx, .inl hid⟩)))
    have hmem : m ∈ db.workspaceMemberships.insert m :=
      (Table.mem_insert (hdb ▸ hfresh)).mpr (.inr rfl)
    exact ⟨m, hmem, hworkspace, huser, hrole, hactive, .inl hfresh⟩
  | rejoined m now notes actorId hmem hworkspace huser hleft =>
    have hrow := Table.mem_update_of_mem (f := WorkspaceMembership.rejoined role now notes actorId)
      (hdb ▸ hmem : m ∈ db.workspaceMemberships) (List.mem_singleton_self m.id)
    exact ⟨_, hrow, hworkspace, huser, rfl, rfl, .inr ⟨m, hmem, rfl, hleft⟩⟩

/-- A commit that makes an invitation ACCEPTED is the acceptance of it. -/
theorem Commit.acceptedBy (h : Commit a L w ev db') {i' : WorkspaceInvitation}
    (hi' : i' ∈ db'.workspaceInvitations) (haccepted : i'.status = .accepted)
    (hbefore : ∀ i ∈ w.db.workspaceInvitations, i.id = i'.id → i.status ≠ .accepted) :
    ∃ read actorId, ev = .invitationAccepted read actorId ∧ read.id = i'.id := by
  -- an update to another status accepts nothing
  have hother : ∀ {ids : List Uuid} {f : Rewrite WorkspaceInvitation.id},
      (∀ i, i.status ≠ .accepted → (f.row i).status ≠ .accepted) →
        i' ∉ (w.db.updateInvitations ids f).workspaceInvitations := by
    intro ids f hf hmem
    rcases Table.of_mem_update hmem with ⟨hold, -⟩ | ⟨i, hi, -, rfl⟩
    · exact hbefore i' hold rfl haccepted
    · exact hf i (hbefore i hi (f.key_row i).symm) haccepted
  have hsame : i' ∉ w.db.workspaceInvitations := fun hmem => hbefore i' hmem rfl haccepted
  cases h with
  | rosterChanged _ _ actorId _ _ _ _ _ _ _ _ _ hwrite =>
    cases hwrite with
    | add _ _ _ _ hjoins => exact absurd (hjoins.tables.2.2.1 ▸ hi') hsame
    | changeRole | reactivate | transferOwnership => exact absurd hi' hsame
    | leave => exact absurd hi' (hother fun _ _ => by simp [WorkspaceInvitation.revoked])
    | createInvitation i _ _ _ hpending =>
      rcases Table.mem_of_mem_insert hi' with hold | rfl
      · exact absurd hold (hother fun _ _ => by simp [WorkspaceInvitation.expired])
      · simp [hpending] at haccepted
  | invitationAccepted invitation _ actorId _ _ _ now _ _ _ _ _ _ _ _ _ _ _ _ hjoins =>
    rw [hjoins.tables.2.2.1] at hi'
    rcases Table.of_mem_update hi' with ⟨hold, -⟩ | ⟨i, hi, hid, rfl⟩
    · exact absurd hold hsame
    · exact ⟨invitation, actorId, rfl, (List.mem_singleton.mp hid).symm⟩
  | invitationResent => exact absurd hi' (hother fun _ hi => hi)
  | invitationRevoked =>
    exact absurd hi' (hother fun _ _ => by simp [WorkspaceInvitation.revoked])
  | _ => exact absurd hi' hsame

/-- The row of a looked up invitation keeps the columns that identify it. -/
theorem identity_of_read (hinv : Inv w) {read current : WorkspaceInvitation}
    (hread : ∃ l d, (⟨a, .invitationRead (some read), d⟩ :: l) <:+ w.log ∧
      read ∈ d.workspaceInvitations ∧ d.LiveWorkspace read.workspaceId)
    (hcurrent : current ∈ w.db.workspaceInvitations) (hid : current.id = read.id) :
    read.identity = current.identity := by
  obtain ⟨l, d, hl, hmem, -⟩ := hread
  have hpast : w.Since 0 d := ⟨_, hl, Nat.zero_le _, rfl⟩
  exact hinv.invitations d w.db hpast (w.since_db (Nat.zero_le _)) read hmem current hcurrent
    hid.symm

/-- The acceptance of an invitation writes its row and the membership of the acceptor. -/
theorem Commit.redeems {read : WorkspaceInvitation} {actorId : Uuid} (hinv : Inv w)
    (h : Commit a L w (.invitationAccepted read actorId) db') :
    (∃ i ∈ w.db.workspaceInvitations, i.id = read.id ∧ i.status = .pending) ∧
      ∃ i' ∈ db'.workspaceInvitations, i'.id = read.id ∧ i'.status = .accepted ∧
        i'.acceptedBy = some actorId ∧
          JoinsBetween w.db db' i'.workspaceId actorId i'.role := by
  cases h with
  | invitationAccepted _ current _ _ _ _ now _ _ _ _ _ hread hcurrent hid hpending _ _ _ hjoins =>
    have hidentity := identity_of_read hinv hread hcurrent hid
    simp only [WorkspaceInvitation.identity, Prod.mk.injEq] at hidentity
    obtain ⟨-, hworkspace, -, -, hrole, -⟩ := hidentity
    have hrow := Table.mem_update_of_mem (f := WorkspaceInvitation.accepted now actorId) hcurrent
      (List.mem_singleton.mpr hid)
    have hjoined := hjoins.between rfl
    rw [hworkspace, hrole] at hjoined
    refine ⟨⟨current, hcurrent, hid, hpending⟩,
      (WorkspaceInvitation.accepted now actorId).row current, ?_, hid, rfl, rfl, hjoined⟩
    rw [hjoins.tables.2.2.1]
    exact hrow

end Commit

/-- Bob redeems an invitation, and presents its token once more. -/
def redeemTwice : List (Order Request) :=
  [.serve 1 (.acceptInvitation "bob" "bob" "link"), .proceed 1, .proceed 1, .proceed 1,
    .serve 2 (.acceptInvitation "bob" "bob" "link"), .proceed 2, .proceed 2]

/-- The invitation that an event accepts. -/
def Event.accepted? : Event → Option WorkspaceInvitation
  | .invitationAccepted i _ => some i
  | _ => none

/-- Every accept presented the token that its invitation had when the accept committed. -/
def CurrentLinks (env : Env) (init : Database) (log : List (Entry Database Event Request)) :
    Prop :=
  EveryEntry (fun e l => ∀ i ∈ e.event.accepted?, ∀ token ∈ e.agent.req.invitationToken?,
    ((stateOf init l).workspaceInvitations.find? i.id).map WorkspaceInvitation.tokenHash =
      some (env.hashOpaqueToken token)) log

instance (log : List (Entry Database Event Request)) : Decidable (CurrentLinks env init log) :=
  inferInstanceAs (Decidable (EveryEntry _ log))

/-- No resend of an invitation committed between the lookup of an accept and its commit. -/
def AcceptsUndisturbed (log : List (Entry Database Event Request)) : Prop :=
  EveryEntry (fun e l => ∀ i ∈ e.event.accepted?,
    Undisturbed (· = .invitationRead (some i)) (fun r _ => r.event = .invitationResent i.id)
      e.agent l) log

instance (log : List (Entry Database Event Request)) : Decidable (AcceptsUndisturbed log) :=
  inferInstanceAs (Decidable (EveryEntry _ log))

/-- Without a resend in between, the link that was looked up is still that of the row. -/
theorem RunsTo.linkKept (hrun : RunsTo env Allowed init σ)
    {k l' : List (Entry Database Event Request)} (hl : k <:+ l') (hl' : l' <:+ σ.world.log)
    {i : WorkspaceInvitation} (hi : i ∈ (stateOf init k).workspaceInvitations)
    (hresent : ∀ r m, k <:+ m → (r :: m) <:+ l' → r.event ≠ .invitationResent i.id) :
    ∃ i' ∈ (stateOf init l').workspaceInvitations, i.Evolves i' ∧ i'.link = i.link := by
  refine hrun.persists (P := fun db => ∃ i' ∈ db.workspaceInvitations, i.Evolves i' ∧
    i'.link = i.link) hl hl' ⟨i, hi, .refl i, rfl⟩ ?_
  rintro w a L ev db - - hk hentry hcommit ⟨i', hi', hevolves, hlink⟩
  obtain ⟨i'', hi'', hevolves', hkept⟩ := hcommit.invitationKept hi'
  have hother : ev ≠ .invitationResent i'.id := by
    rw [hevolves.id_eq]
    exact hresent _ _ hk hentry
  exact ⟨i'', hi'', hevolves.trans hevolves', (hkept.resolve_left hother).trans hlink⟩

/-- Where no resend comes between a lookup and its accept, only the current link of an
invitation opens it. -/
theorem currentLinks_of_undisturbed (hrun : RunsTo env Allowed init σ)
    (hundisturbed : AcceptsUndisturbed σ.world.log) : CurrentLinks env init σ.world.log := by
  rw [CurrentLinks, everyEntry_iff]
  intro e l hl i hi token htoken
  obtain ⟨w, L, rfl, hinit, -, hcommit⟩ := hrun.entry hl
  -- the accept goes on with the row that its process looked up
  obtain ⟨actorId, hev⟩ : ∃ actorId, e.event = .invitationAccepted i actorId := by
    cases hevent : e.event with
    | invitationAccepted read actorId =>
      rw [hevent] at hi
      exact ⟨actorId, by rw [Option.some_inj.mp hi]⟩
    | _ => simp [hevent, Event.accepted?] at hi
  rw [hev] at hcommit
  obtain ⟨k, d, hk, hmem⟩ : ∃ k d, (⟨e.agent, .invitationRead (some i), d⟩ :: k) <:+ w.log ∧
      i ∈ d.workspaceInvitations := by
    cases hcommit with
    | invitationAccepted _ _ _ _ _ _ _ _ _ _ _ _ hread =>
      obtain ⟨k, d, hk, hmem, -⟩ := hread
      exact ⟨k, d, hk, hmem⟩
  have hlookup : i.tokenHash = env.hashOpaqueToken token := by
    have hold : (⟨e.agent, .invitationRead (some i), d⟩ :: k) <:+ σ.world.log :=
      (hk.trans (List.suffix_cons _ _)).trans hl
    rcases (hrun.redemptions token).entry hold htoken with ⟨hseen, -⟩ | ⟨read, actor, hwritten, -⟩
    · rcases hseen with ⟨inviterId, hread⟩ | ⟨found, hread, hhash⟩
      · cases hread
      · obtain rfl := Event.invitationRead.inj hread
        exact hhash i rfl
    · cases hwritten
  have hall := everyEntry_iff.mp hundisturbed e w.log hl i hi
  obtain ⟨i', hi', hevolves, hkept⟩ := hrun.linkKept hk
    ((List.suffix_cons _ _).trans hl) hmem fun r m hm hr =>
      hall.not_after hm hr rfl rfl
  have hhash : i'.tokenHash = i.tokenHash := congrArg Prod.fst hkept
  rw [← hevolves.id_eq, Table.find?_of_mem hi', Option.map_some, hhash, hlookup]

theorem currentLinks_redeemTwice :
    CurrentLinks Sample.env (Sample.invited "ann" "bob")
      (Sample.perform (Sample.invited "ann" "bob") 5000 redeemTwice).world.log :=
  currentLinks_of_undisturbed (Sample.runsTo_perform _ _ _)
    (by decide +kernel)

/-- Ann sends a new link to Bob, who has just presented the old one. -/
def resendRace : List (Order Request) :=
  [.serve 1 (.acceptInvitation "bob" "bob" "link"), .proceed 1,
    .serve 2 (.resendInvitation "ann" "acme" "bob-i" true), .proceed 2, .proceed 2, .proceed 1,
    .proceed 1]

/-- The replaced link still makes Bob a member. -/
theorem currentLinks_resendRace :
    RunsTo Sample.env (fun _ => True) (Sample.invited "ann" "bob")
        (Sample.perform (Sample.invited "ann" "bob") 5000 resendRace) ∧
      ¬ CurrentLinks Sample.env (Sample.invited "ann" "bob")
        (Sample.perform (Sample.invited "ann" "bob") 5000 resendRace).world.log :=
  ⟨Sample.runsTo_perform _ _ _, by decide +kernel⟩

end NestApi
