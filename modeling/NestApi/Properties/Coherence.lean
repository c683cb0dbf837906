import NestApi.Txn.Counting
import NestApi.Properties.Invalidation

/-!
# The cache agrees with the database

Every operation invalidates whom it names, and a load that is not interleaved caches what
the database holds. The cache then agrees with the database whenever no operation is in
progress, with two exceptions: a member who joins a workspace after its roster was read for
a removal, and a role whose permissions the catalog sync changes, which increments no epoch.
-/

namespace NestApi

open Txn Program PermissionLoader AuthorityChanges

/-! ### An operation commits once -/

section Once

theorem redisCommand_quiet {f : Store → Store} {ev : GrantsEvent} (h : ¬ ev.IsChange) :
    (redisCommand f ev).AtMost GrantsEvent.IsChange 0 :=
  AtMost.then (fun _ => trivial) fun _ => .onlyIf (.transaction_of_not trivial fun _ => h)

theorem readEpoch_quiet : readEpoch.AtMost GrantsEvent.IsChange 0 :=
  fun _ => .inl ⟨GrantsEvent.not_isChange rfl, trivial⟩

theorem invalidateUser_quiet {userId : Uuid} :
    (invalidateUser userId).AtMost GrantsEvent.IsChange 0 := by
  refine AtMost.then readEpoch_quiet fun epoch => ?_
  cases epoch with
  | none => trivial
  | some n => exact redisCommand_quiet (GrantsEvent.not_isChange rfl)

theorem invalidateGrantsFor_quiet {users : List Uuid} :
    (invalidateGrantsFor users).AtMost GrantsEvent.IsChange 0 := by
  exact AtMost.then (.forEach fun _ _ => invalidateUser_quiet) fun _ _ =>
    .inl ⟨GrantsEvent.not_isChange rfl, trivial⟩

theorem changeAuthority_once {body : Task (List Uuid)}
    (h : body.AtMost GrantsEvent.IsChange 0) :
    (changeAuthority body).AtMost GrantsEvent.IsChange 1 :=
  AtMost.bind (.transaction h) fun _ => invalidateGrantsFor_quiet

theorem loadGrants_quiet {userId : Uuid} :
    (PermissionLoader.loadGrants userId).AtMost GrantsEvent.IsChange 0 := by
  have hread : (PermissionLoader.loadGrantsFromDatabase userId).AtMost GrantsEvent.IsChange 0 :=
    fun _ => .inl ⟨GrantsEvent.not_isChange rfl, trivial⟩
  refine AtMost.then readEpoch_quiet fun epoch => ?_
  cases epoch with
  | none => exact hread
  | some n =>
    refine AtMost.then (fun _ => trivial) fun found => ?_
    cases found with
    | some cached => trivial
    | none =>
      exact AtMost.then hread fun grants =>
        AtMost.then (redisCommand_quiet (GrantsEvent.not_isChange rfl)) fun _ => trivial

theorem statement_quiet {f : Store → Store} {ev : GrantsEvent} (h : ¬ ev.IsChange) :
    (statement f ev).AtMost GrantsEvent.IsChange 0 :=
  .transaction_of_not trivial fun _ => h

theorem join_quiet {m : WorkspaceMembership} {actorId : Uuid} :
    (join m actorId).AtMost GrantsEvent.IsChange 0 := by
  refine AtMost.then trivial fun _ => AtMost.then trivial fun _ =>
    AtMost.then (fun _ => trivial) fun existing => ?_
  cases existing <;> trivial

theorem findInWorkspace_quiet {workspaceId membershipId : Uuid} :
    (AuthorityChanges.findInWorkspace workspaceId membershipId).AtMost GrantsEvent.IsChange 0 :=
  AtMost.then trivial fun _ => AtMost.then (fun _ => trivial) fun _ => .orThrow

theorem seedRole_quiet {role : SeededRoleName} :
    (RbacSeeder.seedRole role).AtMost GrantsEvent.IsChange 0 := by
  have hstatement : ∀ f, (statement f .catalogSynced).AtMost GrantsEvent.IsChange 0 :=
    fun _ => statement_quiet (GrantsEvent.not_isChange rfl)
  exact AtMost.then (fun _ => trivial) fun _ => AtMost.then .ensure fun _ =>
    AtMost.then (hstatement _) fun _ => .forEach fun _ _ => hstatement _

theorem seedPermissions_quiet : RbacSeeder.seedPermissions.AtMost GrantsEvent.IsChange 0 := by
  have hstatement : ∀ f, (statement f .catalogSynced).AtMost GrantsEvent.IsChange 0 :=
    fun _ => statement_quiet (GrantsEvent.not_isChange rfl)
  exact AtMost.then (.forEach fun _ _ => hstatement _) fun _ => hstatement _

/-- The program of a request commits one change at most. -/
theorem grantsBody_once (req : GrantsRequest) :
    (grantsBody req).AtMost GrantsEvent.IsChange 1 := by
  have hquiet : ∀ {x : Task Unit}, x.AtMost GrantsEvent.IsChange 0 →
      x.AtMost GrantsEvent.IsChange 1 := fun hx => hx.mono (Nat.zero_le 1)
  cases req with
  | loadGrants userId =>
    exact hquiet (AtMost.then loadGrants_quiet fun _ _ =>
      .inl ⟨GrantsEvent.not_isChange rfl, trivial⟩)
  | invalidateAllUsers =>
    exact hquiet (redisCommand_quiet (GrantsEvent.not_isChange rfl))
  | assignPlatformRole | revokePlatformRole => exact changeAuthority_once trivial
  | addMembership | acceptInvitation => exact changeAuthority_once join_quiet
  | changeRole | transition =>
    exact changeAuthority_once (AtMost.then findInWorkspace_quiet fun _ => trivial)
  | transferOwnership =>
    exact changeAuthority_once (AtMost.then findInWorkspace_quiet fun _ =>
      AtMost.then (fun _ => trivial) fun _ => trivial)
  | createWorkspace =>
    exact changeAuthority_once (AtMost.then trivial fun _ => AtMost.then trivial fun _ =>
      AtMost.then (fun _ => trivial) fun _ => AtMost.then .ensure fun _ => trivial)
  | removeWorkspace workspaceId actorId now =>
    have hbody : (lockRow (.workspace workspaceId) >>= fun _ => AuthorityChanges.write fun db =>
        db.updateWorkspaces [workspaceId] (Workspace.deleted now actorId) : Task Unit).AtMost
          GrantsEvent.IsChange 0 := trivial
    exact AtMost.then (fun _ => .inl ⟨GrantsEvent.not_isChange rfl, trivial⟩) fun _ =>
      AtMost.bind (.transaction hbody) fun _ => invalidateGrantsFor_quiet
  | endAccount => exact changeAuthority_once (AtMost.then trivial fun _ => trivial)
  | gdprErase =>
    exact changeAuthority_once (AtMost.then trivial fun _ => AtMost.then .lockRows fun _ =>
      AtMost.then (fun _ => trivial) fun _ => trivial)
  | syncCatalog =>
    exact hquiet (AtMost.then seedPermissions_quiet fun _ => .forEach fun _ _ => seedRole_quiet)
  | expireKey | switchRedis =>
    exact hquiet (statement_quiet (GrantsEvent.not_isChange rfl))

end Once

/-! ### The conditions -/

section Conditions

/-- The entries of a load follow each other. -/
def LoadsAtomic (log : GrantsLog) : Prop :=
  EveryEntry (fun y l => y.agent.req.IsLoad → EveryEntry (fun x k => x.agent ≠ y.agent →
    ∀ r ∈ k, r.agent ≠ y.agent) l) log

/-- Every operation that has committed has returned. -/
def Quiescent (log : GrantsLog) : Prop :=
  EveryEntry (fun e _ => e.event.IsChange →
    SomeEntry (fun x _ => x.agent = e.agent ∧ x.event = .operationEnded) log) log

/-- Who is in a workspace when it is removed, and has grants in the cache, was in it when its
roster was read. -/
def RostersComplete (init : Store) (log : GrantsLog) : Prop :=
  EveryEntry (fun e l => ∀ workspaceId ∈ e.event.removed?,
    EveryEntry (fun r k => r.agent = e.agent → workspaceId ∈ r.event.listed? →
      ∀ u ∈ rosterOf [workspaceId] (stateOf init l), (stateOf init l).readable u ≠ none →
        u ∈ rosterOf [workspaceId] (stateOf init k)) l) log

/-- The catalog sync changes the permissions of no role that somebody with grants in the cache
holds. -/
def SyncsHarmless (init : Store) (log : GrantsLog) : Prop :=
  EveryEntry (fun e l => e.event = .catalogSynced → ∀ user ∈ (stateOf init l).database.users,
    (stateOf init l).readable user.id ≠ none →
      ∀ role ∈ ((stateOf init l).database.authorityRows user.id).roles,
        e.db.permissionsOf role = (stateOf init l).permissionsOf role) log

/-- What the cache would serve is what the database holds. -/
def Coherent (s : Store) : Prop := ∀ userId, ∀ grants ∈ s.readable userId,
  grants = s.loadGrants userId

instance (log : GrantsLog) : Decidable (LoadsAtomic log) :=
  inferInstanceAs (Decidable (EveryEntry _ log))

instance (log : GrantsLog) : Decidable (Quiescent log) :=
  inferInstanceAs (Decidable (EveryEntry _ log))

instance (init : Store) (log : GrantsLog) : Decidable (RostersComplete init log) :=
  inferInstanceAs (Decidable (EveryEntry _ log))

instance (init : Store) (log : GrantsLog) : Decidable (SyncsHarmless init log) :=
  inferInstanceAs (Decidable (EveryEntry _ log))

end Conditions

/-! ### Whenever no operation is in progress -/

section Coherence

variable {init : Store} {σ : GrantsConfig} {l m : GrantsLog}
  {e : Entry Store GrantsEvent GrantsRequest} {userId : Uuid} {users : List Uuid}

/-- A load changes nothing that loads read. -/
theorem GrantsRunsTo.loadGrants_of_load {Allowed : GrantsRequest → Prop}
    (hrun : GrantsRunsTo Allowed init σ) (hl : (e :: l) <:+ σ.world.log)
    (hload : e.agent.req.IsLoad) : e.db.loadGrants userId = (stateOf init l).loadGrants userId := by
  obtain ⟨w, L, rfl, rfl, hstep⟩ := hrun.entry hl
  obtain ⟨b, ev, s⟩ := e
  cases hstep with
  | authorityChanged _ _ hreq => exact absurd hload hreq
  | workspaceRemoved _ _ _ hreq => exact absurd hload hreq
  | catalogSynced _ hreq => exact absurd hload hreq
  | _ => rfl

/-- While Redis answers, whoever a returned operation named had the key of the epoch deleted
after its commit. -/
theorem GrantsRunsTo.invalidated (hrun : GrantsRunsTo KeepsRedis init σ)
    (hredis : init.redis.available = true) (hquiet : Quiescent σ.world.log)
    (he : (e :: m) <:+ σ.world.log) (husers : e.event.users? = some users) (hu : userId ∈ users) :
    ∃ d j k, (d :: j) <:+ σ.world.log ∧ k <:+ j ∧ m.length < k.length ∧
      d.event = .keyDeleted (buildCacheKey (stateOf init k).redis.currentEpoch userId) := by
  have hchange : e.event.IsChange := by simp [GrantsEvent.IsChange, husers]
  obtain ⟨x, j, hx, hagent, hended⟩ :=
    someEntry_iff.mp (everyEntry_iff.mp hquiet e m he hchange)
  obtain ⟨w, L, rfl, hinit, hstep⟩ := hrun.entry hx
  obtain ⟨b, ev, s⟩ := x
  obtain rfl : ev = .operationEnded := hended
  cases hstep with
  | operationEnded hended =>
    obtain ⟨c, k, named, hc, hcagent, hnamed, hall⟩ := hended
    have hlog := (List.suffix_cons _ _).trans hx
    -- the operation that returned is the one that committed `e`
    obtain ⟨now, hreach⟩ := hrun.reaches
    have hcounted := Config.reaches_counted grantsBody_once hreach
    have hcchange : c.event.IsChange := by simp [GrantsEvent.IsChange, hnamed]
    obtain ⟨rfl, rfl⟩ := hcounted.eq_of_agent he (hc.trans hlog) (hcagent.trans hagent)
      (Nat.le_refl 1) hchange hcchange
    obtain rfl : named = users := Option.some_inj.mp (hnamed.symm.trans husers)
    rcases hall userId hu with hinvalidated | ⟨s', ⟨l', hl', -, rfl⟩, hdown⟩
    · obtain ⟨d, j, hd, -, r, i, epoch, hr, hlength, -, hread, hdeleted⟩ := hinvalidated
      have hepoch := hrun.epoch_of_read ((hr.trans ((List.suffix_cons d j).trans hd)).trans hlog)
        hread
      exact ⟨d, j, i, hd.trans hlog, (List.suffix_cons r i).trans hr, hlength, hepoch ▸ hdeleted⟩
    · have hup := hrun.available hredis (hl'.trans hlog)
      rw [hinit, hup] at hdown
      cases hdown

/-- The roster that a removal invalidates was read by it before. -/
theorem GrantsRunsTo.roster_of_removed {Allowed : GrantsRequest → Prop}
    (hrun : GrantsRunsTo Allowed init σ) (hl : (e :: l) <:+ σ.world.log) {workspaceId : Uuid}
    {roster : List Uuid} (hremoved : e.event = .workspaceRemoved workspaceId roster) :
    ∃ r k, (r :: k) <:+ l ∧ r.agent = e.agent ∧ r.event = .rosterRead workspaceId roster ∧
      roster = rosterOf [workspaceId] (stateOf init k) := by
  obtain ⟨w, L, rfl, hinit, hstep⟩ := hrun.entry hl
  obtain ⟨b, ev, s⟩ := e
  obtain rfl : ev = .workspaceRemoved workspaceId roster := hremoved
  cases hstep with
  | workspaceRemoved _ _ _ _ hread =>
    obtain ⟨s', k, hk⟩ := hread
    refine ⟨_, k, hk, rfl, rfl, ?_⟩
    obtain ⟨v, L', rfl, rfl, hstep⟩ := hrun.entry (hk.trans ((List.suffix_cons _ _).trans hl))
    cases hstep with
    | rosterRead => rfl

/-- Whoever enters the history between two entries of a load that is not interleaved is the
load itself. -/
theorem LoadsAtomic.after {y r : Entry Store GrantsEvent GrantsRequest} {k i : GrantsLog}
    (h : LoadsAtomic l) (hy : (y :: k) <:+ l) (hload : y.agent.req.IsLoad) (hr : (r :: i) <:+ k)
    (hown : r.agent = y.agent) (he : (e :: m) <:+ l) (him : i <:+ m)
    (hother : e.agent ≠ y.agent) : (y :: k) <:+ m := by
  have hbetween : ∀ e m, (e :: m) <:+ k → e.agent ≠ y.agent → r ∉ m := by
    intro e m hm hne hmem
    exact everyEntry_iff.mp (everyEntry_iff.mp h y k hy hload) e m hm hne r hmem hown
  rcases Nat.lt_trichotomy k.length m.length with hlt | heq | hgt
  · exact before_of_length_lt hy he hlt
  · obtain ⟨rfl, -⟩ := eq_of_length_eq hy he heq
    exact absurd rfl hother
  · have hek := before_of_length_lt he hy hgt
    rcases Nat.lt_or_eq_of_le him.length_le with hlt | heq
    · have hmem : r ∈ m := (before_of_length_lt hr hek hlt).subset List.mem_cons_self
      exact absurd hmem (hbetween e m hek hother)
    · obtain ⟨rfl, -⟩ := eq_of_length_eq hr hek heq
      exact absurd hown hother

/-- An operation that does not name a user leaves the grants of the user as they are, while the
user has grants in the cache. -/
theorem GrantsRunsTo.loadGrants_kept {Allowed : GrantsRequest → Prop}
    (hrun : GrantsRunsTo Allowed init σ) (he : (e :: m) <:+ σ.world.log)
    (hrosters : RostersComplete init σ.world.log) (hsyncs : SyncsHarmless init σ.world.log)
    (hreadable : (stateOf init m).readable userId ≠ none)
    (hnamed : ∀ users, e.event.users? = some users → userId ∉ users) :
    e.db.loadGrants userId = (stateOf init m).loadGrants userId := by
  have hremoved := fun ws roster (hevent : e.event = .workspaceRemoved ws roster) =>
    hrun.roster_of_removed he hevent
  have hlisted := everyEntry_iff.mp hrosters e m he
  have hharmless := everyEntry_iff.mp hsyncs e m he
  obtain ⟨w, L, rfl, rfl, hstep⟩ := hrun.entry he
  obtain ⟨b, ev, s⟩ := e
  cases hstep with
  | authorityChanged users db' _ hothers =>
    have hrows := hothers userId (hnamed users rfl)
    exact Store.loadGrants_congr hrows fun _ _ => rfl
  | workspaceRemoved workspaceId roster db' _ _ hothers =>
    obtain ⟨r', k', hr', hagent, hroster, rfl⟩ := hremoved workspaceId roster rfl
    have hunlisted := hnamed _ rfl
    refine Store.loadGrants_congr (hothers userId ?_) fun _ _ => rfl
    intro m hm hid huser
    have hmember : userId ∈ rosterOf [workspaceId] (stateOf w.init w.log) :=
      List.mem_map.mpr ⟨m, Table.mem_filter.mpr ⟨hm, by simp [hid]⟩, huser⟩
    have hlist := everyEntry_iff.mp (hlisted workspaceId rfl) r' k' hr' hagent
      (by rw [hroster]; rfl)
    exact hunlisted (hlist userId hmember hreadable)
  | catalogSynced s' _ hdatabase =>
    refine Store.loadGrants_congr (by rw [hdatabase]; rfl) fun role hrole => ?_
    cases huser : w.db.database.scopedUser? userId with
    | none =>
      change role ∈ (w.db.database.authorityRows userId).roles at hrole
      simp [Database.authorityRows, huser, AuthorityRows.roles] at hrole
    | some user =>
      obtain ⟨hmem, hid⟩ := Table.find?_eq_some.mp (Option.filter_eq_some_iff.mp huser).1
      subst hid
      exact hharmless rfl user hmem hreadable role hrole
  | _ => rfl

/-- The cache agrees with the database whenever no operation is in progress, when loads are not
interleaved and Redis answers. -/
theorem coherent_of_rostersComplete (hrun : GrantsRunsTo KeepsRedis init σ)
    (hredis : init.redis.available = true) (hatomic : LoadsAtomic σ.world.log)
    (hquiet : Quiescent σ.world.log) (hrosters : RostersComplete init σ.world.log)
    (hsyncs : SyncsHarmless init σ.world.log) : Coherent σ.world.db := by
  intro userId grants hfound
  rw [World.db, hrun.init_eq] at hfound ⊢
  obtain ⟨y, k, r, i, hy, -, hreq, hsince, hr, hown, hread, hle⟩ :=
    hrun.source (List.suffix_refl _) hfound
  have hrl := hr.trans ((List.suffix_cons y k).trans hy)
  have hil := (List.suffix_cons r i).trans hrl
  -- the epoch in which the load read is still in force
  have hepoch : ∀ m, i <:+ m → m <:+ σ.world.log → (stateOf init m).redis.currentEpoch =
      (stateOf init σ.world.log).redis.currentEpoch := by
    intro m him hm
    have hbefore := hrun.currentEpoch_le him hm
    have hafter := hrun.currentEpoch_le hm (List.suffix_refl _)
    omega
  -- nobody who is named after the write has been returned to
  have hforgotten : ∀ e m users, (e :: m) <:+ σ.world.log → (y :: k) <:+ m →
      e.event.users? = some users → userId ∉ users := by
    intro e m users he hym husers hu
    obtain ⟨d, j, i', hd, hi', hlength, hdeleted⟩ := hrun.invalidated hredis hquiet he husers hu
    have hmi' : m <:+ i' := List.suffix_of_suffix_length_le ((List.suffix_cons e m).trans he)
      (hi'.trans ((List.suffix_cons d j).trans hd)) hlength.le
    have hyi' := hym.trans hmi'
    have hii' := ((List.suffix_cons r i).trans hr).trans ((List.suffix_cons y k).trans hyi')
    rw [hepoch i' hii' (hi'.trans ((List.suffix_cons d j).trans hd))] at hdeleted
    have hkept := hsince _ (hyi'.trans (hi'.trans (List.suffix_cons d j))) hd
    rw [hrun.deleted hd hdeleted] at hkept
    cases hkept
  obtain ⟨hgrants, -⟩ := hrun.grants_of_read hrl hread
  refine (stateOf_persists (P := fun s : Store => s.loadGrants userId = grants) hil
    hgrants.symm fun e m him he hbefore => ?_).symm
  refine Eq.trans ?_ hbefore
  by_cases hload : e.agent.req.IsLoad
  · exact hrun.loadGrants_of_load he hload
  have hother : e.agent ≠ y.agent := fun heq => hload (heq ▸ ⟨userId, hreq⟩)
  have hym := hatomic.after hy ⟨userId, hreq⟩ hr hown he him hother
  have hml := (List.suffix_cons e m).trans he
  have hreadable : (stateOf init m).readable userId ≠ none := by
    have hkept := hsince m hym hml
    rw [Store.readable, hepoch m him hml, hkept]
    simp
  exact hrun.loadGrants_kept he hrosters hsyncs hreadable fun users => hforgotten e m users he hym

end Coherence

/-! ### Two ways to disagree -/

/-- Ann is suspended and the workspace removed, each followed by a load. -/
def suspendThenRemove : List (Order GrantsRequest) :=
  [.serve 1 (.loadGrants "ann"), .statements 1 20,
    .serve 2 (.transition "acme" "ann-m" "bob" .suspended none), .statements 2 40,
    .serve 3 (.loadGrants "bob"), .statements 3 20,
    .serve 4 (.removeWorkspace "acme" "bob" 5), .statements 4 60,
    .serve 5 (.loadGrants "bob"), .statements 5 20]

theorem coherent_of_rostersComplete_suspendThenRemove :
    Coherent (Sample.performGrants (Sample.store (Sample.database
      [("ann", .workspaceStaff), ("bob", .workspaceOwner)] [])) suspendThenRemove).world.db :=
  coherent_of_rostersComplete
    (Sample.grantsRunsTo_allowed _ (by simp [suspendThenRemove, Order.request, KeepsRedis])) rfl
    (by decide +kernel) (by decide +kernel) (by decide +kernel) (by decide +kernel)

/-- A run without interleaved loads, after which nothing is in progress and the cache disagrees
with the database. -/
def Disagrees (init : Store) (σ : GrantsConfig) : Prop :=
  GrantsRunsTo KeepsRedis init σ ∧ init.redis.available = true ∧ LoadsAtomic σ.world.log ∧
    Quiescent σ.world.log ∧ ¬ Coherent σ.world.db

/-- One user whose grants are out of date is a disagreement. -/
theorem disagrees_of_user {init : Database} {orders : List (Order GrantsRequest)} (userId : Uuid)
    (hallowed : ∀ o ∈ orders, ∀ req ∈ o.request, KeepsRedis req)
    (h : LoadsAtomic (Sample.performGrants (Sample.store init) orders).world.log ∧
      Quiescent (Sample.performGrants (Sample.store init) orders).world.log ∧
        ∃ grants ∈ (Sample.performGrants (Sample.store init) orders).world.db.readable userId,
          grants ≠ (Sample.performGrants (Sample.store init) orders).world.db.loadGrants userId) :
    Disagrees (Sample.store init) (Sample.performGrants (Sample.store init) orders) := by
  obtain ⟨hatomic, hquiet, grants, hfound, hstale⟩ := h
  exact ⟨Sample.grantsRunsTo_allowed _ hallowed, rfl, hatomic, hquiet,
    fun hcoherent => hstale (hcoherent userId grants hfound)⟩

/-- Cara joins after the roster was read for the removal, and loads before it commits. -/
def joinUnderRemoval : List (Order GrantsRequest) :=
  [.serve 1 (.removeWorkspace "acme" "bob" 5), .proceed 1,
    .serve 2 (.addMembership (Sample.member "cara" .workspaceStaff) "bob"), .statements 2 40,
    .serve 3 (.loadGrants "cara"), .statements 3 20, .statements 1 60]

/-- The sync gives a role the permissions of the catalog while a user who holds it has grants in
the cache. -/
def syncAfterLoad : List (Order GrantsRequest) :=
  [.serve 1 (.loadGrants "ann"), .statements 1 20, .serve 2 .syncCatalog, .statements 2 2000]

/-- Neither disagreement passes when the operations have returned. The sync has returned too. -/
theorem not_coherent_joinUnderRemoval :
    Disagrees (Sample.store (Sample.database [("bob", .workspaceOwner)] ["cara"]))
        (Sample.performGrants (Sample.store (Sample.database [("bob", .workspaceOwner)] ["cara"]))
          joinUnderRemoval) ∧
      Disagrees (Sample.store (Sample.database [("ann", .workspaceStaff)] []))
        (Sample.performGrants (Sample.store (Sample.database [("ann", .workspaceStaff)] []))
          syncAfterLoad) ∧
      ∃ proc ∈ (Sample.performGrants (Sample.store (Sample.database [("ann", .workspaceStaff)] []))
        syncAfterLoad).procs 2, proc.req = .syncCatalog ∧ proc.prog.Answers := by
  refine ⟨?_, ?_, by decide +kernel⟩
  · have hallowed : ∀ o ∈ joinUnderRemoval, ∀ req ∈ o.request, KeepsRedis req := by
      simp [joinUnderRemoval, Order.request, KeepsRedis]
    exact disagrees_of_user "cara" hallowed (by decide +kernel)
  · have hallowed : ∀ o ∈ syncAfterLoad, ∀ req ∈ o.request, KeepsRedis req := by
      simp [syncAfterLoad, Order.request, KeepsRedis]
    exact disagrees_of_user "ann" hallowed (by decide +kernel)

end NestApi
