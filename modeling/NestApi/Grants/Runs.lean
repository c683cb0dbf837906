import NestApi.Grants.Judgement
import NestApi.Txn.Schedule
import NestApi.Properties.Runs

/-!
# Runs of the system of grants

A run starts with nothing in the cache. What is in the cache later was written since the
key was last deleted, in an epoch that had begun when its writer read the database.
-/

namespace NestApi

open Txn

/-- No request has arrived yet. -/
def startGrants (init : Store) (now : ℕ) : GrantsConfig := Config.start init now .empty

/-- `σ` is reached from `init`, with an empty cache, by a run in which every arriving request
is admitted. -/
structure GrantsRunsTo (Allowed : GrantsRequest → Prop) (init : Store) (σ : GrantsConfig) :
    Prop where
  uncached : ∀ cacheKey, init.redis.grants cacheKey = none
  reaches : ∃ now, Config.Reaches grantsBody Allowed (startGrants init now) σ

/-- Redis answers every command. -/
def KeepsRedis (req : GrantsRequest) : Prop := ∀ available, req ≠ .switchRedis available

section Runs

variable {Allowed : GrantsRequest → Prop} {init : Store} {σ : GrantsConfig}
  {l l' : GrantsLog} {e : Entry Store GrantsEvent GrantsRequest}

theorem GrantsRunsTo.moves (h : GrantsRunsTo Allowed init σ) :
    ∃ now, Moves grantsGuarantee ⟨init, [], now, .empty⟩ σ.world ∧
      ∀ e ∈ σ.world.log, Allowed e.agent.req := by
  obtain ⟨now, hreach⟩ := h.reaches
  obtain ⟨hmoves, -, hserved⟩ :=
    grantsProtocol.refines (grantsBody_admitted Allowed) trivial hreach
  exact ⟨now, hmoves, hserved⟩

theorem GrantsRunsTo.init_eq (h : GrantsRunsTo Allowed init σ) : σ.world.init = init := by
  obtain ⟨now, hmoves, -⟩ := h.moves
  exact hmoves.init_eq

/-- Every entry is a step, in a world with the history before it. -/
theorem GrantsRunsTo.entry (h : GrantsRunsTo Allowed init σ) (hl : (e :: l) <:+ σ.world.log) :
    ∃ (w : GrantsWorld) (L : RowLock → Prop), w.log = l ∧ w.init = init ∧
      GrantsStep e.agent L w e.event e.db := by
  obtain ⟨now, hmoves, -⟩ := h.moves
  obtain ⟨w, L, hlog, hinit, -, hstep, -⟩ := grantsProtocol.entry trivial hmoves hl
  exact ⟨w, L, hlog, hinit, hstep⟩

/-- The epoch after a history is not above the epoch later on. -/
theorem GrantsRunsTo.currentEpoch_le (h : GrantsRunsTo Allowed init σ) (hl : l <:+ l')
    (hl' : l' <:+ σ.world.log) :
    (stateOf init l).redis.currentEpoch ≤ (stateOf init l').redis.currentEpoch := by
  refine stateOf_persists (P := fun s => (stateOf init l).redis.currentEpoch ≤
    s.redis.currentEpoch) hl (Nat.le_refl _) fun e k _ hek hbefore => ?_
  obtain ⟨w, L, rfl, hinit, hstep⟩ := h.entry (hek.trans hl')
  have hnow : w.db = stateOf init w.log := by rw [World.db, hinit]
  exact hbefore.trans (hnow ▸ hstep.currentEpoch_le)

/-- The epoch that was read was the epoch at that time. -/
theorem GrantsRunsTo.epoch_of_read (h : GrantsRunsTo Allowed init σ)
    (hl : (e :: l) <:+ σ.world.log) {n : ℕ} (hread : e.event = .epochRead (some n)) :
    n = (stateOf init l).redis.currentEpoch := by
  obtain ⟨w, L, rfl, rfl, hstep⟩ := h.entry hl
  obtain ⟨b, ev, s⟩ := e
  obtain rfl : ev = .epochRead (some n) := hread
  generalize hepoch : some n = epoch at hstep
  cases hstep with
  | epochRead =>
    unfold PermissionLoader.epochOf at hepoch
    split at hepoch
    · exact Option.some_inj.mp hepoch
    · cases hepoch

/-- A load read what the database held, and changed nothing. -/
theorem GrantsRunsTo.grants_of_read (h : GrantsRunsTo Allowed init σ)
    (hl : (e :: l) <:+ σ.world.log) {userId : Uuid} {grants : LoadedGrants}
    (hread : e.event = .grantsRead userId grants) :
    grants = (stateOf init l).loadGrants userId ∧ e.db = stateOf init l := by
  obtain ⟨w, L, rfl, rfl, hstep⟩ := h.entry hl
  obtain ⟨b, ev, s⟩ := e
  obtain rfl : ev = .grantsRead userId grants := hread
  cases hstep with
  | grantsRead => exact ⟨rfl, rfl⟩

/-- What a key holds was written to it, and it has been there since. -/
theorem GrantsRunsTo.cached (h : GrantsRunsTo Allowed init σ) (hl : l <:+ σ.world.log)
    {cacheKey : String} {grants : LoadedGrants}
    (hcached : (stateOf init l).redis.grants cacheKey = some grants) :
    ∃ y k, (y :: k) <:+ l ∧ y.event = .grantsCached cacheKey grants ∧
      ∀ m, (y :: k) <:+ m → m <:+ l → (stateOf init m).redis.grants cacheKey = some grants := by
  induction l with
  | nil =>
    rw [stateOf, h.uncached] at hcached
    cases hcached
  | cons e l ih =>
    obtain ⟨w, L, rfl, hinit, hstep⟩ := h.entry hl
    rcases hstep.found hcached with hbefore | hwritten
    · have hnow : w.db = stateOf init w.log := by rw [World.db, hinit]
      obtain ⟨y, k, hy, hevent, hsince⟩ := ih ((List.suffix_cons _ _).trans hl) (hnow ▸ hbefore)
      refine ⟨y, k, hy.trans (List.suffix_cons _ _), hevent, ?_⟩
      intro m hym hm
      rcases List.suffix_cons_iff.mp hm with rfl | hold
      · exact hcached
      · exact hsince m hym hold
    · refine ⟨e, w.log, List.suffix_refl _, hwritten, ?_⟩
      intro m hem hm
      obtain rfl := hem.eq_of_length_le hm.length_le
      exact hcached

/-- A key that was deleted holds nothing just after. -/
theorem GrantsRunsTo.deleted (h : GrantsRunsTo Allowed init σ) (hl : (e :: l) <:+ σ.world.log)
    {cacheKey : String} (hdeleted : e.event = .keyDeleted cacheKey) :
    (stateOf init (e :: l)).redis.grants cacheKey = none := by
  obtain ⟨w, L, rfl, rfl, hstep⟩ := h.entry hl
  obtain ⟨b, ev, s⟩ := e
  obtain rfl : ev = .keyDeleted cacheKey := hdeleted
  cases hstep
  exact Store.grants_deleteGrants

/-- Who wrote the grants of a user under the key of an epoch: a load of this user that read
them in that epoch or later. -/
theorem GrantsRunsTo.writer (h : GrantsRunsTo Allowed init σ) (hl : (e :: l) <:+ σ.world.log)
    {epoch : ℕ} {userId : Uuid} {grants : LoadedGrants}
    (hcached : e.event = .grantsCached (buildCacheKey epoch userId) grants) :
    e.agent.req = .loadGrants userId ∧ ∃ r k, (r :: k) <:+ l ∧ r.agent = e.agent ∧
      r.event = .grantsRead userId grants ∧
        epoch ≤ (stateOf init k).redis.currentEpoch := by
  obtain ⟨w, L, rfl, rfl, hstep⟩ := h.entry hl
  obtain ⟨b, ev, s⟩ := e
  obtain rfl : ev = .grantsCached (buildCacheKey epoch userId) grants := hcached
  generalize hkey : buildCacheKey epoch userId = cacheKey at hstep
  cases hstep with
  | grantsCached userId' epoch' g hreq hread =>
    obtain ⟨rfl, rfl⟩ := buildCacheKey_inj.mp hkey
    obtain ⟨s, k, hk, hle⟩ := hread
    have hlog := hk.trans ((List.suffix_cons _ _).trans hl)
    obtain ⟨-, hstate⟩ := h.grants_of_read hlog rfl
    exact ⟨hreq, _, k, hk, rfl, rfl, hstate ▸ hle⟩

/-- What an answer rests on, in terms of the history. -/
theorem GrantsRunsTo.answered (h : GrantsRunsTo Allowed init σ) (hl : (e :: l) <:+ σ.world.log)
    {userId : Uuid} {grants : LoadedGrants} (hanswer : e.event = .loadAnswered userId grants) :
    ∃ x k, (x :: k) <:+ l ∧ x.agent = e.agent ∧ (∃ epoch, x.event = .epochRead epoch) ∧
      ((∃ r i, (r :: i) <:+ l ∧ k.length < i.length ∧ r.event = .grantsRead userId grants) ∨
        ∃ n m, n = (stateOf init k).redis.currentEpoch ∧ m <:+ l ∧ k.length < m.length ∧
          (stateOf init m).redis.grants (buildCacheKey n userId) = some grants) := by
  obtain ⟨w, L, rfl, hinit, hstep⟩ := h.entry hl
  obtain ⟨b, ev, s⟩ := e
  obtain rfl : ev = .loadAnswered userId grants := hanswer
  cases hstep with
  | loadAnswered _ _ _ hanswered =>
    obtain ⟨epoch, d, k, hstart, hsource⟩ := hanswered
    refine ⟨_, k, hstart, rfl, ⟨epoch, rfl⟩, ?_⟩
    rcases hsource with ⟨d', i, hread, hlength⟩ | ⟨n, d', rfl, ⟨m, hm, hlength, rfl⟩, hfound⟩
    · exact .inl ⟨_, i, hread, hlength, rfl⟩
    · have hepoch := h.epoch_of_read (hstart.trans ((List.suffix_cons _ _).trans hl)) rfl
      exact .inr ⟨n, m, hepoch, hm, hlength, hinit ▸ hfound⟩

/-- While Redis keeps answering there is no outage. -/
theorem GrantsRunsTo.available (h : GrantsRunsTo KeepsRedis init σ)
    (hinit : init.redis.available = true) (hl : l <:+ σ.world.log) :
    (stateOf init l).redis.available = true := by
  obtain ⟨now, -, hserved⟩ := h.moves
  refine stateOf_persists (P := fun s : Store => s.redis.available = true) (List.nil_suffix) hinit
    (fun e k _ hek hbefore => ?_)
  obtain ⟨w, L, rfl, hw, hstep⟩ := h.entry (hek.trans hl)
  have hallowed := hserved e ((hek.trans hl).subset List.mem_cons_self)
  have hnow : w.db = stateOf init w.log := by rw [World.db, hw]
  rw [← hnow] at hbefore
  obtain ⟨b, ev, s⟩ := e
  cases hstep with
  | redisSwitched available hreq => exact absurd hreq (hallowed available)
  | catalogSynced _ _ _ hredis => rwa [hredis]
  | _ => exact hbefore

end Runs

/-! ### A small store -/

namespace Sample

/-- Nothing is cached, and a role may do one thing. -/
def store (db : Database) : Store where
  database := db
  permissions := Table.empty.insert Authorization.readWorkspace.toRow
  rolePermissions :=
    Table.empty.insert ⟨.workspaceStaff, Authorization.readWorkspace.toRow⟩
  redis := ⟨true, none, fun _ => none⟩

/-- Carry out a schedule over a store. -/
def performGrants (init : Store) (orders : List (Order GrantsRequest)) : GrantsConfig :=
  (startGrants init 0).performAll grantsBody name 80 orders

theorem grantsRunsTo_allowed {Allowed : GrantsRequest → Prop} (db : Database)
    {orders : List (Order GrantsRequest)} (h : ∀ o ∈ orders, ∀ req ∈ o.request, Allowed req) :
    GrantsRunsTo Allowed (store db) (performGrants (store db) orders) where
  uncached _ := rfl
  reaches := ⟨0, Config.reaches_performAll h⟩

end Sample

end NestApi
