import NestApi.Grants.Operations
import NestApi.Txn.Soundness

/-!
# What a step of the system of grants does

For each event, its effect on the store and what its process has done before. A cached
value was read by the loader that writes it, in an epoch that had begun; an operation names
everybody whose rows it writes, and returns after their keys were deleted.
-/

namespace NestApi

open Txn

/-- A history of the system of grants. -/
abbrev GrantsLog := List (Entry Store GrantsEvent GrantsRequest)

namespace GrantsEvent

/-- Whom an operation is going to invalidate. -/
def users? : GrantsEvent → Option (List Uuid)
  | .authorityChanged users => some users
  | .workspaceRemoved _ roster => some roster
  | _ => none

/-- The commit of an operation. -/
def IsChange (ev : GrantsEvent) : Prop := ev.users?.isSome = true

instance (ev : GrantsEvent) : Decidable ev.IsChange := inferInstanceAs (Decidable (_ = _))

theorem not_isChange {ev : GrantsEvent} (h : ev.users? = none) : ¬ ev.IsChange := by
  simp [IsChange, h]

/-- A load read the database. -/
def IsGrantsRead : GrantsEvent → Prop
  | .grantsRead _ _ => True
  | _ => False

instance : DecidablePred IsGrantsRead := fun ev => by
  unfold IsGrantsRead
  split <;> infer_instance

/-- The key that was written. -/
def written? : GrantsEvent → Option String
  | .grantsCached cacheKey _ => some cacheKey
  | _ => none

/-- The user and the grants of an answer. -/
def answer? : GrantsEvent → Option (Uuid × LoadedGrants)
  | .loadAnswered userId grants => some (userId, grants)
  | _ => none

/-- The workspace that was removed. -/
def removed? : GrantsEvent → Option Uuid
  | .workspaceRemoved workspaceId _ => some workspaceId
  | _ => none

/-- The workspace whose roster was read. -/
def listed? : GrantsEvent → Option Uuid
  | .rosterRead workspaceId _ => some workspaceId
  | _ => none

/-- The epoch that was read. -/
def epoch? : GrantsEvent → Option ℕ
  | .epochRead epoch => epoch
  | _ => none

end GrantsEvent

/-- The request is a load. -/
def GrantsRequest.IsLoad (req : GrantsRequest) : Prop := ∃ userId, req = .loadGrants userId

/-- The user of a load. -/
def GrantsRequest.loaded? : GrantsRequest → Option Uuid
  | .loadGrants userId => some userId
  | _ => none

instance (req : GrantsRequest) : Decidable req.IsLoad :=
  decidable_of_iff (req.loaded?.isSome = true) <| by
    cases req <;> simp [GrantsRequest.IsLoad, GrantsRequest.loaded?]

/-- After the first `n` entries, the process read the epoch and deleted the user's key in it:
a call of `invalidateUser`, from its beginning to its end. -/
def Invalidated (a : Agent GrantsRequest) (userId : Uuid) (n : ℕ) (log : GrantsLog) : Prop :=
  ∃ d l, (d :: l) <:+ log ∧ d.agent = a ∧ ∃ r k epoch, (r :: k) <:+ l ∧ n ≤ k.length ∧
    r.agent = a ∧ r.event = .epochRead (some epoch) ∧
      d.event = .keyDeleted (buildCacheKey epoch userId)

/-- Redis was not available at some point. -/
def Outage (w : GrantsWorld) : Prop := ∃ s, w.Since 0 s ∧ s.redis.available = false

/-- What an answer rests on. The load began with reading the epoch; then it read the
database, or found the grants under the key of that epoch. -/
def Founded (a : Agent GrantsRequest) (w : GrantsWorld) (userId : Uuid) (grants : LoadedGrants) :
    Prop :=
  ∃ epoch d l, (⟨a, .epochRead epoch, d⟩ :: l) <:+ w.log ∧
    ((∃ s k, (⟨a, .grantsRead userId grants, s⟩ :: k) <:+ w.log ∧ l.length < k.length) ∨
      ∃ n s, epoch = some n ∧ w.Since (l.length + 1) s ∧
        s.redis.grants (buildCacheKey n userId) = some grants)

/-- An operation that returns has invalidated everybody it named, unless Redis failed. -/
def Ended (a : Agent GrantsRequest) (w : GrantsWorld) : Prop :=
  ∃ c l users, (c :: l) <:+ w.log ∧ c.agent = a ∧ c.event.users? = some users ∧
    ∀ userId ∈ users, Invalidated a userId (l.length + 1) w.log ∨ Outage w

/-- The steps. -/
inductive GrantsStep (a : Agent GrantsRequest) (L : RowLock → Prop) (w : GrantsWorld) :
    GrantsEvent → Store → Prop
  | epochRead : GrantsStep a L w (.epochRead (PermissionLoader.epochOf w.db)) w.db
  | grantsRead (userId : Uuid) (hreq : a.req = .loadGrants userId) :
      GrantsStep a L w (.grantsRead userId (w.db.loadGrants userId)) w.db
  | grantsCached (userId : Uuid) (epoch : ℕ) (grants : LoadedGrants)
      (hreq : a.req = .loadGrants userId)
      (hread : ∃ s l, (⟨a, .grantsRead userId grants, s⟩ :: l) <:+ w.log ∧
        epoch ≤ s.redis.currentEpoch) :
      GrantsStep a L w (.grantsCached (buildCacheKey epoch userId) grants)
        (w.db.setGrants (buildCacheKey epoch userId) grants)
  | loadAnswered (userId : Uuid) (grants : LoadedGrants) (hreq : a.req = .loadGrants userId)
      (hanswer : Founded a w userId grants) :
      GrantsStep a L w (.loadAnswered userId grants) w.db
  | keyDeleted (cacheKey : String) :
      GrantsStep a L w (.keyDeleted cacheKey) (w.db.deleteGrants cacheKey)
  | keyExpired (cacheKey : String) :
      GrantsStep a L w (.keyExpired cacheKey) (w.db.deleteGrants cacheKey)
  | epochIncremented : GrantsStep a L w .epochIncremented w.db.incrementEpoch
  | authorityChanged (users : List Uuid) (db' : Database) (hreq : ¬ a.req.IsLoad)
      (hothers : ∀ u ∉ users, db'.authorityRows u = w.db.database.authorityRows u)
      (hrosters : ∀ workspaceId, L (.workspace workspaceId) ∨
        db'.roster workspaceId = w.db.database.roster workspaceId) :
      GrantsStep a L w (.authorityChanged users) { w.db with database := db' }
  | rosterRead (workspaceId : Uuid) (hreq : ¬ a.req.IsLoad) :
      GrantsStep a L w
        (.rosterRead workspaceId (AuthorityChanges.rosterOf [workspaceId] w.db)) w.db
  | workspaceRemoved (workspaceId : Uuid) (roster : List Uuid) (db' : Database)
      (hreq : ¬ a.req.IsLoad)
      (hread : ∃ s l, (⟨a, .rosterRead workspaceId roster, s⟩ :: l) <:+ w.log)
      (hothers : ∀ u, (∀ m ∈ w.db.database.workspaceMemberships, m.workspaceId = workspaceId →
        m.userId ≠ u) → db'.authorityRows u = w.db.database.authorityRows u)
      (hrosters : db'.workspaceMemberships = w.db.database.workspaceMemberships) :
      GrantsStep a L w (.workspaceRemoved workspaceId roster) { w.db with database := db' }
  | operationEnded (hended : Ended a w) : GrantsStep a L w .operationEnded w.db
  | catalogSynced (s : Store) (hreq : ¬ a.req.IsLoad)
      (hdatabase : s.database = w.db.database) (hredis : s.redis = w.db.redis) :
      GrantsStep a L w .catalogSynced s
  | redisSwitched (available : Bool) (hreq : a.req = .switchRedis available) :
      GrantsStep a L w (.redisSwitched available) (w.db.setAvailable available)

/-- The guarantee of the system of grants. -/
def grantsGuarantee : Guarantee Store RowLock GrantsEvent Uuid GrantsRequest := GrantsStep

/-! ### What every step keeps -/

section Steps

variable {a : Agent GrantsRequest} {L : RowLock → Prop} {w w' : GrantsWorld} {ev : GrantsEvent}
  {s : Store} {held : RowLock → Prop} {workspaceId : Uuid}

/-- The epoch never goes back. -/
theorem GrantsStep.currentEpoch_le (h : GrantsStep a L w ev s) :
    w.db.redis.currentEpoch ≤ s.redis.currentEpoch := by
  cases h with
  | epochIncremented => simp [Store.incrementEpoch, Redis.currentEpoch]
  | catalogSynced _ _ _ hredis => rw [hredis]
  | _ => exact Nat.le_refl _

/-- What a key holds was there before, or was written now. -/
theorem GrantsStep.found {cacheKey : String} {grants : LoadedGrants} (h : GrantsStep a L w ev s)
    (hfound : s.redis.grants cacheKey = some grants) :
    w.db.redis.grants cacheKey = some grants ∨ ev = .grantsCached cacheKey grants := by
  cases h with
  | grantsCached userId epoch g =>
    by_cases hkey : cacheKey = buildCacheKey epoch userId
    · subst hkey
      obtain rfl : g = grants := by simpa using hfound
      exact .inr rfl
    · have hother := Store.grants_setGrants_of_ne (s := w.db) (g := g) hkey
      exact .inl (hother.symm.trans hfound)
  | keyDeleted other | keyExpired other =>
    by_cases hkey : cacheKey = other
    · simp [hkey] at hfound
    · have hother := Store.grants_deleteGrants_of_ne (s := w.db) hkey
      exact .inl (hother.symm.trans hfound)
  | catalogSynced _ _ _ hredis => exact .inl (by rwa [hredis] at hfound)
  | _ => exact .inl hfound

/-- Who is on a roster changes under the lock of the workspace only. -/
theorem GrantsStep.roster (h : GrantsStep a L w ev s) (workspaceId : Uuid) :
    L (.workspace workspaceId) ∨
      s.database.roster workspaceId = w.db.database.roster workspaceId := by
  cases h with
  | authorityChanged _ _ _ _ hrosters => exact hrosters workspaceId
  | workspaceRemoved _ _ _ _ _ _ hrosters =>
    refine .inr ?_
    simp only [Database.roster, hrosters]
  | catalogSynced _ _ hdatabase => exact .inr (by rw [hdatabase])
  | _ => exact .inr rfl

theorem Txn.Move.currentEpoch_le (h : Move grantsGuarantee w w') :
    w.db.redis.currentEpoch ≤ w'.db.redis.currentEpoch := by
  cases h with
  | tick | issue => exact Nat.le_refl _
  | act a held ev s hstep => exact GrantsStep.currentEpoch_le hstep

theorem Txn.Interf.currentEpoch_le (h : Interf grantsGuarantee a held w w') :
    w.db.redis.currentEpoch ≤ w'.db.redis.currentEpoch :=
  h.invariant (P := fun v => w.db.redis.currentEpoch ≤ v.db.redis.currentEpoch)
    (fun hv hmove => hv.trans hmove.currentEpoch_le) (Nat.le_refl _)

/-- A roster stays as it is while its workspace is locked. -/
theorem Txn.Interf.roster_eq (h : Interf grantsGuarantee a held w w')
    (hlock : held (.workspace workspaceId)) :
    w'.db.database.roster workspaceId = w.db.database.roster workspaceId := by
  refine h.stable (P := fun v => v.db.database.roster workspaceId =
    w.db.database.roster workspaceId) (fun {v v'} hv hstep => ?_) rfl
  cases hstep with
  | tick | issue => exact hv
  | other b others ev s _ hdisjoint hstep =>
    have hframe := GrantsStep.roster hstep workspaceId
    exact (hframe.resolve_left (hdisjoint _ hlock)).trans hv
  | own ev hstep => exact hv

/-- The rows that were read under the lock are the rows that are there. -/
theorem Txn.Interf.mem_memberships (h : Interf grantsGuarantee a held w w')
    {m : WorkspaceMembership} (hlock : held (.workspace m.workspaceId)) :
    m ∈ w'.db.database.workspaceMemberships ↔ m ∈ w.db.database.workspaceMemberships := by
  have hroster := h.roster_eq hlock
  rw [← mem_roster, hroster, mem_roster]

end Steps

/-! ### Facts that last -/

section Extends

variable {a : Agent GrantsRequest} {w w' : GrantsWorld} {userId : Uuid} {n : ℕ}

theorem Invalidated.mono {log log' : GrantsLog} (h : Invalidated a userId n log)
    (hlog : log <:+ log') : Invalidated a userId n log' := by
  obtain ⟨d, l, hd, hrest⟩ := h
  exact ⟨d, l, hd.trans hlog, hrest⟩

theorem Outage.mono (h : Outage w) (hw : w.Extends w') : Outage w' := by
  obtain ⟨s, hs, hdown⟩ := h
  exact ⟨s, hw.since hs, hdown⟩

end Extends

end NestApi
