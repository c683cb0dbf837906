import NestApi.Auth.RefreshTokens
import NestApi.Grants.Rows

/-!
# The permission loader

Loading a user's grants through the cache, and the two ways to invalidate them. A command
that Redis does not answer is a miss for the loader and is given up by an invalidation. The
programs run on the interleaving machine, one statement or command at a time.
-/

namespace NestApi

open Txn.Program

/-- What arrives at the store: the loader, the operations that change what somebody may do
with what they decided before they write, and what happens to Redis by itself. -/
inductive GrantsRequest
  | loadGrants (userId : Uuid)
  | invalidateAllUsers
  | assignPlatformRole (userId : Uuid) (role : SeededRoleName)
  | revokePlatformRole (userId : Uuid) (role : SeededRoleName)
  | addMembership (m : WorkspaceMembership) (actorId : Uuid)
  | acceptInvitation (m : WorkspaceMembership)
  | changeRole (workspaceId membershipId actorId : Uuid) (role : SeededRoleName)
  | transition (workspaceId membershipId actorId : Uuid) (status : WorkspaceMembershipStatus)
      (endedAt : Option ℕ)
  | transferOwnership (workspaceId membershipId actorId : Uuid)
  | createWorkspace (ws : Workspace) (founder : WorkspaceMembership)
  | removeWorkspace (workspaceId actorId : Uuid) (now : ℕ)
  | endAccount (userId : Uuid) (data : UserUpdateInput)
  | gdprErase (userId : Uuid) (data : UserUpdateInput) (closed : List Uuid) (now : ℕ)
  | syncCatalog
  | expireKey (cacheKey : String)
  | switchRedis (available : Bool)
deriving DecidableEq

/-- What the programs report. -/
inductive GrantsEvent
  /-- `GET authz:epoch`, or nothing when Redis did not answer. -/
  | epochRead (epoch : Option ℕ)
  /-- A load read the database. -/
  | grantsRead (userId : Uuid) (grants : LoadedGrants)
  /-- `SET`. -/
  | grantsCached (cacheKey : String) (grants : LoadedGrants)
  /-- A load returned. -/
  | loadAnswered (userId : Uuid) (grants : LoadedGrants)
  /-- `DEL`. -/
  | keyDeleted (cacheKey : String)
  | keyExpired (cacheKey : String)
  /-- `INCR authz:epoch`. -/
  | epochIncremented
  /-- The roster of a workspace was read, to be invalidated. -/
  | rosterRead (workspaceId : Uuid) (roster : List Uuid)
  /-- An operation committed. It is going to invalidate these users. -/
  | authorityChanged (users : List Uuid)
  /-- A workspace was deleted. Its roster as it was read is going to be invalidated. -/
  | workspaceRemoved (workspaceId : Uuid) (roster : List Uuid)
  /-- An operation returned. -/
  | operationEnded
  /-- One statement of the catalog sync. -/
  | catalogSynced
  | redisSwitched (available : Bool)
deriving DecidableEq

/-- A program over the store. -/
abbrev Task (α : Type) := Txn.Program Store RowLock GrantsEvent Uuid Failure α

/-- One statement or command that takes effect at once. -/
def statement (f : Store → Store) (ev : GrantsEvent) : Task Unit :=
  transaction (modify f) fun _ => ev

namespace PermissionLoader

/-- The current epoch, or nothing when Redis could not answer. -/
def epochOf (s : Store) : Option ℕ :=
  if s.redis.available = true then some s.redis.currentEpoch else none

def readEpoch : Task (Option ℕ) :=
  selectObserved (fun s => .epochRead (epochOf s)) epochOf

/-- A failed read is a miss. -/
def readCachedGrants (cacheKey : String) : Task (Option LoadedGrants) :=
  select fun s => if s.redis.available = true then s.redis.grants cacheKey else none

/-- A command that writes. It fails without effect while Redis is not available. -/
def redisCommand (f : Store → Store) (ev : GrantsEvent) : Task Unit := do
  let available ← select fun s => s.redis.available
  onlyIf (available = true) (statement f ev)

def writeCachedGrants (cacheKey : String) (grants : LoadedGrants) : Task Unit :=
  redisCommand (fun s => s.setGrants cacheKey grants) (.grantsCached cacheKey grants)

def loadGrantsFromDatabase (userId : Uuid) : Task LoadedGrants :=
  selectObserved (fun s => .grantsRead userId (s.loadGrants userId)) fun s => s.loadGrants userId

/-- Grants for one user. Without an epoch the cache is bypassed, for reading and writing. -/
def loadGrants (userId : Uuid) : Task LoadedGrants := do
  match ← readEpoch with
  | none => loadGrantsFromDatabase userId
  | some epoch =>
    let cacheKey := buildCacheKey epoch userId
    match ← readCachedGrants cacheKey with
    | some cached => pure cached
    | none =>
      let grants ← loadGrantsFromDatabase userId
      writeCachedGrants cacheKey grants
      pure grants

/-- Delete one exact key. A failure is logged and nothing else. -/
def invalidateUser (userId : Uuid) : Task Unit := do
  match ← readEpoch with
  | none => pure ()
  | some epoch =>
    let cacheKey := buildCacheKey epoch userId
    redisCommand (fun s => s.deleteGrants cacheKey) (.keyDeleted cacheKey)

/-- Retire every cached grant with one increment. -/
def invalidateAllUsers : Task Unit :=
  redisCommand Store.incrementEpoch .epochIncremented

end PermissionLoader

end NestApi
