import Mathlib.Algebra.Order.Floor.Defs
import Mathlib.Algebra.Order.Ring.Int
import Mathlib.Data.Rat.Floor
import NestApi.Common.Expiring
import NestApi.Common.IsoDates
import NestApi.Common.Json

/-!
# Signed read URLs

A signed URL cannot be revoked. Its lifetime is clamped, and the URL is cached for half of what is
left of it. Calls run at the same time, Redis may lose, delay or refuse anything, and a signature
takes time. Times are milliseconds.
-/

namespace NestApi

/-! ### The lifetime -/

def minimumSignedUrlTtlSeconds : ℤ := 30

def maximumSignedUrlTtlSeconds : ℤ := 3600

/-- `resolveSignedUrlTtlSeconds`. A request that is not finite is none. -/
def resolveSignedUrlTtlSeconds (requestedTtlSeconds : Option ℚ) (defaultTtlSeconds : ℚ) : ℤ :=
  let candidateTtlSeconds := (requestedTtlSeconds.filter fun ttl => 0 < ttl).getD defaultTtlSeconds
  min (max ⌊candidateTtlSeconds⌋ minimumSignedUrlTtlSeconds) maximumSignedUrlTtlSeconds

theorem resolveSignedUrlTtlSeconds_bounds (requested : Option ℚ) (default : ℚ) :
    30 ≤ resolveSignedUrlTtlSeconds requested default ∧
      resolveSignedUrlTtlSeconds requested default ≤ 3600 :=
  ⟨le_min (le_max_right _ _) (by decide), min_le_right _ _⟩

/-! ### What the cache holds -/

structure SignedReadUrl where
  url : String
  expiresAt : ℕ
deriving DecidableEq

namespace SignedReadUrl

variable (dates : IsoDates)

/-- What is stored, as `JSON.parse` reads it. -/
def toJson (signed : SignedReadUrl) : Json :=
  .obj [("url", .str signed.url), ("expiresAt", .str (dates.toISOString signed.expiresAt))]

/-- `parseCached`, of a text that may be no JSON. -/
def parseCached (json : Option Json) : Option SignedReadUrl := do
  let json ← json
  let url ← (json.get? "url").bind Json.asString?
  let text ← (json.get? "expiresAt").bind Json.asString?
  let expiresAt ← dates.parse text
  some ⟨url, expiresAt⟩

theorem parseCached_toJson (signed : SignedReadUrl) :
    parseCached dates (some (signed.toJson dates)) = some signed := by
  simp [parseCached, toJson, Json.get?, Json.asString?, dates.parse_toISOString]

end SignedReadUrl

/-! ### Calls -/

/-- A URL that the storage has signed: for how long it is honoured. -/
structure Minted where
  storageKey : String
  url : String
  signedAt : ℕ
  validUntil : ℕ
deriving DecidableEq

/-- A write to the cache: the URL, when its lifetime there was computed, and that lifetime. -/
structure CacheWrite where
  storageKey : String
  signed : SignedReadUrl
  computedAt : ℕ
  ttlSeconds : ℕ
deriving DecidableEq

/-- Where an answer is from. -/
inductive UrlSource
  | cache
  | storage
deriving DecidableEq

/-- A call of `signedReadUrlFor`. -/
inductive UrlCall
  | reading (storageKey : String)
  /-- The expiry is stamped, and the storage is asked to sign. -/
  | signing (storageKey : String) (stampedAt : ℕ)
  /-- The storage has signed, and the answer is on its way. -/
  | signed (storageKey : String) (signed : SignedReadUrl)
  /-- The write is on its way. -/
  | writing (storageKey : String) (signed : SignedReadUrl)
  | returned (storageKey : String) (signed : SignedReadUrl) (source : UrlSource) (time : ℕ)
  | threw
deriving DecidableEq

/-- The clock, the cache, the calls, the writes that may still land, and what has happened. -/
structure UrlState where
  now : ℕ := 0
  cache : ExpiringMap String (Option Json) := fun _ => none
  calls : ℕ → Option UrlCall := fun _ => none
  pending : List CacheWrite := []
  minted : List Minted := []
  landed : List (CacheWrite × ℕ) := []

inductive UrlAction
  | tick (milliseconds : ℕ)
  | call (id : ℕ) (storageKey : String)
  /-- The cache is asked, in vain when Redis is down. -/
  | get (id : ℕ) (redisIsUp : Bool)
  | sign (id : ℕ) (url : String)
  | receive (id : ℕ)
  /-- The storage fails or takes too long. -/
  | fail (id : ℕ)
  /-- The write is answered, or given up. -/
  | finish (id : ℕ)
  /-- Redis carries out a write, at some time. -/
  | land (write : CacheWrite)
  | lose (write : CacheWrite)
  | evict (storageKey : String)
  /-- An entry that this version cannot read. -/
  | tamper (storageKey : String) (json : Option Json) (expiry : ℕ)

namespace UrlState

variable (dates : IsoDates) (defaultTtlSeconds : ℚ) (s : UrlState)

def setCall (id : ℕ) (call : UrlCall) : UrlState :=
  { s with calls := Function.update s.calls id (some call) }

theorem setCall_calls {id other : ℕ} {call : UrlCall} : (s.setCall id call).calls other =
    if other = id then some call else s.calls other := Function.update_apply ..

/-- `Math.floor((expiresAt - now) / 2000)`. -/
def cacheTtlSeconds (expiresAt : ℕ) : ℤ := ((expiresAt : ℤ) - s.now) / 2000

/-- The lifetime of a URL, which `signedReadUrlFor` leaves to the default. -/
def ttlMilliseconds : ℕ := 1000 * (resolveSignedUrlTtlSeconds none defaultTtlSeconds).toNat

/-- What happens, when it can. A signed URL is honoured for its lifetime. -/
def exec (s : UrlState) : UrlAction → Option UrlState
  | .tick milliseconds => some { s with now := s.now + milliseconds }
  | .call id storageKey =>
    if (s.calls id).isNone then some (s.setCall id (.reading storageKey)) else none
  | .get id redisIsUp =>
    match s.calls id with
    | some (.reading storageKey) =>
      let cached := if redisIsUp then s.cache.get? s.now storageKey else none
      match cached.bind (SignedReadUrl.parseCached dates) with
      | some fromCache => some (s.setCall id (.returned storageKey fromCache .cache s.now))
      | none => some (s.setCall id (.signing storageKey s.now))
    | _ => none
  | .sign id url =>
    match s.calls id with
    | some (.signing storageKey stampedAt) =>
      let ttl := ttlMilliseconds defaultTtlSeconds
      some { s.setCall id (.signed storageKey ⟨url, stampedAt + ttl⟩) with
        minted := ⟨storageKey, url, s.now, s.now + ttl⟩ :: s.minted }
    | _ => none
  | .receive id =>
    match s.calls id with
    | some (.signed storageKey signed) =>
      if s.cacheTtlSeconds signed.expiresAt > 0 then
        some { s.setCall id (.writing storageKey signed) with
          pending := ⟨storageKey, signed, s.now, (s.cacheTtlSeconds signed.expiresAt).toNat⟩ ::
            s.pending }
      else some (s.setCall id (.returned storageKey signed .storage s.now))
    | _ => none
  | .fail id =>
    match s.calls id with
    | some (.signing _ _) | some (.signed _ _) => some (s.setCall id .threw)
    | _ => none
  | .finish id =>
    match s.calls id with
    | some (.writing storageKey signed) =>
      some (s.setCall id (.returned storageKey signed .storage s.now))
    | _ => none
  | .land write =>
    if write ∈ s.pending then
      some { s with
        pending := s.pending.erase write
        cache := s.cache.set write.storageKey (some (write.signed.toJson dates))
          (s.now + 1000 * write.ttlSeconds)
        landed := (write, s.now) :: s.landed }
    else none
  | .lose write =>
    if write ∈ s.pending then some { s with pending := s.pending.erase write } else none
  | .evict storageKey => some { s with cache := s.cache.evict storageKey }
  | .tamper storageKey json expiry =>
    if SignedReadUrl.parseCached dates json = none then
      some { s with cache := s.cache.set storageKey json expiry }
    else none

end UrlState

end NestApi
