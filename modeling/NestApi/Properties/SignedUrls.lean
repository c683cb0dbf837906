import NestApi.Storage.SignedReadUrls
import NestApi.Txn.Automaton

/-!
# The signed URLs that are handed out

Whatever Redis does: an answer is a URL that the storage has signed for the key that was asked
for, and that it honours at least until the time the answer names. An answer from the cache has
half of the life that was left when the URL was signed, less the time that its write took.
-/

namespace NestApi

open Txn UrlState

variable {dates : IsoDates} {defaultTtlSeconds : ℚ} {s s' : UrlState} {as : List UrlAction}
  {storageKey : String} {answer signed : SignedReadUrl} {call : UrlCall} {time : ℕ}

/-! ### What holds in every state -/

namespace UrlState

/-- The storage has signed this URL for the key, and honours it until the answer expires. -/
def Honours (s : UrlState) (storageKey : String) (answer : SignedReadUrl) : Prop :=
  ∃ m ∈ s.minted, m.storageKey = storageKey ∧ m.url = answer.url ∧ m.signedAt ≤ s.now ∧
    answer.expiresAt ≤ m.validUntil ∧ m.validUntil ≤ m.signedAt + 3600000

/-- A write of this answer has landed, and its entry had not expired. -/
def Cached (s : UrlState) (storageKey : String) (answer : SignedReadUrl) (time : ℕ) : Prop :=
  ∃ write landedAt, (write, landedAt) ∈ s.landed ∧ write.storageKey = storageKey ∧
    write.signed = answer ∧ time < landedAt + 1000 * write.ttlSeconds

/-- What holds of a call. -/
def Accounts (s : UrlState) : UrlCall → Prop
  | .reading _ | .threw => True
  | .signing _ stampedAt => stampedAt ≤ s.now
  | .signed storageKey signed | .writing storageKey signed => s.Honours storageKey signed
  | .returned storageKey answer source time =>
    s.Honours storageKey answer ∧ (source = .cache → s.Cached storageKey answer time)

/-- What holds of a write that was computed before a time: its entry keeps half of the life. -/
structure Writes (s : UrlState) (write : CacheWrite) (time : ℕ) : Prop where
  honours : s.Honours write.storageKey write.signed
  computedAt : write.computedAt ≤ time
  half : write.computedAt + 2000 * write.ttlSeconds ≤ write.signed.expiresAt

structure Sound (dates : IsoDates) (s : UrlState) : Prop where
  calls : ∀ id call, s.calls id = some call → s.Accounts call
  pending : ∀ write ∈ s.pending, s.Writes write s.now
  landed : ∀ entry ∈ s.landed, s.Writes entry.1 entry.2
  /-- What can be read in the cache has landed. -/
  cache : ∀ key json expiry, s.cache key = some (json, expiry) →
    SignedReadUrl.parseCached dates json = none ∨
      ∃ write landedAt, (write, landedAt) ∈ s.landed ∧ write.storageKey = key ∧
        json = some (write.signed.toJson dates) ∧ expiry = landedAt + 1000 * write.ttlSeconds

/-- Time passes, and what has happened stays so. -/
structure Extends (s s' : UrlState) : Prop where
  now : s.now ≤ s'.now
  minted : s.minted ⊆ s'.minted
  landed : s.landed ⊆ s'.landed

theorem extends_setCall (s : UrlState) (id : ℕ) (call : UrlCall) :
    s.Extends (s.setCall id call) := ⟨le_rfl, List.Subset.refl _, List.Subset.refl _⟩

theorem Honours.mono (h : s.Honours storageKey answer) (hs : s.Extends s') :
    s'.Honours storageKey answer := by
  obtain ⟨m, hm, hkey, hurl, hsigned, hvalid⟩ := h
  exact ⟨m, hs.minted hm, hkey, hurl, hsigned.trans hs.now, hvalid⟩

theorem Cached.mono (h : s.Cached storageKey answer time) (hs : s.Extends s') :
    s'.Cached storageKey answer time := by
  obtain ⟨write, landedAt, hmem, hwrite⟩ := h
  exact ⟨write, landedAt, hs.landed hmem, hwrite⟩

theorem Accounts.mono (h : s.Accounts call) (hs : s.Extends s') : s'.Accounts call := by
  cases call with
  | reading _ => trivial
  | threw => trivial
  | signing _ stampedAt => exact le_trans h hs.now
  | signed storageKey signed => exact Honours.mono h hs
  | writing storageKey signed => exact Honours.mono h hs
  | returned storageKey answer source time =>
    exact ⟨h.1.mono hs, fun hcache => (h.2 hcache).mono hs⟩

theorem Writes.mono {write : CacheWrite} {time' : ℕ} (h : s.Writes write time)
    (hs : s.Extends s') (htime : time ≤ time') : s'.Writes write time' :=
  ⟨h.honours.mono hs, h.computedAt.trans htime, h.half⟩

namespace Sound

/-- A step of one call. -/
theorem setCall (h : s.Sound dates) (id : ℕ) (hcall : s.Accounts call) :
    (s.setCall id call).Sound dates where
  calls other call' hother := by
    rw [setCall_calls] at hother
    split at hother
    · exact (Option.some.inj hother ▸ hcall).mono (extends_setCall s id call)
    · exact (h.calls other call' hother).mono (extends_setCall s id call)
  pending write hwrite := (h.pending write hwrite).mono (extends_setCall s id call) le_rfl
  landed entry hentry := (h.landed entry hentry).mono (extends_setCall s id call) le_rfl
  cache := h.cache

/-- A state with more of a past, the same calls, and writes and entries that are accounted for. -/
theorem step (h : s.Sound dates) (hs : s.Extends s') (hcalls : s'.calls = s.calls)
    (hpending : ∀ write ∈ s'.pending, write ∈ s.pending ∨ s'.Writes write s'.now)
    (hlanded : ∀ entry ∈ s'.landed, entry ∈ s.landed ∨ s'.Writes entry.1 entry.2)
    (hcache : ∀ key json expiry, s'.cache key = some (json, expiry) →
      s.cache key = some (json, expiry) ∨ SignedReadUrl.parseCached dates json = none ∨
        ∃ write landedAt, (write, landedAt) ∈ s'.landed ∧ write.storageKey = key ∧
          json = some (write.signed.toJson dates) ∧
          expiry = landedAt + 1000 * write.ttlSeconds) : s'.Sound dates where
  calls id call hcall := by
    rw [hcalls] at hcall
    exact (h.calls id call hcall).mono hs
  pending write hwrite := by
    rcases hpending write hwrite with hold | hnew
    · exact (h.pending write hold).mono hs hs.now
    · exact hnew
  landed entry hentry := by
    rcases hlanded entry hentry with hold | hnew
    · exact (h.landed entry hold).mono hs le_rfl
    · exact hnew
  cache key json expiry hentry := by
    rcases hcache key json expiry hentry with hold | hnew
    · rcases h.cache key json expiry hold with hnone | ⟨write, landedAt, hmem, hwrite⟩
      · exact .inl hnone
      · exact .inr ⟨write, landedAt, hs.landed hmem, hwrite⟩
    · exact hnew

theorem empty : ({} : UrlState).Sound dates where
  calls _ _ h := by cases h
  pending _ h := by cases h
  landed _ h := by cases h
  cache _ _ _ h := by cases h

/-- What is read from the cache has landed, and is honoured. -/
theorem of_get (h : s.Sound dates) {redisIsUp : Bool}
    (hread : (if redisIsUp then s.cache.get? s.now storageKey else none).bind
      (SignedReadUrl.parseCached dates) = some answer) :
    s.Honours storageKey answer ∧ s.Cached storageKey answer s.now := by
  obtain ⟨json, hjson, hparse⟩ := Option.bind_eq_some_iff.mp hread
  split at hjson
  · obtain ⟨expiry, hentry, hlt⟩ := ExpiringMap.get?_eq_some.mp hjson
    rcases h.cache storageKey json expiry hentry with
      hnone | ⟨write, landedAt, hmem, hkey, rfl, rfl⟩
    · rw [hnone] at hparse
      cases hparse
    · rw [SignedReadUrl.parseCached_toJson] at hparse
      obtain rfl := Option.some.inj hparse
      exact ⟨hkey ▸ (h.landed _ hmem).honours, write, landedAt, hmem, hkey, rfl, hlt⟩
  · cases hjson

theorem ttlMilliseconds_le : ttlMilliseconds defaultTtlSeconds ≤ 3600000 := by
  have hbound := (resolveSignedUrlTtlSeconds_bounds none defaultTtlSeconds).2
  unfold ttlMilliseconds
  omega

/-- The storage signs a URL. -/
theorem mint (h : s.Sound dates) (storageKey url : String) {stampedAt : ℕ}
    (hstamped : stampedAt ≤ s.now) :
    (({ s with minted := ⟨storageKey, url, s.now,
        s.now + ttlMilliseconds defaultTtlSeconds⟩ :: s.minted } : UrlState).Sound dates) ∧
      ({ s with minted := ⟨storageKey, url, s.now,
        s.now + ttlMilliseconds defaultTtlSeconds⟩ :: s.minted } : UrlState).Honours storageKey
          ⟨url, stampedAt + ttlMilliseconds defaultTtlSeconds⟩ := by
  have hs : s.Extends { s with minted := ⟨storageKey, url, s.now,
      s.now + ttlMilliseconds defaultTtlSeconds⟩ :: s.minted } :=
    ⟨le_rfl, List.subset_cons_self _ _, List.Subset.refl _⟩
  refine ⟨h.step hs rfl (fun _ hw => .inl hw) (fun _ he => .inl he) fun _ _ _ he => .inl he,
    _, List.mem_cons_self, rfl, rfl, le_rfl, ?_, ?_⟩
  · exact Nat.add_le_add_right hstamped _
  · exact Nat.add_le_add_left ttlMilliseconds_le _

/-- A write is sent whose entry lives for half of what is left. -/
theorem send (h : s.Sound dates) (hsigned : s.Honours storageKey signed)
    (hpositive : s.cacheTtlSeconds signed.expiresAt > 0) :
    ({ s with pending := ⟨storageKey, signed, s.now,
      (s.cacheTtlSeconds signed.expiresAt).toNat⟩ :: s.pending } : UrlState).Sound dates := by
  have hs : s.Extends { s with pending := ⟨storageKey, signed, s.now,
      (s.cacheTtlSeconds signed.expiresAt).toNat⟩ :: s.pending } :=
    ⟨le_rfl, List.Subset.refl _, List.Subset.refl _⟩
  refine h.step hs rfl (fun write hwrite => ?_) (fun _ he => .inl he) fun _ _ _ he => .inl he
  rcases List.mem_cons.mp hwrite with rfl | hold
  · refine .inr ⟨hsigned.mono hs, le_rfl, ?_⟩
    have hdiv : 2000 * s.cacheTtlSeconds signed.expiresAt ≤ (signed.expiresAt : ℤ) - s.now := by
      unfold cacheTtlSeconds
      omega
    simp only
    omega
  · exact .inl hold

/-- A write lands. -/
theorem land (h : s.Sound dates) {write : CacheWrite} (hwrite : write ∈ s.pending) :
    ({ s with
      pending := s.pending.erase write
      cache := s.cache.set write.storageKey (some (write.signed.toJson dates))
        (s.now + 1000 * write.ttlSeconds)
      landed := (write, s.now) :: s.landed } : UrlState).Sound dates := by
  have hs : s.Extends { s with
      pending := s.pending.erase write
      cache := s.cache.set write.storageKey (some (write.signed.toJson dates))
        (s.now + 1000 * write.ttlSeconds)
      landed := (write, s.now) :: s.landed } :=
    ⟨le_rfl, List.Subset.refl _, List.subset_cons_self _ _⟩
  refine h.step hs rfl (fun w hw => .inl (List.mem_of_mem_erase hw)) (fun entry hentry => ?_)
    fun key json expiry hentry => ?_
  · rcases List.mem_cons.mp hentry with rfl | hold
    · exact .inr ((h.pending write hwrite).mono hs le_rfl)
    · exact .inl hold
  · rcases ExpiringMap.of_set hentry with ⟨rfl, rfl, rfl⟩ | hold
    · exact .inr (.inr ⟨write, s.now, List.mem_cons_self, rfl, rfl, rfl⟩)
    · exact .inl hold

/-- The step: whatever happens keeps the state sound. -/
theorem exec (h : s.Sound dates) (action : UrlAction)
    (hstep : UrlState.exec dates defaultTtlSeconds s action = some s') : s'.Sound dates := by
  cases action with
  | tick milliseconds =>
    obtain rfl := Option.some.inj hstep
    have hs : s.Extends { s with now := s.now + milliseconds } :=
      ⟨Nat.le_add_right _ _, List.Subset.refl _, List.Subset.refl _⟩
    exact h.step hs rfl (fun _ hw => .inl hw) (fun _ he => .inl he) fun _ _ _ he => .inl he
  | call id key =>
    simp only [UrlState.exec, Option.ite_none_right_eq_some] at hstep
    obtain rfl := Option.some.inj hstep.2
    exact h.setCall id trivial
  | get id redisIsUp =>
    simp only [UrlState.exec] at hstep
    split at hstep
    · next key _ =>
      split at hstep
      · next answer hread =>
        obtain rfl := Option.some.inj hstep
        obtain ⟨hhonours, hcached⟩ := h.of_get hread
        exact h.setCall id ⟨hhonours, fun _ => hcached⟩
      · obtain rfl := Option.some.inj hstep
        exact h.setCall id le_rfl
    · cases hstep
  | sign id url =>
    simp only [UrlState.exec] at hstep
    split at hstep
    · next key stampedAt hcall =>
      obtain rfl := Option.some.inj hstep
      obtain ⟨hsound, hhonours⟩ := h.mint key url (h.calls id _ hcall)
      exact hsound.setCall id hhonours
    · cases hstep
  | receive id =>
    simp only [UrlState.exec] at hstep
    split at hstep
    · next key signed hcall =>
      have hsigned := h.calls id _ hcall
      split at hstep
      · next hpositive =>
        obtain rfl := Option.some.inj hstep
        exact (h.send hsigned hpositive).setCall id hsigned
      · obtain rfl := Option.some.inj hstep
        exact h.setCall id ⟨hsigned, fun hsource => absurd hsource (by decide)⟩
    · cases hstep
  | fail id =>
    simp only [UrlState.exec] at hstep
    split at hstep
    · obtain rfl := Option.some.inj hstep
      exact h.setCall id trivial
    · obtain rfl := Option.some.inj hstep
      exact h.setCall id trivial
    · cases hstep
  | finish id =>
    simp only [UrlState.exec] at hstep
    split at hstep
    · next key signed hcall =>
      obtain rfl := Option.some.inj hstep
      have hsigned := h.calls id _ hcall
      exact h.setCall id ⟨hsigned, fun hsource => absurd hsource (by decide)⟩
    · cases hstep
  | land write =>
    simp only [UrlState.exec, Option.ite_none_right_eq_some] at hstep
    obtain rfl := Option.some.inj hstep.2
    exact h.land hstep.1
  | lose write =>
    simp only [UrlState.exec, Option.ite_none_right_eq_some] at hstep
    obtain rfl := Option.some.inj hstep.2
    have hs : s.Extends { s with pending := s.pending.erase write } :=
      ⟨le_rfl, List.Subset.refl _, List.Subset.refl _⟩
    exact h.step hs rfl (fun _ hw => .inl (List.mem_of_mem_erase hw)) (fun _ he => .inl he)
      fun _ _ _ he => .inl he
  | evict key =>
    obtain rfl := Option.some.inj hstep
    have hs : s.Extends { s with cache := s.cache.evict key } :=
      ⟨le_rfl, List.Subset.refl _, List.Subset.refl _⟩
    exact h.step hs rfl (fun _ hw => .inl hw) (fun _ he => .inl he)
      fun _ _ _ he => .inl (ExpiringMap.of_evict he)
  | tamper key json expiry =>
    simp only [UrlState.exec, Option.ite_none_right_eq_some] at hstep
    obtain ⟨hunreadable, hs'⟩ := hstep
    obtain rfl := Option.some.inj hs'
    have hs : s.Extends { s with cache := s.cache.set key json expiry } :=
      ⟨le_rfl, List.Subset.refl _, List.Subset.refl _⟩
    refine h.step hs rfl (fun _ hw => .inl hw) (fun _ he => .inl he) fun _ _ _ he => ?_
    rcases ExpiringMap.of_set he with ⟨-, rfl, -⟩ | hold
    · exact .inr (.inl hunreadable)
    · exact .inl hold

theorem run (hrun : Txn.run (UrlState.exec dates defaultTtlSeconds) {} as = some s) :
    s.Sound dates :=
  run_induction (P := Sound dates) (fun _ action _ h => h.exec action) empty hrun

end Sound

end UrlState

/-- A URL is signed and cached, and a second call has it from the cache. -/
def sampleCalls : List UrlAction :=
  [.call 0 "k", .get 0 true, .sign 0 "https://signed/k", .receive 0,
    .land ⟨"k", ⟨"https://signed/k", 300000⟩, 0, 150⟩, .finish 0, .tick 100000,
    .call 1 "k", .get 1 true]

/-- An answer from the cache has more than half of the life that was left when it was computed how
long to cache it, less the time from then until the write landed. -/
theorem cached_urls_keep_half
    (hrun : run (UrlState.exec dates defaultTtlSeconds) {} as = some s) {id : ℕ}
    (hcall : s.calls id = some (.returned storageKey answer .cache time)) :
    ∃ write landedAt, (write, landedAt) ∈ s.landed ∧ write.storageKey = storageKey ∧
      write.signed = answer ∧ write.computedAt ≤ landedAt ∧
      ((answer.expiresAt : ℤ) - write.computedAt) - 2 * ((landedAt : ℤ) - write.computedAt) <
        2 * ((answer.expiresAt : ℤ) - time) := by
  have hsound := UrlState.Sound.run hrun
  obtain ⟨write, landedAt, hmem, hkey, rfl, hlt⟩ := (hsound.calls id _ hcall).2 rfl
  have hwrites := hsound.landed _ hmem
  have hhalf := hwrites.half
  refine ⟨write, landedAt, hmem, hkey, rfl, hwrites.computedAt, ?_⟩
  simp only at hhalf
  omega

theorem cached_urls_keep_half_cached : ∃ s,
    run (UrlState.exec sampleDates 300) {} sampleCalls = some s ∧
    ∃ write landedAt, (write, landedAt) ∈ s.landed ∧ write.storageKey = "k" ∧
      write.signed = ⟨"https://signed/k", 300000⟩ ∧ write.computedAt ≤ landedAt ∧
      (((300000 : ℕ) : ℤ) - write.computedAt) - 2 * ((landedAt : ℤ) - write.computedAt) <
        2 * (((300000 : ℕ) : ℤ) - (100000 : ℕ)) := by
  have hsample : ∃ s ∈ run (UrlState.exec sampleDates 300) {} sampleCalls,
      s.calls 1 = some (.returned "k" ⟨"https://signed/k", 300000⟩ .cache 100000) := by
    decide +kernel
  obtain ⟨s, hrun, hcall⟩ := hsample
  exact ⟨s, hrun, cached_urls_keep_half hrun hcall⟩

end NestApi
