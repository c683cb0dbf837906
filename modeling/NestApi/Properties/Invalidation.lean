import NestApi.Grants.Runs

/-!
# What an invalidation retires

The epoch is read before the database and is part of the key that is written afterwards, so
one increment retires whatever was read before it, also what is still in flight. Deleting
one key does not do that: a load that read before the operation's commit can write after
its deletion. Without such a write, everybody who starts to load after the deletion gets
grants that were read after the commit.
-/

namespace NestApi

open Txn

variable {Allowed : GrantsRequest → Prop} {init : Store} {σ : GrantsConfig}
  {l m : GrantsLog} {e : Entry Store GrantsEvent GrantsRequest} {userId : Uuid}
  {grants : LoadedGrants} {n : ℕ}

/-- After the first `n` entries and a further one, a load of this user read these grants. -/
def ReadSince (n : ℕ) (answer : Uuid × LoadedGrants) (log : GrantsLog) : Prop :=
  SomeEntry (fun r i => n < i.length ∧ r.event = .grantsRead answer.1 answer.2) log

instance (n : ℕ) (answer : Uuid × LoadedGrants) (log : GrantsLog) :
    Decidable (ReadSince n answer log) := inferInstanceAs (Decidable (SomeEntry _ log))

theorem readSince_of {r : Entry Store GrantsEvent GrantsRequest} {i : GrantsLog}
    (hr : (r :: i) <:+ l) (hn : n < i.length) (hread : r.event = .grantsRead userId grants) :
    ReadSince n (userId, grants) l :=
  someEntry_iff.mpr ⟨r, i, hr, hn, hread⟩

theorem eq_of_answer? {ev : GrantsEvent} {answer : Uuid × LoadedGrants}
    (h : answer ∈ ev.answer?) : ev = .loadAnswered answer.1 answer.2 := by
  cases ev with
  | loadAnswered userId grants =>
    obtain rfl : (userId, grants) = answer := by simpa [GrantsEvent.answer?] using h
    rfl
  | _ => simp [GrantsEvent.answer?] at h

theorem eq_of_epoch? {ev : GrantsEvent} (h : n ∈ ev.epoch?) : ev = .epochRead (some n) := by
  cases ev with
  | epochRead epoch =>
    obtain rfl : epoch = some n := by simpa [GrantsEvent.epoch?] using h
    rfl
  | _ => simp [GrantsEvent.epoch?] at h

/-- A process that has done nothing in the first entries begins after them. -/
theorem start_after {x b : Entry Store GrantsEvent GrantsRequest} {k j : GrantsLog}
    (hx : (x :: k) <:+ l) (hb : (b :: j) <:+ l) (hagent : x.agent = e.agent)
    (hnone : ∀ y ∈ j, y.agent ≠ e.agent) (hne : x.event ≠ b.event) : j.length < k.length := by
  rcases Nat.lt_trichotomy k.length j.length with hlt | heq | hgt
  · have hmem : x ∈ j := (before_of_length_lt hx hb hlt).subset List.mem_cons_self
    exact absurd hagent (hnone x hmem)
  · obtain ⟨rfl, -⟩ := eq_of_length_eq hx hb heq
    exact absurd rfl hne
  · exact hgt

/-- What is found under the key of an epoch was written by a load that read the database in
that epoch or later, and it has been there since. -/
theorem GrantsRunsTo.source (h : GrantsRunsTo Allowed init σ) (hl : l <:+ σ.world.log)
    (hfound : (stateOf init l).redis.grants (buildCacheKey n userId) = some grants) :
    ∃ y k r i, (y :: k) <:+ l ∧ y.event = .grantsCached (buildCacheKey n userId) grants ∧
      y.agent.req = .loadGrants userId ∧
      (∀ m, (y :: k) <:+ m → m <:+ l →
        (stateOf init m).redis.grants (buildCacheKey n userId) = some grants) ∧
      (r :: i) <:+ k ∧ r.agent = y.agent ∧ r.event = .grantsRead userId grants ∧
        n ≤ (stateOf init i).redis.currentEpoch := by
  obtain ⟨y, k, hy, hcached, hsince⟩ := h.cached hl hfound
  obtain ⟨hreq, r, i, hr, hagent, hread, hepoch⟩ := h.writer (hy.trans hl) hcached
  exact ⟨y, k, r, i, hy, hcached, hreq, hsince, hr, hagent, hread, hepoch⟩

/-! ### All users -/

/-- Who starts to load after the epoch was incremented gets grants that were read after it. -/
def GlobalInvalidationSound (log : GrantsLog) : Prop :=
  EveryEntry (fun e l => ∀ answer ∈ e.event.answer?,
    EveryEntry (fun b k => b.event = .epochIncremented → (∀ x ∈ k, x.agent ≠ e.agent) →
      ReadSince k.length answer l) l) log

/-- One increment retires everything that was read before it, whatever is in flight and
whichever commands fail. -/
theorem globalInvalidation_sound (hrun : GrantsRunsTo Allowed init σ) :
    GlobalInvalidationSound σ.world.log := by
  refine everyEntry_iff.mpr fun e l hl answer hanswer => ?_
  refine everyEntry_iff.mpr fun b k hb hincrement hnone => ?_
  obtain ⟨userId, grants⟩ := answer
  have hlog := (List.suffix_cons e l).trans hl
  obtain ⟨x, i, hx, hagent, ⟨epoch, hepoch⟩, hsource⟩ :=
    hrun.answered hl (eq_of_answer? hanswer)
  have hstart : k.length < i.length :=
    start_after hx hb hagent hnone (by rw [hepoch, hincrement]; simp)
  rcases hsource with ⟨r, j, hr, hlength, hread⟩ | ⟨n, m, rfl, hm, hlength, hfound⟩
  · exact readSince_of hr (hstart.trans hlength) hread
  · obtain ⟨y, ky, r, j, hy, -, -, -, hr, -, hread, hle⟩ := hrun.source (hm.trans hlog) hfound
    refine readSince_of (hr.trans ((List.suffix_cons y ky).trans (hy.trans hm))) ?_ hread
    -- the epoch of the key began with the increment or later, and the read came in it
    by_contra hearlier
    have hj : j <:+ k := by
      refine List.suffix_of_suffix_length_le ?_ ((List.suffix_cons b k).trans hb)
        (Nat.le_of_not_lt hearlier)
      exact ((List.suffix_cons r j).trans hr).trans
        ((List.suffix_cons y ky).trans (hy.trans hm))
    have hbefore := hrun.currentEpoch_le hj ((List.suffix_cons b k).trans (hb.trans hlog))
    have hafter := hrun.currentEpoch_le (before_of_length_lt hb hx hstart)
      ((List.suffix_cons x i).trans (hx.trans hlog))
    have hbump : (stateOf init (b :: k)).redis.currentEpoch =
        (stateOf init k).redis.currentEpoch + 1 := by
      obtain ⟨w, L, rfl, rfl, hstep⟩ := hrun.entry (hb.trans hlog)
      obtain ⟨b, ev, s⟩ := b
      obtain rfl : ev = .epochIncremented := hincrement
      cases hstep
      rfl
    omega

/-- A load misses and reads; the epoch is incremented; the load writes under the old epoch,
and the next one reads again. -/
def incrementInFlight : List (Order GrantsRequest) :=
  [.serve 1 (.loadGrants "ann"), .proceed 1, .proceed 1, .serve 2 .invalidateAllUsers,
    .proceed 2, .proceed 1, .proceed 1, .serve 3 (.loadGrants "ann"), .proceed 3, .proceed 3,
    .proceed 3, .proceed 3]

theorem globalInvalidation_sound_incrementInFlight :
    GlobalInvalidationSound (Sample.performGrants
      (Sample.store (Sample.database [("ann", .workspaceStaff)] [])) incrementInFlight).world.log :=
  globalInvalidation_sound
    (Sample.grantsRunsTo_allowed _ (fun _ _ _ _ => trivial : ∀ o ∈ incrementInFlight,
      ∀ req ∈ o.request, True))

/-! ### One user -/

/-- The entry ends a call of `invalidateUser` that began after the first `n` entries and a
further one: the process read the epoch, and deletes the key of the user in it. -/
def EndsInvalidation (n : ℕ) (userId : Uuid) (d : Entry Store GrantsEvent GrantsRequest)
    (log : GrantsLog) : Prop :=
  SomeEntry (fun r k => n < k.length ∧ r.agent = d.agent ∧
    ∃ epoch ∈ r.event.epoch?, d.event = .keyDeleted (buildCacheKey epoch userId)) log

instance (n : ℕ) (userId : Uuid) (d : Entry Store GrantsEvent GrantsRequest) (log : GrantsLog) :
    Decidable (EndsInvalidation n userId d log) := inferInstanceAs (Decidable (SomeEntry _ log))

/-- An operation commits, and its process then invalidates a user. Who starts to load this
user after that gets grants that were read after the commit. -/
def UserInvalidationKept (log : GrantsLog) : Prop :=
  EveryEntry (fun e l => ∀ answer ∈ e.event.answer?,
    EveryEntry (fun d m => (∀ x ∈ m, x.agent ≠ e.agent) →
      EveryEntry (fun c j => c.agent = d.agent ∧ c.event.IsChange ∧
        EndsInvalidation j.length answer.1 d m → ReadSince j.length answer l) m) l) log

instance (log : GrantsLog) : Decidable (UserInvalidationKept log) :=
  inferInstanceAs (Decidable (EveryEntry _ log))

/-- An operation of `b` committed after a load of `a` had read the database. -/
def ChangedSinceRead (a b : Agent GrantsRequest) (log : GrantsLog) : Prop :=
  SomeEntry (fun c j => c.agent = b ∧ c.event.IsChange ∧
    ∃ x ∈ j, x.agent = a ∧ x.event.IsGrantsRead) log

instance (a b : Agent GrantsRequest) (log : GrantsLog) : Decidable (ChangedSinceRead a b log) :=
  inferInstanceAs (Decidable (SomeEntry _ log))

/-- No load writes a key after an operation has deleted it, unless it read the database after
the commit of that operation. -/
def NoLateWrite (log : GrantsLog) : Prop :=
  EveryEntry (fun y l => ∀ cacheKey ∈ y.event.written?,
    EveryEntry (fun d m => d.event = .keyDeleted cacheKey →
      ¬ ChangedSinceRead y.agent d.agent m) l) log

instance (log : GrantsLog) : Decidable (NoLateWrite log) :=
  inferInstanceAs (Decidable (EveryEntry _ log))

/-- A write of the key came before every deletion that an operation made after its commit, if
it rests on an earlier read. -/
theorem NoLateWrite.not_between (h : NoLateWrite l)
    {y d c r : Entry Store GrantsEvent GrantsRequest}
    {ky kd j i : GrantsLog} {cacheKey : String} (hy : (y :: ky) <:+ l)
    (hcached : y.event = .grantsCached cacheKey grants) (hd : (d :: kd) <:+ ky)
    (hdeleted : d.event = .keyDeleted cacheKey) (hc : (c :: j) <:+ kd) (hagent : c.agent = d.agent)
    (hchange : c.event.IsChange) (hr : (r :: i) <:+ ky) (hown : r.agent = y.agent)
    (hread : r.event = .grantsRead userId grants) : j.length < i.length := by
  by_contra hearlier
  have hcky := hc.trans ((List.suffix_cons d kd).trans hd)
  rcases Nat.lt_or_eq_of_le (Nat.le_of_not_lt hearlier) with hlt | heq
  · have hmem : r ∈ j := (before_of_length_lt hr hcky hlt).subset List.mem_cons_self
    have hchanged : ChangedSinceRead y.agent d.agent kd :=
      someEntry_iff.mpr ⟨c, j, hc, hagent, hchange, r, hmem, hown, by
        simp [hread, GrantsEvent.IsGrantsRead]⟩
    have hwrite := everyEntry_iff.mp h y ky hy cacheKey (by simp [hcached, GrantsEvent.written?])
    exact everyEntry_iff.mp hwrite d kd hd hdeleted hchanged
  · obtain ⟨rfl, -⟩ := eq_of_length_eq hr hcky heq
    simp [hread, GrantsEvent.IsChange, GrantsEvent.users?] at hchange

/-- Without a late write, an invalidation is not lost. -/
theorem userInvalidation_of_noLateWrite (hrun : GrantsRunsTo Allowed init σ)
    (hlate : NoLateWrite σ.world.log) : UserInvalidationKept σ.world.log := by
  refine everyEntry_iff.mpr fun e l hl answer hanswer => ?_
  refine everyEntry_iff.mpr fun d m hd hnone => ?_
  refine everyEntry_iff.mpr fun c j hc ⟨hcagent, hchange, hends⟩ => ?_
  obtain ⟨r, k, hr, hjk, hragent, epoch, hepoch, hdeleted⟩ := someEntry_iff.mp hends
  obtain ⟨userId, grants⟩ := answer
  have hlog := (List.suffix_cons e l).trans hl
  have hrl := hr.trans ((List.suffix_cons d m).trans hd)
  have hcl := hc.trans ((List.suffix_cons d m).trans hd)
  obtain ⟨x, i, hx, hagent, ⟨o, ho⟩, hsource⟩ := hrun.answered hl (eq_of_answer? hanswer)
  have hstart : m.length < i.length :=
    start_after hx hd hagent hnone (by rw [ho, hdeleted]; simp)
  have hkm := length_lt_of_before hr
  rcases hsource with ⟨ρ, i', hρ, hlength, hread⟩ | ⟨n, s, rfl, hs, hlength, hfound⟩
  · exact readSince_of hρ (by omega) hread
  · obtain ⟨y, ky, ρ, i', hy, hcached, -, hsince, hρ, hown, hread, hle⟩ :=
      hrun.source (hs.trans hlog) hfound
    have hyl := hy.trans hs
    have hρl := hρ.trans ((List.suffix_cons y ky).trans hyl)
    refine readSince_of hρl ?_ hread
    by_contra hearlier
    -- then no increment came between the read and the lookup, so the deletion was of this key
    have hi'j : i' <:+ j := List.suffix_of_suffix_length_le ((List.suffix_cons ρ i').trans hρl)
      ((List.suffix_cons c j).trans hcl) (Nat.le_of_not_lt hearlier)
    have hjk' := hi'j.trans ((List.suffix_cons c j).trans (before_of_length_lt hc hr hjk))
    have hread_le := hrun.currentEpoch_le hjk' ((List.suffix_cons r k).trans (hrl.trans hlog))
    have hki : k <:+ i := (List.suffix_cons r k).trans
      (before_of_length_lt hrl hx (hkm.trans hstart))
    have hstart_le := hrun.currentEpoch_le hki ((List.suffix_cons x i).trans (hx.trans hlog))
    have hsame : epoch = (stateOf init i).redis.currentEpoch := by
      have hread_epoch := hrun.epoch_of_read (hrl.trans hlog) (eq_of_epoch? hepoch)
      omega
    rw [hsame] at hdeleted
    -- the deletion came before the write, or the lookup would have missed
    have hds : (d :: m) <:+ s := List.suffix_of_suffix_length_le hd hs (by simp; omega)
    have hdy : m.length < ky.length := by
      rcases Nat.lt_trichotomy m.length ky.length with hlt | heq | hgt
      · exact hlt
      · obtain ⟨rfl, -⟩ := eq_of_length_eq hds hy heq
        simp [hcached] at hdeleted
      · have hyd := (before_of_length_lt hy hds hgt).trans (List.suffix_cons d m)
        have hnone := hrun.deleted (hds.trans (hs.trans hlog)) hdeleted
        simp [hsince _ hyd hds] at hnone
    have hlater := hlate.not_between (hyl.trans hlog) hcached (before_of_length_lt hds hy hdy)
      hdeleted hc hcagent hchange hρ hown hread
    omega

/-- The owner suspends ann between two of her loads. -/
def suspendBetweenLoads : List (Order GrantsRequest) :=
  [.serve 1 (.loadGrants "ann"), .proceed 1, .proceed 1, .proceed 1, .proceed 1,
    .serve 2 (.transition "acme" "ann-m" "bob" .suspended none), .proceed 2, .proceed 2,
    .proceed 2, .proceed 2, .serve 3 (.loadGrants "ann"), .proceed 3, .proceed 3, .proceed 3,
    .proceed 3]

theorem userInvalidation_of_noLateWrite_suspendBetweenLoads :
    UserInvalidationKept (Sample.performGrants (Sample.store
      (Sample.database [("ann", .workspaceStaff)] [])) suspendBetweenLoads).world.log :=
  userInvalidation_of_noLateWrite
    (Sample.grantsRunsTo_allowed _ (fun _ _ _ _ => trivial : ∀ o ∈ suspendBetweenLoads,
      ∀ req ∈ o.request, True)) (by decide +kernel)

/-- The owner suspends ann while a load of her grants has read the database and has not
written yet. The next load is served what the first one wrote. -/
def suspendDuringLoad : List (Order GrantsRequest) :=
  [.serve 1 (.loadGrants "ann"), .proceed 1, .proceed 1,
    .serve 2 (.transition "acme" "ann-m" "bob" .suspended none), .proceed 2, .proceed 2,
    .proceed 2, .proceed 2, .proceed 1, .proceed 1, .serve 3 (.loadGrants "ann"), .proceed 3,
    .proceed 3]

theorem not_userInvalidation_suspendDuringLoad :
    GrantsRunsTo KeepsRedis (Sample.store (Sample.database [("ann", .workspaceStaff)] []))
        (Sample.performGrants (Sample.store (Sample.database [("ann", .workspaceStaff)] []))
          suspendDuringLoad) ∧
      (Sample.store (Sample.database [("ann", .workspaceStaff)] [])).redis.available = true ∧
      ¬ UserInvalidationKept (Sample.performGrants (Sample.store
        (Sample.database [("ann", .workspaceStaff)] [])) suspendDuringLoad).world.log :=
  ⟨Sample.grantsRunsTo_allowed _ (by simp [suspendDuringLoad, Order.request, KeepsRedis]), rfl,
    by decide +kernel⟩

end NestApi
