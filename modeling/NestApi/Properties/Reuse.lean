import NestApi.Properties.Cutoffs

/-!
# Presenting a token twice

A token is exchanged once. A second presentation is evidence of theft: it ends the family and
leaves an audit row. Two refusals look alike to the code. An update that matches no row may have
met a token that was withdrawn or has lapsed, and a presentation that read the token before its
exchange may find it lapsed before it finds it spent.
-/

namespace NestApi

open Txn

variable {a : Agent Request} {L : RowLock → Prop} {w : SystemWorld} {ev : Event}
  {db db' : Database} {env : Env} {Allowed : Request → Prop} {init : Database} {σ : SystemConfig}
  {e : Entry Database Event Request} {l l' : List (Entry Database Event Request)}
  {tokenId : Uuid}

/-! ### Events about tokens -/

/-- The token that an event exchanges. -/
def Event.exchanged? : Event → Option Uuid
  | .tokenRotated tokenId _ => some tokenId
  | _ => none

/-- The row of the token that a presentation looked up. -/
def Event.presented? : Event → Option RefreshToken
  | .tokenRead found => found
  | _ => none

/-- The token whose conditional update matched no row, with the clock it was compared with. -/
def Event.missed? : Event → Option (Uuid × ℕ)
  | .consumeMissed tokenId now => some (tokenId, now)
  | _ => none

/-- The user and the family of a theft record. -/
def Event.replay? : Event → Option (Uuid × Uuid)
  | .replayDetected userId familyId => some (userId, familyId)
  | _ => none

/-- The answer to a presentation of the token. -/
def Event.answer? (tokenId : Uuid) : Event → Option Answer
  | .refreshAnswered id answer => if id = tokenId then some answer else none
  | _ => none

/-- A check of the token's expiry: the expiry and the clock. -/
def Event.expiryCheck? (tokenId : Uuid) : Event → Option (ℕ × ℕ)
  | .expiryChecked id expiresAt now => if id = tokenId then some (expiresAt, now) else none
  | _ => none

theorem of_exchanged? (h : ev.exchanged? = some tokenId) :
    ∃ childId, ev = .tokenRotated tokenId childId := by
  cases ev with
  | tokenRotated id childId => exact ⟨childId, by rw [Option.some_inj.mp h]⟩
  | _ => cases h

/-! ### The rows of a token -/

/-- A later row of the same token is a version of the earlier one, even if the token was
purged: its id is not drawn again. -/
theorem RunsTo.tokenLater (hrun : RunsTo env Allowed init σ) (hl : l <:+ l')
    (hl' : l' <:+ σ.world.log) {t t' : RefreshToken} (ht : t ∈ (stateOf init l).refreshTokens)
    (ht' : t' ∈ (stateOf init l').refreshTokens) (hid : t'.id = t.id) : t.Evolves t' := by
  refine hrun.persists (P := fun db => ∀ t' ∈ db.refreshTokens, t'.id = t.id → t.Evolves t') hl hl'
    (fun t'' ht'' hid => ?_) ?_ t' ht' hid
  · rw [Table.eq_of_key ht'' ht hid]
    exact .refl t
  · rintro w a L ev db - rfl hk - hcommit hbefore t'' ht'' hid
    rcases hcommit.tokenBorn ht'' with ⟨t₀, ht₀, hevolves⟩ | ⟨hdrawn, -⟩
    · exact (hbefore t₀ ht₀ (hevolves.id_eq.symm.trans hid)).trans hevolves
    · have hpast : w.Since 0 (stateOf w.init l) := ⟨l, hk, Nat.zero_le _, rfl⟩
      refine absurd ?_ (hdrawn.unused _ hpast)
      exact .inr (.inr (.inr (.inr ⟨t, ht, .inl hid.symm⟩)))

/-- What an exchange says about its token and the owner, before and after. -/
structure Exchange (before after : Database) (t : RefreshToken) : Prop where
  mem : t ∈ before.refreshTokens
  live : t.IsLive
  cutoff : ∃ current, before.cutoff? t.userId = some current ∧
    ∀ cutoff ∈ current, cutoff ≤ t.createdAt
  spent : ∃ t' ∈ after.refreshTokens, t'.id = t.id ∧ t'.consumedAt ≠ none

theorem RunsTo.exchange (hrun : RunsTo env Allowed init σ) (hl : (e :: l) <:+ σ.world.log)
    (hev : e.event.exchanged? = some tokenId) :
    ∃ t, t.id = tokenId ∧ Exchange (stateOf init l) e.db t := by
  obtain ⟨w, L, rfl, rfl, -, hcommit⟩ := hrun.entry hl
  obtain ⟨childId, hrotated⟩ := of_exchanged? hev
  rw [hrotated] at hcommit
  change ∃ t, t.id = tokenId ∧ Exchange w.db e.db t
  generalize e.db = db' at hcommit ⊢
  cases hcommit with
  | tokenRotated t child owner now _ _ hmem hlive howner hid _ hcutoff =>
    refine ⟨t, rfl, hmem, hlive, ⟨owner.passwordChangedAt, ?_, hcutoff⟩, ?_⟩
    · unfold Database.cutoff?
      rw [← hid, Table.find?_of_mem howner]
      rfl
    · have hrow := Table.mem_update_of_mem (f := RefreshToken.consumed now) hmem
        (List.mem_singleton_self t.id)
      exact ⟨_, Table.mem_insert_of_mem hrow, rfl, by simp [RefreshToken.consumed]⟩

/-! ### Theft evidence -/

/-- The token is spent by then: it was exchanged, or it was spent from the start. -/
def SpentBy (init : Database) (l : List (Entry Database Event Request)) (tokenId : Uuid) : Prop :=
  (∃ t ∈ init.refreshTokens, t.id = tokenId ∧ t.consumedAt ≠ none) ∨
    ∃ e ∈ l, e.event.exchanged? = some tokenId

instance (init : Database) (l : List (Entry Database Event Request)) (tokenId : Uuid) :
    Decidable (SpentBy init l tokenId) :=
  inferInstanceAs (Decidable ((∃ t ∈ init.refreshTokens.rows, _) ∨ _))

/-- A token is spent by its exchange only. -/
theorem Commit.spent (h : Commit a L w ev db') {t' : RefreshToken}
    (ht' : t' ∈ db'.refreshTokens) (hspent : t'.consumedAt ≠ none) :
    (∃ t ∈ w.db.refreshTokens, t.id = t'.id ∧ t.consumedAt ≠ none) ∨
      ev.exchanged? = some t'.id := by
  have hrevoked : ∀ {ids : List Uuid} {now : ℕ},
      t' ∈ (w.db.updateTokens ids (RefreshToken.revoked now)).refreshTokens →
        ∃ t ∈ w.db.refreshTokens, t.id = t'.id ∧ t.consumedAt ≠ none := by
    intro ids now hmem
    obtain ⟨t, ht, hid, hsame⟩ := version_of_mem_update
      (R := fun t t' : RefreshToken => t.id = t'.id ∧ t.consumedAt = t'.consumedAt)
      (fun _ => ⟨rfl, rfl⟩) (fun _ => ⟨rfl, rfl⟩) hmem
    exact ⟨t, ht, hid, hsame ▸ hspent⟩
  cases h with
  | rosterChanged _ _ _ _ _ _ _ _ _ _ _ _ hwrite =>
    exact .inl ⟨t', hwrite.tables.2.2.1 ▸ ht', rfl, hspent⟩
  | invitationAccepted _ _ _ _ _ _ _ _ _ _ _ _ _ _ _ _ _ _ _ hjoins =>
    exact .inl ⟨t', hjoins.tables.2.2.2.1 ▸ ht', rfl, hspent⟩
  | sessionsEnded | familyRevoked => exact .inl (hrevoked ht')
  | sessionStarted t _ _ _ _ _ hlive =>
    rcases Table.mem_of_mem_insert ht' with hold | rfl
    · exact .inl ⟨t', hold, rfl, hspent⟩
    · exact absurd hlive.1 hspent
  | tokenRotated t child _ _ _ _ _ _ _ _ _ _ _ _ hchild =>
    rcases Table.mem_of_mem_insert ht' with hold | rfl
    · rcases Table.of_mem_update hold with ⟨hold, -⟩ | ⟨t₀, -, hid, rfl⟩
      · exact .inl ⟨t', hold, rfl, hspent⟩
      · have hsame : t₀.id = t.id := List.mem_singleton.mp hid
        exact .inr (congrArg some hsame.symm)
    · exact absurd hchild.1 hspent
  | tokensPurged => exact .inl ⟨t', (Table.mem_delete.mp ht').1, rfl, hspent⟩
  | _ => exact .inl ⟨t', ht', rfl, hspent⟩

/-- A spent row was exchanged, or spent from the start. -/
theorem RunsTo.spentBy (hrun : RunsTo env Allowed init σ) (hl : l <:+ σ.world.log)
    {t : RefreshToken} (ht : t ∈ (stateOf init l).refreshTokens) (hspent : t.consumedAt ≠ none) :
    SpentBy init l t.id := by
  induction l generalizing t with
  | nil => exact .inl ⟨t, ht, rfl, hspent⟩
  | cons e l ih =>
    obtain ⟨w, L, rfl, rfl, -, hcommit⟩ := hrun.entry hl
    rcases hcommit.spent ht hspent with ⟨t₀, ht₀, hid, hspent₀⟩ | hev
    · rw [← hid]
      rcases ih ((List.suffix_cons _ _).trans hl) ht₀ hspent₀ with hstart | ⟨r, hr, hev⟩
      · exact .inl hstart
      · exact .inr ⟨r, List.mem_cons_of_mem e hr, hev⟩
    · exact .inr ⟨e, List.mem_cons_self, hev⟩

/-- The process of the entry met the token spent at a conditional update after the history `k`. -/
def MissedSpent (init : Database) (a : Agent Request) (tokenId : Uuid)
    (k l : List (Entry Database Event Request)) : Prop :=
  SomeEntry (fun m j => m.agent = a ∧ k.length < j.length ∧
    (∃ x ∈ m.event.missed?, x.1 = tokenId) ∧ SpentBy init j tokenId) l

instance (init : Database) (a : Agent Request) (tokenId : Uuid)
    (k l : List (Entry Database Event Request)) : Decidable (MissedSpent init a tokenId k l) :=
  inferInstanceAs (Decidable (SomeEntry _ l))

/-- Every theft record is of a token that was spent when the presentation was judged: by the
lookup, or by the conditional update that matched no row. -/
def TheftSound (init : Database) (log : List (Entry Database Event Request)) : Prop :=
  EveryEntry (fun e l => ∀ x ∈ e.event.replay?, SomeEntry (fun r k =>
    r.agent = e.agent ∧ ∃ t ∈ r.event.presented?, (t.userId, t.familyId) = x ∧
      (SpentBy init k t.id ∨ MissedSpent init e.agent t.id k l)) l) log

instance (init : Database) (log : List (Entry Database Event Request)) :
    Decidable (TheftSound init log) :=
  inferInstanceAs (Decidable (EveryEntry _ log))

/-- Every conditional update that matched no row found the row of its token, and found it
neither withdrawn nor lapsed unless it was spent. -/
def MissesSpent (log : List (Entry Database Event Request)) : Prop :=
  ∀ e ∈ log, ∀ x ∈ e.event.missed?, ∃ t ∈ e.db.refreshTokens.rows, t.id = x.1 ∧
    (t.consumedAt = none → t.revokedAt = none ∧ x.2 < t.expiresAt)

instance (log : List (Entry Database Event Request)) : Decidable (MissesSpent log) :=
  inferInstanceAs (Decidable (∀ e ∈ log, _))

/-- An update that matched no row met a spent token. -/
theorem RunsTo.missedSpent (hrun : RunsTo env Allowed init σ) (hmisses : MissesSpent σ.world.log)
    {now : ℕ} (hl : (e :: l) <:+ σ.world.log) (hev : e.event = .consumeMissed tokenId now) :
    SpentBy init l tokenId := by
  have hlog : l <:+ σ.world.log := (List.suffix_cons _ _).trans hl
  obtain ⟨t, ht, hid, hunspent⟩ : ∃ t ∈ e.db.refreshTokens, t.id = tokenId ∧
      (t.consumedAt = none → t.revokedAt = none ∧ now < t.expiresAt) :=
    hmisses e (hl.subset List.mem_cons_self) (tokenId, now) (by rw [hev]; rfl)
  obtain ⟨w, L, rfl, rfl, -, hcommit⟩ := hrun.entry hl
  rw [hev] at hcommit
  generalize hdb : e.db = db' at hcommit ht
  cases hcommit with
  | consumeMissed _ _ _ _ hmissed =>
    rw [← hid]
    refine hrun.spentBy hlog ht fun hnone => ?_
    obtain ⟨hunrevoked, hahead⟩ := hunspent hnone
    have hlapsed : t.expiresAt ≤ now := hmissed t ht hid ⟨hnone, hunrevoked⟩
    exact absurd hahead (Nat.not_lt.mpr hlapsed)

/-- Where no update misses a token for another reason than that it is spent, every theft record
is of a spent token. -/
theorem theftSound_of_missesSpent (hrun : RunsTo env Allowed init σ)
    (hmisses : MissesSpent σ.world.log) : TheftSound init σ.world.log := by
  rw [TheftSound, everyEntry_iff]
  rintro e l hl ⟨userId, familyId⟩ hreplay
  obtain ⟨w, L, rfl, hinit, -, hcommit⟩ := hrun.entry hl
  have hlog : w.log <:+ σ.world.log := (List.suffix_cons _ _).trans hl
  have hev : e.event = .replayDetected userId familyId := by
    cases hevent : e.event with
    | replayDetected u f =>
      rw [hevent] at hreplay
      obtain ⟨rfl, rfl⟩ := Prod.mk.inj (Option.some_inj.mp hreplay)
      rfl
    | _ => rw [hevent] at hreplay; cases hreplay
  rw [hev] at hcommit
  generalize e.db = db' at hcommit
  cases hcommit with
  | replayDetected _ _ hread =>
    obtain ⟨k, d, t, hk, rfl, rfl, hjudged⟩ := hread
    refine someEntry_iff.mpr ⟨_, k, hk, rfl, t, rfl, rfl, ?_⟩
    rcases hjudged with hspent | ⟨now, s, j, hj, hlater⟩
    · obtain ⟨v, M, rfl, rfl, -, hlookup⟩ := hrun.entry (hk.trans hlog)
      have hmem : t ∈ v.db.refreshTokens := by
        cases hlookup with
        | tokenRead _ hfound => exact hfound t rfl
      have hpast : v.log <:+ σ.world.log := ((List.suffix_cons _ _).trans hk).trans hlog
      exact .inl (hrun.spentBy hpast hmem hspent)
    · refine .inr (someEntry_iff.mpr ⟨_, j, hj, rfl, hlater, ⟨_, rfl, rfl⟩, ?_⟩)
      exact hrun.missedSpent hmisses (hj.trans hlog) rfl

/-- Ann signs in, exchanges her token, and somebody presents it again. -/
def presentTwice : List (Order Request) :=
  [.serve 1 (.login "ann" "secret"), .proceed 1, .proceed 1, .serve 2 (.refresh "#iii"),
    .proceed 2, .proceed 2, .proceed 2, .serve 3 (.refresh "#iii"), .proceed 3, .proceed 3,
    .proceed 3, .proceed 3]

theorem theftSound_presentTwice :
    TheftSound (Sample.database [] ["ann"])
      (Sample.perform (Sample.database [] ["ann"]) 5000 presentTwice).world.log :=
  theftSound_of_missesSpent (Sample.runsTo_perform _ _ _)
    (by decide +kernel)

/-- Ann signs out while her token is being exchanged. -/
def logoutUnderRefresh : List (Order Request) :=
  [.serve 1 (.login "ann" "secret"), .proceed 1, .proceed 1, .serve 2 (.refresh "#iii"),
    .proceed 2, .proceed 2, .serve 3 (.logout "#iii"), .proceed 3, .proceed 2, .proceed 2,
    .proceed 2]

/-- The token was withdrawn and never spent, and the record says theft. -/
theorem theftSound_logoutUnderRefresh :
    RunsTo Sample.env (fun _ => True) (Sample.database [] ["ann"])
        (Sample.perform (Sample.database [] ["ann"]) 5000 logoutUnderRefresh) ∧
      ¬ TheftSound (Sample.database [] ["ann"])
        (Sample.perform (Sample.database [] ["ann"]) 5000 logoutUnderRefresh).world.log :=
  ⟨Sample.runsTo_perform _ _ _, by decide +kernel⟩

/-! ### Reuse detection -/

instance (db : Database) (familyId : Uuid) : Decidable (db.LiveFamily familyId) :=
  inferInstanceAs (Decidable (∃ t ∈ db.refreshTokens.rows, _))

/-- Once a token was exchanged by one process and its presentation by another one was answered,
its family has no token that can be exchanged. An answer that nothing provides for is none. -/
def ReplaysEndFamily (log : List (Entry Database Event Request)) (db : Database) : Prop :=
  ∀ x ∈ log, ∀ tokenId ∈ x.event.exchanged?, ∀ y ∈ log, ∀ answer ∈ y.event.answer? tokenId,
    answer ≠ .failed → y.agent ≠ x.agent → ∀ t ∈ x.db.refreshTokens.rows, t.id = tokenId →
      ¬ db.LiveFamily t.familyId

instance (log : List (Entry Database Event Request)) (db : Database) :
    Decidable (ReplaysEndFamily log db) :=
  inferInstanceAs (Decidable (∀ x ∈ log, _))

/-- Reuse detection at the end of a run: a token is exchanged once, and a second presentation
ends its family. -/
structure ReuseDetected (w : SystemWorld) : Prop where
  once : ∀ e l e' l' tokenId, (e :: l) <:+ w.log → (e' :: l') <:+ w.log →
    e.event.exchanged? = some tokenId → e'.event.exchanged? = some tokenId → e :: l = e' :: l'
  ends : ReplaysEndFamily w.log w.db

/-- No presentation of a token that the run exchanges read the clock, for its expiry check, when
the token had lapsed. -/
def ExchangedUnlapsed (log : List (Entry Database Event Request)) : Prop :=
  ∀ x ∈ log, ∀ tokenId ∈ x.event.exchanged?, ∀ y ∈ log,
    ∀ check ∈ y.event.expiryCheck? tokenId, check.2 < check.1

instance (log : List (Entry Database Event Request)) : Decidable (ExchangedUnlapsed log) :=
  inferInstanceAs (Decidable (∀ x ∈ log, _))

/-- After its exchange a token is not exchanged again. -/
theorem RunsTo.exchanged_once (hrun : RunsTo env Allowed init σ)
    {e' : Entry Database Event Request} (hl : (e :: l) <:+ l') (hl' : (e' :: l') <:+ σ.world.log)
    (hev : e.event.exchanged? = some tokenId) : e'.event.exchanged? ≠ some tokenId := by
  intro hev'
  have hlog : l' <:+ σ.world.log := (List.suffix_cons _ _).trans hl'
  obtain ⟨t, rfl, hfirst⟩ := hrun.exchange (hl.trans hlog) hev
  obtain ⟨t', hid, hsecond⟩ := hrun.exchange hl' hev'
  obtain ⟨spent, hmem, hspentId, hspent⟩ := hfirst.spent
  have hevolves : spent.Evolves t' :=
    hrun.tokenLater hl hlog hmem hsecond.mem (hid.trans hspentId.symm)
  exact hspent (hevolves.consumed hsecond.live.1)

/-- A token is exchanged once. -/
theorem RunsTo.exchanged_unique (hrun : RunsTo env Allowed init σ)
    {e' : Entry Database Event Request} (hl : (e :: l) <:+ σ.world.log)
    (hl' : (e' :: l') <:+ σ.world.log) (hev : e.event.exchanged? = some tokenId)
    (hev' : e'.event.exchanged? = some tokenId) : e :: l = e' :: l' := by
  rcases List.suffix_or_suffix_of_suffix hl hl' with hle | hle
  · rcases List.suffix_cons_iff.mp hle with heq | hlt
    · exact heq
    · exact absurd hev' (hrun.exchanged_once hlt hl' hev)
  · rcases List.suffix_cons_iff.mp hle with heq | hlt
    · exact heq.symm
    · exact absurd hev (hrun.exchanged_once hlt hl hev')

/-- A cutoff that moved after the token was seen ended its family. -/
theorem RunsTo.endsFamily_of_moved (hrun : RunsTo env Allowed init σ)
    {n : List (Entry Database Event Request)} (hn : n <:+ l) (hl : l <:+ l')
    (hl' : l' <:+ σ.world.log) {t : RefreshToken} (ht : t ∈ (stateOf init n).refreshTokens)
    {before after : Option ℕ} (hbefore : (stateOf init l).cutoff? t.userId = some before)
    (hafter : (stateOf init l').cutoff? t.userId = some after) (hmoved : before ≠ after) :
    ∃ e k, (e :: k) <:+ σ.world.log ∧ EndsFamily init k e t.familyId := by
  rcases hrun.cutoff? hl hl' hbefore with ⟨hkept, -⟩ | ⟨e, k, cutoff, hk, hek, hset, -⟩
  · exact absurd (Option.some_inj.mp (hkept.symm.trans hafter)) hmoved
  · obtain ⟨reason, hev⟩ : ∃ reason, e.event = .sessionsEnded reason t.userId cutoff := by
      cases hevent : e.event with
      | sessionsEnded reason id c =>
        simp only [hevent, Event.cutoff?, Option.ite_none_right_eq_some, Option.some.injEq] at hset
        obtain ⟨rfl, rfl⟩ := hset
        exact ⟨reason, rfl⟩
      | _ => rw [hevent] at hset; cases hset
    exact ⟨e, k, hek.trans hl', .inr ⟨reason, t.userId, cutoff, hev, n,
      (hn.trans hk).trans (List.suffix_cons _ _), t, ht, rfl, rfl⟩⟩

/-- Two rows of one token agree on the columns that never change. -/
theorem RunsTo.token_identity (hrun : RunsTo env Allowed init σ) (hl : l <:+ σ.world.log)
    (hl' : l' <:+ σ.world.log) {t t' : RefreshToken} (ht : t ∈ (stateOf init l).refreshTokens)
    (ht' : t' ∈ (stateOf init l').refreshTokens) (hid : t.id = t'.id) : t.identity = t'.identity :=
  hrun.inv.tokens _ _ (hrun.since hl) (hrun.since hl') t ht t' ht' hid

/-- A refused presentation of a token that was exchanged: the family was ended after the
presentation had looked the token up, or after the exchange had begun. -/
theorem RunsTo.endsFamily_of_refused (hrun : RunsTo env Allowed init σ)
    (hunlapsed : ExchangedUnlapsed σ.world.log) {x : Entry Database Event Request}
    {k n : List (Entry Database Event Request)} (hx : (x :: k) <:+ σ.world.log)
    (hev : x.event.exchanged? = some tokenId) {v : SystemWorld} (hv : v.log <:+ σ.world.log)
    (hinit : v.init = init) (hn : n <:+ v.log) {t : RefreshToken}
    (ht : t ∈ (stateOf init n).refreshTokens) (hid : t.id = tokenId)
    (hcause : RefusalCause a v n.length t) :
    ∃ e l, (e :: l) <:+ σ.world.log ∧ EndsFamily init l e t.familyId := by
  subst hinit
  obtain ⟨p, hp, hexchange⟩ := hrun.exchange hx hev
  have hpid : p.id = t.id := hp.trans hid.symm
  have hnlog : n <:+ σ.world.log := hn.trans hv
  have hklog : k <:+ σ.world.log := (List.suffix_cons _ _).trans hx
  rcases hcause with ⟨b, db, m, hm, hle⟩ | ⟨b, reason, cutoff, db, m, hm, hle⟩ |
    ⟨hrevoked, hunspent⟩ | ⟨now, db, ⟨m, hm, -⟩, hlapsed⟩ |
    ⟨db, ⟨m, hm, hle, rfl⟩, u, hu, huser, cutoff, hset, hafter⟩
  · exact ⟨_, m, hm.trans hv, .inl rfl⟩
  · have hseen : n <:+ ⟨b, .sessionsEnded reason t.userId cutoff, db⟩ :: m :=
      (List.suffix_of_suffix_length_le hn ((List.suffix_cons _ _).trans hm) hle).trans
        (List.suffix_cons _ _)
    exact ⟨_, m, hm.trans hv, .inr ⟨reason, t.userId, cutoff, rfl, n, hseen, t, ht, rfl, rfl⟩⟩
  · -- it was withdrawn unspent when it was looked up, so it was never exchanged
    exfalso
    rcases List.suffix_or_suffix_of_suffix hnlog hx with hbefore | hafter
    · rcases List.suffix_cons_iff.mp hbefore with rfl | hbefore
      · obtain ⟨s, hs, hsid, hspent⟩ := hexchange.spent
        rw [Table.eq_of_key hs ht (hsid.trans hpid)] at hspent
        exact hspent hunspent
      · have hevolves := hrun.tokenLater hbefore hklog ht hexchange.mem hpid
        exact hrevoked (hevolves.revoked hexchange.live.2)
    · obtain ⟨s, hs, hsid, hspent⟩ := hexchange.spent
      have hevolves : s.Evolves t := hrun.tokenLater hafter hnlog hs ht (hsid.trans hpid).symm
      exact hspent (hevolves.consumed hunspent)
  · have hahead : now < t.expiresAt := by
      refine hunlapsed x (hx.subset List.mem_cons_self) tokenId hev _
        ((hm.trans hv).subset List.mem_cons_self) (t.expiresAt, now) ?_
      simp [Event.expiryCheck?, hid]
    exact absurd hahead (Nat.not_lt.mpr hlapsed)
  · -- the cutoff that refused it is not the one under which it was exchanged
    have hmlog : m <:+ σ.world.log := hm.trans hv
    have hnm : n <:+ m := List.suffix_of_suffix_length_le hn hm hle
    have hidentity := hrun.token_identity hklog hnlog hexchange.mem ht hpid
    simp only [RefreshToken.identity, Prod.mk.injEq] at hidentity
    obtain ⟨-, howner, hfamily, hcreated, -⟩ := hidentity
    obtain ⟨current, hcurrent, hallowed⟩ := hexchange.cutoff
    have hrefused : (stateOf v.init m).cutoff? t.userId = some (some cutoff) := by
      unfold Database.cutoff?
      rw [← huser, Table.find?_of_mem hu, Option.map_some]
      exact congrArg some hset
    have hmoved : current ≠ some cutoff := by
      rintro rfl
      have hle : cutoff ≤ p.createdAt := hallowed cutoff rfl
      rw [hcreated] at hle
      exact absurd hafter (Nat.not_lt.mpr hle)
    rcases List.suffix_or_suffix_of_suffix hklog hmlog with hkm | hmk
    · rw [← hfamily]
      exact hrun.endsFamily_of_moved (List.suffix_refl k) hkm hmlog hexchange.mem hcurrent
        (howner ▸ hrefused) hmoved
    · exact hrun.endsFamily_of_moved hnm hmk hklog ht hrefused (howner ▸ hcurrent) hmoved.symm

/-- Reuse of a refresh token is detected in every run in which no presentation of an exchanged
token comes upon its expiry. -/
theorem reuseDetected_of_unlapsed (hrun : RunsTo env Allowed init σ)
    (howned : init.FamiliesOwned) (hlive : init.OneLive)
    (hunlapsed : ExchangedUnlapsed σ.world.log) : ReuseDetected σ.world where
  once _ _ _ _ _ hl hl' hev hev' := hrun.exchanged_unique hl hl' hev hev'
  ends := by
    intro x hx tokenId hev y hy answer hanswer hfailed hagent t ht hid
    obtain ⟨k, hxk⟩ := exists_suffix_of_mem hx
    obtain ⟨m, hym⟩ := exists_suffix_of_mem hy
    obtain ⟨w, L, rfl, hinit, -, hcommit⟩ := hrun.entry hym
    have hwlog : w.log <:+ σ.world.log := (List.suffix_cons _ _).trans hym
    have hanswered : y.event = .refreshAnswered tokenId answer := by
      cases hevent : y.event with
      | refreshAnswered id given =>
        simp only [hevent, Event.answer?, Option.mem_def, Option.ite_none_right_eq_some,
          Option.some.injEq] at hanswer
        rw [hanswer.1, hanswer.2]
      | _ => rw [hevent] at hanswer; cases hanswer
    rw [hanswered] at hcommit
    generalize y.db = db' at hcommit
    cases hcommit with
    | refreshAnswered _ _ hsucceeded hrefused =>
      cases answer with
      | failed => exact absurd rfl hfailed
      | succeeded =>
        -- the exchange was its own
        obtain ⟨childId, db, j, hj, -⟩ := hsucceeded rfl
        have hsame := hrun.exchanged_unique hxk (hj.trans hwlog) hev rfl
        exact absurd (congrArg Entry.agent (List.cons.inj hsame).1).symm hagent
      | refused =>
        obtain ⟨n, hn, t', ht', hid', hcause⟩ := hrefused rfl
        rw [hinit] at ht'
        obtain ⟨e, l, hl, hends⟩ :=
          hrun.endsFamily_of_refused hunlapsed hxk hev hwlog hinit hn ht' hid' hcause
        have hidentity := hrun.token_identity hxk (hn.trans hwlog) ht ht' (hid.trans hid'.symm)
        have hfamily : t.familyId = t'.familyId := congrArg (fun x => x.2.2.1) hidentity
        rw [hfamily]
        exact ((hrun.familyInv howned hlive).ended e l _ hl (hrun.init_eq ▸ hends)).2

theorem reuseDetected_presentTwice :
    ReuseDetected (Sample.perform (Sample.database [] ["ann"]) 5000 presentTwice).world :=
  reuseDetected_of_unlapsed (Sample.runsTo_perform (Sample.database [] ["ann"]) 5000 presentTwice)
    (fun t ht => absurd ht Table.not_mem_empty) (fun t ht => absurd ht Table.not_mem_empty)
    (by decide +kernel)

/-- Two presentations read the token unspent, and the second one checks its expiry after it has
lapsed. -/
def presentAtExpiry : List (Order Request) :=
  [.serve 1 (.login "ann" "secret"), .proceed 1, .proceed 1, .serve 2 (.refresh "#iii"),
    .serve 3 (.refresh "#iii"), .proceed 2, .proceed 3, .proceed 2, .proceed 2, .pass 86400000,
    .proceed 3, .proceed 3]

/-- The second presentation is refused, and the family goes on. -/
theorem reuseDetected_presentAtExpiry :
    RunsTo Sample.env (fun _ => True) (Sample.database [] ["ann"])
        (Sample.perform (Sample.database [] ["ann"]) 5000 presentAtExpiry) ∧
      ¬ ReuseDetected (Sample.perform (Sample.database [] ["ann"]) 5000 presentAtExpiry).world := by
  refine ⟨Sample.runsTo_perform _ _ _, fun h => ?_⟩
  exact absurd h.ends (by decide +kernel)

end NestApi
