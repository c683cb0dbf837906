import NestApi.Accounts.Runs

/-!
# Reset links are used once

A link is what the slot of its account holds: the hash of its token, stored for a reset. Tokens
are never drawn twice, so a link that is in the slot at two times was there all along. Redeeming
compares the slot that was read, and the write that clears it does not look again. So links are
used once exactly when nothing wrote the slot between the two.
-/

namespace NestApi

open Txn Accounts AccountEvent

/-! ### The slot -/

/-- The token of a redeemed link. -/
def ChangeKind.redeemed? : ChangeKind → Option String
  | .passwordReset token => some token
  | _ => none

/-- The token of a new link. -/
def ChangeKind.minted? : ChangeKind → Option String
  | .passwordResetMinted token => some token
  | _ => none

/-- The event wrote the slot of the account: a code or a link, or nothing any more. -/
def AccountEvent.WritesOtp (userId : Uuid) (ev : AccountEvent) : Prop :=
  ∃ c ∈ ev.change?, c.userId = userId ∧ c.data.otpHash.isSome = true

/-- The event stored a new link of the account. -/
def AccountEvent.Mints (userId : Uuid) (token : String) (ev : AccountEvent) : Prop :=
  ∃ c ∈ ev.change?, c.userId = userId ∧ c.kind.minted? = some token

/-- The event redeemed a link of the account. -/
def AccountEvent.Redeems (userId : Uuid) (token : String) (ev : AccountEvent) : Prop :=
  ∃ c ∈ ev.change?, c.userId = userId ∧ c.kind.redeemed? = some token

instance (userId : Uuid) : DecidablePred (AccountEvent.WritesOtp userId) :=
  fun ev => inferInstanceAs (Decidable (∃ c ∈ ev.change?, _))

instance (userId : Uuid) (token : String) : DecidablePred (AccountEvent.Mints userId token) :=
  fun ev => inferInstanceAs (Decidable (∃ c ∈ ev.change?, _))

instance (userId : Uuid) (token : String) : DecidablePred (AccountEvent.Redeems userId token) :=
  fun ev => inferInstanceAs (Decidable (∃ c ∈ ev.change?, _))

section Slot

variable {env : AccountEnv} {a : Agent AccountRequest} {w : AccountWorld} {row : Account}
  {c : Change} {token : String}

/-- A session end writes the slot as the write that it belongs to. -/
theorem EndsAt.slot {base data : AccountUpdateInput} {actorId : Option Uuid}
    (h : EndsAt w row base actorId data) : data.otpHash = base.otpHash ∧
      data.otpPurpose = base.otpPurpose ∧ data.otpExpiresAt = base.otpExpiresAt := by
  obtain ⟨t, -, rfl, -⟩ := h
  exact ⟨rfl, rfl, rfl⟩

/-- The three columns of the slot are written together. -/
theorem Justified.otp_kept (h : Justified env a w row c) (hnone : c.data.otpHash = none) :
    c.data.otpPurpose = none ∧ c.data.otpExpiresAt = none := by
  cases h with
  | deactivation _ _ _ _ _ h | deletion _ _ _ _ _ h
  | email _ _ _ _ _ _ h | ownPassword _ _ _ _ _ _ h | adminPassword _ _ _ _ _ h
  | revocation _ _ _ _ _ h => exact h.slot.2
  | erasure _ _ _ _ _ _ _ h | passwordReset _ _ _ _ _ _ _ h =>
    rw [h.slot.1] at hnone
    cases hnone
  | passwordResetMinted | phoneCode | phoneVerified => cases hnone
  | _ => exact ⟨rfl, rfl⟩

/-- A write that leaves a link behind has minted it. -/
theorem Justified.mints (h : Justified env a w row c)
    (hinjective : Function.Injective env.hashOpaqueToken) (hwrites : c.data.otpHash.isSome = true)
    (hholds : (c.data.apply row).HoldsLink env token) :
    c.kind = .passwordResetMinted token ∧ w.issued.find? token = some (token, some a.pid) := by
  obtain ⟨hhash, hpurpose⟩ := hholds
  rw [AccountUpdateInput.otpHash_apply] at hhash
  rw [AccountUpdateInput.otpPurpose_apply] at hpurpose
  cases h with
  | deactivation _ _ _ _ _ h | deletion _ _ _ _ _ h
  | email _ _ _ _ _ _ h | ownPassword _ _ _ _ _ _ h | adminPassword _ _ _ _ _ h
  | revocation _ _ _ _ _ h =>
    rw [h.slot.1] at hwrites
    cases hwrites
  | erasure _ _ _ _ _ _ _ h | passwordReset _ _ _ _ _ _ _ h =>
    rw [h.slot.1] at hhash
    cases hhash
  | phoneVerified => cases hhash
  | phoneCode => cases hpurpose
  | passwordResetMinted _ minted _ _ hissued =>
    have hsame : env.hashOpaqueToken minted = env.hashOpaqueToken token := Option.some_inj.mp hhash
    obtain rfl := hinjective hsame
    exact ⟨rfl, hissued⟩
  | _ => cases hwrites

theorem Justified.redeems (h : Justified env a w row c) (hkind : c.kind.redeemed? = some token) :
    c.data.otpHash.isSome = true ∧ ∃ user, c.seen = some user ∧ user.HoldsLink env token := by
  cases h with
  | passwordReset user _ _ _ _ _ hvalid hends =>
    obtain rfl := Option.some_inj.mp hkind
    obtain ⟨t, -, rfl, -⟩ := hends
    simp only [UsersService.isResettable, Bool.and_eq_true, decide_eq_true_eq] at hvalid
    exact ⟨rfl, user, rfl, hvalid.1.1.2, hvalid.1.2⟩
  | _ => cases hkind

end Slot

/-! ### Links in a run -/

section Links

variable {env : AccountEnv} {init : AccountStore} {σ : AccountConfig} {l l' k j : AccountLog}
  {e x m : Entry AccountStore AccountEvent AccountRequest} {userId : Uuid} {row r : Account}
  {token : String}

/-- The account has this link in its slot. -/
def AccountStore.HoldsLink (s : AccountStore) (env : AccountEnv) (userId : Uuid)
    (token : String) : Prop :=
  ∃ u ∈ s.user? userId, u.HoldsLink env token

instance (s : AccountStore) (env : AccountEnv) (userId : Uuid) (token : String) :
    Decidable (s.HoldsLink env userId token) :=
  inferInstanceAs (Decidable (∃ u ∈ s.user? userId, _))

/-- A slot that is not written keeps its link. -/
theorem AccountsRunTo.holdsLink_step (h : AccountsRunTo env init σ)
    (hl : (e :: l) <:+ σ.world.log) (hnot : ¬ e.event.WritesOtp userId) :
    e.db.HoldsLink env userId token ↔ (stateOf init l).HoldsLink env userId token := by
  -- a write of other columns
  have hcolumns : ∀ c row, e.event = .changed c → c.userId = userId →
      (stateOf init l).user? userId = some row →
        ((c.data.apply row).HoldsLink env token ↔ row.HoldsLink env token) := by
    rintro c row hev rfl hrow
    obtain ⟨w, row', rfl, hbefore, -, hjustified, -⟩ := h.of_changed hl hev
    have hnone : c.data.otpHash = none := by
      by_contra hsome
      exact hnot ⟨c, change?_eq_some.mpr hev, rfl, Option.isSome_iff_ne_none.mpr hsome⟩
    obtain ⟨hpurpose, -⟩ := hjustified.otp_kept hnone
    simp [Account.HoldsLink, hnone, hpurpose]
  constructor
  · rintro ⟨u, hu, hholds⟩
    rcases h.row_of hl hu with hold | ⟨c, row, hev, hid, hrow, rfl⟩ | ⟨-, now, hnew⟩
    · exact ⟨u, hold, hholds⟩
    · exact ⟨row, hrow, (hcolumns c row hev hid hrow).mp hholds⟩
    · rw [Account.HoldsLink, hnew.otpHash] at hholds
      cases hholds.1
  · rintro ⟨u, hu, hholds⟩
    rcases h.row_after hl hu with hkept | ⟨c, hev, hid, hafter⟩
    · exact ⟨u, hkept, hholds⟩
    · exact ⟨_, hafter, (hcolumns c u hev hid hu).mpr hholds⟩

/-- A link that is there was minted, or was there from the start, and the slot was not written
since. -/
theorem AccountsRunTo.link_origin (h : AccountsRunTo env init σ)
    (hinjective : Function.Injective env.hashOpaqueToken) (hl : l <:+ σ.world.log)
    (hholds : (stateOf init l).HoldsLink env userId token) :
    (∃ m k, (m :: k) <:+ l ∧ m.event.Mints userId token ∧
      ∀ x j, (m :: k) <:+ j → (x :: j) <:+ l → ¬ x.event.WritesOtp userId) ∨
    init.HoldsLink env userId token ∧ ∀ x j, (x :: j) <:+ l → ¬ x.event.WritesOtp userId := by
  induction l with
  | nil => exact .inr ⟨hholds, by simp⟩
  | cons e k ih =>
    by_cases hwrites : e.event.WritesOtp userId
    · -- the last write is the mint
      obtain ⟨c, hc, rfl, hsome⟩ := hwrites
      have hev := change?_eq_some.mp hc
      obtain ⟨w, row, rfl, -, hafter, hjustified, -⟩ := h.of_changed hl hev
      obtain ⟨u, hu, hlink⟩ := hholds
      obtain rfl : c.data.apply row = u := Option.some_inj.mp (hafter.symm.trans hu)
      obtain ⟨hkind, -⟩ := hjustified.mints hinjective hsome hlink
      refine .inl ⟨e, w.log, List.suffix_refl _, ⟨c, hc, rfl, by rw [hkind]; rfl⟩, ?_⟩
      intro x j hj hx
      have hlong := (hj.trans (List.suffix_cons x j)).length_le
      have hshort := hx.length_le
      have hlt := hj.length_le
      simp only [List.length_cons] at hlong hshort hlt
      omega
    · have hbefore := (h.holdsLink_step hl hwrites).mp hholds
      have hextend : ∀ x j, (x :: j) <:+ (e :: k) → x.event.WritesOtp userId →
          (x :: j) <:+ k := by
        intro x j hx hw
        rcases List.suffix_cons_iff.mp hx with hnew | hold
        · obtain ⟨rfl, rfl⟩ := List.cons.inj hnew
          exact absurd hw hwrites
        · exact hold
      rcases ih ((List.suffix_cons e k).trans hl) hbefore with ⟨m, i, hm, hmints, hnone⟩ |
        ⟨hinit, hnone⟩
      · refine .inl ⟨m, i, hm.trans (List.suffix_cons e k), hmints, fun x j hj hx hw => ?_⟩
        exact hnone x j hj (hextend x j hx hw) hw
      · exact .inr ⟨hinit, fun x j hx hw => hnone x j (hextend x j hx hw) hw⟩

/-- A minted token was drawn by the process that minted it. -/
theorem AccountsRunTo.issued_of_mints (h : AccountsRunTo env init σ)
    (hm : (m :: k) <:+ σ.world.log) (hmints : m.event.Mints userId token) :
    σ.world.issued.find? token = some (token, some m.agent.pid) := by
  obtain ⟨c, hc, -, hkind⟩ := hmints
  obtain ⟨w, row, -, -, -, hjustified, hmoves⟩ := h.of_changed hm (change?_eq_some.mp hc)
  cases hjustified with
  | passwordResetMinted _ minted _ _ hissued =>
    obtain rfl : minted = token := Option.some_inj.mp hkind
    exact hmoves.issued_eq hissued
  | _ => cases hkind

/-- A token is minted once. -/
theorem AccountsRunTo.minted_once (h : AccountsRunTo env init σ) {other : Uuid}
    (hm : (m :: k) <:+ σ.world.log) (hx : (x :: j) <:+ σ.world.log)
    (hmints : m.event.Mints userId token) (hmints' : x.event.Mints other token) :
    m = x ∧ k = j := by
  have hissued := h.issued_of_mints hm hmints
  rw [h.issued_of_mints hx hmints'] at hissued
  have hpid : x.agent.pid = m.agent.pid := by simpa using hissued
  have hchange : ∀ {ev : AccountEvent} {u}, ev.Mints u token → IsChange ev := by
    rintro ev u ⟨c, hc, -⟩
    exact Option.isSome_iff_exists.mpr ⟨c, hc⟩
  exact h.changed_once hm hx hpid (hchange hmints) (hchange hmints')

/-- A link that was there from the start is never minted. -/
theorem AccountsRunTo.not_mints_of_init (h : AccountsRunTo env init σ) {other : Uuid}
    (hinit : init.HoldsLink env userId token) (hm : (m :: k) <:+ σ.world.log) :
    ¬ m.event.Mints other token := by
  intro hmints
  have hissued := h.issued_of_mints hm hmints
  obtain ⟨now, ids, hstart, hreach⟩ := h
  obtain ⟨hmoves, -, -⟩ := (accountProtocol env).refines
    (accountBody_admitted env _) hstart.inv hreach
  obtain ⟨u, hu, hlink⟩ := hinit
  obtain ⟨⟨y, owner⟩, hdrawn⟩ :=
    Option.ne_none_iff_exists'.mp (hstart.links userId u token hu hlink)
  obtain rfl : y = token := Table.key_of_find? hdrawn
  obtain rfl : owner = none := hstart.unowned _ (Table.mem_of_find? hdrawn)
  have hlater := hmoves.issued_eq hdrawn
  rw [hissued] at hlater
  cases hlater

/-- A link that is in the slot at two times was there all along. -/
theorem AccountsRunTo.link_kept (h : AccountsRunTo env init σ)
    (hinjective : Function.Injective env.hashOpaqueToken) (hl : l <:+ l')
    (hl' : l' <:+ σ.world.log) (hfirst : (stateOf init l).HoldsLink env userId token)
    (hlast : (stateOf init l').HoldsLink env userId token) (hj : l <:+ j) (hx : (x :: j) <:+ l') :
    ¬ x.event.WritesOtp userId := by
  rcases h.link_origin hinjective hl' hlast with ⟨m, k, hm, hmints, hnone⟩ | ⟨-, hnone⟩
  · rcases h.link_origin hinjective (hl.trans hl') hfirst with ⟨m', k', hm', hmints', -⟩ |
      ⟨hinit, -⟩
    · obtain ⟨rfl, rfl⟩ := h.minted_once (hm.trans hl') ((hm'.trans hl).trans hl') hmints hmints'
      exact hnone x j (hm'.trans hj) hx
    · exact absurd hmints (h.not_mints_of_init hinit (hm.trans hl'))
  · exact hnone x j hx

/-- A slot that nobody writes keeps its link. -/
theorem AccountsRunTo.holdsLink_of_unwritten (h : AccountsRunTo env init σ) (hl : l <:+ l')
    (hl' : l' <:+ σ.world.log) (hholds : (stateOf init l).HoldsLink env userId token)
    (hnone : ∀ x j, l <:+ j → (x :: j) <:+ l' → ¬ x.event.WritesOtp userId) :
    (stateOf init l').HoldsLink env userId token := by
  refine stateOf_persists (P := fun s : AccountStore => s.HoldsLink env userId token) hl hholds ?_
  intro x j hj hx hbefore
  exact (h.holdsLink_step (hx.trans hl') (hnone x j hj hx)).mpr hbefore

end Links

/-! ### Single use -/

/-- Reset links are used once: a redeemed link is in the slot at the commit, and was not
redeemed before. -/
structure LinksSingleUse (env : AccountEnv) (init : AccountStore) (log : AccountLog) : Prop where
  current : EveryEntry (fun e l => ∀ c ∈ e.event.change?, ∀ token ∈ c.kind.redeemed?,
    (stateOf init l).HoldsLink env c.userId token) log
  once : EveryEntry (fun e l => ∀ c ∈ e.event.change?, ∀ token ∈ c.kind.redeemed?,
    ∀ x ∈ l, ¬ x.event.Redeems c.userId token) log

/-- No write of the slot comes between the validation of a link and the commit that it leads
to. -/
def LinksUndisturbed (log : AccountLog) : Prop :=
  EveryEntry (fun e l => ∀ c ∈ e.event.change?, c.kind.redeemed?.isSome = true →
    Undisturbed (fun ev => ev = .userRead c.seen) (fun x _ => x.event.WritesOtp c.userId) e.agent
      l) log

section

variable {env : AccountEnv} {init : AccountStore} {σ : AccountConfig} {l : AccountLog}
  {e : Entry AccountStore AccountEvent AccountRequest} {c : Change} {token : String}

/-- What a redemption has read: the link was in the slot then. -/
theorem AccountsRunTo.link_of_read (h : AccountsRunTo env init σ)
    (hl : (e :: l) <:+ σ.world.log) (hev : e.event = .changed c)
    (hkind : c.kind.redeemed? = some token) :
    c.data.otpHash.isSome = true ∧ (∃ s k, (⟨e.agent, .userRead c.seen, s⟩ :: k) <:+ l) ∧
      ∀ y k, (y :: k) <:+ σ.world.log → y.event = .userRead c.seen →
        (stateOf init (y :: k)).HoldsLink env c.userId token := by
  obtain ⟨w, row, rfl, -, -, hjustified, -⟩ := h.of_changed hl hev
  obtain ⟨hwrites, user, hseen, hholds⟩ := hjustified.redeems hkind
  obtain ⟨⟨s, k, hk⟩, hid⟩ := hjustified.seen hseen
  refine ⟨hwrites, ⟨s, k, by rw [hseen]; exact hk⟩, fun y i hy hread => ?_⟩
  rw [hseen] at hread
  have hfound := h.user?_of_found hy hread
  rw [hid] at hfound
  exact ⟨user, hfound, hholds⟩

end

/-- Links are used once exactly when nothing writes the slot between the validation of a link and
the commit. -/
theorem linksSingleUse_iff {env : AccountEnv} {init : AccountStore} {σ : AccountConfig}
    (h : AccountsRunTo env init σ) (hinjective : Function.Injective env.hashOpaqueToken) :
    LinksSingleUse env init σ.world.log ↔ LinksUndisturbed σ.world.log := by
  constructor
  · intro hsingle
    refine everyEntry_iff.mpr fun e l hl c hc hkind => ?_
    obtain ⟨token, htoken⟩ := Option.isSome_iff_exists.mp hkind
    obtain ⟨-, -, hread⟩ := h.link_of_read hl (change?_eq_some.mp hc) htoken
    have hnow := everyEntry_iff.mp hsingle.current e l hl c hc token htoken
    have hlog := (List.suffix_cons e l).trans hl
    refine everyEntry_iff.mpr fun x j hx hwrites y hy _ hev => ?_
    obtain ⟨k, hk⟩ := exists_suffix_of_mem hy
    have hyl := hk.trans ((List.suffix_cons x j).trans hx)
    have hthen := hread y k (hyl.trans hlog) hev
    exact h.link_kept hinjective hyl hlog hthen hnow hk hx hwrites
  · intro hundisturbed
    have hcurrent : EveryEntry (fun e l => ∀ c ∈ e.event.change?, ∀ token ∈ c.kind.redeemed?,
        (stateOf init l).HoldsLink env c.userId token) σ.world.log := by
      refine everyEntry_iff.mpr fun e l hl c hc token htoken => ?_
      obtain ⟨-, ⟨s, k, hk⟩, hread⟩ := h.link_of_read hl (change?_eq_some.mp hc) htoken
      have hquiet := everyEntry_iff.mp hundisturbed e l hl c hc
        (Option.isSome_iff_exists.mpr ⟨token, htoken⟩)
      have hlog := (List.suffix_cons e l).trans hl
      refine h.holdsLink_of_unwritten hk hlog (hread _ k (hk.trans hlog) rfl) fun x j hj hx => ?_
      exact hquiet.not_after hj hx rfl rfl
    refine ⟨hcurrent, everyEntry_iff.mpr fun e l hl c hc token htoken x hx hredeems => ?_⟩
    -- the first redemption cleared the slot, and the second one finds the link in it
    obtain ⟨j, hj⟩ := exists_suffix_of_mem hx
    have hlog := (List.suffix_cons e l).trans hl
    have hjl := (List.suffix_cons x j).trans hj
    obtain ⟨c', hc', hid, htoken'⟩ := hredeems
    have hlast := everyEntry_iff.mp hcurrent e l hl c hc token htoken
    have hfirst := everyEntry_iff.mp hcurrent x j (hj.trans hlog) c' hc' token htoken'
    rw [hid] at hfirst
    obtain ⟨hwrites, -, -⟩ := h.link_of_read (hj.trans hlog) (change?_eq_some.mp hc') htoken'
    exact h.link_kept hinjective hjl hlog hfirst hlast (List.suffix_refl j) hj
      ⟨c', hc', hid, hwrites⟩

/-- Ann asks for a link and it is submitted twice at once. -/
def submitTwice : List (Order AccountRequest) :=
  [.serve 1 (.deliverPasswordReset "ann" true), .proceed 1, .proceed 1, .proceed 1,
    .serve 2 (.resetPassword "ann@a" "#i" "first"), .proceed 2,
    .serve 3 (.resetPassword "ann@a" "#i" "second"), .proceed 3, .proceed 2, .proceed 3]

theorem linksSingleUse_iff_submitTwice :
    LinksSingleUse Sample.accountEnv (Sample.accountStore Sample.ann)
        (Sample.performAccounts Sample.ann 5000 submitTwice).world.log ↔
      LinksUndisturbed (Sample.performAccounts Sample.ann 5000 submitTwice).world.log :=
  linksSingleUse_iff (Sample.accountsRunTo _ _ _ (by simp [Sample.ann, Sample.user]) rfl)
    fun _ _ h => h

/-- Both submissions set a password. -/
theorem not_linksSingleUse_submitTwice :
    AccountsRunTo Sample.accountEnv (Sample.accountStore Sample.ann)
        (Sample.performAccounts Sample.ann 5000 submitTwice) ∧
      ¬ LinksSingleUse Sample.accountEnv (Sample.accountStore Sample.ann)
        (Sample.performAccounts Sample.ann 5000 submitTwice).world.log :=
  ⟨Sample.accountsRunTo _ _ _ (by simp [Sample.ann, Sample.user]) rfl,
    fun h => absurd h.once (by decide +kernel)⟩

end NestApi
