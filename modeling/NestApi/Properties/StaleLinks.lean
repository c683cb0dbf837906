import NestApi.Properties.ResetLinks

/-!
# Reset links after a credential change

A reset link lives in the slot of its account, next to the password and the address. Redeeming it
and erasing the account clear the slot; the other changes of the password or of the address leave
it alone. So a link dies with the credential that it was mailed under exactly as far as the slot
happens to be empty, and as no change comes between reading a row and acting on it.
-/

namespace NestApi

open Txn Accounts AccountEvent

/-! ### Credential changes -/

/-- The event wrote a new password of the account. -/
def AccountEvent.ChangesPassword (userId : Uuid) (ev : AccountEvent) : Prop :=
  ∃ c ∈ ev.change?, c.userId = userId ∧ c.data.password.isSome = true

/-- The event, which found `s`, moved the account to another address. -/
def AccountEvent.ChangesEmail (s : AccountStore) (userId : Uuid) (ev : AccountEvent) : Prop :=
  ∃ c ∈ ev.change?, c.userId = userId ∧
    ∃ row ∈ s.user? userId, ∃ email ∈ c.data.email, email ≠ row.email

/-- Either of the two. -/
def AccountEvent.ChangesCredential (s : AccountStore) (userId : Uuid) (ev : AccountEvent) : Prop :=
  ev.ChangesPassword userId ∨ ev.ChangesEmail s userId

instance (userId : Uuid) : DecidablePred (AccountEvent.ChangesPassword userId) :=
  fun ev => inferInstanceAs (Decidable (∃ c ∈ ev.change?, _))

instance (s : AccountStore) (userId : Uuid) : DecidablePred (AccountEvent.ChangesEmail s userId) :=
  fun ev => inferInstanceAs (Decidable (∃ c ∈ ev.change?, _))

instance (s : AccountStore) (userId : Uuid) :
    DecidablePred (AccountEvent.ChangesCredential s userId) :=
  fun _ => inferInstanceAs (Decidable (_ ∨ _))

/-- The slot of the account holds some reset link. -/
def Account.HasResetLink (u : Account) : Prop :=
  u.otpHash.isSome = true ∧ u.otpPurpose = some .passwordReset

instance : DecidablePred Account.HasResetLink := fun _ => inferInstanceAs (Decidable (_ ∧ _))

/-! ### The law and its condition -/

/-- A redeemed link was minted after the last change of the password, and it was not mailed to
an address that the account has left: a delivery to that address read the row again after the
account had been moved away, when the address was its own again. -/
structure LinksKilled (env : AccountEnv) (init : AccountStore) (log : AccountLog) : Prop where
  byPassword : EveryEntry (fun x j => ∀ c ∈ x.event.change?, ∀ token ∈ c.kind.redeemed?,
    EveryEntry (fun e l => e.event.ChangesPassword c.userId →
      ¬ init.HoldsLink env c.userId token ∧ ∀ m ∈ l, ¬ m.event.Mints c.userId token) j) log
  byEmail : EveryEntry (fun x j => ∀ c ∈ x.event.change?, ∀ token ∈ c.kind.redeemed?,
    EveryEntry (fun e l => e.event.ChangesEmail (stateOf init l) c.userId →
      ¬ init.HoldsLink env c.userId token ∧
        ∀ row ∈ (stateOf init l).user? c.userId, ∀ m ∈ j, ∀ d ∈ m.event.change?,
          d.userId = c.userId → d.kind.minted? = some token → ∀ seen ∈ d.seen,
            seen.email = row.email →
              ∀ y ∈ l, ¬ (y.agent = m.agent ∧ y.event = .userRead d.seen)) j) log

/-- A change of the password or of the address that does not clear the slot finds no link in
it. The address does not change between the read of a delivery and its mint, nor does either
credential between the validation of a link and the commit that it leads to. -/
structure LinksSwept (init : AccountStore) (log : AccountLog) : Prop where
  cleared : EveryEntry (fun e l => ∀ c ∈ e.event.change?,
    e.event.ChangesCredential (stateOf init l) c.userId → c.data.otpHash = none →
      ∀ row ∈ (stateOf init l).user? c.userId, ¬ row.HasResetLink) log
  delivered : EveryEntry (fun m j => ∀ c ∈ m.event.change?, c.kind.minted?.isSome = true →
    Undisturbed (fun ev => ev = .userRead c.seen)
      (fun e l => e.event.ChangesEmail (stateOf init l) c.userId) m.agent j) log
  validated : EveryEntry (fun x j => ∀ c ∈ x.event.change?, c.kind.redeemed?.isSome = true →
    Undisturbed (fun ev => ev = .userRead c.seen)
      (fun e l => e.event.ChangesCredential (stateOf init l) c.userId) x.agent j) log

section

variable {env : AccountEnv} {init : AccountStore} {σ : AccountConfig} {l l' k j i : AccountLog}
  {e x m : Entry AccountStore AccountEvent AccountRequest} {userId : Uuid} {token : String}
  {c d : Change}

/-- A minted link is in the slot. -/
theorem AccountsRunTo.holdsLink_of_mints (h : AccountsRunTo env init σ)
    (hm : (m :: k) <:+ σ.world.log) (hmints : m.event.Mints userId token) :
    (stateOf init (m :: k)).HoldsLink env userId token := by
  obtain ⟨c, hc, rfl, hkind⟩ := hmints
  obtain ⟨w, row, -, -, hafter, hjustified, -⟩ := h.of_changed hm (change?_eq_some.mp hc)
  refine ⟨_, hafter, ?_⟩
  cases hjustified with
  | passwordResetMinted _ minted _ _ _ =>
    obtain rfl : minted = token := Option.some_inj.mp hkind
    exact ⟨rfl, rfl⟩
  | _ => cases hkind

/-- A mint does not move the account. -/
theorem AccountsRunTo.not_changesEmail_of_mints (h : AccountsRunTo env init σ)
    (hm : (m :: k) <:+ σ.world.log) (hmints : m.event.Mints userId token) {s : AccountStore} :
    ¬ m.event.ChangesEmail s userId := by
  obtain ⟨c, hc, rfl, hkind⟩ := hmints
  rintro ⟨d, hd, -, row, -, email, hemail, -⟩
  obtain rfl : c = d := Option.some_inj.mp (hc.symm.trans hd)
  obtain ⟨w, row', -, -, -, hjustified, -⟩ := h.of_changed hm (change?_eq_some.mp hc)
  cases hjustified with
  | passwordResetMinted => cases hemail
  | _ => cases hkind

/-- A link that was in the slot before a change of credentials is not redeemed after it. -/
theorem AccountsRunTo.link_dead (h : AccountsRunTo env init σ)
    (hinjective : Function.Injective env.hashOpaqueToken) (hswept : LinksSwept init σ.world.log)
    (hx : (x :: j) <:+ σ.world.log) (hev : x.event = .changed c)
    (htoken : c.kind.redeemed? = some token) (he : (e :: l) <:+ j)
    (hchanges : e.event.ChangesCredential (stateOf init l) c.userId) (hl : l' <:+ l)
    (hholds : (stateOf init l').HoldsLink env c.userId token) : False := by
  have hj := (List.suffix_cons x j).trans hx
  obtain ⟨-, ⟨s, k, hk⟩, hread⟩ := h.link_of_read hx hev htoken
  have hlater := hread _ k (hk.trans hj) rfl
  set y : Entry AccountStore AccountEvent AccountRequest := ⟨x.agent, .userRead c.seen, s⟩
  have hquiet := everyEntry_iff.mp hswept.validated x j hx c (change?_eq_some.mpr hev)
    (Option.isSome_iff_exists.mpr ⟨token, htoken⟩)
  -- the row was validated after the change
  have hnot : ¬ k.length < l.length := by
    intro hlt
    have hbefore := before_of_length_lt hk he hlt
    exact hquiet.not_after hbefore he rfl rfl hchanges
  have hne : l.length ≠ k.length := by
    intro heq
    obtain ⟨rfl, -⟩ := eq_of_length_eq he hk heq
    rcases hchanges with ⟨d, hd, -⟩ | ⟨d, hd, -⟩ <;> cases hd
  have hek := before_of_length_lt he hk (by omega)
  have hek' := hek.trans (List.suffix_cons y k)
  have hell := (List.suffix_cons e l).trans hek'
  -- so the slot was not written since
  have hunwritten : ∀ z i, l' <:+ i → (z :: i) <:+ (y :: k) → ¬ z.event.WritesOtp c.userId :=
    fun z i hi hy => h.link_kept hinjective (hl.trans hell) (hk.trans hj) hholds hlater hi hy
  obtain ⟨row, hrow, hlink⟩ := h.holdsLink_of_unwritten hl (hell.trans (hk.trans hj)) hholds
    fun z i hi hz => hunwritten z i hi (hz.trans hell)
  have hkept := hunwritten e l hl hek'
  have hchange : ∃ d ∈ e.event.change?, d.userId = c.userId := by
    rcases hchanges with ⟨d, hd, hid, -⟩ | ⟨d, hd, hid, -⟩ <;> exact ⟨d, hd, hid⟩
  obtain ⟨d, hd, hid⟩ := hchange
  have hnone : d.data.otpHash = none := by
    by_contra hsome
    exact hkept ⟨d, hd, hid, Option.isSome_iff_ne_none.mpr hsome⟩
  rw [← hid] at hchanges hrow
  refine everyEntry_iff.mp hswept.cleared e l (he.trans hj) d hd hchanges hnone row hrow ?_
  exact ⟨by rw [hlink.1]; rfl, hlink.2⟩

end

/-- No reset link outlives a change of credentials in a run in which the changes find none, and
nothing comes between a read and the commit that rests on it. -/
theorem linksKilled_of_swept {env : AccountEnv} {init : AccountStore} {σ : AccountConfig}
    (h : AccountsRunTo env init σ) (hinjective : Function.Injective env.hashOpaqueToken)
    (hswept : LinksSwept init σ.world.log) : LinksKilled env init σ.world.log := by
  constructor
  · refine everyEntry_iff.mpr fun x j hx c hc token htoken => everyEntry_iff.mpr ?_
    intro e l he hpassword
    have hev := change?_eq_some.mp hc
    have hj := (List.suffix_cons x j).trans hx
    constructor
    · intro hinit
      exact h.link_dead hinjective hswept hx hev htoken he (.inl hpassword) List.nil_suffix hinit
    · intro m hm hmints
      obtain ⟨i, hml⟩ := exists_suffix_of_mem hm
      have hlog := hml.trans ((List.suffix_cons _ _).trans (he.trans hj))
      exact h.link_dead hinjective hswept hx hev htoken he (.inl hpassword) hml
        (h.holdsLink_of_mints hlog hmints)
  · refine everyEntry_iff.mpr fun x j hx c hc token htoken => everyEntry_iff.mpr ?_
    intro e l he hemail
    have hev := change?_eq_some.mp hc
    have hj := (List.suffix_cons x j).trans hx
    refine ⟨fun hinit => ?_, ?_⟩
    · exact h.link_dead hinjective hswept hx hev htoken he (.inr hemail) List.nil_suffix hinit
    rintro row hrow m hm d hd hid hkind seen hseen - y hy ⟨hagent, hread⟩
    have hmints : m.event.Mints c.userId token := ⟨d, hd, hid, hkind⟩
    obtain ⟨i, hmj⟩ := exists_suffix_of_mem hm
    have hlog := hmj.trans hj
    -- the delivery had read the row before the change, so it had minted the link as well
    have hnot : ¬ l.length < i.length := by
      intro hlt
      have hquiet := everyEntry_iff.mp hswept.delivered m i hlog d hd
        (Option.isSome_iff_exists.mpr ⟨token, hkind⟩)
      rw [hid] at hquiet
      exact everyEntry_iff.mp hquiet e l (before_of_length_lt he hmj hlt) hemail y hy hagent hread
    have hne : i.length ≠ l.length := by
      intro heq
      obtain ⟨rfl, -⟩ := eq_of_length_eq hmj he heq
      exact h.not_changesEmail_of_mints hlog hmints hemail
    have hbefore := before_of_length_lt hmj he (by omega)
    exact h.link_dead hinjective hswept hx hev htoken he (.inr hemail) hbefore
      (h.holdsLink_of_mints hlog hmints)

/-- Ann has a link mailed to her, and redeems it before she changes her password. -/
def redeemThenChange : List (Order AccountRequest) :=
  [.serve 1 (.deliverPasswordReset "ann" true), .proceed 1, .proceed 1, .proceed 1,
    .serve 2 (.resetPassword "ann@a" "#i" "fresh"), .proceed 2, .proceed 2,
    .serve 3 (.updateOwnPassword "ann" "fresh" "newer"), .proceed 3, .proceed 3]

theorem linksKilled_redeemThenChange :
    LinksKilled Sample.accountEnv (Sample.accountStore Sample.ann)
      (Sample.performAccounts Sample.ann 5000 redeemThenChange).world.log :=
  linksKilled_of_swept (Sample.accountsRunTo _ _ _ (by simp [Sample.ann, Sample.user]) rfl)
    (fun _ _ h => h) ⟨by decide +kernel, by decide +kernel, by decide +kernel⟩

/-- A link is mailed to Ann, she changes her password, and the link is redeemed. -/
def redeemAfterChange : List (Order AccountRequest) :=
  [.serve 1 (.deliverPasswordReset "ann" true), .proceed 1, .proceed 1, .proceed 1,
    .serve 2 (.updateOwnPassword "ann" "secret" "fresh"), .proceed 2, .proceed 2,
    .serve 3 (.resetPassword "ann@a" "#i" "eve"), .proceed 3, .proceed 3]

/-- The old link sets another password. -/
theorem not_linksKilled_redeemAfterChange :
    AccountsRunTo Sample.accountEnv (Sample.accountStore Sample.ann)
        (Sample.performAccounts Sample.ann 5000 redeemAfterChange) ∧
      ¬ LinksKilled Sample.accountEnv (Sample.accountStore Sample.ann)
        (Sample.performAccounts Sample.ann 5000 redeemAfterChange).world.log :=
  ⟨Sample.accountsRunTo _ _ _ (by simp [Sample.ann, Sample.user]) rfl,
    fun h => absurd h.byPassword (by decide +kernel)⟩

end NestApi
