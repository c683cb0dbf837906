import NestApi.Accounts.Runs

/-!
# A verified address is a proven address

Redeeming a link writes the stamp only over the address that the link was mailed to. Moving the
own address and erasing the account clear it. The administrative update decides from the row
that it read whether the address changes, so it may write an address over another one and keep
the stamp of that one.
-/

namespace NestApi

open Txn Accounts AccountEvent

/-- The link and the address that were proven. -/
def ChangeKind.verified? : ChangeKind → Option (String × String)
  | .emailVerified token address => some (token, address)
  | _ => none

/-- The event, which found `s`, wrote this address of the account over a different one. -/
def AccountEvent.MovesTo (s : AccountStore) (userId : Uuid) (email : String) (ev : AccountEvent) :
    Prop :=
  ∃ c ∈ ev.change?, c.userId = userId ∧ c.data.email = some email ∧
    ∃ row ∈ s.user? userId, row.email ≠ email

instance (s : AccountStore) (userId : Uuid) (email : String) :
    DecidablePred (AccountEvent.MovesTo s userId email) :=
  fun ev => inferInstanceAs (Decidable (∃ c ∈ ev.change?, _))

/-- What a link says that proves an address of an account. -/
def linkPayload (userId : Uuid) (email : String) : VerifyPayload :=
  ⟨some userId, some "email_verify", some email⟩

/-- If the account is verified, a link was redeemed that was signed for exactly its address, and
since then the address was not written over a different one. -/
def ProvenEmail (env : AccountEnv) (init : AccountStore) (userId : Uuid) (l : AccountLog) : Prop :=
  ∀ row ∈ (stateOf init l).user? userId, row.emailVerifiedAt.isSome = true →
    ∃ r k c token, (r :: k) <:+ l ∧ r.event = .changed c ∧ c.userId = userId ∧
      c.kind = .emailVerified token row.email ∧
      (∃ t, token = env.jwtSign (linkPayload userId row.email) t) ∧
      ∀ x j, (r :: k) <:+ j → (x :: j) <:+ l →
        ¬ x.event.MovesTo (stateOf init j) userId row.email

/-- In every state of the run, a verified account that the run created has a proven address. -/
def VerifiedProven (env : AccountEnv) (init : AccountStore) (log : AccountLog) : Prop :=
  ∀ l, l <:+ log → ∀ userId, init.user? userId = none → ProvenEmail env init userId l

/-- A write of an address that leaves the stamp alone finds this address in the row, or no
stamp. -/
def StampsCleared (init : AccountStore) (log : AccountLog) : Prop :=
  EveryEntry (fun e l => ∀ c ∈ e.event.change?, init.user? c.userId = none →
    ∀ email ∈ c.data.email, c.data.emailVerifiedAt = none →
      ∀ row ∈ (stateOf init l).user? c.userId,
        row.email = email ∨ row.emailVerifiedAt = none) log

/-- A token verifies only if it was signed, and the payload is the one that was signed. -/
def SignedOnly (env : AccountEnv) : Prop :=
  ∀ token t payload, env.jwtVerify token t = some payload → ∃ t', token = env.jwtSign payload t'

/-- A stamp is written by redeeming a link for the address of the row. -/
theorem Justified.verifies {env : AccountEnv} {a : Agent AccountRequest} {w : AccountWorld}
    {row : Account} {c : Change} {t : ℕ} (h : Justified env a w row c)
    (hstamp : c.data.emailVerifiedAt = some (some t)) :
    c.data.email = none ∧ ∃ token verifiedAt, c.kind = .emailVerified token row.email ∧
      env.jwtVerify token verifiedAt = some (linkPayload c.userId row.email) := by
  have hends : ∀ {base actorId data}, EndsAt w row base actorId data →
      data.emailVerifiedAt = base.emailVerifiedAt :=
    fun h => h.column (f := fun d => d.emailVerifiedAt) fun _ => rfl
  have hupdate : ∀ (existing : Account) (dto : UpdateAccountDto) (actorId : Option Uuid),
      (updateData existing dto actorId).emailVerifiedAt ≠ some (some t) := by
    intro existing dto actorId
    simp only [updateData, UsersService.updateData]
    split <;> simp
  cases h with
  | update existing dto actorId => exact absurd hstamp (hupdate existing dto actorId)
  | deactivation existing dto actorId _ _ h =>
    rw [hends h] at hstamp
    exact absurd hstamp (hupdate existing dto actorId)
  | deletion _ _ _ _ _ h | erasure _ _ _ _ _ _ _ h
  | email _ _ _ _ _ _ h | ownPassword _ _ _ _ _ _ h | adminPassword _ _ _ _ _ h
  | passwordReset _ _ _ _ _ _ _ h | revocation _ _ _ _ _ h =>
    rw [hends h] at hstamp
    cases hstamp
  | emailVerified user token verifiedAt _ _ hlink hemail =>
    rw [hemail]
    exact ⟨rfl, token, verifiedAt, rfl, hlink⟩
  | _ => cases hstamp

/-- A redemption writes no address. -/
theorem Justified.email_of_verified {env : AccountEnv} {a : Agent AccountRequest}
    {w : AccountWorld} {row : Account} {c : Change} {token email : String}
    (h : Justified env a w row c) (hkind : c.kind = .emailVerified token email) :
    c.data.email = none := by
  cases h with
  | emailVerified => rfl
  | _ => cases hkind

section

variable {env : AccountEnv} {init : AccountStore} {σ : AccountConfig} {l : AccountLog}
  {e : Entry AccountStore AccountEvent AccountRequest} {userId : Uuid}

/-- A verified account whose address did not change stays proven. -/
theorem ProvenEmail.cons {row row' : Account} (h : ProvenEmail env init userId l)
    (hrow : (stateOf init l).user? userId = some row)
    (hverified : row.emailVerifiedAt.isSome = true) (hemail : row'.email = row.email) :
    ∃ r k c token, (r :: k) <:+ (e :: l) ∧ r.event = .changed c ∧ c.userId = userId ∧
      c.kind = .emailVerified token row'.email ∧
      (∃ t, token = env.jwtSign (linkPayload userId row'.email) t) ∧
      ∀ x j, (r :: k) <:+ j → (x :: j) <:+ (e :: l) →
        ¬ x.event.MovesTo (stateOf init j) userId row'.email := by
  obtain ⟨r, k, c, token, hr, hev, hid, hkind, hsigned, hnone⟩ := h row hrow hverified
  rw [hemail]
  refine ⟨r, k, c, token, hr.trans (List.suffix_cons e l), hev, hid, hkind, hsigned, ?_⟩
  intro x j hj hx hmoves
  rcases List.suffix_cons_iff.mp hx with hnew | hold
  · -- the last entry found the address that it wrote
    obtain ⟨rfl, rfl⟩ := List.cons.inj hnew
    obtain ⟨d, -, -, -, found, hfound, hne⟩ := hmoves
    obtain rfl : row = found := Option.some_inj.mp (hrow.symm.trans hfound)
    exact hne rfl
  · exact hnone x j hj hold hmoves

theorem AccountsRunTo.provenEmail (h : AccountsRunTo env init σ) (hsigned : SignedOnly env)
    (hcleared : StampsCleared init σ.world.log) (hnew : init.user? userId = none)
    (hl : l <:+ σ.world.log) : ProvenEmail env init userId l := by
  induction l with
  | nil =>
    intro row hrow
    change init.user? userId = some row at hrow
    rw [hnew] at hrow
    cases hrow
  | cons e l ih =>
    have hbefore := ih ((List.suffix_cons e l).trans hl)
    intro row hrow hverified
    rcases h.row_of hl hrow with hold | ⟨c, found, hev, rfl, hfound, rfl⟩ | ⟨-, now, hnone⟩
    · exact hbefore.cons hold hverified rfl
    · obtain ⟨-, w, hjustified⟩ := h.of_changed_row hl hev hfound
      rw [AccountUpdateInput.emailVerifiedAt_apply] at hverified
      cases hstamp : c.data.emailVerifiedAt with
      | none =>
        rw [hstamp, Option.getD_none] at hverified
        refine hbefore.cons hfound hverified ?_
        rw [AccountUpdateInput.email_apply]
        cases hwritten : c.data.email with
        | none => rfl
        | some email =>
          have hcond := everyEntry_iff.mp hcleared e l hl c (change?_eq_some.mpr hev) hnew
            email hwritten hstamp found hfound
          rcases hcond with hsame | hunverified
          · exact hsame.symm
          · simp [hunverified] at hverified
      | some stamp =>
        cases stamp with
        | none => simp [hstamp] at hverified
        | some t =>
          obtain ⟨hemail, token, verifiedAt, hkind, hlink⟩ := hjustified.verifies hstamp
          have hkept : (c.data.apply found).email = found.email := by
            rw [AccountUpdateInput.email_apply, hemail, Option.getD_none]
          obtain ⟨t', htoken⟩ := hsigned token verifiedAt _ hlink
          rw [hkept]
          refine ⟨e, l, c, token, List.suffix_refl _, hev, rfl, hkind, ⟨t', htoken⟩, ?_⟩
          intro x j hj hx
          have hlong := hj.length_le
          have hshort := hx.length_le
          simp only [List.length_cons] at hlong hshort
          omega
    · rw [hnone.emailVerifiedAt] at hverified
      cases hverified

end

/-- A verified address is a proven one, in every state, exactly when no write of an address keeps
the stamp of another. -/
theorem verifiedProven_iff {env : AccountEnv} {init : AccountStore} {σ : AccountConfig}
    (h : AccountsRunTo env init σ) (hsigned : SignedOnly env) :
    VerifiedProven env init σ.world.log ↔ StampsCleared init σ.world.log := by
  constructor
  · intro hproven
    refine everyEntry_iff.mpr fun e l hl c hc hnew email hemail hstamp row hrow => ?_
    have hev := change?_eq_some.mp hc
    obtain ⟨hafter, w, hjustified⟩ := h.of_changed_row hl hev hrow
    by_contra hnot
    obtain ⟨hne, hverified⟩ := not_or.mp hnot
    -- the state after the write has the new address and the stamp of the other one
    have hwritten : c.data.email = some email := hemail
    have hafterEmail : (c.data.apply row).email = email := by
      rw [AccountUpdateInput.email_apply, hwritten, Option.getD_some]
    have hafterStamp : (c.data.apply row).emailVerifiedAt.isSome = true := by
      rw [AccountUpdateInput.emailVerifiedAt_apply, hstamp, Option.getD_none]
      exact Option.isSome_iff_ne_none.mpr hverified
    obtain ⟨r, k, d, token, hr, hrev, hid, hkind, -, hnone⟩ :=
      hproven _ hl c.userId hnew _ hafter hafterStamp
    rcases List.suffix_cons_iff.mp hr with hlast | hbefore
    · obtain ⟨rfl, -⟩ := List.cons.inj hlast
      obtain rfl : c = d := AccountEvent.changed.inj (hev.symm.trans hrev)
      rw [hjustified.email_of_verified hkind] at hwritten
      cases hwritten
    · refine hnone e l hbefore (List.suffix_refl _) ⟨c, hc, rfl, ?_, row, hrow, ?_⟩
      · rw [hafterEmail, hwritten]
      · rw [hafterEmail]
        exact hne
  · intro hcleared l hl userId hnew
    exact h.provenEmail hsigned hcleared hnew hl

/-- Bob signs up. An administrator saves his page, with the address on it, while he moves to
another address and proves it. -/
def stalePage : List (Order AccountRequest) :=
  [.serve 1 (.createUser ⟨"bob@a", none, "pw", "Bob", none, "Beck", none, none, none, none⟩ none),
    .proceed 1, .serve 2 (.updateUser "#ii" ⟨⟨some "bob@a", none, none⟩, {}⟩ (some "root") []),
    .proceed 2, .serve 3 (.updateEmail "#ii" "pw" "bob@b"), .proceed 3, .proceed 3,
    .serve 4 (.verifyEmailByToken "bob@b"), .proceed 4, .proceed 4, .proceed 2]

theorem Sample.signedOnly : SignedOnly Sample.accountEnv := by
  rintro token t payload hverify
  obtain rfl := Option.some_inj.mp hverify
  exact ⟨0, rfl⟩

theorem verifiedProven_iff_stalePage :
    VerifiedProven Sample.accountEnv (Sample.accountStore Sample.ann)
        (Sample.performAccounts Sample.ann 5000 stalePage).world.log ↔
      StampsCleared (Sample.accountStore Sample.ann)
        (Sample.performAccounts Sample.ann 5000 stalePage).world.log :=
  verifiedProven_iff (Sample.accountsRunTo _ _ _ (by simp [Sample.ann, Sample.user]) rfl)
    Sample.signedOnly

/-- Some link for the present address was redeemed since it was written. -/
def ProvenOnce (init : AccountStore) (userId : Uuid) (l : AccountLog) : Prop :=
  ∀ row ∈ (stateOf init l).user? userId, row.emailVerifiedAt.isSome = true →
    SomeEntry (fun r k => (∃ c ∈ r.event.change?, ∃ v ∈ c.kind.verified?, v.2 = row.email) ∧
      EveryEntry (fun x j => k.length < j.length →
        ¬ x.event.MovesTo (stateOf init j) userId row.email) l) l

instance (init : AccountStore) (userId : Uuid) (l : AccountLog) :
    Decidable (ProvenOnce init userId l) :=
  inferInstanceAs (Decidable (∀ row ∈ (stateOf init l).user? userId, _))

theorem ProvenEmail.once {env : AccountEnv} {init : AccountStore} {userId : Uuid} {l : AccountLog}
    (h : ProvenEmail env init userId l) : ProvenOnce init userId l := by
  intro row hrow hverified
  obtain ⟨r, k, c, token, hr, hev, -, hkind, -, hnone⟩ := h row hrow hverified
  refine someEntry_iff.mpr ⟨r, k, hr, ⟨c, change?_eq_some.mpr hev, ?_⟩, ?_⟩
  · exact ⟨(token, row.email), by rw [hkind]; rfl, rfl⟩
  · refine everyEntry_iff.mpr fun x j hx hlt => hnone x j ?_ hx
    exact before_of_length_lt hr hx hlt

/-- The administrator has written the old address back, verified. -/
theorem not_verifiedProven_stalePage :
    AccountsRunTo Sample.accountEnv (Sample.accountStore Sample.ann)
        (Sample.performAccounts Sample.ann 5000 stalePage) ∧
      ¬ VerifiedProven Sample.accountEnv (Sample.accountStore Sample.ann)
        (Sample.performAccounts Sample.ann 5000 stalePage).world.log := by
  refine ⟨Sample.accountsRunTo _ _ _ (by simp [Sample.ann, Sample.user]) rfl, fun h => ?_⟩
  have honce := (h _ (List.suffix_refl _) "#ii" (by decide +kernel)).once
  exact absurd honce (by decide +kernel)

end NestApi
