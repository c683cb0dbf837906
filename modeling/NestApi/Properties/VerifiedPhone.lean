import NestApi.Accounts.Runs

/-!
# A verified phone number is a confirmed number

Confirming a code writes the number and the stamp together, and the plain phone update clears the
stamp. The profile update, the administrative update and the erasure write the number alone, so
the stamp is right exactly as long as they find none or leave the number as it is.
-/

namespace NestApi

open Txn Accounts AccountEvent

/-- The number that a code was confirmed for. -/
def ChangeKind.confirmed? : ChangeKind → Option String
  | .phoneVerified phoneNumber => some phoneNumber
  | _ => none

/-- The event confirmed a code of the account, for this number. -/
def AccountEvent.confirms? (userId : Uuid) (ev : AccountEvent) : Option String :=
  (ev.change?.filter fun c => c.userId = userId).bind fun c => c.kind.confirmed?

/-- The number for which a code was last confirmed. A number that was verified at the start was
confirmed before it. -/
def confirmedNumber (init : AccountStore) (userId : Uuid) : AccountLog → Option String
  | [] =>
    ((init.user? userId).filter fun u => u.phoneNumberVerifiedAt.isSome).bind Account.phoneNumber
  | e :: l => (e.event.confirms? userId).or (confirmedNumber init userId l)

/-- If the phone of the account is verified, it has a number, the one that was confirmed last. -/
def ProvenPhone (init : AccountStore) (userId : Uuid) (l : AccountLog) : Prop :=
  ∀ row ∈ (stateOf init l).user? userId, row.phoneNumberVerifiedAt.isSome = true →
    row.phoneNumber.isSome = true ∧ row.phoneNumber = confirmedNumber init userId l

instance (init : AccountStore) (userId : Uuid) (l : AccountLog) :
    Decidable (ProvenPhone init userId l) :=
  inferInstanceAs (Decidable (∀ row ∈ (stateOf init l).user? userId, _))

/-- In every state of the run, a verified phone number is the one that was confirmed last. -/
def PhonesProven (init : AccountStore) (log : AccountLog) : Prop :=
  ∀ l, l <:+ log → ∀ userId, ProvenPhone init userId l

/-- A write of a number that leaves the stamp alone finds this number in the row, or no stamp. -/
def PhoneStampsCleared (init : AccountStore) (log : AccountLog) : Prop :=
  EveryEntry (fun e l => ∀ c ∈ e.event.change?, ∀ phoneNumber ∈ c.data.phoneNumber,
    c.data.phoneNumberVerifiedAt = none → ∀ row ∈ (stateOf init l).user? c.userId,
      row.phoneNumber = phoneNumber ∨ row.phoneNumberVerifiedAt = none) log

/-- A number is stamped when its code is confirmed, and only then. -/
theorem Justified.confirmed {env : AccountEnv} {a : Agent AccountRequest} {w : AccountWorld}
    {row : Account} {c : Change} (h : Justified env a w row c) :
    (∃ number t, c.kind.confirmed? = some number ∧ c.data.phoneNumber = some (some number) ∧
      c.data.phoneNumberVerifiedAt = some (some t)) ∨
    c.kind.confirmed? = none ∧ ∀ stamp ∈ c.data.phoneNumberVerifiedAt, stamp = none := by
  have hends : ∀ {base actorId data}, EndsAt w row base actorId data →
      base.phoneNumberVerifiedAt = none → ∀ stamp ∈ data.phoneNumberVerifiedAt, stamp = none := by
    intro base actorId data hends hbase stamp hstamp
    have hcolumn := hends.column (f := fun d => d.phoneNumberVerifiedAt) fun _ => rfl
    rw [hcolumn, hbase] at hstamp
    cases hstamp
  cases h with
  | phoneVerified user otp number checkedAt t => exact .inl ⟨number, t, rfl, rfl, rfl⟩
  | deactivation _ _ _ _ _ h | deletion _ _ _ _ _ h | erasure _ _ _ _ _ _ _ h
  | email _ _ _ _ _ _ h | ownPassword _ _ _ _ _ _ h | adminPassword _ _ _ _ _ h
  | passwordReset _ _ _ _ _ _ _ h | revocation _ _ _ _ _ h =>
    exact .inr ⟨rfl, hends h rfl⟩
  | phone =>
    refine .inr ⟨rfl, fun stamp hstamp => ?_⟩
    exact (Option.some_inj.mp hstamp).symm
  | _ =>
    refine .inr ⟨rfl, fun stamp hstamp => ?_⟩
    cases hstamp

section

variable {env : AccountEnv} {init : AccountStore} {σ : AccountConfig} {l : AccountLog}
  {e : Entry AccountStore AccountEvent AccountRequest} {userId : Uuid} {c : Change}

/-- What a write of the account confirms. -/
theorem confirmedNumber_changed (hev : e.event = .changed c) :
    confirmedNumber init c.userId (e :: l) =
      c.kind.confirmed?.or (confirmedNumber init c.userId l) := by
  simp [confirmedNumber, confirms?, hev, AccountEvent.change?, Option.filter]

/-- Other events confirm nothing. -/
theorem confirmedNumber_other (hother : ∀ c ∈ e.event.change?, c.userId ≠ userId) :
    confirmedNumber init userId (e :: l) = confirmedNumber init userId l := by
  have hnone : e.event.change?.filter (fun c => c.userId = userId) = none := by
    refine Option.filter_eq_none_iff.mpr fun c hc => ?_
    simpa using hother c hc
  simp [confirmedNumber, confirms?, hnone]

theorem AccountsRunTo.provenPhone (h : AccountsRunTo env init σ)
    (hinit : ∀ userId, ProvenPhone init userId [])
    (hcleared : PhoneStampsCleared init σ.world.log) (hl : l <:+ σ.world.log) :
    ProvenPhone init userId l := by
  induction l with
  | nil => exact hinit userId
  | cons e l ih =>
    have hbefore := ih ((List.suffix_cons e l).trans hl)
    intro row hrow hverified
    by_cases hwrites : ∃ c, e.event = .changed c ∧ c.userId = userId
    · obtain ⟨c, hev, rfl⟩ := hwrites
      obtain ⟨w, found, rfl, hfound, hafter, hjustified, -⟩ := h.of_changed hl hev
      obtain rfl : c.data.apply found = row := Option.some_inj.mp (hafter.symm.trans hrow)
      rw [confirmedNumber_changed hev]
      rcases hjustified.confirmed with ⟨number, t, hkind, hnumber, -⟩ | ⟨hkind, hstamp⟩
      · simp [hkind, hnumber]
      · -- the stamp was there before, and the number stays
        have hkept : c.data.phoneNumberVerifiedAt = none := by
          by_contra hsome
          obtain ⟨stamp, hwritten⟩ := Option.ne_none_iff_exists'.mp hsome
          obtain rfl := hstamp stamp hwritten
          simp [hwritten] at hverified
        have hstamped : found.phoneNumberVerifiedAt.isSome = true := by
          simpa [hkept] using hverified
        have hnumber : (c.data.apply found).phoneNumber = found.phoneNumber := by
          rw [AccountUpdateInput.phoneNumber_apply]
          cases hwritten : c.data.phoneNumber with
          | none => rfl
          | some number =>
            have hcond := everyEntry_iff.mp hcleared e w.log hl c (change?_eq_some.mpr hev) number
              hwritten hkept found hfound
            rcases hcond with hsame | hunstamped
            · exact hsame.symm
            · simp [hunstamped] at hstamped
        rw [hkind, Option.none_or, hnumber]
        exact hbefore found hfound hstamped
    · have hother : ∀ c ∈ e.event.change?, c.userId ≠ userId := by
        intro c hc hid
        exact hwrites ⟨c, change?_eq_some.mp hc, hid⟩
      rw [confirmedNumber_other hother]
      rcases h.row_of hl hrow with hold | ⟨c, found, hev, hid, -⟩ | ⟨-, now, hnew⟩
      · exact hbefore row hold hverified
      · exact absurd ⟨c, hev, hid⟩ hwrites
      · rw [hnew.phoneNumberVerifiedAt] at hverified
        cases hverified

end

/-- A verified number is the one that was confirmed last, in every state, exactly when no write of
a number keeps the stamp of another. -/
theorem phonesProven_iff {env : AccountEnv} {init : AccountStore} {σ : AccountConfig}
    (h : AccountsRunTo env init σ) (hinit : ∀ userId, ProvenPhone init userId []) :
    PhonesProven init σ.world.log ↔ PhoneStampsCleared init σ.world.log := by
  constructor
  · intro hproven
    refine everyEntry_iff.mpr fun e l hl c hc number hnumber hstamp row hrow => ?_
    have hev := change?_eq_some.mp hc
    obtain ⟨hafter, w, hjustified⟩ := h.of_changed_row hl hev hrow
    by_contra hnot
    obtain ⟨hne, hunstamped⟩ := not_or.mp hnot
    have hstamped := Option.isSome_iff_ne_none.mpr hunstamped
    have hkind : c.kind.confirmed? = none := by
      rcases hjustified.confirmed with ⟨_, t, -, -, hwritten⟩ | ⟨hkind, -⟩
      · rw [hstamp] at hwritten
        cases hwritten
      · exact hkind
    -- the same number was confirmed last before the write and after it
    obtain ⟨-, hbefore⟩ :=
      hproven l ((List.suffix_cons e l).trans hl) c.userId row hrow hstamped
    have hafterStamp : (c.data.apply row).phoneNumberVerifiedAt.isSome = true := by
      rw [AccountUpdateInput.phoneNumberVerifiedAt_apply, hstamp, Option.getD_none]
      exact hstamped
    obtain ⟨-, hlater⟩ := hproven (e :: l) hl c.userId _ hafter hafterStamp
    have hwritten : c.data.phoneNumber = some number := hnumber
    rw [confirmedNumber_changed hev, hkind, Option.none_or, ← hbefore,
      AccountUpdateInput.phoneNumber_apply, hwritten, Option.getD_some] at hlater
    exact hne hlater.symm
  · intro hcleared l hl userId
    exact h.provenPhone hinit hcleared hl

/-- Ann confirms one number, and then puts another one on her profile. -/
def numberOnProfile : List (Order AccountRequest) :=
  [.serve 1 (.requestPhoneVerification "ann" "secret" "+1" "42" true), .proceed 1, .proceed 1,
    .proceed 1, .serve 2 (.verifyAndUpdatePhoneNumber "ann" "42" "+1"), .proceed 2, .proceed 2,
    .serve 3 (.updateInfo "ann" { phoneNumber := some (some "+2") }), .proceed 3, .proceed 3]

theorem Sample.provenPhone (userId : Uuid) : ProvenPhone (accountStore ann) userId [] := by
  intro row hrow hverified
  obtain rfl := user?_accountStore hrow
  cases hverified

theorem phonesProven_iff_numberOnProfile :
    PhonesProven (Sample.accountStore Sample.ann)
        (Sample.performAccounts Sample.ann 5000 numberOnProfile).world.log ↔
      PhoneStampsCleared (Sample.accountStore Sample.ann)
        (Sample.performAccounts Sample.ann 5000 numberOnProfile).world.log :=
  phonesProven_iff (Sample.accountsRunTo _ _ _ (by simp [Sample.ann, Sample.user]) rfl)
    Sample.provenPhone

/-- The other number is stamped. -/
theorem not_phonesProven_numberOnProfile :
    AccountsRunTo Sample.accountEnv (Sample.accountStore Sample.ann)
        (Sample.performAccounts Sample.ann 5000 numberOnProfile) ∧
      ¬ PhonesProven (Sample.accountStore Sample.ann)
        (Sample.performAccounts Sample.ann 5000 numberOnProfile).world.log := by
  refine ⟨Sample.accountsRunTo _ _ _ (by simp [Sample.ann, Sample.user]) rfl, fun h => ?_⟩
  exact absurd (h _ (List.suffix_refl _) "ann") (by decide +kernel)

end NestApi
