import NestApi.Accounts.Runs

/-!
# An erased account stays erased

The profile update and the picture read the row again under its lock and give up on a deleted
account. The other writers look at the account before they wait for the lock, and then write by
id, so an erasure that commits in between, or one that the caller's authentication did not see,
does not stop them.
-/

namespace NestApi

open Txn Accounts AccountEvent

/-! ### What an erasure leaves -/

/-- The columns that say who the account belongs to, and the slot. -/
structure PersonalData where
  email : String
  username : Option String
  firstName : String
  middleName : Option String
  lastName : String
  phoneNumber : Option String
  gender : Option String
  birthday : Option String
  timezone : Option String
  profileImageFileAssetId : Option Uuid
  otpHash : Option String
  otpPurpose : Option OtpPurpose
  otpExpiresAt : Option ℕ
deriving DecidableEq

def Account.personalData (u : Account) : PersonalData where
  email := u.email
  username := u.username
  firstName := u.firstName
  middleName := u.middleName
  lastName := u.lastName
  phoneNumber := u.phoneNumber
  gender := u.gender
  birthday := u.birthday
  timezone := u.timezone
  profileImageFileAssetId := u.profileImageFileAssetId
  otpHash := u.otpHash
  otpPurpose := u.otpPurpose
  otpExpiresAt := u.otpExpiresAt

/-- The personal columns as `gdprErase` leaves them. -/
def erasedPersonalData (userId : Uuid) : PersonalData where
  email := s!"deleted-{userId}@deleted.invalid"
  username := none
  firstName := "Deleted"
  middleName := none
  lastName := "User"
  phoneNumber := none
  gender := none
  birthday := none
  timezone := none
  profileImageFileAssetId := none
  otpHash := none
  otpPurpose := none
  otpExpiresAt := none

/-- The write names no personal column, or writes null. -/
structure AccountUpdateInput.Impersonal (data : AccountUpdateInput) : Prop where
  email : data.email = none
  username : data.username.join = none
  firstName : data.firstName = none
  middleName : data.middleName.join = none
  lastName : data.lastName = none
  phoneNumber : data.phoneNumber.join = none
  gender : data.gender.join = none
  birthday : data.birthday.join = none
  timezone : data.timezone.join = none
  profileImageFileAssetId : data.profileImageFileAssetId.join = none
  otpHash : data.otpHash.join = none
  otpPurpose : data.otpPurpose.join = none
  otpExpiresAt : data.otpExpiresAt.join = none

theorem getD_none_of_join {α : Type} {x : Option (Option α)} (h : x.join = none) :
    x.getD none = none := by
  cases x with
  | none => rfl
  | some y => exact h

/-- An impersonal write leaves an erased account as it is. -/
theorem AccountUpdateInput.Impersonal.personalData_apply {data : AccountUpdateInput} {u : Account}
    {userId : Uuid} (h : data.Impersonal) (hu : u.personalData = erasedPersonalData userId) :
    (data.apply u).personalData = erasedPersonalData userId := by
  have hcolumns := hu
  simp only [Account.personalData, erasedPersonalData, PersonalData.mk.injEq] at hcolumns ⊢
  obtain ⟨hemail, husername, hfirst, hmiddle, hlast, hphone, hgender, hbirthday, htimezone, himage,
    hhash, hpurpose, hexpires⟩ := hcolumns
  simp [AccountUpdateInput.apply, UserUpdateInput.apply, hemail, husername, hfirst, hmiddle, hlast,
    hphone, hgender, hbirthday, htimezone, himage, hhash, hpurpose, hexpires, h.email,
    h.firstName, h.lastName, getD_none_of_join h.username,
    getD_none_of_join h.middleName, getD_none_of_join h.phoneNumber,
    getD_none_of_join h.gender, getD_none_of_join h.birthday,
    getD_none_of_join h.timezone, getD_none_of_join h.profileImageFileAssetId,
    getD_none_of_join h.otpHash, getD_none_of_join h.otpPurpose,
    getD_none_of_join h.otpExpiresAt]

/-! ### Writers -/

/-- The operation writes personal columns without reading the row again under its lock. -/
def ChangeKind.IsUnguarded : ChangeKind → Prop
  | .update | .deactivation | .username | .email | .phone | .phoneCode | .phoneVerified _
  | .passwordResetMinted _ => True
  | _ => False

/-- The event erased the account. -/
def AccountEvent.Erases (userId : Uuid) (ev : AccountEvent) : Prop :=
  ∃ c ∈ ev.change?, c.userId = userId ∧ c.kind = .erasure

instance (userId : Uuid) : DecidablePred (AccountEvent.Erases userId) :=
  fun ev => inferInstanceAs (Decidable (∃ c ∈ ev.change?, _))

section Writers

variable {env : AccountEnv} {a : Agent AccountRequest} {w : AccountWorld} {row : Account}
  {base data : AccountUpdateInput} {actorId : Option Uuid} {c : Change}

theorem EndsAt.impersonal (h : EndsAt w row base actorId data) (hbase : base.Impersonal) :
    data.Impersonal := by
  obtain ⟨t, -, rfl, -⟩ := h
  obtain ⟨hemail, husername, hfirst, hmiddle, hlast, hphone, hgender, hbirthday, htimezone, himage,
    hhash, hpurpose, hexpires⟩ := hbase
  exact ⟨hemail, husername, hfirst, hmiddle, hlast, hphone, hgender, hbirthday, htimezone, himage,
    hhash, hpurpose, hexpires⟩

/-- A write of another kind leaves personal data alone, or found the account live. -/
theorem Justified.impersonal (h : Justified env a w row c) (hkind : c.kind ≠ .erasure)
    (hguarded : ¬ c.kind.IsUnguarded) : row.deletedAt = none ∨ c.data.Impersonal := by
  cases h with
  | update | deactivation | username | email | phone | phoneCode | phoneVerified
  | passwordResetMinted => exact absurd trivial hguarded
  | erasure => exact absurd rfl hkind
  | info _ _ _ hlive | profileImage _ _ hlive => exact .inl hlive
  | emailVerified _ _ _ _ _ _ _ hlive => exact .inl hlive
  | deletion _ _ _ _ _ h | ownPassword _ _ _ _ _ _ h | adminPassword _ _ _ _ _ h
  | passwordReset _ _ _ _ _ _ _ h | revocation _ _ _ _ _ h =>
    refine .inr (h.impersonal ?_)
    constructor <;> rfl

/-- Nothing brings a deleted account back. -/
theorem Justified.deletedAt (h : Justified env a w row c) : c.data.deletedAt ≠ some none := by
  have hends : ∀ {base actorId data}, EndsAt w row base actorId data →
      base.deletedAt ≠ some none → data.deletedAt ≠ some none := by
    intro base actorId data hends hbase
    rwa [hends.column (f := fun d => d.deletedAt) fun _ => rfl]
  cases h with
  | deactivation _ _ _ _ _ h | deletion _ _ _ _ _ h | erasure _ _ _ _ _ _ _ h
  | email _ _ _ _ _ _ h | ownPassword _ _ _ _ _ _ h | adminPassword _ _ _ _ _ h
  | passwordReset _ _ _ _ _ _ _ h | revocation _ _ _ _ _ h => exact hends h (by rintro ⟨⟩)
  | _ => rintro ⟨⟩

end Writers

/-! ### The law and its condition -/

/-- The account was erased. -/
def ErasedIn (userId : Uuid) (l : AccountLog) : Prop :=
  SomeEntry (fun e _ => e.event.Erases userId) l

instance (userId : Uuid) : DecidablePred (ErasedIn userId) :=
  fun l => inferInstanceAs (Decidable (SomeEntry _ l))

/-- Nothing personal is written to an erased account, whose personal columns stay as they were
left. -/
structure ErasurePermanent (init : AccountStore) (log : AccountLog) : Prop where
  unwritten : EveryEntry (fun e l => ∀ c ∈ e.event.change?, c.kind ≠ .erasure →
    ErasedIn c.userId l → c.data.Impersonal) log
  kept : ∀ l, l <:+ log → ∀ userId, ErasedIn userId l →
    ∀ row ∈ (stateOf init l).user? userId, row.personalData = erasedPersonalData userId

/-- No unguarded writer comes with personal data after an erasure. -/
def ErasuresRespected (log : AccountLog) : Prop :=
  EveryEntry (fun e l => ∀ c ∈ e.event.change?, c.kind.IsUnguarded → ErasedIn c.userId l →
    c.data.Impersonal) log

/-- The account is deleted, and its personal columns are those of an erased one. -/
structure Account.IsErased (u : Account) (userId : Uuid) : Prop where
  deleted : u.deletedAt ≠ none
  anonymised : u.personalData = erasedPersonalData userId

section

variable {env : AccountEnv} {init : AccountStore} {σ : AccountConfig} {l : AccountLog}
  {e : Entry AccountStore AccountEvent AccountRequest} {userId : Uuid} {row : Account}
  {c : Change}

theorem AccountsRunTo.isErased_of_erases (h : AccountsRunTo env init σ)
    (hl : (e :: l) <:+ σ.world.log) (herases : e.event.Erases userId) :
    ∃ r, e.db.user? userId = some r ∧ r.IsErased userId := by
  obtain ⟨c, hc, rfl, hkind⟩ := herases
  obtain ⟨w, row, -, -, hafter, hjustified, -⟩ := h.of_changed hl (change?_eq_some.mp hc)
  refine ⟨_, hafter, ?_⟩
  cases hjustified with
  | erasure user _ hash t _ _ _ hends =>
    obtain ⟨t', -, rfl, -⟩ := hends
    exact ⟨by rintro ⟨⟩, rfl⟩
  | _ => cases hkind

/-- A write that an erased account may meet leaves it erased. -/
theorem Account.IsErased.apply {a : Agent AccountRequest} {w : AccountWorld}
    (h : row.IsErased userId) (hjustified : Justified env a w row c)
    (hpersonal : c.data.Impersonal) : (c.data.apply row).IsErased userId := by
  constructor
  · have hnull := hjustified.deletedAt
    have hdeleted : (c.data.apply row).deletedAt = c.data.deletedAt.getD row.deletedAt := rfl
    rw [hdeleted]
    cases hwritten : c.data.deletedAt with
    | none => exact h.deleted
    | some stamp =>
      rw [hwritten] at hnull
      exact fun hnone => hnull (congrArg some hnone)
  · exact hpersonal.personalData_apply h.anonymised

/-- What an erased account meets after its erasure, while unguarded writers keep away. -/
theorem AccountsRunTo.impersonal_of_respected (h : AccountsRunTo env init σ)
    (hrespected : ErasuresRespected σ.world.log) (hl : (e :: l) <:+ σ.world.log)
    (hev : e.event = .changed c) (hkind : c.kind ≠ .erasure) (herased : ErasedIn c.userId l)
    (hrow : (stateOf init l).user? c.userId = some row) (hdeleted : row.deletedAt ≠ none) :
    c.data.Impersonal := by
  by_cases hunguarded : c.kind.IsUnguarded
  · exact everyEntry_iff.mp hrespected e l hl c (change?_eq_some.mpr hev) hunguarded herased
  · obtain ⟨-, w, hjustified⟩ := h.of_changed_row hl hev hrow
    rcases hjustified.impersonal hkind hunguarded with hlive | hpersonal
    · exact absurd hlive hdeleted
    · exact hpersonal

theorem AccountsRunTo.isErased (h : AccountsRunTo env init σ)
    (hrespected : ErasuresRespected σ.world.log) (hl : l <:+ σ.world.log)
    (herased : ErasedIn userId l) : ∃ r, (stateOf init l).user? userId = some r ∧
      r.IsErased userId := by
  obtain ⟨x, k, hx, herases⟩ := someEntry_iff.mp herased
  refine stateOf_persists (P := fun s : AccountStore => ∃ r, s.user? userId = some r ∧
    r.IsErased userId) hx (h.isErased_of_erases (hx.trans hl) herases) ?_
  rintro e j hj hej ⟨r, hr, hrerased⟩
  have hlog := hej.trans hl
  rcases h.row_after hlog hr with hkept | ⟨c, hev, rfl, hafter⟩
  · exact ⟨r, hkept, hrerased⟩
  · by_cases hkind : c.kind = .erasure
    · exact h.isErased_of_erases hlog ⟨c, change?_eq_some.mpr hev, rfl, hkind⟩
    · have hbefore : ErasedIn c.userId j := someEntry_iff.mpr ⟨x, k, hj, herases⟩
      have hpersonal := h.impersonal_of_respected hrespected hlog hev hkind hbefore hr
        hrerased.deleted
      obtain ⟨-, w, hjustified⟩ := h.of_changed_row hlog hev hr
      exact ⟨_, hafter, hrerased.apply hjustified hpersonal⟩

end

/-- Erasures are permanent exactly when the unguarded writers respect them: the others do by
themselves. -/
theorem erasurePermanent_iff {env : AccountEnv} {init : AccountStore} {σ : AccountConfig}
    (h : AccountsRunTo env init σ) :
    ErasurePermanent init σ.world.log ↔ ErasuresRespected σ.world.log := by
  constructor
  · intro hpermanent
    refine everyEntry_iff.mpr fun e l hl c hc hunguarded herased => ?_
    have hkind : c.kind ≠ .erasure := by
      intro hkind
      rw [hkind] at hunguarded
      exact hunguarded
    exact everyEntry_iff.mp hpermanent.unwritten e l hl c hc hkind herased
  · intro hrespected
    constructor
    · refine everyEntry_iff.mpr fun e l hl c hc hkind herased => ?_
      have hlog := (List.suffix_cons e l).trans hl
      obtain ⟨r, hr, hrerased⟩ := h.isErased hrespected hlog herased
      exact h.impersonal_of_respected hrespected hl (change?_eq_some.mp hc) hkind herased hr
        hrerased.deleted
    · intro l hl userId herased row hrow
      obtain ⟨r, hr, hrerased⟩ := h.isErased hrespected hl herased
      obtain rfl : row = r := Option.some_inj.mp (hrow.symm.trans hr)
      exact hrerased.anonymised

/-- Ann saves a phone number while she erases her account. -/
def numberUnderErasure : List (Order AccountRequest) :=
  [.serve 1 (.updatePhoneNumber "ann" "+1"), .proceed 1, .serve 2 (.gdprErase "ann" "secret"),
    .proceed 2, .proceed 2, .proceed 2, .proceed 1]

theorem erasurePermanent_iff_numberUnderErasure :
    ErasurePermanent (Sample.accountStore Sample.ann)
        (Sample.performAccounts Sample.ann 5000 numberUnderErasure).world.log ↔
      ErasuresRespected (Sample.performAccounts Sample.ann 5000 numberUnderErasure).world.log :=
  erasurePermanent_iff (Sample.accountsRunTo _ _ _ (by simp [Sample.ann, Sample.user]) rfl)

/-- The erased account has a phone number. -/
theorem not_erasurePermanent_numberUnderErasure :
    AccountsRunTo Sample.accountEnv (Sample.accountStore Sample.ann)
        (Sample.performAccounts Sample.ann 5000 numberUnderErasure) ∧
      ¬ ErasurePermanent (Sample.accountStore Sample.ann)
        (Sample.performAccounts Sample.ann 5000 numberUnderErasure).world.log := by
  refine ⟨Sample.accountsRunTo _ _ _ (by simp [Sample.ann, Sample.user]) rfl, fun h => ?_⟩
  have hkept := h.kept _ (List.suffix_refl _) "ann" (by decide +kernel)
  exact absurd hkept (by decide +kernel)

end NestApi
