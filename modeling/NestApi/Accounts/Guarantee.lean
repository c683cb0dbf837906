import NestApi.Accounts.System
import NestApi.Txn.Soundness

/-!
# What a step of the account system does

For each event, its effect on the store and what its process has done before. A write of an
account is justified by what was read without a lock, and by the row that the write finds: every
write holds the lock of its row, so the row at the commit is the row that it found.
-/

namespace NestApi

open Txn Accounts McpOAuth

/-- A history of the account system. -/
abbrev AccountLog := List (Entry AccountStore AccountEvent AccountRequest)

namespace AccountEvent

/-- The write that an event commits. -/
def change? : AccountEvent → Option Change
  | .changed c => some c
  | _ => none

theorem change?_eq_some {ev : AccountEvent} {c : Change} :
    ev.change? = some c ↔ ev = .changed c := by
  cases ev <;> simp [change?]

/-- A row was found without a lock. -/
def found? : AccountEvent → Option Account
  | .userRead found => found
  | _ => none

/-- The event is the commit of a write. -/
def IsChange (ev : AccountEvent) : Prop := ev.change?.isSome = true

instance : DecidablePred IsChange := fun ev => inferInstanceAs (Decidable (ev.change?.isSome = _))

/-- The event is a lookup that found an account. -/
def IsFound (ev : AccountEvent) : Prop := ev.found?.isSome = true

instance : DecidablePred IsFound := fun ev => inferInstanceAs (Decidable (ev.found?.isSome = _))

end AccountEvent

/-- The store has an account or a browser session of this name. -/
def AccountStore.Names (s : AccountStore) (x : Uuid) : Prop :=
  (∃ u ∈ s.users, u.id = x) ∨ ∃ session ∈ s.oauthSessions, session.uid = x

/-- A code or a refresh token carries what its browser session says. -/
def OAuthSession.Grants (session : OAuthSession) (credential : OAuthCredential) : Prop :=
  session.uid = credential.sessionUid ∧ session.accountId = credential.accountId ∧
    session.authTime = credential.authTime

/-- The process read this row without a lock. -/
def HasRead (a : Agent AccountRequest) (w : AccountWorld) (user : Account) : Prop :=
  ∃ s l, (⟨a, .userRead (some user), s⟩ :: l) <:+ w.log

/-- The process drew the name, and nothing in the store has it. -/
structure NewName (a : Agent AccountRequest) (w : AccountWorld) (x : Uuid) : Prop where
  issued : w.issued.find? x = some (x, some a.pid)
  unused : ¬ w.db.Names x

/-- An account as `create` inserts it. -/
structure Account.IsNew (u : Account) (now : ℕ) : Prop where
  emailVerifiedAt : u.emailVerifiedAt = none
  phoneNumberVerifiedAt : u.phoneNumberVerifiedAt = none
  otpHash : u.otpHash = none
  cutoff : ∀ c ∈ u.passwordChangedAt, c ≤ now

/-- The columns `base`, written while every session ends: the cutoff was computed under the lock
of the row, so it is not before the last one. -/
def EndsAt (w : AccountWorld) (row : Account) (base : AccountUpdateInput) (actorId : Option Uuid)
    (data : AccountUpdateInput) : Prop :=
  ∃ t ≤ w.now, data = base.endSessions actorId (nextWholeSecond t) ∧
    ∀ c ∈ row.passwordChangedAt, c ≤ nextWholeSecond t

/-- What justifies a write that finds `row`. -/
inductive Justified (env : AccountEnv) (a : Agent AccountRequest) (w : AccountWorld)
    (row : Account) : Change → Prop
  | update (existing : Account) (dto : UpdateAccountDto) (actorId : Option Uuid)
      (hread : HasRead a w existing) :
      Justified env a w row
        ⟨.update, existing.id, some existing, updateData existing dto actorId⟩
  | deactivation (existing : Account) (dto : UpdateAccountDto) (actorId : Option Uuid)
      (data : AccountUpdateInput) (hread : HasRead a w existing)
      (hends : EndsAt w row (updateData existing dto actorId) actorId data) :
      Justified env a w row ⟨.deactivation, existing.id, some existing, data⟩
  | deletion (seen : Account) (actorId : Option Uuid) (t : ℕ) (data : AccountUpdateInput)
      (hread : HasRead a w seen)
      (hends : EndsAt w row { deletedAt := some (some t), deletedBy := some actorId } actorId
        data) :
      Justified env a w row ⟨.deletion, seen.id, some seen, data⟩
  | erasure (user : Account) (currentPassword hash : String) (t : ℕ) (data : AccountUpdateInput)
      (hread : HasRead a w user)
      (hpassword : env.bcryptCompare currentPassword user.password = true)
      (hends : EndsAt w row (erasedData user.id hash t) (some user.id) data) :
      Justified env a w row ⟨.erasure, user.id, some user, data⟩
  | info (seen : Account) (dto : UpdateInfoDto) (hread : HasRead a w seen)
      (hlive : row.deletedAt = none) :
      Justified env a w row ⟨.info, seen.id, some seen, infoData dto seen.id⟩
  | profileImage (userId : Uuid) (fileId : Option Uuid) (hlive : row.deletedAt = none) :
      Justified env a w row ⟨.profileImage, userId, none,
        { profileImageFileAssetId := some fileId, updatedBy := some (some userId) }⟩
  | username (seen : Account) (username : String) (hread : HasRead a w seen) :
      Justified env a w row ⟨.username, seen.id, some seen,
        { username := some (some username), updatedBy := some (some seen.id) }⟩
  | email (user : Account) (currentPassword newEmail : String) (data : AccountUpdateInput)
      (hread : HasRead a w user)
      (hpassword : env.bcryptCompare currentPassword user.password = true)
      (hends : EndsAt w row { email := some newEmail, emailVerifiedAt := some none }
        (some user.id) data) :
      Justified env a w row ⟨.email, user.id, some user, data⟩
  | ownPassword (user : Account) (currentPassword hash : String) (data : AccountUpdateInput)
      (hread : HasRead a w user)
      (hpassword : env.bcryptCompare currentPassword user.password = true)
      (hends : EndsAt w row { password := some hash } (some user.id) data) :
      Justified env a w row ⟨.ownPassword, user.id, some user, data⟩
  | adminPassword (seen : Account) (actorId : Uuid) (hash : String) (data : AccountUpdateInput)
      (hread : HasRead a w seen)
      (hends : EndsAt w row { password := some hash } (some actorId) data) :
      Justified env a w row ⟨.adminPassword, seen.id, some seen, data⟩
  | passwordReset (user : Account) (token hash : String) (t : ℕ) (data : AccountUpdateInput)
      (hread : HasRead a w user)
      (hvalid : UsersService.isResettable env.toEnv token t user.toUser = true)
      (hends : EndsAt w row
        { password := some hash, otpHash := some none, otpPurpose := some none,
          otpExpiresAt := some none } (some user.id) data) :
      Justified env a w row ⟨.passwordReset token, user.id, some user, data⟩
  | passwordResetMinted (user : Account) (token : Uuid) (t : ℕ) (hread : HasRead a w user)
      (hissued : w.issued.find? token = some (token, some a.pid)) :
      Justified env a w row ⟨.passwordResetMinted token, user.id, some user,
        { otpHash := some (some (env.hashOpaqueToken token)),
          otpPurpose := some (some .passwordReset), otpExpiresAt := some (some t) }⟩
  | phoneCode (user : Account) (hash : String) (t : ℕ) (hread : HasRead a w user) :
      Justified env a w row ⟨.phoneCode, user.id, some user,
        { otpHash := some (some hash), otpPurpose := some (some .phoneVerify),
          otpExpiresAt := some (some t) }⟩
  | phoneVerified (user : Account) (otp phoneNumber : String) (checkedAt t : ℕ)
      (hread : HasRead a w user)
      (hvalid : isVerifiable env otp phoneNumber checkedAt user = true) :
      Justified env a w row ⟨.phoneVerified phoneNumber, user.id, some user,
        { phoneNumber := some (some phoneNumber), phoneNumberVerifiedAt := some (some t),
          otpHash := some none, otpPurpose := some none, otpExpiresAt := some none,
          updatedBy := some (some user.id) }⟩
  | phone (seen : Account) (phoneNumber : String) (hread : HasRead a w seen) :
      Justified env a w row ⟨.phone, seen.id, some seen,
        { phoneNumber := some (some phoneNumber), phoneNumberVerifiedAt := some none,
          updatedBy := some (some seen.id) }⟩
  | emailVerified (user : Account) (token : String) (verifiedAt t : ℕ) (hread : HasRead a w user)
      (hlink : env.jwtVerify token verifiedAt = some (verifyPayload user))
      (hemail : row.email = user.email) (hlive : row.deletedAt = none) :
      Justified env a w row ⟨.emailVerified token user.email, user.id, some user,
        { emailVerifiedAt := some (some t), updatedBy := some (some user.id) }⟩
  | revocation (userId : Uuid) (actorId : Option Uuid) (seen : Option Account)
      (data : AccountUpdateInput) (hread : ∀ user ∈ seen, HasRead a w user ∧ user.id = userId)
      (hends : EndsAt w row {} actorId data) :
      Justified env a w row ⟨.revocation, userId, seen, data⟩

/-- After its write, the process recorded the change of address and, when the address that it
had read was verified, queued the notice for it. -/
def Noticed (a : Agent AccountRequest) (log : AccountLog) : Prop :=
  ∃ c s l seen, (⟨a, .changed c, s⟩ :: l) <:+ log ∧ c.seen = some seen ∧
    ∀ email ∈ c.data.email, email ≠ seen.email →
      ∃ row s' k, (⟨a, .audited row, s'⟩ :: k) <:+ log ∧ l.length < k.length ∧
        row.action = "user.email_changed" ∧ row.targetUserId = c.userId ∧
          row.previousEmail = some seen.email ∧ (seen.emailVerifiedAt ≠ none →
            ∃ s'' j, (⟨a, .queued (.emailChangedNotice c.userId row.id), s''⟩ :: j) <:+ log ∧
              k.length < j.length)

/-- The steps. -/
inductive AccountStep (env : AccountEnv) (a : Agent AccountRequest) (L : RowLock → Prop)
    (w : AccountWorld) : AccountEvent → AccountStore → Prop
  | userRead (found : Option Account) (hfound : ∀ u ∈ found, w.db.user? u.id = some u) :
      AccountStep env a L w (.userRead found) w.db
  | userCreated (user : Account) (hname : NewName a w user.id) (hlock : L (.user user.id))
      (hnew : user.IsNew w.now) :
      AccountStep env a L w (.userCreated user.id) (w.db.insertUser user)
  | changed (c : Change) (row : Account) (tokens : Table RefreshToken.id)
      (hrow : w.db.user? c.userId = some row) (hlock : L (.user c.userId))
      (hjustified : Justified env a w row c) :
      AccountStep env a L w (.changed c)
        { w.db.updateUser c.userId c.data with refreshTokens := tokens }
  | unchanged (userId : Uuid) : AccountStep env a L w (.unchanged userId) w.db
  | sessionStarted (userId : Uuid) (t : RefreshToken) :
      AccountStep env a L w (.sessionStarted userId) (w.db.insertToken t)
  | audited (row : AuditLog) : AccountStep env a L w (.audited row) (w.db.insertAuditLog row)
  | queued (job : AccountJob) : AccountStep env a L w (.queued job) w.db
  | emailVerificationMailed (user : Account) (t : ℕ) (hread : HasRead a w user) :
      AccountStep env a L w
        (.emailVerificationMailed user.id user.email (env.jwtSign (verifyPayload user) t)) w.db
  | passwordResetMailed (user : Account) (token : String)
      (hminted : ∃ c s l, (⟨a, .changed c, s⟩ :: l) <:+ w.log ∧
        c.kind = .passwordResetMinted token ∧ c.seen = some user) :
      AccountStep env a L w (.passwordResetMailed user.id user.email token) w.db
  | emailChangedNoticeMailed (userId : Uuid) (email : String)
      (hrow : ∃ s, w.Since 0 s ∧ ∃ row ∈ s.auditLogs, row.action = "user.email_changed" ∧
        row.targetUserId = userId ∧ row.previousEmail = some email) :
      AccountStep env a L w (.emailChangedNoticeMailed userId email) w.db
  | phoneCodeTexted (userId : Uuid) (phoneNumber : String) :
      AccountStep env a L w (.phoneCodeTexted userId phoneNumber) w.db
  | noticesSettled (hnoticed : Noticed a w.log) : AccountStep env a L w .noticesSettled w.db
  | oauthSignedIn (session : OAuthSession) (hname : NewName a w session.uid)
      (hread : ∃ user, HasRead a w user ∧ user.id = session.accountId) :
      AccountStep env a L w (.oauthSignedIn session) (w.db.insertOAuthSession session)
  | oauthCodeIssued (code : OAuthCredential)
      (hsession : ∃ session ∈ w.db.oauthSessions, session.Grants code) :
      AccountStep env a L w (.oauthCodeIssued code) (w.db.insertOAuthCredential code)
  | accessTokenIssued (token : OAuthAccessToken)
      (hsession : ∃ session ∈ w.db.oauthSessions, session.uid = token.sessionUid ∧
        session.accountId = token.accountId ∧ ∃ user, HasRead a w user ∧
          user.id = token.accountId ∧ isAccountUsable user (some session.authTime) = true) :
      AccountStep env a L w (.accessTokenIssued token) (w.db.insertOAuthAccessToken token)
  | accessTokenVerified (token : OAuthAccessToken) (hmem : token ∈ w.db.oauthAccessTokens) :
      AccountStep env a L w (.accessTokenVerified token (isAccepted w.db token)) w.db

/-- The guarantee of the account system. -/
def accountGuarantee (env : AccountEnv) :
    Guarantee AccountStore RowLock AccountEvent Uuid AccountRequest :=
  AccountStep env

/-! ### What a write may name -/

section Writes

variable {env : AccountEnv} {a : Agent AccountRequest} {w w' : AccountWorld} {row : Account}
  {base data : AccountUpdateInput} {actorId : Option Uuid} {c : Change}

/-- A write keeps the cutoff, or moves it to a whole second that is not before it. -/
theorem Justified.cutoff (h : Justified env a w row c) :
    c.data.passwordChangedAt = none ∨ ∃ t ≤ w.now,
      c.data.passwordChangedAt = some (some (nextWholeSecond t)) ∧
        ∀ x ∈ row.passwordChangedAt, x ≤ nextWholeSecond t := by
  have hends : ∀ {base actorId data}, EndsAt w row base actorId data → ∃ t ≤ w.now,
      data.passwordChangedAt = some (some (nextWholeSecond t)) ∧
        ∀ x ∈ row.passwordChangedAt, x ≤ nextWholeSecond t := by
    rintro base actorId data ⟨t, ht, rfl, hle⟩
    exact ⟨t, ht, rfl, hle⟩
  cases h with
  | deactivation _ _ _ _ _ h | deletion _ _ _ _ _ h | erasure _ _ _ _ _ _ _ h
  | email _ _ _ _ _ _ h | ownPassword _ _ _ _ _ _ h | adminPassword _ _ _ _ _ h
  | passwordReset _ _ _ _ _ _ _ h | revocation _ _ _ _ _ h => exact .inr (hends h)
  | _ => exact .inl rfl

/-- The row that a write had read was that of the account. -/
theorem Justified.seen (h : Justified env a w row c) {user : Account}
    (hseen : c.seen = some user) : HasRead a w user ∧ user.id = c.userId := by
  cases h with
  | profileImage => cases hseen
  | revocation _ _ _ _ hread => exact hread user hseen
  | _ =>
    obtain rfl := Option.some_inj.mp hseen
    exact ⟨by assumption, rfl⟩

/-- The other columns of a session end are those of the write that it belongs to. -/
theorem EndsAt.column {γ : Type} {f : AccountUpdateInput → γ}
    (h : EndsAt w row base actorId data)
    (hf : ∀ cutoff, f (base.endSessions actorId cutoff) = f base) : f data = f base := by
  obtain ⟨t, -, rfl, -⟩ := h
  exact hf _

theorem EndsAt.mono (h : EndsAt w row base actorId data) (hnow : w.now ≤ w'.now) :
    EndsAt w' row base actorId data := by
  obtain ⟨t, ht, hdata, hle⟩ := h
  exact ⟨t, ht.trans hnow, hdata, hle⟩

/-- What was noticed stays noticed. -/
theorem Noticed.mono {log log' : AccountLog} (h : Noticed a log) (hlog : log <:+ log') :
    Noticed a log' := by
  obtain ⟨c, s, l, seen, hl, hseen, hnotice⟩ := h
  refine ⟨c, s, l, seen, hl.trans hlog, hseen, fun email hemail hne => ?_⟩
  obtain ⟨row, s', k, hk, hlt, haction, htarget, hprevious, hqueued⟩ := hnotice email hemail hne
  refine ⟨row, s', k, hk.trans hlog, hlt, haction, htarget, hprevious, fun hverified => ?_⟩
  obtain ⟨s'', j, hj, hlt'⟩ := hqueued hverified
  exact ⟨s'', j, hj.trans hlog, hlt'⟩

theorem HasRead.mono {user : Account} (h : HasRead a w user) (hlog : w.log <:+ w'.log) :
    HasRead a w' user := by
  obtain ⟨s, l, hl⟩ := h
  exact ⟨s, l, hl.trans hlog⟩

end Writes

end NestApi
