import NestApi.Accounts.System
import NestApi.Accounts.Guarantee
import NestApi.Txn.Counting

/-!
# A request writes an account once

No program commits two writes of accounts, so a write is known by its process.
-/

namespace NestApi

open Txn Program Accounts McpOAuth AccountEvent

section Once

variable {α β : Type} {n : ℕ} {env : AccountEnv} {userId : Uuid} {kind : ChangeKind}
  {seen : Option Account} {data : AccountUpdateInput} {actorId : Option Uuid} {user : Account}

/-- A report of something else. -/
theorem emit_quiet {ev : AccountEvent} (h : ev.change? = none) :
    (emit ev : AccountTask Unit).AtMost IsChange n := by
  refine fun _ => .inl ⟨?_, trivial⟩
  simp [IsChange, h]

theorem enqueue_quiet {job : AccountJob} : (enqueue job).AtMost IsChange n := emit_quiet rfl

theorem readUser_quiet {find : AccountStore → Option Account} :
    (readUser find).AtMost IsChange n :=
  fun _ => .inl ⟨by simp [IsChange, AccountEvent.change?], trivial⟩

theorem findById_quiet : (findById userId).AtMost IsChange 0 :=
  AtMost.then readUser_quiet fun _ => .orThrow

theorem record_quiet {action : String} {target : Uuid} {previousEmail newEmail : Option String} :
    (record action actorId target previousEmail newEmail).AtMost IsChange 0 :=
  fun _ _ => AtMost.transaction_of_not (AtMost.then trivial fun _ => trivial)
    fun _ => by simp [IsChange, AccountEvent.change?]

/-- An audit row, and nothing else. -/
theorem recorded_quiet {action : String} {target : Uuid} {previousEmail newEmail : Option String} :
    (record action actorId target previousEmail newEmail >>= fun _ => pure ()).AtMost
      IsChange 0 :=
  AtMost.then record_quiet fun _ => trivial

theorem updateUserRow_quiet : (Accounts.updateUserRow userId data).AtMost IsChange 0 :=
  AtMost.then trivial fun _ => AtMost.then (fun _ => trivial) fun _ =>
    AtMost.then .orThrow fun _ => trivial

theorem lockLiveUser_quiet : (lockLiveUser userId).AtMost IsChange 0 :=
  AtMost.then trivial fun _ => AtMost.then (fun _ => trivial) fun _ => .orThrow

theorem endAllSessionsInTransaction_quiet :
    (Accounts.endAllSessionsInTransaction userId actorId data).AtMost IsChange 0 :=
  fun _ => AtMost.then updateUserRow_quiet fun _ _ => trivial

theorem startSession_quiet {cutoff : Option ℕ} :
    (startSession env userId cutoff).AtMost IsChange 0 := by
  refine AtMost.then trivial fun _ => AtMost.transaction_of_not ?_ fun _ => by
    simp [IsChange, AccountEvent.change?]
  exact AtMost.then lockLiveUser_quiet fun _ => AtMost.then .ensure fun _ _ _ _ _ => trivial

theorem updateUser_once : (Accounts.updateUser kind userId seen data).AtMost IsChange 1 :=
  .transaction updateUserRow_quiet

/-- A write, and what does not write after it. -/
theorem AtMost.once {x : AccountTask α} {k : α → AccountTask β} (hx : x.AtMost IsChange 1)
    (hk : ∀ a, (k a).AtMost IsChange 0) : (x >>= k).AtMost IsChange 1 :=
  AtMost.bind hx hk

theorem endAllSessions_once :
    (Accounts.endAllSessions kind userId actorId seen data).AtMost IsChange 1 :=
  AtMost.once (.transaction (AtMost.then trivial fun _ => endAllSessionsInTransaction_quiet))
    fun _ => trivial

theorem applyPasswordChange_once {password : String} :
    (applyPasswordChange env kind userId user password actorId data).AtMost IsChange 1 :=
  fun _ => endAllSessions_once

theorem recordEmailChange_quiet {newEmail : String} :
    (recordEmailChange user newEmail actorId).AtMost IsChange 0 :=
  AtMost.then record_quiet fun _ => .onlyIf enqueue_quiet

theorem afterUpdate_quiet {dto : UpdateAccountDto} :
    (afterUpdate userId user dto actorId).AtMost IsChange 0 :=
  AtMost.then (.onlyIf recorded_quiet) fun _ =>
    AtMost.then (.onlyIf (AtMost.then recordEmailChange_quiet fun _ => enqueue_quiet)) fun _ =>
      emit_quiet rfl

theorem deleteAccount_once {soleOwned : List (String × String)} :
    (deleteAccount userId user actorId soleOwned).AtMost IsChange 1 :=
  AtMost.once (.transaction (AtMost.then trivial fun _ => AtMost.then .ensure fun _ _ =>
    endAllSessionsInTransaction_quiet)) fun _ => trivial

theorem deactivate_once {soleOwned : List (String × String)} :
    (deactivate userId user data actorId soleOwned).AtMost IsChange 1 :=
  AtMost.once (.transaction (AtMost.then trivial fun _ => AtMost.then .ensure fun _ =>
    endAllSessionsInTransaction_quiet)) fun _ => trivial

theorem markEmailVerified_once {token email : String} {now : ℕ} :
    (markEmailVerified token user email now).AtMost IsChange 1 :=
  .transaction (AtMost.then trivial fun _ => AtMost.then (fun _ => trivial) fun _ =>
    AtMost.then (.onlyIf trivial) fun _ => trivial)

theorem transaction_quiet {body : AccountTask α} {ev : α → AccountEvent}
    (hbody : body.AtMost IsChange 0) (hev : ∀ a, (ev a).change? = none) :
    (transaction body ev).AtMost IsChange 0 :=
  AtMost.transaction_of_not hbody fun a => by simp [IsChange, hev]

theorem findUsableAccount_quiet {issuedAt : Option ℕ} :
    (findUsableAccount userId issuedAt).AtMost IsChange 0 :=
  AtMost.then readUser_quiet fun _ => trivial

end Once

/-! ### Requests -/

theorem verifyEmailByToken_once {env : AccountEnv} {token : String} :
    (verifyEmailByToken env token).AtMost IsChange 1 := by
  refine fun _ => AtMost.then .orThrow fun payload => AtMost.then .ensure fun _ =>
    AtMost.then .orThrow fun sub => AtMost.then readUser_quiet fun found =>
      AtMost.then .orThrow fun user => ?_
  split
  · trivial
  · refine fun _ => AtMost.once markEmailVerified_once fun verified => ?_
    split
    · exact recorded_quiet
    · exact AtMost.then readUser_quiet fun _ => .ensure

theorem confirm_quiet {sessionUid : Uuid} : (confirm sessionUid).AtMost IsChange 0 := by
  refine AtMost.then (fun _ => trivial) fun found => ?_
  split
  · trivial
  refine AtMost.then findUsableAccount_quiet fun account => ?_
  split
  · trivial
  refine AtMost.then findUsableAccount_quiet fun again => ?_
  split
  · trivial
  exact fun _ => transaction_quiet trivial fun _ => rfl

theorem exchange_quiet {credentialId : Uuid} : (exchange credentialId).AtMost IsChange 0 := by
  refine AtMost.then (fun _ => trivial) fun found => ?_
  split
  · trivial
  refine AtMost.then findUsableAccount_quiet fun account => ?_
  split
  · trivial
  exact fun _ _ => AtMost.then (transaction_quiet trivial fun _ => rfl) fun _ _ =>
    transaction_quiet trivial fun _ => rfl

theorem create_quiet {env : AccountEnv} {dto : CreateAccountDto} {actorId : Option Uuid} :
    (create env dto actorId).AtMost IsChange 0 := by
  intro salt passwordChangedAt id
  refine AtMost.then (transaction_quiet ?_ fun _ => rfl) fun _ => ?_
  · exact AtMost.then trivial fun _ => trivial
  · exact AtMost.then (.onlyIf recorded_quiet) fun _ => enqueue_quiet

theorem update_once {dto : UpdateAccountDto} {actorId : Option Uuid} {userId : Uuid}
    {soleOwned : List (String × String)} :
    (update userId dto actorId soleOwned).AtMost IsChange 1 := by
  refine AtMost.then findById_quiet fun existing => ?_
  change AtMost IsChange 1 (ite _ _ _)
  split
  · exact AtMost.once deactivate_once fun _ => afterUpdate_quiet
  · exact AtMost.once updateUser_once fun _ => afterUpdate_quiet

theorem gdprErase_once {env : AccountEnv} {userId : Uuid} {currentPassword : String} :
    (gdprErase env userId currentPassword).AtMost IsChange 1 := by
  refine AtMost.then findById_quiet fun user => AtMost.then .ensure fun _ now salt => ?_
  have herase : ((do
      lockRow (.user userId)
      endAllSessionsInTransaction userId (some userId)
        (erasedData userId (env.hashPassword s!"erased-{userId}-{now}" salt) now)) :
          AccountTask _).AtMost IsChange 0 :=
    AtMost.then trivial fun _ => endAllSessionsInTransaction_quiet
  exact AtMost.once (.transaction herase) fun _ => recorded_quiet

theorem setProfileImage_once {userId : Uuid} {fileId : Option Uuid} {isClaimable : Bool} :
    (setProfileImage userId fileId isClaimable).AtMost IsChange 1 := by
  refine AtMost.once (.transaction (AtMost.then lockLiveUser_quiet fun lockedUser => ?_))
    fun _ => trivial
  split
  · trivial
  · exact AtMost.then .ensure fun _ => AtMost.then updateUserRow_quiet fun _ => trivial

theorem updateEmail_once {env : AccountEnv} {userId : Uuid} {currentPassword newEmail : String} :
    (updateEmail env userId currentPassword newEmail).AtMost IsChange 1 := by
  refine AtMost.then findById_quiet fun user => AtMost.then .ensure fun _ => ?_
  refine AtMost.once endAllSessions_once fun updated => ?_
  refine AtMost.then (.onlyIf recordEmailChange_quiet) fun _ => ?_
  refine AtMost.then enqueue_quiet fun _ => ?_
  exact AtMost.then (emit_quiet rfl) fun _ => startSession_quiet

theorem requestPhoneVerification_once {env : AccountEnv} {userId : Uuid}
    {currentPassword phoneNumber otp : String} {hasBudget : Bool} :
    (requestPhoneVerification env userId currentPassword phoneNumber otp hasBudget).AtMost
      IsChange 1 := by
  refine AtMost.then findById_quiet fun user => AtMost.then .ensure fun _ => ?_
  change AtMost IsChange 1 (ite _ _ _)
  split
  · exact fun _ _ => AtMost.once updateUser_once fun _ => emit_quiet rfl
  · trivial

theorem deliverPasswordReset_once {env : AccountEnv} {userId : Uuid} {hasBudget : Bool} :
    (deliverPasswordReset env userId hasBudget).AtMost IsChange 1 := by
  refine AtMost.then readUser_quiet fun found => ?_
  beta_reduce
  split
  · trivial
  · exact fun _ _ => AtMost.once updateUser_once fun _ => emit_quiet rfl

theorem deliverEmailVerification_quiet {env : AccountEnv} {userId : Uuid} {hasBudget : Bool} :
    (deliverEmailVerification env userId hasBudget).AtMost IsChange 0 := by
  refine AtMost.then readUser_quiet fun found => ?_
  beta_reduce
  split
  · trivial
  · exact fun _ => emit_quiet rfl

theorem deliverEmailChangedNotice_quiet {userId auditLogId : Uuid} :
    (deliverEmailChangedNotice userId auditLogId).AtMost IsChange 0 := by
  refine AtMost.then readUser_quiet fun user => AtMost.then (fun _ => trivial) fun change => ?_
  split
  · exact emit_quiet rfl
  · trivial

theorem login_quiet {env : AccountEnv} {identifier password : String} :
    (login env identifier password).AtMost IsChange 0 := by
  have hcredentials : (verifyCredentials env identifier password).AtMost IsChange 0 :=
    AtMost.then readUser_quiet fun _ => AtMost.then .orThrow fun _ =>
      AtMost.then .ensure fun _ => trivial
  exact AtMost.then hcredentials fun _ _ _ => transaction_quiet trivial fun _ => rfl

/-- The answer of a use is no write. -/
theorem verifyAccessToken_quiet {tokenId : Uuid} :
    (verifyAccessToken tokenId).AtMost IsChange 0 := by
  refine AtMost.then (fun _ => trivial) fun found => ?_
  split
  · trivial
  · exact fun _ => .inl ⟨by simp [IsChange, AccountEvent.change?], trivial⟩

/-- A request writes at most one account, and that once. -/
theorem accountBody_once (env : AccountEnv) (req : AccountRequest) :
    (accountBody env req).AtMost IsChange 1 := by
  have hquiet : ∀ {x : AccountTask Unit}, x.AtMost IsChange 0 → x.AtMost IsChange 1 :=
    fun hx => hx.mono (Nat.zero_le 1)
  cases req with
  | createUser => exact hquiet create_quiet
  | updateUser => exact update_once
  | removeUser =>
    exact AtMost.then findById_quiet fun _ => AtMost.once deleteAccount_once fun _ =>
      .onlyIf recorded_quiet
  | softDelete =>
    exact AtMost.then findById_quiet fun _ => AtMost.once deleteAccount_once fun _ =>
      recorded_quiet
  | gdprErase => exact gdprErase_once
  | updateInfo =>
    exact AtMost.then findById_quiet fun _ => AtMost.once (.transaction
      (AtMost.then lockLiveUser_quiet fun _ => updateUserRow_quiet)) fun _ => trivial
  | setProfileImage => exact setProfileImage_once
  | updateUsername | updatePhoneNumber =>
    exact AtMost.then findById_quiet fun _ => AtMost.once updateUser_once fun _ => trivial
  | updateEmail => exact updateEmail_once
  | updateOwnPassword =>
    exact AtMost.then findById_quiet fun _ => AtMost.then .ensure fun _ =>
      AtMost.once applyPasswordChange_once fun _ => AtMost.then enqueue_quiet fun _ =>
        startSession_quiet
  | updatePasswordAsAdmin =>
    exact AtMost.then .ensure fun _ => AtMost.then findById_quiet fun _ =>
      AtMost.once applyPasswordChange_once fun _ => AtMost.then record_quiet fun _ => enqueue_quiet
  | requestPhoneVerification => exact requestPhoneVerification_once
  | verifyAndUpdatePhoneNumber =>
    exact AtMost.then findById_quiet fun _ _ => AtMost.then .ensure fun _ _ =>
      AtMost.once updateUser_once fun _ => trivial
  | deliverPasswordReset => exact deliverPasswordReset_once
  | resetPassword =>
    exact AtMost.then readUser_quiet fun _ _ => AtMost.then .orThrow fun _ =>
      AtMost.once applyPasswordChange_once fun _ => AtMost.then record_quiet fun _ => enqueue_quiet
  | deliverEmailVerification => exact hquiet deliverEmailVerification_quiet
  | verifyEmailByToken => exact verifyEmailByToken_once
  | deliverEmailChangedNotice => exact hquiet deliverEmailChangedNotice_quiet
  | revokeAllSessions =>
    exact AtMost.then findById_quiet fun _ => AtMost.once endAllSessions_once fun _ =>
      recorded_quiet
  | logoutAll | endIneligibleSessions =>
    exact AtMost.once endAllSessions_once fun _ => trivial
  | oauthLogin => exact hquiet login_quiet
  | oauthConfirm => exact hquiet confirm_quiet
  | oauthToken => exact hquiet exchange_quiet
  | verifyAccessToken => exact hquiet verifyAccessToken_quiet

end NestApi
