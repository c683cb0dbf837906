import NestApi.Accounts.Rules

/-!
# Judging the account system

Every program is within the guarantee: each operation is judged by the rules for its statements,
in order.
-/

namespace NestApi

open Txn Program Accounts McpOAuth
open WorkspaceMemberships (toLowerCase)

namespace Accounts

variable {env : AccountEnv} {a : Agent AccountRequest} {w : AccountWorld} {userId : Uuid}
  {actorId : Option Uuid} {user : Account}

/-! ### Emails about the account -/

theorem mintAndSendPasswordReset_safe (hread : HasRead a w user) :
    Safe env a w (mintAndSendPasswordReset env user) := by
  unfold mintAndSendPasswordReset
  refine safe_freshId fun w₁ token hw₁ htoken => safe_now fun w₂ hw₂ => ?_
  refine safe_updateUser (fun w₃ row hw₃ _ => ?_) fun w₃ _ s hw₃ hpush => ?_
  · have hbefore := (hw₁.trans hw₂).trans hw₃
    exact .passwordResetMinted user token _ (hread.mono hbefore.log_suffix)
      ((hw₂.trans hw₃).issued_eq htoken)
  · refine safe_emit_last fun w₄ hw₄ => ?_
    exact .passwordResetMailed user token ⟨_, s, w₃.log, hw₄.log_suffix, rfl, rfl⟩

theorem deliverPasswordReset_safe {hasBudget : Bool} :
    Safe env a w (deliverPasswordReset env userId hasBudget) := by
  unfold deliverPasswordReset
  refine safe_findByIdOrNull fun w₁ found _ hfound => ?_
  cases hok : found.filter fun u => u.isActive && hasBudget with
  | none => exact safe_pure
  | some user =>
    have huser := hfound user (Option.filter_eq_some_iff.mp hok).1
    exact mintAndSendPasswordReset_safe huser.1

theorem deliverEmailVerification_safe {hasBudget : Bool} :
    Safe env a w (deliverEmailVerification env userId hasBudget) := by
  unfold deliverEmailVerification
  refine safe_findByIdOrNull fun w₁ found _ hfound => ?_
  cases hok : found.filter fun u => u.emailVerifiedAt = none && hasBudget with
  | none => exact safe_pure
  | some user =>
    have huser := hfound user (Option.filter_eq_some_iff.mp hok).1
    refine safe_now fun w₂ hw₂ => safe_emit_last fun w₃ hw₃ => ?_
    exact .emailVerificationMailed user _ (huser.1.mono (hw₂.trans hw₃).log_suffix)

theorem deliverEmailChangedNotice_safe {auditLogId : Uuid} :
    Safe env a w (deliverEmailChangedNotice userId auditLogId) := by
  unfold deliverEmailChangedNotice
  refine safe_findByIdOrNull fun w₁ found _ hfound => wp_select fun w₂ hw₂ => ?_
  simp only [Ctx.start, id_eq]
  cases found with
  | none => exact safe_pure
  | some user =>
    cases hemail : ((w₂.db.auditLogs.find? auditLogId).filter fun row =>
        row.action = "user.email_changed" && row.targetUserId = userId).bind
          AuditLog.previousEmail with
    | none => exact safe_pure
    | some previousEmail =>
      obtain ⟨row, hrow, hprevious⟩ := Option.bind_eq_some_iff.mp hemail
      obtain ⟨hfind, hcond⟩ := Option.filter_eq_some_iff.mp hrow
      simp only [Bool.and_eq_true, decide_eq_true_eq] at hcond
      obtain ⟨-, hid, -⟩ := hfound user rfl
      have hsince := w₂.since_db (Nat.zero_le _)
      intro w₃ hw₃
      have htarget : row.targetUserId = user.id := hcond.2.trans hid.symm
      exact ⟨.emailChangedNoticeMailed user.id previousEmail ⟨_, hw₃.since hsince, row,
        Table.mem_of_find? hfind, hcond.1, htarget, hprevious⟩, trivial⟩

/-- The conditional write of a redeemed link. -/
theorem safe_markEmailVerified {token : String} {t verifiedAt : ℕ} {k : Bool → AccountTask Unit}
    (hread : HasRead a w user) (hlink : env.jwtVerify token verifiedAt = some (verifyPayload user))
    (h : ∀ r w', Safe env a w' (k r)) :
    Safe env a w (markEmailVerified token user user.email t >>= k) := by
  unfold markEmailVerified
  refine safe_transaction ?_
  refine wp_lockRow fun w₁ hw₁ => wp_select fun w₂ hw₂ => ?_
  simp only [Ctx.start, id_eq]
  rcases Option.eq_none_or_eq_some ((w₂.db.user? user.id).filter fun u =>
    u.email = user.email && u.emailVerifiedAt = none && u.deletedAt = none) with
    hfound | ⟨row, hfound⟩
  · simp only [hfound]
    refine wp_onlyIf (fun hsome => by simp at hsome) fun _ => wp_pure ?_
    exact fun w₃ hw₃ => ⟨.unchanged user.id, h false _⟩
  · simp only [hfound]
    obtain ⟨hrow, hcond⟩ := Option.filter_eq_some_iff.mp hfound
    simp only [Bool.and_eq_true, decide_eq_true_eq] at hcond
    obtain ⟨⟨hemail, -⟩, hlive⟩ := hcond
    refine wp_onlyIf (fun _ => ?_) fun hnone => by simp at hnone
    refine wp_modify fun w₃ hw₃ => wp_pure ?_
    intro w₄ hw₄
    have hlock : (fun l => l = RowLock.user user.id ∨ False) (.user user.id) := .inl rfl
    have hlast := hw₃.trans hw₄
    have hrow₄ : w₄.db.user? user.id = some row := by rw [hlast.user?_eq hlock, hrow]
    have hbefore := (hw₁.moves.trans hw₂.moves).trans hlast.moves
    refine ⟨.changed _ row _ hrow₄ hlock ?_, h true _⟩
    exact .emailVerified user token verifiedAt t (hread.mono hbefore.log_suffix) hlink hemail hlive

theorem verifyEmailByToken_safe {token : String} :
    Safe env a w (verifyEmailByToken env token) := by
  unfold verifyEmailByToken
  refine safe_now fun w₁ _ => safe_orThrow fun payload hpayload => safe_ensure fun hpurpose => ?_
  refine safe_orThrow fun sub hsub => safe_findByIdOrNull fun w₂ found _ hfound => ?_
  refine safe_orThrow fun user huser => ?_
  obtain ⟨hmem, hemail⟩ := Option.filter_eq_some_iff.mp huser
  obtain ⟨hread, hid, -⟩ := hfound user hmem
  have hlink : env.jwtVerify token w₁.now = some (verifyPayload user) := by
    rw [hpayload]
    obtain ⟨_, _, _⟩ := payload
    simp_all [verifyPayload]
  split
  · exact safe_pure
  · refine safe_now fun w₃ hw₃ => ?_
    refine safe_markEmailVerified (hread.mono hw₃.log_suffix) hlink fun verified w₄ => ?_
    cases verified with
    | true => exact safe_record fun _ _ _ _ _ _ _ _ => safe_pure
    | false =>
      refine safe_findByIdOrNull fun w₅ current _ _ => ?_
      rw [← bind_pure (ensure _ _)]
      exact safe_ensure fun _ => safe_pure

/-! ### Creation -/

theorem create_safe {dto : CreateAccountDto} (hinv : AccountInv w) :
    Safe env a w (create env dto actorId) := by
  unfold create
  refine safe_freshId fun w₁ salt hw₁ _ => safe_now fun w₂ hw₂ => ?_
  refine wp_freshId fun w₃ hw₃ id hid => ?_
  have hmoves := (hw₁.trans hw₂).trans hw₃.moves
  have hname := NewName.issue (a := a) (hmoves.accountInv hinv) hid
  refine safe_transaction (wp_lockRow fun w₄ hw₄ => wp_modify fun w₅ hw₅ => wp_pure ?_)
  intro w₆ hw₆
  have hlast := hw₄.trans ((hw₅.trans hw₆).mono fun l hl => .inr hl)
  have hnow : w₂.now ≤ w₆.now := hw₃.now_le.trans hlast.now_le
  refine ⟨.userCreated _ (hname.stable hlast) (.inl rfl) ?_, ?_⟩
  · exact ⟨rfl, rfl, rfl, fun c hc => by simpa [← Option.some_inj.mp hc] using hnow⟩
  · refine safe_onlyIf (fun _ => ?_) fun _ => safe_enqueue_last
    exact safe_record fun _ _ _ _ _ _ _ _ => safe_enqueue_last

/-! ### Update, deletion and erasure -/

/-- Recording an email change, which settles the notices of a write that is in the history. -/
theorem safe_recordEmailChange {newEmail : String} {c : Change} {s : AccountStore}
    {l : AccountLog} {k : Unit → AccountTask Unit} (hcommit : (⟨a, .changed c, s⟩ :: l) <:+ w.log)
    (hseen : c.seen = some user) (hid : user.id = c.userId)
    (h : ∀ w', Noticed a w'.log → Safe env a w' (k ())) :
    Safe env a w (recordEmailChange user newEmail actorId >>= k) := by
  unfold recordEmailChange
  simp only [bind_assoc]
  refine safe_record fun w₁ row s₁ hw₁ haction htarget hprevious hpush => ?_
  have hl₁ := hcommit.trans hw₁.log_suffix
  have hafter : l.length < w₁.log.length := length_lt_of_before hl₁
  have htarget' : row.targetUserId = c.userId := htarget.trans hid
  have haudited : (⟨a, .audited row, s₁⟩ :: w₁.log) <:+ (w₁.push a (.audited row) s₁).log :=
    List.suffix_refl _
  refine safe_onlyIf (fun _ => safe_enqueue fun w₂ hw₂ hpush₂ => h _ ?_) fun hnot => h _ ?_
  · -- the previous address was verified
    have hl₂ := hl₁.trans ((List.suffix_cons _ _).trans hpush₂.log_suffix)
    refine ⟨c, s, l, user, hl₂, hseen, fun email _ _ => ?_⟩
    have haudited₂ := haudited.trans hpush₂.log_suffix
    have hlt : w₁.log.length < w₂.log.length :=
      length_lt_of_before (haudited.trans hw₂.log_suffix)
    refine ⟨row, s₁, w₁.log, haudited₂, hafter, haction, htarget', hprevious, fun _ => ?_⟩
    refine ⟨w₂.db, w₂.log, ?_, hlt⟩
    rw [← hid]
    exact List.suffix_refl _
  · refine ⟨c, s, l, user, hl₁.trans (List.suffix_cons _ _), hseen, fun email _ _ => ?_⟩
    exact ⟨row, s₁, w₁.log, haudited, hafter, haction, htarget', hprevious,
      fun hverified => absurd hverified hnot⟩

/-- The write of an administrative update moved the address only if the notices follow. -/
theorem afterUpdate_safe {dto : UpdateAccountDto} {c : Change} {s : AccountStore} {l : AccountLog}
    (hcommit : (⟨a, .changed c, s⟩ :: l) <:+ w.log) (hseen : c.seen = some user)
    (hid : user.id = c.userId) (hemail : c.data.email = dto.email.map toLowerCase) :
    Safe env a w (afterUpdate userId user dto actorId) := by
  unfold afterUpdate
  -- the notices, wherever they begin
  have hnotices : ∀ w₁, (⟨a, .changed c, s⟩ :: l) <:+ w₁.log →
      Safe env a w₁ (onlyIf (isEmailChanged user dto) (do
        recordEmailChange user (toLowerCase (dto.email.getD "")) actorId
        queueEmailVerification userId) >>= fun _ => emit .noticesSettled) := by
    intro w₁ hcommit₁
    refine safe_onlyIf (fun _ => ?_) fun hnot => ?_
    · rw [bind_assoc]
      refine safe_recordEmailChange hcommit₁ hseen hid fun w₂ hnoticed => ?_
      refine safe_enqueue fun w₃ hw₃ _ => safe_emit_last fun w₄ hw₄ => ?_
      have hlog := hw₃.log_suffix.trans ((List.suffix_cons _ _).trans hw₄.log_suffix)
      exact .noticesSettled (hnoticed.mono hlog)
    · refine safe_emit_last fun w₂ hw₂ => .noticesSettled ?_
      refine ⟨c, s, l, user, hcommit₁.trans hw₂.log_suffix, hseen, ?_⟩
      intro email hwritten hne
      rw [hemail] at hwritten
      obtain ⟨given, hgiven, rfl⟩ := Option.map_eq_some_iff.mp hwritten
      exact absurd ⟨given, hgiven, hne⟩ hnot
  unfold recordByAdmin
  refine safe_onlyIf (fun _ => ?_) fun _ => hnotices w hcommit
  simp only [bind_assoc, pure_bind]
  refine safe_record fun w₁ row s₁ hw₁ _ _ _ hpush => hnotices _ ?_
  exact hcommit.trans hpush.log_suffix

theorem update_safe {dto : UpdateAccountDto} {soleOwned : List (String × String)}
    (hinv : AccountInv w) : Safe env a w (update userId dto actorId soleOwned) := by
  unfold update
  refine safe_findById fun w₁ existing hw₁ hread hid => ?_
  subst hid
  split
  · unfold deactivate assertUserIsNotASoleOwner
    simp only [bind_assoc, pure_bind]
    refine safe_transaction (wp_lockRow fun w₂ hw₂ => wp_ensure (fun _ => ?_) fun _ => trivial)
    have hinv₂ := (hw₁.trans hw₂.moves).accountInv hinv
    refine wp_endAccountSessions hinv₂ (.inl rfl) ?_ ?_
    · intro w₃ row data hw₃ hends
      exact .deactivation existing dto actorId data
        (hread.mono (hw₂.moves.trans hw₃).log_suffix) hends
    · intro w₃ written s cutoff hwritten hpush
      exact afterUpdate_safe (List.suffix_refl _) rfl rfl (by rw [hwritten]; rfl)
  · refine safe_updateUser (fun w₂ row hw₂ _ => ?_) fun w₂ r s _ hpush => ?_
    · exact .update existing dto actorId (hread.mono hw₂.log_suffix)
    · exact afterUpdate_safe (List.suffix_refl _) rfl rfl rfl

/-- The transaction of both deletions. -/
theorem safe_deleteAccount {soleOwned : List (String × String)} {k : Unit → AccountTask Unit}
    (hinv : AccountInv w) (hread : HasRead a w user) (h : ∀ w', Safe env a w' (k ())) :
    Safe env a w (deleteAccount user.id user actorId soleOwned >>= k) := by
  unfold deleteAccount assertUserIsNotASoleOwner
  simp only [bind_assoc, pure_bind]
  refine safe_transaction (wp_lockRow fun w₁ hw₁ => wp_ensure (fun _ => ?_) fun _ => trivial)
  refine wp_now fun w₂ hw₂ => ?_
  have hmoves := hw₁.moves.trans hw₂.moves
  refine wp_endAccountSessions (hmoves.accountInv hinv) (.inl rfl) ?_ ?_
  · intro w₃ row data hw₃ hends
    exact .deletion user actorId _ data (hread.mono (hmoves.trans hw₃).log_suffix) hends
  · intro w₃ written s cutoff _ _
    exact h _

theorem remove_safe {soleOwned : List (String × String)} (hinv : AccountInv w) :
    Safe env a w (remove userId actorId soleOwned) := by
  unfold remove
  refine safe_findById fun w₁ seen hw₁ hread hid => ?_
  subst hid
  refine safe_deleteAccount (hw₁.accountInv hinv) hread fun w₂ => ?_
  rw [← bind_pure (onlyIf _ _)]
  refine safe_onlyIf (fun _ => ?_) fun _ => safe_pure
  rw [bind_assoc]
  exact safe_record fun _ _ _ _ _ _ _ _ => safe_pure

theorem softDelete_safe {soleOwned : List (String × String)} (hinv : AccountInv w) :
    Safe env a w (softDelete userId soleOwned) := by
  unfold softDelete
  refine safe_findById fun w₁ seen hw₁ hread hid => ?_
  subst hid
  refine safe_deleteAccount (hw₁.accountInv hinv) hread fun w₂ => ?_
  exact safe_record fun _ _ _ _ _ _ _ _ => safe_pure

theorem gdprErase_safe {currentPassword : String} (hinv : AccountInv w) :
    Safe env a w (gdprErase env userId currentPassword) := by
  unfold gdprErase
  refine safe_findById fun w₁ user hw₁ hread hid => safe_ensure fun hpassword => ?_
  subst hid
  refine safe_now fun w₂ hw₂ => safe_freshId fun w₃ salt hw₃ _ => ?_
  refine safe_transaction (wp_lockRow fun w₄ hw₄ => ?_)
  have hmoves := (hw₂.trans hw₃).trans hw₄.moves
  refine wp_endAccountSessions ((hw₁.trans hmoves).accountInv hinv) (.inl rfl) ?_ ?_
  · intro w₅ row data hw₅ hends
    exact .erasure user currentPassword _ _ data (hread.mono (hmoves.trans hw₅).log_suffix)
      hpassword hends
  · intro w₅ written s cutoff _ _
    exact safe_record fun _ _ _ _ _ _ _ _ => safe_pure

/-! ### Profile -/

/-- The row that a profile operation reads again is live, and stays so until its commit. -/
theorem wp_lockLiveUser {β : Type} {k : Account → AccountTask β}
    {Q : Except Failure β → Ctx AccountStore RowLock → AccountWorld → Prop}
    (herr : ∀ e c w, Q (.error e) c w)
    (h : ∀ w' row, Moves (accountGuarantee env) w w' → w'.db.user? userId = some row →
      row.deletedAt = none →
        wp (accountGuarantee env) a (k row) Q ⟨fun l => l = .user userId ∨ False, id⟩ w') :
    wp (accountGuarantee env) a (lockLiveUser userId >>= k) Q Ctx.start w := by
  unfold lockLiveUser
  simp only [bind_assoc]
  refine wp_lockRow fun w₁ hw₁ => wp_select fun w₂ hw₂ => wp_orThrow (fun row hrow => ?_)
    fun _ => herr _ _ _
  obtain ⟨hfound, hlive⟩ := AccountStore.of_scopedUser? hrow
  exact h w₂ row (hw₁.moves.trans hw₂.moves) hfound hlive

theorem updateInfo_safe {dto : UpdateInfoDto} : Safe env a w (updateInfo userId dto) := by
  unfold updateInfo
  refine safe_findById fun w₁ seen hw₁ hread hid => ?_
  subst hid
  refine safe_transaction (wp_lockLiveUser (fun _ _ _ => trivial) fun w₂ row hw₂ hrow hlive => ?_)
  rw [← bind_pure (Accounts.updateUserRow _ _)]
  refine wp_updateAccount (fun _ _ _ => trivial) fun w₃ row₃ hw₃ hrow₃ => ?_
  intro w₄ hw₄
  have hheld : (fun l => l = RowLock.user seen.id ∨ False) (.user seen.id) := .inl rfl
  have hlock : (fun l => l = RowLock.user seen.id ∨ l = RowLock.user seen.id ∨ False)
      (.user seen.id) := .inl rfl
  have hsame : row₃ = row := by
    rw [hw₃.user?_eq hheld, hrow] at hrow₃
    exact (Option.some_inj.mp hrow₃).symm
  have hrow₄ : w₄.db.user? seen.id = some row₃ := by rw [hw₄.user?_eq hlock, hrow₃]
  have hmoves := (hw₂.trans hw₃.moves).trans hw₄.moves
  exact ⟨.changed _ row₃ _ hrow₄ hlock
    (.info seen dto (hread.mono hmoves.log_suffix) (hsame ▸ hlive)), safe_pure⟩

theorem setProfileImage_safe {fileId : Option Uuid} {isClaimable : Bool} :
    Safe env a w (setProfileImage userId fileId isClaimable) := by
  unfold setProfileImage
  refine safe_transaction (wp_lockLiveUser (fun _ _ _ => trivial) fun w₁ row hw₁ hrow hlive => ?_)
  split
  · refine wp_pure ?_
    exact fun w₂ hw₂ => ⟨.unchanged userId, safe_pure⟩
  · refine wp_ensure (fun _ => ?_) fun _ => trivial
    refine wp_updateAccount (fun _ _ _ => trivial) fun w₂ row₂ hw₂ hrow₂ => wp_pure ?_
    intro w₃ hw₃
    have hheld : (fun l => l = RowLock.user userId ∨ False) (.user userId) := .inl rfl
    have hlock : (fun l => l = RowLock.user userId ∨ l = RowLock.user userId ∨ False)
        (.user userId) := .inl rfl
    have hsame : row₂ = row := by
      rw [hw₂.user?_eq hheld, hrow] at hrow₂
      exact (Option.some_inj.mp hrow₂).symm
    have hrow₃ : w₃.db.user? userId = some row₂ := by rw [hw₃.user?_eq hlock, hrow₂]
    exact ⟨.changed _ row₂ _ hrow₃ hlock (.profileImage userId _ (hsame ▸ hlive)), safe_pure⟩

theorem updateUsername_safe {username : String} :
    Safe env a w (updateUsername userId username) := by
  unfold updateUsername
  refine safe_findById fun w₁ seen _ hread hid => ?_
  subst hid
  refine safe_updateUser (fun w₂ row hw₂ _ => ?_) fun _ _ _ _ _ => safe_pure
  exact .username seen _ (hread.mono hw₂.log_suffix)

/-! ### Address and password -/

theorem updateEmail_safe {currentPassword newEmail : String} (hinv : AccountInv w) :
    Safe env a w (updateEmail env userId currentPassword newEmail) := by
  unfold updateEmail
  refine safe_findById fun w₁ user hw₁ hread hid => safe_ensure fun hpassword => ?_
  subst hid
  refine safe_endAllSessions (hw₁.accountInv hinv) ?_ ?_
  · intro w₂ row data hw₂ hends
    exact .email user currentPassword _ data (hread.mono hw₂.log_suffix) hpassword hends
  intro w₂ written s cutoff hwritten _
  have hcommit : (⟨a, changedEvent .email user.id (some user) written, s⟩ :: w₂.log) <:+
      (w₂.push a (changedEvent .email user.id (some user) written) s).log := List.suffix_refl _
  refine safe_onlyIf (fun _ => ?_) fun hsame => ?_
  · refine safe_recordEmailChange hcommit rfl rfl fun w₃ hnoticed => ?_
    refine safe_enqueue fun w₄ hw₄ _ => safe_emit (fun w₅ hw₅ => ?_) fun _ _ _ => startSession_safe
    exact .noticesSettled
      (hnoticed.mono (hw₄.log_suffix.trans ((List.suffix_cons _ _).trans hw₅.log_suffix)))
  · refine safe_enqueue fun w₃ hw₃ _ => safe_emit (fun w₄ hw₄ => ?_) fun _ _ _ => startSession_safe
    have hlog := hw₃.log_suffix.trans ((List.suffix_cons _ _).trans hw₄.log_suffix)
    refine .noticesSettled ⟨_, s, w₂.log, user, hcommit.trans hlog, rfl, fun email hemail hne => ?_⟩
    -- the address that was written is the one that was read
    rw [hwritten] at hemail
    obtain rfl : toLowerCase newEmail = email := Option.some_inj.mp hemail
    exact absurd hne hsame

/-- Every change of a password. -/
theorem safe_applyPasswordChange {kind : ChangeKind} {password : String} {base : AccountUpdateInput}
    {k : Account → AccountTask Unit} (hinv : AccountInv w)
    (hjustified : ∀ w' row hash data, Moves (accountGuarantee env) w w' →
      EndsAt w' row { base with password := some hash } actorId data →
        Justified env a w' row ⟨kind, user.id, some user, data⟩)
    (h : ∀ w' r, Safe env a w' (k r)) :
    Safe env a w (applyPasswordChange env kind user.id user password actorId base >>= k) := by
  unfold applyPasswordChange
  rw [bind_assoc]
  refine safe_freshId fun w₁ salt hw₁ _ => ?_
  refine safe_endAllSessions (hw₁.accountInv hinv) ?_ fun _ _ _ _ _ _ => h _ _
  intro w₂ row data hw₂ hends
  exact hjustified w₂ row _ data (hw₁.trans hw₂) hends

theorem updateOwnPassword_safe {currentPassword newPassword : String} (hinv : AccountInv w) :
    Safe env a w (updateOwnPassword env userId currentPassword newPassword) := by
  unfold updateOwnPassword
  refine safe_findById fun w₁ user hw₁ hread hid => safe_ensure fun hpassword => ?_
  subst hid
  refine safe_applyPasswordChange (hw₁.accountInv hinv) ?_ fun _ _ => safe_enqueue fun _ _ _ =>
    startSession_safe
  intro w₂ row hash data hw₂ hends
  exact .ownPassword user currentPassword hash data (hread.mono hw₂.log_suffix) hpassword hends

theorem updatePasswordAsAdmin_safe {adminId : Uuid} {newPassword : String} (hinv : AccountInv w) :
    Safe env a w (updatePasswordAsAdmin env userId adminId newPassword) := by
  unfold updatePasswordAsAdmin
  refine safe_ensure fun _ => safe_findById fun w₁ seen hw₁ hread hid => ?_
  subst hid
  refine safe_applyPasswordChange (hw₁.accountInv hinv) ?_ fun _ _ =>
    safe_record fun _ _ _ _ _ _ _ _ => safe_enqueue_last
  intro w₂ row hash data hw₂ hends
  exact .adminPassword seen adminId hash data (hread.mono hw₂.log_suffix) hends

theorem resetPassword_safe {email token newPassword : String} (hinv : AccountInv w) :
    Safe env a w (resetPassword env email token newPassword) := by
  unfold resetPassword
  refine safe_readUser (fun s u hu => (AccountStore.of_findByEmail hu).1) fun s w₁ hw₁ hread => ?_
  refine safe_now fun w₂ hw₂ => safe_orThrow fun user huser => ?_
  obtain ⟨hfound, hvalid⟩ := Option.filter_eq_some_iff.mp huser
  have hread₂ := (hread user hfound).mono hw₂.log_suffix
  refine safe_applyPasswordChange ((hw₁.trans hw₂).accountInv hinv) ?_ fun _ _ =>
    safe_record fun _ _ _ _ _ _ _ _ => safe_enqueue_last
  intro w₃ row hash data hw₃ hends
  exact .passwordReset user token hash _ data (hread₂.mono hw₃.log_suffix) hvalid hends

/-! ### Phone -/

theorem requestPhoneVerification_safe {currentPassword phoneNumber otp : String}
    {hasBudget : Bool} :
    Safe env a w
      (requestPhoneVerification env userId currentPassword phoneNumber otp hasBudget) := by
  unfold requestPhoneVerification
  refine safe_findById fun w₁ user _ hread hid => safe_ensure fun _ => ?_
  subst hid
  split
  · refine safe_freshId fun w₂ salt hw₂ _ => safe_now fun w₃ hw₃ => ?_
    refine safe_updateUser (fun w₄ row hw₄ _ => ?_) fun _ _ _ _ _ =>
      safe_emit_last fun _ _ => .phoneCodeTexted _ _
    exact .phoneCode user _ _ (hread.mono ((hw₂.trans hw₃).trans hw₄).log_suffix)
  · exact safe_pure

theorem verifyAndUpdatePhoneNumber_safe {otp phoneNumber : String} :
    Safe env a w (verifyAndUpdatePhoneNumber env userId otp phoneNumber) := by
  unfold verifyAndUpdatePhoneNumber
  refine safe_findById fun w₁ user _ hread hid => safe_now fun w₂ hw₂ => ?_
  refine safe_ensure fun hvalid => ?_
  subst hid
  refine safe_now fun w₃ hw₃ => ?_
  refine safe_updateUser (fun w₄ row hw₄ _ => ?_) fun _ _ _ _ _ => safe_pure
  have hread₄ := hread.mono ((hw₂.trans hw₃).trans hw₄).log_suffix
  exact .phoneVerified user otp phoneNumber _ _ hread₄ hvalid

theorem updatePhoneNumber_safe {phoneNumber : String} :
    Safe env a w (updatePhoneNumber userId phoneNumber) := by
  unfold updatePhoneNumber
  refine safe_findById fun w₁ seen _ hread hid => ?_
  subst hid
  refine safe_updateUser (fun w₂ row hw₂ _ => ?_) fun _ _ _ _ _ => safe_pure
  exact .phone seen _ (hread.mono hw₂.log_suffix)

/-! ### Ending sessions -/

theorem revokeAllSessions_safe {supportId : Uuid} (hinv : AccountInv w) :
    Safe env a w (revokeAllSessions userId supportId) := by
  unfold revokeAllSessions
  refine safe_findById fun w₁ user hw₁ hread hid => ?_
  refine safe_endAllSessions (hw₁.accountInv hinv) ?_ fun _ _ _ _ _ _ =>
    safe_record fun _ _ _ _ _ _ _ _ => safe_pure
  intro w₂ row data hw₂ hends
  refine .revocation _ _ _ _ (fun other hother => ?_) hends
  obtain rfl := Option.some_inj.mp hother
  exact ⟨hread.mono hw₂.log_suffix, rfl⟩

/-- Ending the sessions of an account that was not read. -/
theorem endAllSessions_safe (hinv : AccountInv w) :
    Safe env a w (Accounts.endAllSessions .revocation userId actorId none {} >>= fun _ =>
      pure ()) := by
  refine safe_endAllSessions hinv ?_ fun _ _ _ _ _ _ => safe_pure
  intro w₁ row data _ hends
  exact .revocation _ _ _ _ (by simp) hends

end Accounts

namespace McpOAuth

variable {env : AccountEnv} {a : Agent AccountRequest} {w : AccountWorld} {accountId : Uuid}
  {issuedAt : Option ℕ}

/-- A usable account was read, and is the one that was asked for. -/
theorem safe_findUsableAccount {k : Option Account → AccountTask Unit}
    (h : ∀ w' found, Moves (accountGuarantee env) w w' → (∀ u ∈ found, HasRead a w' u ∧
      u.id = accountId ∧ isAccountUsable u issuedAt = true) → Safe env a w' (k found)) :
    Safe env a w (findUsableAccount accountId issuedAt >>= k) := by
  unfold findUsableAccount
  simp only [bind_assoc, pure_bind]
  refine safe_findByIdOrNull fun w₁ found hw₁ hfound => h w₁ _ hw₁ ?_
  intro u hu
  obtain ⟨hmem, husable⟩ := Option.filter_eq_some_iff.mp hu
  exact ⟨(hfound u hmem).1, (hfound u hmem).2.1, husable⟩

theorem login_safe {identifier password : String} (hinv : AccountInv w) :
    Safe env a w (login env identifier password) := by
  unfold login verifyCredentials
  simp only [bind_assoc, pure_bind]
  refine safe_readUser (fun s u hu => (AccountStore.of_findByEmailOrUsername hu).1)
    fun s w₁ hw₁ hread => safe_orThrow fun user huser => safe_ensure fun _ => ?_
  have hread₁ := hread user (Option.filter_eq_some_iff.mp huser).1
  refine safe_now fun w₂ hw₂ => wp_freshId fun w₃ hw₃ uid huid => ?_
  have hmoves := hw₂.trans hw₃.moves
  have hname := NewName.issue (a := a) ((hw₁.trans hmoves).accountInv hinv) huid
  rw [← bind_pure (transaction _ _)]
  refine safe_transaction (wp_modify fun w₄ hw₄ => ?_)
  intro w₅ hw₅
  have hlast := hw₄.trans hw₅
  have hread₅ := hread₁.mono (hmoves.log_suffix.trans hlast.log_suffix)
  exact ⟨.oauthSignedIn _ (hname.stable hlast) ⟨user, hread₅, rfl⟩, safe_pure⟩

theorem confirm_safe {sessionUid : Uuid} : Safe env a w (confirm sessionUid) := by
  unfold confirm
  refine wp_select fun w₁ hw₁ => ?_
  simp only [Ctx.start, id_eq]
  cases hfound : w₁.db.oauthSessions.find? sessionUid with
  | none => exact safe_pure
  | some session =>
    refine safe_findUsableAccount fun w₂ account hw₂ _ => ?_
    split
    · exact safe_pure
    refine safe_findUsableAccount fun w₃ again hw₃ _ => ?_
    split
    · exact safe_pure
    refine safe_freshId fun w₄ id hw₄ _ => ?_
    rw [← bind_pure (transaction _ _)]
    refine safe_transaction (wp_modify fun w₅ hw₅ => ?_)
    intro w₆ hw₆
    have hmoves := ((hw₂.trans hw₃).trans hw₄).trans (hw₅.trans hw₆).moves
    have hsession := hmoves.session_mem (Table.mem_of_find? hfound)
    exact ⟨.oauthCodeIssued _ ⟨session, hsession, rfl, rfl, rfl⟩, safe_pure⟩

theorem exchange_safe {credentialId : Uuid} (hinv : AccountInv w) :
    Safe env a w (exchange credentialId) := by
  unfold exchange
  refine wp_select fun w₁ hw₁ => ?_
  simp only [Ctx.start, id_eq]
  cases hfound : w₁.db.oauthCredentials.find? credentialId with
  | none => exact safe_pure
  | some credential =>
    have hinv₁ := hw₁.moves.accountInv hinv
    obtain ⟨session, hsession, huid, haccount, htime⟩ :=
      hinv₁.credentials credential (Table.mem_of_find? hfound)
    refine safe_findUsableAccount fun w₂ account hw₂ haccounts => ?_
    split
    · exact safe_pure
    next hsome =>
    obtain ⟨user, huser⟩ := Option.ne_none_iff_exists'.mp hsome
    obtain ⟨hread, hid, husable⟩ := haccounts user huser
    refine safe_now fun w₃ hw₃ => safe_freshId fun w₄ id hw₄ _ => ?_
    have hmoves := hw₃.trans hw₄
    refine safe_transaction (wp_modify fun w₅ hw₅ => ?_)
    intro w₆ hw₆
    have hlast := (hw₅.trans hw₆).moves
    have hread₆ := hread.mono (hmoves.trans hlast).log_suffix
    have hsession₆ := ((hw₂.trans hmoves).trans hlast).session_mem hsession
    rw [← htime] at husable
    refine ⟨.accessTokenIssued _ ⟨session, hsession₆, huid, haccount, user, hread₆, hid, husable⟩,
      ?_⟩
    -- the next refresh token inherits the time of the sign-in
    refine safe_freshId fun w₇ refreshId hw₇ _ => ?_
    rw [← bind_pure (transaction _ _)]
    refine safe_transaction (wp_modify fun w₈ hw₈ => ?_)
    intro w₉ hw₉
    have hrest := hw₇.trans (hw₈.trans hw₉).moves
    have hsession₉ := hrest.session_mem hsession₆
    exact ⟨.oauthCodeIssued _ ⟨session, hsession₉, huid, haccount, htime⟩, safe_pure⟩

theorem verifyAccessToken_safe {tokenId : Uuid} : Safe env a w (verifyAccessToken tokenId) := by
  unfold verifyAccessToken
  refine wp_select fun w₁ hw₁ => ?_
  simp only [Ctx.start, id_eq]
  cases hfound : w₁.db.oauthAccessTokens.find? tokenId with
  | none => exact safe_pure
  | some token =>
    intro w₂ hw₂
    have hmem := hw₂.moves.accessToken_mem (Table.mem_of_find? hfound)
    exact ⟨.accessTokenVerified token hmem, trivial⟩

end McpOAuth

/-- Every request is within the guarantee. -/
theorem accountBody_safe {env : AccountEnv} {a : Agent AccountRequest} {w : AccountWorld}
    (hinv : AccountInv w) : Safe env a w (accountBody env a.req) := by
  cases hreq : a.req with
  | createUser => exact create_safe hinv
  | updateUser => exact update_safe hinv
  | removeUser => exact remove_safe hinv
  | softDelete => exact softDelete_safe hinv
  | gdprErase => exact gdprErase_safe hinv
  | updateInfo => exact updateInfo_safe
  | setProfileImage => exact setProfileImage_safe
  | updateUsername => exact updateUsername_safe
  | updateEmail => exact updateEmail_safe hinv
  | updateOwnPassword => exact updateOwnPassword_safe hinv
  | updatePasswordAsAdmin => exact updatePasswordAsAdmin_safe hinv
  | requestPhoneVerification => exact requestPhoneVerification_safe
  | verifyAndUpdatePhoneNumber => exact verifyAndUpdatePhoneNumber_safe
  | updatePhoneNumber => exact updatePhoneNumber_safe
  | deliverPasswordReset => exact deliverPasswordReset_safe
  | resetPassword => exact resetPassword_safe hinv
  | deliverEmailVerification => exact deliverEmailVerification_safe
  | verifyEmailByToken => exact verifyEmailByToken_safe
  | deliverEmailChangedNotice => exact deliverEmailChangedNotice_safe
  | revokeAllSessions => exact revokeAllSessions_safe hinv
  | logoutAll | endIneligibleSessions => exact endAllSessions_safe hinv
  | oauthLogin => exact McpOAuth.login_safe hinv
  | oauthConfirm => exact McpOAuth.confirm_safe
  | oauthToken => exact McpOAuth.exchange_safe hinv
  | verifyAccessToken => exact McpOAuth.verifyAccessToken_safe

theorem accountBody_admitted (env : AccountEnv) (Allowed : AccountRequest → Prop) :
    (accountProtocol env).Admits (accountBody env) Allowed := by
  intro a w _ hinv
  exact accountBody_safe hinv

end NestApi
