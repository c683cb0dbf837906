import NestApi.Judgements.Ownership

/-!
# Judging the account services

Updating, deactivating, deleting and erasing accounts, changing credentials, and platform
roles stay within the guarantee.
-/

namespace NestApi

open Txn Program UsersService WorkspaceOwnershipPolicy RefreshTokens

variable {β : Type} {a : Agent Request} {w : SystemWorld} {userId : Uuid} {env : Env}
  {Q : Except Failure β → Ctx Database RowLock → SystemWorld → Prop}

/-- The account is read from a committed state. -/
theorem wp_findById {k : User → Handler β} {c : Ctx Database RowLock} (hQ : Lenient Q)
    (hpend : c.pend = id)
    (h : ∀ (w' : SystemWorld) (user : User), Interf guarantee a c.held w w' →
      user ∈ w'.db.users → user.id = userId → wp guarantee a (k user) Q c w') :
    wp guarantee a (UsersService.findById userId >>= k) Q c w := by
  unfold UsersService.findById
  simp only [bind_assoc]
  refine wp_select fun w₁ hw₁ => wp_orThrow (fun user huser => ?_) fun _ => hQ _ _ _
  rw [hpend] at huser
  obtain ⟨hmem, hid⟩ := Table.find?_eq_some.mp huser
  exact h w₁ user hw₁ hmem hid

/-! ### Leaving service -/

/-- Deactivation: the policy and the session end in one transaction. -/
theorem deactivate_judged {existing : User} {dto : UpdateUserDto} {actorId : Option Uuid}
    (hinv : Inv w) (hreq : a.req = .updateUser actorId userId dto)
    (hinactive : dto.isActive = some false) :
    wp guarantee a (deactivate userId (updateData existing dto actorId) actorId)
      (fun _ _ _ => True) Ctx.start w := by
  unfold deactivate
  refine wp_transaction ?_
  refine wp_lockUserRow fun w₁ hw₁ => ?_
  refine wp_assertUserIsNotASoleOwner lenient_true.atEnd (hw₁.inv hinv) (.inl rfl) rfl
    fun w₂ ls hw₂ hleaves => ?_
  exact endAllSessionsInTransaction_judged 0 (fun _ _ => trivial)
    (hw₂.inv (hw₁.inv hinv)) (.inr (.inl rfl)) (fun _ => by simp [Ctx.start])
      ⟨rfl, hleaves, hinactive, rfl, actorId, dto, hreq⟩ fun _ _ _ _ _ _ => trivial

/-- An administrative update runs the branch that the row it read first selects. -/
theorem update_judged {dto : UpdateUserDto} {actorId : Option Uuid} (hinv : Inv w)
    (hreq : a.req = .updateUser actorId userId dto) :
    wp guarantee a (UsersService.update userId dto actorId) (fun _ _ _ => True) Ctx.start w := by
  unfold UsersService.update
  refine wp_findById lenient_true rfl fun w₁ existing hw₁ hmem hid => ?_
  by_cases hbranch : dto.isActive = some false ∧ existing.isActive = true
  · rw [if_pos hbranch]
    exact deactivate_judged (hw₁.inv hinv) hreq hbranch.1
  · rw [if_neg hbranch, ← bind_pure (updateUserRow _ _)]
    refine wp_transaction (wp_updateUserRow (fun _ _ _ _ => trivial) fun w₂ user hw₂ _ w₃ hw₃ =>
      ⟨?_, trivial⟩)
    exact .userUpdated userId existing dto actorId hreq (.inl rfl)
      ⟨w₁.db, hw₃.since (hw₂.since (w₁.since_db (Nat.zero_le _))), hmem, hid⟩ hbranch

theorem remove_judged {actorId : Option Uuid} (hinv : Inv w) :
    wp guarantee a (UsersService.remove userId actorId) (fun _ _ _ => True) Ctx.start w := by
  unfold UsersService.remove deleteAccount
  refine wp_findById lenient_true rfl fun w₁ _ hw₁ _ _ => ?_
  refine wp_discard (wp_transaction ?_)
  refine wp_lockUserRow fun w₂ hw₂ => ?_
  refine wp_assertUserIsNotASoleOwner lenient_true.atEnd (hw₂.inv (hw₁.inv hinv)) (.inl rfl) rfl
    fun w₃ ls hw₃ hleaves => ?_
  refine wp_now fun w₄ hw₄ => ?_
  have hinv₃ := hw₃.inv (hw₂.inv (hw₁.inv hinv))
  exact endAllSessionsInTransaction_judged 0 (fun _ _ => trivial)
    (hw₄.inv hinv₃) (.inr (.inl rfl)) (fun _ => by simp [Ctx.start])
      ⟨rfl, hleaves.stable hw₄ hinv₃ (.inr (.inl rfl)), rfl⟩ fun _ _ _ _ _ _ => trivial

theorem gdprErase_judged {currentPassword : String} (hinv : Inv w) :
    wp guarantee a (gdprErase env userId currentPassword) (fun _ _ _ => True) Ctx.start w := by
  unfold gdprErase
  refine wp_findById lenient_true rfl fun w₁ _ hw₁ _ _ => ?_
  refine wp_ensure (fun _ => ?_) fun _ => trivial
  refine wp_now fun w₂ hw₂ => ?_
  refine wp_drawId (hw₂.inv (hw₁.inv hinv)) fun w₃ salt hw₃ _ => ?_
  refine wp_discard (wp_transaction ?_)
  refine wp_lockUserRow fun w₄ hw₄ => ?_
  have hinv₄ := hw₄.inv (hw₃.inv (hw₂.inv (hw₁.inv hinv)))
  refine wp_closeSolelyOwnedWorkspaces hinv₄ (.inl rfl) rfl
    fun w₅ ls blocking closedAt hw₅ hleaves hlocked => ?_
  exact endAllSessionsInTransaction_judged closedAt (fun _ _ => trivial) (hw₅.inv hinv₄)
    (.inr (.inl rfl)) (fun _ => rfl) ⟨hleaves, fun id hid => .inl (hlocked id hid), rfl⟩
      fun _ _ _ _ _ _ => trivial

/-! ### Credentials -/

/-- A change of the password ends every session. -/
theorem wp_applyPasswordChange {password : String} {actorId : Option Uuid}
    {data : UserUpdateInput} {k : User → Handler β} (hQ : Lenient Q) (hinv : Inv w)
    (hactive : data.isActive = none) (hdeleted : data.deletedAt = none)
    (h : ∀ (w' : SystemWorld) (user : User), Inv w' → user.id = userId →
      wp guarantee a (k user) Q Ctx.start w') :
    wp guarantee a (applyPasswordChange env userId password actorId data >>= k) Q
      Ctx.start w := by
  unfold applyPasswordChange
  simp only [bind_assoc]
  exact wp_drawId hinv fun w₁ salt hw₁ _ => wp_endAllSessions (fun _ _ => hQ _ _ _)
    (hw₁.inv hinv) (fun _ _ => ⟨rfl, hactive, hdeleted⟩) fun w₂ user hinv₂ _ huser _ =>
      h w₂ user hinv₂ huser

/-- A new session after the old ones ended, in a request that is not a sign-in. -/
theorem wp_resume {expected : Option ℕ} (hinv : Inv w)
    (hreq : ∀ identifier password, a.req ≠ .login identifier password) :
    wp guarantee a (startSession env userId expected >>= fun _ => pure ()) (fun _ _ _ => True)
      Ctx.start w :=
  wp_discard (startSession_judged hinv fun identifier password h =>
    absurd h (hreq identifier password))

theorem updateOwnPassword_judged {currentPassword newPassword : String} (hinv : Inv w)
    (hreq : ∀ identifier password, a.req ≠ .login identifier password) :
    wp guarantee a (updateOwnPassword env userId currentPassword newPassword)
      (fun _ _ _ => True) Ctx.start w := by
  unfold updateOwnPassword
  exact wp_findById lenient_true rfl fun w₁ _ hw₁ _ _ => wp_ensure (fun _ =>
    wp_applyPasswordChange lenient_true (hw₁.inv hinv) rfl rfl fun w₂ user hinv₂ _ =>
      wp_resume hinv₂ hreq) fun _ => trivial

theorem updatePasswordAsAdmin_judged {actorId : Uuid} {newPassword : String} (hinv : Inv w) :
    wp guarantee a (updatePasswordAsAdmin env userId actorId newPassword)
      (fun _ _ _ => True) Ctx.start w := by
  unfold updatePasswordAsAdmin
  exact wp_ensure (fun _ => wp_findById lenient_true rfl fun w₁ _ hw₁ _ _ =>
    wp_applyPasswordChange lenient_true (hw₁.inv hinv) rfl rfl fun _ _ _ _ => trivial)
      fun _ => trivial

theorem deliverPasswordReset_judged (hinv : Inv w) :
    wp guarantee a (deliverPasswordReset env userId) (fun _ _ _ => True) Ctx.start w := by
  unfold deliverPasswordReset
  refine wp_select fun w₁ hw₁ => ?_
  simp only [Ctx.start, id_eq]
  cases (w₁.db.scopedUser? userId).filter fun u => u.isActive with
  | none => trivial
  | some user =>
    refine wp_drawId (hw₁.inv hinv) fun w₂ token hw₂ _ => wp_now fun w₃ hw₃ => wp_discard ?_
    rw [← bind_pure (updateUserRow _ _)]
    exact wp_transaction (wp_updateUserRow (fun _ _ _ _ => trivial) fun w₄ _ hw₄ _ w₅ hw₅ =>
      ⟨.passwordResetMinted user.id _ (.inl rfl) rfl rfl, trivial⟩)

theorem resetPassword_judged {email token newPassword : String} (hinv : Inv w) :
    wp guarantee a (resetPassword env email token newPassword) (fun _ _ _ => True)
      Ctx.start w := by
  unfold resetPassword
  exact wp_select fun w₁ hw₁ => wp_now fun w₂ hw₂ => wp_orThrow (fun user _ =>
    wp_applyPasswordChange lenient_true (hw₂.inv (hw₁.inv hinv)) rfl rfl fun _ _ _ _ => trivial)
      fun _ => trivial

theorem updateEmail_judged {currentPassword newEmail : String} (hinv : Inv w)
    (hreq : ∀ identifier password, a.req ≠ .login identifier password) :
    wp guarantee a (updateEmail env userId currentPassword newEmail) (fun _ _ _ => True)
      Ctx.start w := by
  unfold updateEmail
  exact wp_findById lenient_true rfl fun w₁ _ hw₁ _ _ => wp_ensure (fun _ =>
    wp_endAllSessions (fun _ _ => trivial) (hw₁.inv hinv) (fun _ _ => ⟨rfl, rfl, rfl⟩)
      fun w₂ user hinv₂ _ _ _ => wp_resume hinv₂ hreq) fun _ => trivial

theorem revokeAllSessions_judged {actorId : Uuid} (hinv : Inv w) :
    wp guarantee a (revokeAllSessions userId actorId) (fun _ _ _ => True) Ctx.start w := by
  unfold revokeAllSessions
  exact wp_findById lenient_true rfl fun w₁ _ hw₁ _ _ => wp_endAllSessions (fun _ _ => trivial)
    (hw₁.inv hinv) (fun _ _ => ⟨rfl, rfl, rfl⟩) fun _ _ _ _ _ _ => trivial

end NestApi
