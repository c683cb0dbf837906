import NestApi.Accounts.Invariant

/-!
# Rules for the account system

One rule a kind of statement says in which worlds the rest of a program runs, whatever the others
do in between. A transaction that writes an account is justified by the row that it finds, which
stays locked until the commit.
-/

namespace NestApi

open Txn Program Accounts McpOAuth

variable {α β : Type} {env : AccountEnv} {a : Agent AccountRequest} {w : AccountWorld}
  {held : RowLock → Prop} {userId : Uuid} {data base : AccountUpdateInput} {actorId : Option Uuid}
  {kind : ChangeKind} {seen : Option Account}

/-- Outside of a transaction, the program is within the guarantee from here on. -/
def Safe (env : AccountEnv) (a : Agent AccountRequest) (w : AccountWorld) (x : AccountTask α) :
    Prop :=
  wp (accountGuarantee env) a x (fun _ _ _ => True) Ctx.start w

/-! ### Statements -/

theorem safe_pure {r : α} : Safe env a w (pure r) := trivial

theorem safe_now {k : ℕ → AccountTask β}
    (h : ∀ w', Moves (accountGuarantee env) w w' → Safe env a w' (k w'.now)) :
    Safe env a w (now >>= k) :=
  wp_now fun w' hw => h w' hw.moves

theorem safe_freshId {k : Uuid → AccountTask β}
    (h : ∀ w' x, Moves (accountGuarantee env) w w' → w'.issued.find? x = some (x, some a.pid) →
      Safe env a w' (k x)) :
    Safe env a w (freshId >>= k) := by
  refine wp_freshId fun w' hw x hx => h _ x ?_ (issued_issue hx)
  exact hw.moves.tail (.issue x a.pid hx)

theorem safe_ensure {p : Prop} [Decidable p] {e : Failure} {k : Unit → AccountTask β}
    (h : p → Safe env a w (k ())) : Safe env a w (ensure p e >>= k) :=
  wp_ensure h fun _ => trivial

theorem safe_orThrow {x : Option α} {e : Failure} {k : α → AccountTask β}
    (h : ∀ r, x = some r → Safe env a w (k r)) : Safe env a w (orThrow x e >>= k) :=
  wp_orThrow h fun _ => trivial

theorem safe_onlyIf {p : Prop} [Decidable p] {x : AccountTask Unit} {k : Unit → AccountTask β}
    (hyes : p → Safe env a w (x >>= k)) (hno : ¬ p → Safe env a w (k ())) :
    Safe env a w (onlyIf p x >>= k) :=
  wp_onlyIf hyes hno

/-- A report that writes nothing. The newest entry is the report. -/
theorem safe_emit {ev : AccountEvent} {k : Unit → AccountTask β}
    (hstep : ∀ w', Moves (accountGuarantee env) w w' →
      AccountStep env a (fun _ => False) w' ev w'.db)
    (h : ∀ w', Moves (accountGuarantee env) w w' →
      Moves (accountGuarantee env) w (w'.push a ev w'.db) →
        Safe env a (w'.push a ev w'.db) (k ())) : Safe env a w (emit ev >>= k) := by
  refine wp_emit fun w' hw => ?_
  have hnow := hstep w' hw.moves
  exact ⟨hnow, h w' hw.moves (hw.moves.tail (.act a _ ev _ hnow))⟩

theorem safe_emit_last {ev : AccountEvent}
    (hstep : ∀ w', Moves (accountGuarantee env) w w' →
      AccountStep env a (fun _ => False) w' ev w'.db) : Safe env a w (emit ev) :=
  fun w' hw => ⟨hstep w' hw.moves, trivial⟩

/-- What is looked up without a lock has been read from then on. -/
theorem safe_readUser {find : AccountStore → Option Account} {k : Option Account → AccountTask β}
    (hfind : ∀ s, ∀ u ∈ find s, s.user? u.id = some u)
    (h : ∀ s w', Moves (accountGuarantee env) w w' → (∀ u ∈ find s, HasRead a w' u) →
      Safe env a w' (k (find s))) : Safe env a w (readUser find >>= k) := by
  refine wp_selectObserved fun w' hw => ?_
  have hstep : AccountStep env a (fun _ => False) w' (.userRead (find w'.db)) w'.db :=
    .userRead _ (hfind w'.db)
  refine ⟨hstep, h w'.db _ (hw.moves.tail (.act a _ _ _ hstep)) ?_⟩
  intro u hu
  have hev : find w'.db = some u := hu
  refine ⟨w'.db, w'.log, ?_⟩
  simp only [Ctx.start, id_eq, hev, World.push]
  exact List.suffix_refl _

theorem safe_findById {k : Account → AccountTask β}
    (h : ∀ w' user, Moves (accountGuarantee env) w w' → HasRead a w' user → user.id = userId →
      Safe env a w' (k user)) : Safe env a w (findById userId >>= k) := by
  unfold findById
  rw [bind_assoc]
  refine safe_readUser (fun s u hu => ?_) fun s w' hw hread => safe_orThrow fun user huser => ?_
  · obtain ⟨hmem, hid⟩ := AccountStore.user?_eq_some.mp hu
    exact AccountStore.user?_eq_some.mpr ⟨hmem, rfl⟩
  · exact h w' user hw (hread user huser) (AccountStore.user?_eq_some.mp huser).2

theorem safe_findByIdOrNull {k : Option Account → AccountTask β}
    (h : ∀ w' found, Moves (accountGuarantee env) w w' →
      (∀ u ∈ found, HasRead a w' u ∧ u.id = userId ∧ u.deletedAt = none) →
        Safe env a w' (k found)) : Safe env a w (findByIdOrNull userId >>= k) := by
  have hscoped : ∀ (s : AccountStore), ∀ u ∈ s.scopedUser? userId,
      s.user? u.id = some u ∧ u.id = userId ∧ u.deletedAt = none := by
    intro s u hu
    obtain ⟨hfound, hlive⟩ := AccountStore.of_scopedUser? hu
    obtain ⟨hmem, hid⟩ := AccountStore.user?_eq_some.mp hfound
    exact ⟨AccountStore.user?_eq_some.mpr ⟨hmem, rfl⟩, hid, hlive⟩
  refine safe_readUser (fun s u hu => (hscoped s u hu).1) fun s w' hw hread => h w' _ hw ?_
  intro u hu
  exact ⟨hread u hu, (hscoped s u hu).2⟩

/-! ### Transactions -/

/-- The end of a transaction: its commit is a step, and the rest of the program runs in the
world after it. -/
def Committed (env : AccountEnv) (a : Agent AccountRequest) (ev : α → AccountEvent)
    (k : α → AccountTask β) :
    Except Failure α → Ctx AccountStore RowLock → AccountWorld → Prop
  | .ok r, c, w => ∀ w', Interf (accountGuarantee env) a c.held w w' →
      AccountStep env a c.held w' (ev r) (c.pend w'.db) ∧
        Safe env a (w'.push a (ev r) (c.pend w'.db)) (k r)
  | .error _, _, _ => True

theorem safe_transaction {body : AccountTask α} {ev : α → AccountEvent} {k : α → AccountTask β}
    (h : wp (accountGuarantee env) a body (Committed env a ev k) Ctx.start w) :
    Safe env a w (transaction body ev >>= k) := by
  refine wp_bind (wp_transaction (wp_mono ?_ h))
  rintro (e | r) c w' hend
  · exact fun _ _ => trivial
  · exact hend

/-- What a write finds is locked, so it is the row at the commit. -/
theorem wp_updateAccount {k : Account → AccountTask β}
    {Q : Except Failure β → Ctx AccountStore RowLock → AccountWorld → Prop}
    (herr : ∀ e c w, Q (.error e) c w)
    (h : ∀ w' row, Interf (accountGuarantee env) a held w w' → w'.db.user? userId = some row →
      wp (accountGuarantee env) a (k (data.apply row)) Q
        ⟨fun l => l = .user userId ∨ held l, fun s => s.updateUser userId data⟩ w') :
    wp (accountGuarantee env) a (Accounts.updateUserRow userId data >>= k) Q ⟨held, id⟩ w := by
  unfold Accounts.updateUserRow
  simp only [bind_assoc, pure_bind]
  refine wp_lockRow fun w₁ hw₁ => wp_select fun w₂ hw₂ => wp_orThrow (fun row hrow => ?_)
    fun _ => herr _ _ _
  refine wp_modify fun w₃ hw₃ => h w₃ row ?_ ?_
  · exact hw₁.trans ((hw₂.trans hw₃).mono fun l hl => .inr hl)
  · rw [hw₃.user?_eq (.inl rfl)]
    exact hrow

/-- Every write that is a transaction of its own. -/
theorem safe_updateUser {k : Account → AccountTask β}
    (hjustified : ∀ w' row, Moves (accountGuarantee env) w w' → w'.db.user? userId = some row →
      Justified env a w' row ⟨kind, userId, seen, data⟩)
    (h : ∀ w' r s, Moves (accountGuarantee env) w w' →
      Moves (accountGuarantee env) w (w'.push a (.changed ⟨kind, userId, seen, data⟩) s) →
        Safe env a (w'.push a (.changed ⟨kind, userId, seen, data⟩) s) (k r)) :
    Safe env a w (updateUser kind userId seen data >>= k) := by
  refine safe_transaction ?_
  rw [← bind_pure (Accounts.updateUserRow userId data)]
  refine wp_updateAccount (fun _ _ _ => trivial) fun w₁ row hw₁ hrow => ?_
  intro w₂ hw₂
  have hlock : (fun l => l = RowLock.user userId ∨ False) (.user userId) := .inl rfl
  have hrow₂ : w₂.db.user? userId = some row := by rw [hw₂.user?_eq hlock, hrow]
  have hmoves := hw₁.moves.trans hw₂.moves
  have hstep := AccountStep.changed (L := fun l => l = RowLock.user userId ∨ False) _ row
    (w₂.db.updateUser userId data).refreshTokens hrow₂ hlock (hjustified w₂ row hmoves hrow₂)
  exact ⟨hstep, h w₂ _ _ hmoves (hmoves.tail (.act a _ _ _ hstep))⟩

/-- The end of a transaction that ends every session and writes the columns `base`: what it
writes is justified by the row that it finds. -/
theorem wp_endAccountSessions {k : Account × AccountUpdateInput → AccountTask β}
    (hinv : AccountInv w) (hlock : held (.user userId))
    (hjustified : ∀ w' row data, Moves (accountGuarantee env) w w' →
      EndsAt w' row base actorId data → Justified env a w' row ⟨kind, userId, seen, data⟩)
    (h : ∀ (w' : AccountWorld) (written : Account × AccountUpdateInput) s cutoff,
      written.2 = base.endSessions actorId cutoff →
      Moves (accountGuarantee env) w (w'.push a (changedEvent kind userId seen written) s) →
        Safe env a (w'.push a (changedEvent kind userId seen written) s) (k written)) :
    wp (accountGuarantee env) a (Accounts.endAllSessionsInTransaction userId actorId base)
      (Committed env a (changedEvent kind userId seen) k) ⟨held, id⟩ w := by
  unfold Accounts.endAllSessionsInTransaction
  refine wp_now fun w₁ hw₁ => ?_
  refine wp_updateAccount (fun _ _ _ => trivial) fun w₂ row hw₂ hrow => ?_
  refine wp_now fun w₃ hw₃ => wp_modify fun w₄ hw₄ => ?_
  intro w₅ hw₅
  -- the row is locked since before the clock was read
  have hheld : (fun l => l = RowLock.user userId ∨ held l) (.user userId) := .inl rfl
  have hlast := (hw₃.trans hw₄).trans hw₅
  have hrow₁ : w₁.db.user? userId = some row := by rw [← hw₂.user?_eq hlock, hrow]
  have hrow₅ : w₅.db.user? userId = some row := by rw [hlast.user?_eq hheld, hrow]
  have hcutoffs := (hw₁.moves.accountInv hinv).cutoffs userId row hrow₁
  have hafter : w₁.now ≤ w₅.now := hw₂.now_le.trans hlast.now_le
  have hends : EndsAt w₅ row base actorId (base.endSessions actorId (nextWholeSecond w₁.now)) :=
    ⟨w₁.now, hafter, rfl, hcutoffs⟩
  have hmoves := (hw₁.moves.trans hw₂.moves).trans hlast.moves
  let data := base.endSessions actorId (nextWholeSecond w₁.now)
  let ended := (w₅.db.updateUser userId data).revokeTokens userId w₃.now
  have hstep : AccountStep env a (fun l => l = RowLock.user userId ∨ held l) w₅
      (.changed ⟨kind, userId, seen, data⟩) ended :=
    .changed _ row ended.refreshTokens hrow₅ hheld (hjustified w₅ row data hmoves hends)
  exact ⟨hstep, h w₅ (data.apply _, data) ended _ rfl (hmoves.tail (.act a _ _ _ hstep))⟩

theorem safe_endAllSessions {k : Account → AccountTask β} (hinv : AccountInv w)
    (hjustified : ∀ w' row data, Moves (accountGuarantee env) w w' →
      EndsAt w' row base actorId data → Justified env a w' row ⟨kind, userId, seen, data⟩)
    (h : ∀ (w' : AccountWorld) (written : Account × AccountUpdateInput) s cutoff,
      written.2 = base.endSessions actorId cutoff →
      Moves (accountGuarantee env) w (w'.push a (changedEvent kind userId seen written) s) →
        Safe env a (w'.push a (changedEvent kind userId seen written) s) (k written.1)) :
    Safe env a w (Accounts.endAllSessions kind userId actorId seen base >>= k) := by
  unfold Accounts.endAllSessions
  simp only [bind_assoc, pure_bind]
  refine safe_transaction (wp_lockRow fun w₁ hw₁ => ?_)
  refine wp_endAccountSessions (hw₁.moves.accountInv hinv) (.inl rfl) ?_ ?_
  · intro w₂ row data hw₂
    exact hjustified w₂ row data (hw₁.moves.trans hw₂)
  · intro w₂ written s cutoff hwritten hpush
    exact h w₂ written s cutoff hwritten (hw₁.moves.trans hpush)

/-- The newest entry is the audit row. -/
theorem safe_record {action : String} {targetUserId : Uuid} {previousEmail newEmail : Option String}
    {k : Uuid → AccountTask β}
    (h : ∀ w' row s, Moves (accountGuarantee env) w w' → row.action = action →
      row.targetUserId = targetUserId → row.previousEmail = previousEmail →
        Moves (accountGuarantee env) w (w'.push a (.audited row) s) →
          Safe env a (w'.push a (.audited row) s) (k row.id)) :
    Safe env a w (record action actorId targetUserId previousEmail newEmail >>= k) := by
  unfold record
  simp only [bind_assoc]
  refine safe_freshId fun w₁ id hw₁ _ => safe_now fun w₂ hw₂ => safe_transaction ?_
  refine wp_modify fun w₃ hw₃ => wp_pure ?_
  intro w₄ hw₄
  have hmoves := ((hw₁.trans hw₂).trans hw₃.moves).trans hw₄.moves
  let row : AuditLog :=
    ⟨id, action, actorId, targetUserId, previousEmail, newEmail, w₂.now⟩
  have hstep : AccountStep env a (fun _ => False) w₄ (.audited row) (w₄.db.insertAuditLog row) :=
    .audited row
  exact ⟨hstep, h w₄ row _ hmoves rfl rfl rfl (hmoves.tail (.act a _ _ _ hstep))⟩

theorem safe_enqueue {job : AccountJob} {k : Unit → AccountTask β}
    (h : ∀ w', Moves (accountGuarantee env) w w' →
      Moves (accountGuarantee env) w (w'.push a (.queued job) w'.db) →
        Safe env a (w'.push a (.queued job) w'.db) (k ())) :
    Safe env a w (enqueue job >>= k) :=
  safe_emit (fun _ _ => .queued job) h

theorem safe_enqueue_last {job : AccountJob} : Safe env a w (enqueue job) :=
  safe_emit_last fun _ _ => .queued job

theorem startSession_safe {cutoff : Option ℕ} : Safe env a w (startSession env userId cutoff) := by
  unfold startSession lockLiveUser
  refine wp_sleepUntil fun w₁ hw₁ _ => wp_transaction ?_
  simp only [bind_assoc]
  refine wp_lockRow fun _ _ => wp_select fun _ _ => wp_orThrow (fun user _ => ?_)
    fun _ _ _ => trivial
  refine wp_ensure (fun _ => ?_) fun _ _ _ => trivial
  refine wp_freshId fun _ _ _ _ => wp_freshId fun _ _ _ _ => wp_now fun _ _ =>
    wp_freshId fun _ _ _ _ => ?_
  intro w₂ hw₂ w₃ hw₃
  exact ⟨.sessionStarted userId _, trivial⟩

end NestApi
