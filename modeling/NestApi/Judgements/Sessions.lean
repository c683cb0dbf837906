import NestApi.Judgements.Statements

/-!
# Judging the session services

Starting, exchanging and ending sessions stay within the guarantee. The lock on the user
row carries every argument: while it is held no token of the user is added, so the tokens
an update found are all there are.
-/

namespace NestApi

open Txn Program RefreshTokens

variable {β : Type} {a : Agent Request} {c : Ctx Database RowLock} {w w' : SystemWorld}
  {Q : Except Failure β → Ctx Database RowLock → SystemWorld → Prop} {userId familyId : Uuid}
  {env : Env}

/-! ### Ending sessions -/

/-- Under the lock on the user, an update of their unrevoked tokens reaches all of them. -/
theorem revokes_all (userId : Uuid) {held : RowLock → Prop} {w₁ w₂ w₃ : SystemWorld}
    {p : RefreshToken → Bool} {found ids : List Uuid} (hinv : Inv w₁) (hlock : held (.user userId))
    (hw₂ : Interf guarantee a held w₁ w₂) (hw₃ : Interf guarantee a held w₂ w₃)
    (hp : ∀ t t', t.Evolves t' → p t' = true → p t = true)
    (hfound : ∀ id, id ∈ found ↔ ∃ t ∈ w₁.db.refreshTokens, p t = true ∧ t.id = id)
    (hids : ∀ id, id ∈ ids ↔ ∃ t ∈ w₂.db.refreshTokens, p t = true ∧ t.id ∈ found ∧ t.id = id)
    {t : RefreshToken} (ht : t ∈ w₃.db.refreshTokens) (huser : t.userId = userId)
    (hmatch : p t = true) : t.id ∈ ids := by
  obtain ⟨t₂, ht₂, hevolves₂⟩ := hw₃.tokenOf (hw₂.inv hinv) hlock ht huser
  obtain ⟨t₁, ht₁, hevolves₁⟩ :=
    hw₂.tokenOf hinv hlock ht₂ (hevolves₂.userId ▸ huser)
  have hmatch₂ := hp t₂ t hevolves₂ hmatch
  refine (hids t.id).mpr ⟨t₂, ht₂, hmatch₂, (hfound t₂.id).mpr ⟨t₁, ht₁, ?_, ?_⟩, ?_⟩
  · exact hp t₁ t₂ hevolves₁ hmatch₂
  · exact hevolves₁.id_eq.symm
  · exact hevolves₂.id_eq.symm

theorem wp_endAllSessionsInTransaction {data : UserUpdateInput} {actorId : Option Uuid}
    {k : User → Handler β} (hQ : ∀ c w, Q (.error .internal) c w) (hinv : Inv w)
    (hlock : c.held (.user userId))
    (htokens : ∀ db, (c.pend db).refreshTokens = db.refreshTokens)
    (h : ∀ (w' : SystemWorld) (user : User) (held' : RowLock → Prop) (cutoff revokedAt : ℕ)
      (revoked : List Uuid), (∀ l, c.held l → held' l) → Interf guarantee a c.held w w' →
        user.id = userId → EndsSessions held' w' userId cutoff revoked →
          wp guarantee a (k ((data.endSessions actorId cutoff).row user)) Q
            ⟨held', fun db => ((c.pend db).updateUser userId
              (data.endSessions actorId cutoff)).updateTokens revoked
                (RefreshToken.revoked revokedAt)⟩ w') :
    wp guarantee a (endAllSessionsInTransaction userId actorId data >>= k) Q c w := by
  unfold endAllSessionsInTransaction
  simp only [bind_assoc, pure_bind]
  refine wp_now fun w₁ hw₁ => wp_updateUserRow hQ fun w₂ user hw₂ huser =>
    wp_now fun w₃ hw₃ => wp_updateManyTokens fun w₄ w₅ w₆ found ids hw₄ hw₅ hw₆ hfound hids _ => ?_
  simp only [Database.updateUser, htokens] at hfound hids
  have hinv₁ := hw₁.inv hinv
  have h₂ : Interf guarantee a c.held w₂ w₆ :=
    (((hw₃.trans hw₄).trans hw₅).mono fun l hl => .inr hl).trans
      (hw₆.mono fun l hl => .inr (.inr hl))
  refine h w₆ user _ (nextWholeSecond w₁.now) w₃.now ids (fun l hl => .inr (.inr hl))
    ((hw₁.trans hw₂).trans h₂) huser ⟨.inr (.inl rfl), ?_, ?_, ⟨w₁.now, ?_, rfl⟩, ?_⟩
  · intro t ht huser hrevoked
    refine revokes_all userId (hw₄.inv (hw₃.inv (hw₂.inv hinv₁))) (.inl rfl) hw₅
      (hw₆.mono fun l hl => .inr hl) ?_ hfound hids ht huser (by simp [huser, hrevoked])
    intro t t' hevolves hmatch
    simp only [Bool.and_eq_true, decide_eq_true_eq] at hmatch ⊢
    exact ⟨hevolves.userId ▸ hmatch.1, hevolves.revoked hmatch.2⟩
  · intro id hid
    obtain ⟨t, -, -, hfound, rfl⟩ := (hids id).mp hid
    exact .inl (List.mem_map_of_mem hfound)
  · exact hw₂.now_le.trans h₂.now_le
  · refine (hw₂.trans h₂).cutoffs hlock fun e he reason earlier hev => ?_
    exact hinv₁.cutoffs e he reason userId earlier hev

/-- The end of a transaction that ends every session, the workspaces it closes being written
already. -/
theorem endAllSessionsInTransaction_judged {reason : SessionEnd} {data : UserUpdateInput}
    {actorId : Option Uuid} {closed : List Uuid} (closedAt : ℕ)
    {R : Except Failure User → Ctx Database RowLock → SystemWorld → Prop}
    (hR : ∀ c w, R (.error .internal) c w) (hinv : Inv w) (hlock : c.held (.user userId))
    (hpend : ∀ db, c.pend db = db.updateWorkspaces closed (Workspace.deleted closedAt userId))
    (hreason : EndReason a c.held w userId data closed reason)
    (h : ∀ (w' : SystemWorld) (user : User), Inv w' → w.Extends w' → user.id = userId →
      (∃ cutoff db, w'.HappenedSince w.log.length
        ⟨a, .sessionsEnded reason userId cutoff, db⟩) → R (.ok user) Ctx.start w') :
    wp guarantee a (endAllSessionsInTransaction userId actorId data)
      (atEnd guarantee a (sessionsEndedEvent reason) R) c w := by
  rw [← bind_pure (endAllSessionsInTransaction userId actorId data)]
  refine wp_endAllSessionsInTransaction (fun _ _ w' _ => hR Ctx.start w') hinv hlock
    (fun db => by rw [hpend]; rfl)
    fun w₁ user held cutoff revokedAt revoked hsub hw₁ huser hends w₂ hw₂ => ?_
  have hinv₁ := hw₁.inv hinv
  have hbefore : w.Extends w₂ := hw₁.extends.trans hw₂.extends
  have hevent : sessionsEndedEvent reason ((data.endSessions actorId cutoff).row user) =
      .sessionsEnded reason userId cutoff := by
    simp [sessionsEndedEvent, UserUpdateInput.endSessions, UserUpdateInput.apply, huser]
  rw [hevent]
  refine ⟨?commit, h _ _ ((hw₂.inv hinv₁).move (.act a held _ _ ?commit))
    (hbefore.trans (w₂.extends_push _ _ _)) huser
      ⟨cutoff, _, World.happenedSince_push hbefore.log.length_le⟩⟩
  simp only [hpend]
  exact Commit.sessionsEnded reason userId cutoff data actorId closed revoked closedAt revokedAt
    (hends.stable hw₂ hinv₁)
    (((hreason.stable hw₁ hinv hlock).mono hsub).stable hw₂ hinv₁ hends.lock)

/-- Ending every session in a transaction of its own, for a reason that says nothing about
the account being in service. -/
theorem wp_endAllSessions {reason : SessionEnd} {data : UserUpdateInput} {actorId : Option Uuid}
    {k : User → Handler β} (hQ : ∀ c w, Q (.error .internal) c w) (hinv : Inv w)
    (hreason : ∀ L w, EndReason a L w userId data [] reason)
    (h : ∀ (w' : SystemWorld) (user : User), Inv w' → w.Extends w' → user.id = userId →
      (∃ cutoff db, w'.HappenedSince w.log.length
        ⟨a, .sessionsEnded reason userId cutoff, db⟩) →
      wp guarantee a (k user) Q Ctx.start w') :
    wp guarantee a (endAllSessions reason userId actorId data >>= k) Q Ctx.start w := by
  unfold endAllSessions
  refine wp_transaction_bind (wp_lockUserRow fun w₁ hw₁ =>
    endAllSessionsInTransaction_judged 0 hQ (hw₁.inv hinv) (.inl rfl)
      (fun _ => by simp [Ctx.start]) (hreason _ _) fun w₂ user hinv₂ hw₂ huser hended => ?_)
  obtain ⟨cutoff, db, hended⟩ := hended
  exact h w₂ user hinv₂ (hw₁.extends.trans hw₂) huser
    ⟨cutoff, db, hended.mono hw₁.extends.log.length_le⟩

/-- Ending a family that was used. -/
theorem wp_revokeFamily {k : Unit → Handler β} (hinv : Inv w)
    (hknown : ∃ db, w.Since 0 db ∧ db.Mentions familyId)
    (h : ∀ w' : SystemWorld, Inv w' → w.Extends w' →
      (∃ db, w'.HappenedSince w.log.length ⟨a, .familyRevoked familyId, db⟩) →
      wp guarantee a (k ()) Q Ctx.start w') :
    wp guarantee a (revokeFamily familyId >>= k) Q Ctx.start w := by
  -- what follows a commit of the family's revocation in the world `v`
  have hafter : ∀ (v : SystemWorld) (L : RowLock → Prop) (db : Database), Inv v → w.Extends v →
      Commit a L v (.familyRevoked familyId) db →
        wp guarantee a (k ()) Q Ctx.start (v.push a (.familyRevoked familyId) db) := by
    intro v L db hv hbefore hcommit
    refine h _ (hv.move (.act _ _ _ _ hcommit)) (hbefore.trans (World.extends_push _ _ _ _))
      ⟨_, World.happenedSince_push hbefore.log.length_le⟩
  unfold revokeFamily
  refine wp_transaction_bind (wp_select fun w₁ hw₁ => ?_)
  obtain ⟨d, hd, hmentions⟩ := hknown
  simp only [Ctx.start, id_eq]
  cases hany : w₁.db.refreshTokens.rows.find? fun t => t.familyId = familyId with
  | none =>
    refine wp_pure fun w₂ hw₂ => ?_
    have hempty : ∀ t ∈ w₁.db.refreshTokens, t.familyId ≠ familyId := by
      simpa [List.find?_eq_none, Table.mem_def] using hany
    have hcommit : Commit a (fun _ => False) w₂ (.familyRevoked familyId) w₂.db := by
      have := Commit.familyRevoked (a := a) (L := fun _ => False) (w := w₂) familyId [] 0
        (by simp) (.inl (hw₂.noFamily ⟨d, hw₁.since hd, hmentions⟩ hempty))
        ⟨d, hw₂.since (hw₁.since hd), hmentions⟩
      rwa [Database.updateTokens_nil] at this
    exact ⟨hcommit, hafter w₂ _ _ (hw₂.inv (hw₁.inv hinv)) (hw₁.extends.trans hw₂.extends) hcommit⟩
  | some token =>
    have htoken := List.mem_of_find?_eq_some hany
    have hfamily : token.familyId = familyId := by simpa using List.find?_some hany
    refine wp_lockUserRow fun w₂ hw₂ => wp_lockRefreshTokenFamily fun w₃ ls hw₃ =>
      wp_now fun w₄ hw₄ => wp_updateManyTokens
        fun w₅ w₆ w₇ found ids hw₅ hw₆ hw₇ hfound hids _ => wp_pure fun w₈ hw₈ => ?_
    have hsince : w₁.Extends w₈ := (((((hw₂.extends.trans hw₃.extends).trans
      hw₄.extends).trans hw₅.extends).trans hw₆.extends).trans hw₇.extends).trans hw₈.extends
    have hbefore := hw₁.extends.trans hsince
    have hinv₅ := hw₅.inv (hw₄.inv (hw₃.inv (hw₂.inv (hw₁.inv hinv))))
    refine ⟨?commit, hafter w₈ _ _ (hw₈.inv (hw₇.inv (hw₆.inv hinv₅))) hbefore ?commit⟩
    refine Commit.familyRevoked familyId ids w₄.now (fun id hid => ?_) (.inr ⟨w₁.db,
      hsince.since (w₁.since_db (Nat.zero_le _)), token, htoken, hfamily,
        fun t ht hfam huser hrevoked => ?_⟩) ⟨d, hbefore.since hd, hmentions⟩
    · obtain ⟨t, -, -, hfound, rfl⟩ := (hids id).mp hid
      exact .inl (List.mem_map_of_mem hfound)
    · refine revokes_all token.userId hinv₅ (.inr (.inl rfl)) hw₆
        ((hw₇.trans hw₈).mono fun l hl => .inr hl) ?_ hfound hids ht huser
          (by simp [hfam, hrevoked])
      intro t t' hevolves hmatch
      simp only [Bool.and_eq_true, decide_eq_true_eq] at hmatch ⊢
      exact ⟨hevolves.familyId ▸ hmatch.1, hevolves.revoked hmatch.2⟩

/-- The retention sweep. -/
theorem purgeExpired_judged :
    wp guarantee a purgeExpired (fun _ _ _ => True) Ctx.start w := by
  unfold purgeExpired
  refine wp_transaction_bind (wp_now fun w₁ hw₁ => wp_select fun w₂ hw₂ =>
    wp_lockRows fun w₃ hw₃ => wp_modify fun w₄ hw₄ => wp_pure fun w₅ hw₅ => ⟨?_, trivial⟩)
  exact Commit.tokensPurged _ fun id hid => .inl (List.mem_map_of_mem hid)

/-! ### Starting sessions -/

/-- A new token row. -/
theorem wp_persist {k : RefreshToken → Handler β} (hinv : Inv w)
    (h : ∀ (w' : SystemWorld) (row : RefreshToken), Interf guarantee a c.held w w' →
      row.userId = userId → row.familyId = familyId → row.IsLive → Drawn a w' row.id →
      wp guarantee a (k row) Q ⟨c.held, fun db => (c.pend db).insertToken row⟩ w') :
    wp guarantee a (persist env userId familyId >>= k) Q c w := by
  unfold persist
  simp only [bind_assoc, pure_bind]
  refine wp_drawId hinv fun w₁ token hw₁ _ => wp_now fun w₂ hw₂ =>
    wp_drawId (hw₂.inv (hw₁.inv hinv)) fun w₃ id hw₃ hdrawn => wp_modify fun w₄ hw₄ => ?_
  exact h w₄ _ (((hw₁.trans hw₂).trans hw₃).trans hw₄) rfl rfl ⟨rfl, rfl⟩ (hdrawn.stable hw₄)

/-- The eligible owner of a session is a usable account. -/
theorem of_eligible {db : Database} {u : User}
    (h : (db.scopedUser? userId).filter (fun u => u.isActive) = some u) :
    u ∈ db.users ∧ u.id = userId ∧ u.IsUsable := by
  obtain ⟨hfound, hactive⟩ := Option.filter_eq_some_iff.mp h
  obtain ⟨hmem, hid, hdeleted⟩ := Database.of_scopedUser? hfound
  exact ⟨hmem, hid, hdeleted, hactive⟩

/-- Under the lock of a user their row stays. -/
theorem Txn.Interf.userRow {held : RowLock → Prop} {u : User}
    (hw : Interf guarantee a held w w') (hinv : Inv w) (hlock : held (.user u.id))
    (hu : u ∈ w.db.users) : u ∈ w'.db.users :=
  (Table.mem_congr (hw.user hinv hlock)).mpr hu

/-- A session starts on the cutoff that the caller read, for a sign-in with the row it
judged. -/
theorem startSession_judged {expected : Option ℕ} (hinv : Inv w)
    (hjudged : ∀ identifier password, a.req = .login identifier password →
      ∃ l d v, (⟨a, .credentialsRead (some v), d⟩ :: l) <:+ w.log ∧ v.id = userId ∧
        v.passwordChangedAt = expected) :
    wp guarantee a (startSession env userId expected) (fun _ _ _ => True) Ctx.start w := by
  -- the part after the wait
  have hissue : ∀ w', Interf guarantee a (fun _ => False) w w' →
      wp guarantee a (issueForNewSession env userId expected) (fun _ _ _ => True) Ctx.start w' := by
    intro w₁ hw₁
    have hinv₁ := hw₁.inv hinv
    unfold issueForNewSession
    refine wp_transaction (wp_lockUserRow fun w₂ hw₂ => wp_select fun w₃ hw₃ =>
      wp_ensure ?_ fun _ _ _ => trivial)
    rintro ⟨owner, howner, hcutoff⟩
    have hinv₃ := hw₃.inv (hw₂.inv hinv₁)
    obtain ⟨hmem, rfl, husable⟩ := of_eligible howner
    refine wp_drawId hinv₃ fun w₄ family hw₄ hfamily => ?_
    rw [← bind_pure (persist env owner.id family)]
    refine wp_persist (hw₄.inv hinv₃) fun w₅ row hw₅ huser hfam hlive hdrawn => wp_pure
      fun w₆ hw₆ => ⟨?_, trivial⟩
    have hw₃₆ := (hw₄.trans hw₅).trans hw₆
    rw [← huser]
    refine Commit.sessionStarted row owner (huser ▸ .inl rfl)
      (hw₃₆.userRow hinv₃ (.inl rfl) hmem) huser.symm husable hlive (hdrawn.stable hw₆)
        (hfam ▸ (hfamily.stable (hw₅.trans hw₆))) fun identifier password hreq => ?_
    obtain ⟨l, d, v, hl, hid, hv⟩ := hjudged identifier password hreq
    refine ⟨l, d, v, hl.trans ?_, hid.trans huser.symm, hv.trans hcutoff.symm⟩
    exact ((hw₁.log_suffix.trans hw₂.log_suffix).trans hw₃.log_suffix).trans hw₃₆.log_suffix
  unfold startSession
  cases expected with
  | none => exact hissue w .refl
  | some cutoff => exact wp_sleepUntil fun w₁ hw₁ _ => hissue w₁ hw₁

/-! ### Exchanging tokens -/

theorem RefusalCause.mono {n : ℕ} {t : RefreshToken} (hw : w.Extends w')
    (h : RefusalCause a w n t) : RefusalCause a w' n t := by
  rcases h with ⟨b, db, h⟩ | ⟨b, reason, cutoff, db, h⟩ | h | ⟨now, db, h, hnow⟩ | ⟨db, h, howner⟩
  · exact .inl ⟨b, db, hw.happenedSince h⟩
  · exact .inr (.inl ⟨b, reason, cutoff, db, hw.happenedSince h⟩)
  · exact .inr (.inr (.inl h))
  · exact .inr (.inr (.inr (.inl ⟨now, db, hw.happenedSince h, hnow⟩)))
  · exact .inr (.inr (.inr (.inr ⟨db, hw.since h, howner⟩)))

/-- What has happened when the presentation of a token is answered, `w` being the world in
which its row was read. -/
def Answered (a : Agent Request) (w : SystemWorld) (t : RefreshToken) (answer : Answer)
    (w' : SystemWorld) : Prop :=
  (answer = .succeeded → ∃ childId db, w'.HappenedSince 0 ⟨a, .tokenRotated t.id childId, db⟩) ∧
    (answer = .refused → w.Extends w' ∧ RefusalCause a w' w.log.length t)

theorem Answered.mono {t : RefreshToken} {answer : Answer} {w₁ w₂ : SystemWorld}
    (h : Answered a w t answer w₁) (hw : w₁.Extends w₂) : Answered a w t answer w₂ := by
  refine ⟨fun hs => ?_, fun hr => ⟨(h.2 hr).1.trans hw, (h.2 hr).2.mono hw⟩⟩
  obtain ⟨childId, db, he⟩ := h.1 hs
  exact ⟨childId, db, hw.happenedSince he⟩

/-- The postcondition of a presentation. -/
def AnswerIs (a : Agent Request) (w : SystemWorld) (t : RefreshToken) :
    Except Failure (User × RefreshToken) → Ctx Database RowLock → SystemWorld → Prop :=
  fun r _ w' => Answered a w t (answerOf r) w'

section Exchange

variable {existing : RefreshToken}

/-- A refusal with a cause. -/
theorem answerIs_refused (hw : w.Extends w') (e : ApiError)
    (hcause : RefusalCause a w' w.log.length existing) :
    AnswerIs a w existing (.error (.api e)) c w' :=
  ⟨by simp [answerOf], fun _ => ⟨hw, hcause⟩⟩

/-- The row of the presented token was just read. -/
structure Presented (a : Agent Request) (w : SystemWorld) (t : RefreshToken) : Prop where
  mem : t ∈ w.db.refreshTokens
  read : ∃ d l, w.log = ⟨a, .tokenRead (some t), d⟩ :: l

/-- What a replay is concluded from: the token was spent when it was read, or its conditional
consume matched no row. -/
def ReplayCause (a : Agent Request) (w w' : SystemWorld) (t : RefreshToken) : Prop :=
  t.consumedAt ≠ none ∨ ∃ now s, w'.HappenedSince w.log.length ⟨a, .consumeMissed t.id now, s⟩

theorem ReplayCause.mono {w'' : SystemWorld} (hw : w'.Extends w'')
    (h : ReplayCause a w w' existing) : ReplayCause a w w'' existing := by
  refine h.imp_right ?_
  rintro ⟨now, s, hmissed⟩
  exact ⟨now, s, hw.happenedSince hmissed⟩

/-- A replay ends the family, is recorded, and throws, whatever was to follow. -/
theorem wp_handleReplay {α : Type} {k : α → Handler (User × RefreshToken)} (hw : w.Extends w')
    (hinv : Inv w') (hexisting : Presented a w existing) (hcause : ReplayCause a w w' existing) :
    wp guarantee a (handleReplay existing.userId existing.familyId >>= k) (AnswerIs a w existing)
      Ctx.start w' := by
  have hmentions : w.db.Mentions existing.familyId :=
    .inr (.inr (.inr (.inr ⟨existing, hexisting.mem, .inr rfl⟩)))
  obtain ⟨d, l, hlog⟩ := hexisting.read
  unfold handleReplay
  simp only [bind_assoc]
  refine wp_revokeFamily hinv ⟨w.db, hw.since (w.since_db (Nat.zero_le _)), hmentions⟩ ?_
  intro w₁ _ hw₁ hended
  obtain ⟨db, hrevoked⟩ := hended
  refine wp_emit fun w₂ hw₂ => ⟨?_, ?_⟩
  · have hafter : w.Extends w₂ := (hw.trans hw₁).trans hw₂.extends
    have hcause₂ := hcause.mono (hw₁.trans hw₂.extends)
    refine .replayDetected existing.userId existing.familyId
      ⟨l, d, existing, hlog ▸ hafter.log, rfl, rfl, ?_⟩
    simpa [ReplayCause, hlog] using hcause₂
  · have hafter : w₁.Extends
        (w₂.push a (.replayDetected existing.userId existing.familyId) w₂.db) :=
      hw₂.extends.trans (w₂.extends_push _ _ _)
    exact answerIs_refused ((hw.trans hw₁).trans hafter) _
      (.inl ⟨a, db, hafter.happenedSince (hrevoked.mono hw.log.length_le)⟩)

/-- What follows a failed exchange ends the family, or the sessions, or was preceded by the
cutoff that the token predates. -/
theorem afterFailedExchange_judged {e : Failure} (hw : w.Extends w') (hinv : Inv w')
    (hexisting : Presented a w existing)
    (he : e = .replayDetected ∧ ReplayCause a w w' existing ∨ e = .sessionOwnerIneligible ∨
      e = .sessionPredatesCutoff ∧ RefusalCause a w' w.log.length existing) :
    wp guarantee a (afterFailedExchange existing e) (AnswerIs a w existing) Ctx.start w' := by
  rcases he with ⟨rfl, hcause⟩ | rfl | ⟨rfl, hcause⟩
  · have hreplay := wp_handleReplay (k := pure) (a := a) hw hinv hexisting hcause
    rwa [bind_pure] at hreplay
  · refine wp_endAllSessions (fun _ _ => ⟨by simp [answerOf], by simp [answerOf]⟩) hinv
      (fun _ _ => ⟨rfl, rfl, rfl⟩) fun w₁ _ _ hw₁ _ hended => ?_
    obtain ⟨cutoff, db, hended⟩ := hended
    exact answerIs_refused (hw.trans hw₁) _
      (.inr (.inl ⟨a, _, cutoff, db, hended.mono hw.log.length_le⟩))
  · exact answerIs_refused hw _ hcause

/-- A conditional consume that matches no row tells that the token is not live or lapsed. -/
theorem not_live_of_missed {held : RowLock → Prop} {w₁ w₂ w₃ : SystemWorld} {t : RefreshToken}
    {found ids : List Uuid} {now : ℕ} (hinv : Inv w₁) (hlock : held (.user t.userId))
    (hw₂ : Interf guarantee a held w₁ w₂) (hw₃ : Interf guarantee a held w₂ w₃)
    (hfound : ∀ id, id ∈ found ↔ ∃ r ∈ w₁.db.refreshTokens, (r.id = t.id && r.consumedAt = none &&
      r.revokedAt = none && decide (now < r.expiresAt)) = true ∧ r.id = id)
    (hids : ∀ id, id ∈ ids ↔ ∃ r ∈ w₂.db.refreshTokens, (r.id = t.id && r.consumedAt = none &&
      r.revokedAt = none && decide (now < r.expiresAt)) = true ∧ r.id ∈ found ∧ r.id = id)
    (hnodup : ids.Nodup) (hnot : ids.length ≠ 1) {r : RefreshToken} (hr : r ∈ w₃.db.refreshTokens)
    (hid : r.id = t.id) (huser : r.userId = t.userId) (hlive : r.IsLive) : r.expiresAt ≤ now := by
  by_contra hfresh
  have hmem : t.id ∈ ids := by
    rw [← hid]
    refine revokes_all t.userId hinv hlock hw₂ hw₃ ?_ hfound hids hr huser ?_
    · intro s s' hevolves hmatch
      simp only [Bool.and_eq_true, decide_eq_true_eq] at hmatch ⊢
      obtain ⟨⟨⟨hsame, hconsumed⟩, hrevoked⟩, hnow⟩ := hmatch
      refine ⟨⟨⟨hevolves.id_eq ▸ hsame, hevolves.consumed hconsumed⟩,
        hevolves.revoked hrevoked⟩, ?_⟩
      rwa [← hevolves.expiresAt]
    · simp [hid, hlive.1, hlive.2, Nat.lt_of_not_le hfresh]
  have honly : ∀ id ∈ ids, id = t.id := by
    intro id hin
    obtain ⟨s, -, hmatch, -, rfl⟩ := (hids id).mp hin
    simp only [Bool.and_eq_true, decide_eq_true_eq] at hmatch
    exact hmatch.1.1.1
  have hsingle : ids = [t.id] := List.perm_singleton.mp
    ((List.perm_ext_iff_of_nodup hnodup (List.nodup_singleton _)).mpr fun id => by
      rw [List.mem_singleton]
      exact ⟨honly id, fun h => h ▸ hmem⟩)
  exact hnot (by rw [hsingle]; rfl)

/-- The exchange: the token is live when it is consumed, under the locks on its user and
its row, and it is younger than the cutoff of a usable owner. -/
theorem exchange_judged (hw : w.Extends w') (hinv : Inv w') (hexisting : Presented a w existing)
    (hlive : existing.IsLive) :
    wp guarantee a (exchange env existing)
      (atEnd guarantee a (fun pair => .tokenRotated existing.id pair.2.id)
        (rescue guarantee a (afterFailedExchange existing) (AnswerIs a w existing)))
      Ctx.start w' := by
  unfold exchange
  refine wp_lockUserRow fun w₁ hw₁ => wp_lockRefreshTokenFamily fun w₂ ls hw₂ =>
    wp_select fun w₃ hw₃ => wp_orThrow (fun owner howner => ?_) fun _ w₄ hw₄ => ?_
  · have hinv₃ := hw₃.inv (hw₂.inv (hw₁.inv hinv))
    have h₃ : w.Extends w₃ :=
      ((hw.trans hw₁.extends).trans hw₂.extends).trans hw₃.extends
    obtain ⟨hmem, hid, husable⟩ := of_eligible howner
    refine wp_ensure (fun hcutoff => ?_) fun hcutoff w₄ hw₄ => ?_
    · refine wp_now fun w₄ hw₄ => wp_now fun w₅ hw₅ => wp_updateManyTokens
        fun w₆ w₇ w₈ found ids hw₆ hw₇ hw₈ hfound hids hnodup => ?_
      have hinv₆ := hw₆.inv (hw₅.inv (hw₄.inv hinv₃))
      have hinv₇ := hw₇.inv hinv₆
      have h₇ : w.Extends w₇ := (((h₃.trans hw₄.extends).trans hw₅.extends).trans
        hw₆.extends).trans hw₇.extends
      -- a row with the id of the token has its other fixed columns too
      have hsame : ∀ {v : SystemWorld}, Inv v → w.Extends v → ∀ t ∈ v.db.refreshTokens,
          t.id = existing.id → existing.identity = t.identity := fun hv hwv t ht hid =>
        hv.tokens _ _ (hwv.since (w.since_db (Nat.zero_le _))) (World.since_db (Nat.zero_le _))
          existing hexisting.mem t ht hid.symm
      refine wp_onlyIf (fun hnot => ?_) fun hone => ?_
      · refine wp_emit fun w₉ hw₉ => ?_
        have hinv₉ := hw₉.inv (hw₈.inv hinv₇)
        have h₉ : w.Extends w₉ := (h₇.trans hw₈.extends).trans hw₉.extends
        have hnow : w₄.now ≤ w₉.now := (((hw₅.now_le.trans hw₆.now_le).trans hw₇.now_le).trans
          hw₈.now_le).trans hw₉.now_le
        have hmissed : ∀ L, Commit a L w₉ (.consumeMissed existing.id w₄.now) w₉.db := by
          intro L
          obtain ⟨d, l, hlog⟩ := hexisting.read
          refine .consumeMissed existing.id w₄.now hnow
            ⟨l, d, existing, hlog ▸ h₉.log, rfl, hlive⟩ fun t ht hid hlive => ?_
          have huser : t.userId = existing.userId :=
            (congrArg (fun x => x.2.1) (hsame hinv₉ h₉ t ht hid)).symm
          exact not_live_of_missed hinv₆ (.inr (.inl rfl)) hw₇
            ((hw₈.trans hw₉).mono fun l hl => .inr hl) hfound hids hnodup hnot ht hid huser hlive
        refine ⟨hmissed _, wp_ensure (fun hone => absurd hone hnot) fun _ w₁₀ hw₁₀ => ?_⟩
        have hpush := w₉.extends_push a (.consumeMissed existing.id w₄.now) w₉.db
        have hinv₁₀ : Inv (w₉.push a (.consumeMissed existing.id w₄.now) w₉.db) :=
          hinv₉.move (.act a (fun _ => False) _ _ (hmissed _))
        have hcause : (w₉.push a (.consumeMissed existing.id w₄.now) w₉.db).HappenedSince
            w.log.length ⟨a, .consumeMissed existing.id w₄.now, w₉.db⟩ :=
          World.happenedSince_push h₉.log.length_le
        exact afterFailedExchange_judged ((h₉.trans hpush).trans hw₁₀.extends)
          (hw₁₀.inv hinv₁₀) hexisting
          (.inl ⟨rfl, .inr ⟨w₄.now, w₉.db, hw₁₀.extends.happenedSince hcause⟩⟩)
      · refine wp_ensure (fun hone => ?_) fun hnot => absurd hnot hone
        obtain ⟨id, rfl⟩ := List.length_eq_one_iff.mp hone
        obtain ⟨t, ht, hmatch, hin, rfl⟩ := (hids id).mp (List.mem_singleton_self _)
        simp only [Bool.and_eq_true, decide_eq_true_eq] at hmatch
        have hidentity := hsame hinv₇ h₇ t ht hmatch.1.1.1
        simp only [RefreshToken.identity, Prod.mk.injEq] at hidentity
        obtain ⟨hsameId, hsameUser, hsameFamily, hsameCreated, -⟩ := hidentity
        refine wp_persist (hw₈.inv hinv₇) fun w₉ child hw₉ huser hfamily hlive hdrawn =>
          wp_pure fun w₁₀ hw₁₀ => ⟨?_, ?_⟩
        · have hw₇₁₀ := (hw₈.trans hw₉).trans hw₁₀
          have hw₃₁₀ := (((hw₄.trans hw₅).trans hw₆).trans hw₇).trans
            (hw₇₁₀.mono fun l hl => .inr hl)
          simp only [hsameId]
          refine Commit.tokenRotated t child owner w₅.now ?_ (.inl (List.mem_map_of_mem hin))
            (hw₇₁₀.token hinv₇ (.inl (List.mem_map_of_mem hin)) ht) ⟨hmatch.1.1.2, hmatch.1.2⟩
              (hw₃₁₀.userRow hinv₃ ?_ hmem) (hid.trans hsameUser) husable ?_
                (hfamily.trans hsameFamily) (huser.trans hsameUser) hlive (hdrawn.stable hw₁₀)
          · exact .inr (.inr (.inl (by rw [hsameUser])))
          · exact .inr (.inl (by rw [hid]))
          · exact hsameCreated ▸ hcutoff
        · exact ⟨fun _ => ⟨_, _, World.happenedSince_push (Nat.zero_le _)⟩, by simp [answerOf]⟩
    · refine afterFailedExchange_judged (h₃.trans hw₄.extends) (hw₄.inv hinv₃) hexisting
        (.inr (.inr ⟨rfl, .inr (.inr (.inr (.inr ?_)))⟩))
      have hnow := hw₄.since (w₃.since_db h₃.log.length_le)
      push Not at hcutoff
      obtain ⟨cutoff, hcut, hlt⟩ := hcutoff
      exact ⟨w₃.db, hnow, owner, hmem, hid, cutoff, hcut, hlt⟩
  · refine afterFailedExchange_judged ((((hw.trans hw₁.extends).trans hw₂.extends).trans
      hw₃.extends).trans hw₄.extends) ?_ hexisting (.inr (.inl rfl))
    exact hw₄.inv (hw₃.inv (hw₂.inv (hw₁.inv hinv)))

/-- The presentation of a known token is answered for a cause. -/
theorem rotateExisting_judged (hinv : Inv w) (hexisting : Presented a w existing) :
    wp guarantee a (rotateExisting env existing) (AnswerIs a w existing) Ctx.start w := by
  unfold rotateExisting
  refine wp_onlyIf (fun hspent => wp_handleReplay (.refl w) hinv hexisting (.inl hspent))
    fun hunspent => ?_
  have hconsumed : existing.consumedAt = none := by simpa using hunspent
  refine wp_ensure (fun hrevoked => wp_now fun w₁ hw₁ => wp_emit fun w₂ hw₂ =>
    ⟨.expiryChecked _ _ _, ?_⟩)
      fun hrevoked => answerIs_refused (.refl w) _ (.inr (.inr (.inl ⟨hrevoked, hconsumed⟩)))
  have hbefore := (hw₁.extends.trans hw₂.extends)
  have hw₃ := hbefore.trans (w₂.extends_push a
    (.expiryChecked existing.id existing.expiresAt w₁.now) w₂.db)
  refine wp_ensure (fun _ => wp_catchError (wp_transaction (exchange_judged hw₃ ?_ hexisting
    ⟨hconsumed, hrevoked⟩))) fun hlapsed => ?_
  · exact (hw₂.inv (hw₁.inv hinv)).move (.act a (fun _ => False) _ _ (.expiryChecked _ _ _))
  · exact answerIs_refused hw₃ _ (.inr (.inr (.inr (.inl ⟨w₁.now, _,
      World.happenedSince_push hbefore.log.length_le, Nat.le_of_not_lt hlapsed⟩))))

end Exchange

/-- Exchanging a presented token. -/
theorem rotate_judged {presented : String} (hinv : Inv w) :
    wp guarantee a (rotate env presented) (fun _ _ _ => True) Ctx.start w := by
  unfold rotate
  refine wp_selectObserved fun w₁ hw₁ => ?_
  simp only [Ctx.start, id_eq]
  have hread : Commit a (fun _ => False) w₁
      (.tokenRead (findByToken env presented w₁.db)) w₁.db :=
    .tokenRead _ fun t ht => List.mem_of_find?_eq_some ht
  have hinv₁ := (hw₁.inv hinv).move (.act a _ _ _ hread)
  refine ⟨hread, ?_⟩
  cases hfound : findByToken env presented w₁.db with
  | none => trivial
  | some existing =>
    rw [hfound] at hinv₁
    have hexisting : Presented a (w₁.push a (.tokenRead (some existing)) w₁.db) existing :=
      ⟨List.mem_of_find?_eq_some hfound, _, _, rfl⟩
    refine wp_report (wp_mono ?_ (rotateExisting_judged hinv₁ hexisting))
    intro r c w₂ hanswer w₃ hw₃
    obtain ⟨hsucceeded, hrefused⟩ := hanswer.mono hw₃.extends
    refine .refreshAnswered existing.id (answerOf r) hsucceeded fun hr => ?_
    obtain ⟨hw, hcause⟩ := hrefused hr
    exact ⟨_, hw.log, existing, by rw [hw.init]; exact hexisting.mem, rfl, hcause⟩

/-- Ending the family of a presented token. -/
theorem logout_judged {presented : String} (hinv : Inv w) :
    wp guarantee a (AuthService.logout env presented) (fun _ _ _ => True) Ctx.start w := by
  unfold AuthService.logout revokeByToken
  refine wp_select fun w₁ hw₁ => ?_
  simp only [Ctx.start, id_eq]
  cases hfound : w₁.db.refreshTokens.rows.find? fun t =>
      t.tokenHash = env.hashOpaqueToken presented with
  | none => trivial
  | some token =>
    have htoken : token ∈ w₁.db.refreshTokens := List.mem_of_find?_eq_some hfound
    have hmentions : w₁.db.Mentions token.familyId :=
      .inr (.inr (.inr (.inr ⟨token, htoken, .inr rfl⟩)))
    have hrevoke := wp_revokeFamily (k := pure) (a := a) (Q := fun _ _ _ => True)
      (hw₁.inv hinv) ⟨_, w₁.since_db (Nat.zero_le _), hmentions⟩ fun _ _ _ _ => trivial
    rwa [bind_pure] at hrevoke

theorem logoutAll_judged (hinv : Inv w) :
    wp guarantee a (AuthService.logoutAll userId) (fun _ _ _ => True) Ctx.start w :=
  wp_endAllSessions (fun _ _ => trivial) hinv (fun _ _ => ⟨rfl, rfl, rfl⟩)
    fun _ _ _ _ _ _ => trivial

/-- Signing in: the session starts on the row that was judged. -/
theorem login_judged {identifier password : String} (hinv : Inv w) :
    wp guarantee a (AuthService.login env identifier password) (fun _ _ _ => True)
      Ctx.start w := by
  unfold AuthService.login AuthService.verifyCredentials
  simp only [bind_assoc]
  refine wp_selectObserved fun w₁ hw₁ => ⟨.credentialsRead _ fun u hu => ?_, ?_⟩
  · exact List.mem_of_find?_eq_some hu
  · refine wp_orThrow (fun user huser => wp_ensure (fun _ => ?_) fun _ => trivial) fun _ => trivial
    have hread := (Option.filter_eq_some_iff.mp huser).1
    rw [pure_bind]
    refine wp_discard (startSession_judged ?_ fun _ _ _ => ?_)
    · exact (hw₁.inv hinv).move (.act a (fun _ => False) _ _ (.credentialsRead _ fun u hu =>
        List.mem_of_find?_eq_some hu))
    · refine ⟨w₁.log, w₁.db, user, ?_, rfl, rfl⟩
      change _ <:+ _ :: _
      rewrite [← hread]
      exact List.suffix_refl _

end NestApi
