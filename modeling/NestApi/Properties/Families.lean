import NestApi.Properties.Runs

/-!
# Token families

A family is the chain of one sign-in. It belongs to one user, it has at most one live token,
and a family that was ended stays dead. Rotation is the only commit that adds a token to a
family, and it consumes the live one in the same transaction.
-/

namespace NestApi

open Txn

variable {a : Agent Request} {L : RowLock → Prop} {w : SystemWorld} {ev : Event}
  {db db' : Database}

/-! ### What a commit does to tokens -/

/-- Every token is a version of an earlier one. -/
def TokensEvolve (db db' : Database) : Prop :=
  ∀ t' ∈ db'.refreshTokens, ∃ t ∈ db.refreshTokens, t.Evolves t'

/-- The ways in which a commit changes the tokens. -/
inductive TokenStep (a : Agent Request) (w : SystemWorld) : Event → Database → Prop
  | evolves (ev : Event) (db' : Database) (h : TokensEvolve w.db db') : TokenStep a w ev db'
  | started (t : RefreshToken) (db' : Database) (hlive : t.IsLive)
      (hfamily : Drawn a w t.familyId)
      (hrows : ∀ t' ∈ db'.refreshTokens, t' ∈ w.db.refreshTokens ∨ t' = t) :
      TokenStep a w (.sessionStarted t.userId t.familyId t.id) db'
  | rotated (t child : RefreshToken) (db' : Database) (hmem : t ∈ w.db.refreshTokens)
      (hlive : t.IsLive) (hfamily : child.familyId = t.familyId) (huser : child.userId = t.userId)
      (hrows : ∀ t' ∈ db'.refreshTokens, t' = child ∨ ∃ t₀ ∈ w.db.refreshTokens,
        t₀.Evolves t' ∧ (t₀ = t → t'.consumedAt ≠ none)) :
      TokenStep a w (.tokenRotated t.id child.id) db'

theorem Commit.tokenStep (h : Commit a L w ev db') : TokenStep a w ev db' := by
  have hsame : db'.refreshTokens = w.db.refreshTokens → TokensEvolve w.db db' := by
    intro heq t' ht'
    exact ⟨t', heq ▸ ht', .refl t'⟩
  cases h with
  | rosterChanged _ _ _ _ _ _ _ _ _ _ _ _ hwrite => exact .evolves _ _ (hsame hwrite.tables.2.2.1)
  | invitationAccepted _ _ _ _ _ _ _ _ _ _ _ _ _ _ _ _ _ _ _ hjoins =>
    exact .evolves _ _ (hsame hjoins.tables.2.2.2.1)
  | sessionsEnded | familyRevoked =>
    exact .evolves _ _ fun t' ht' =>
      evolves_of_mem_updateTokens (RefreshToken.evolves_revoked _) ht'
  | sessionStarted t _ _ _ _ _ hlive _ hfamily =>
    exact .started t _ hlive hfamily fun t' ht' => Table.mem_of_mem_insert ht'
  | tokenRotated t child _ now _ _ hmem hlive _ _ _ _ hfamily huser =>
    refine .rotated t child _ hmem hlive hfamily huser fun t' ht' => ?_
    rcases Table.mem_of_mem_insert ht' with hold | rfl
    · rcases Table.of_mem_update hold with ⟨hold, hid⟩ | ⟨t₀, ht₀, -, rfl⟩
      · refine .inr ⟨t', hold, .refl t', fun hsame => ?_⟩
        exact absurd (by simp [hsame]) hid
      · exact .inr ⟨t₀, ht₀, RefreshToken.evolves_consumed now t₀, fun _ => by
          simp [RefreshToken.consumed]⟩
    · exact .inl rfl
  | tokensPurged ids =>
    exact .evolves _ _ fun t' ht' => ⟨t', (Table.mem_delete.mp ht').1, .refl t'⟩
  | _ => exact .evolves _ _ (hsame rfl)

/-! ### The laws of a family -/

/-- Tokens of one family belong to one user. -/
def Database.FamiliesOwned (db : Database) : Prop :=
  ∀ t ∈ db.refreshTokens, ∀ t' ∈ db.refreshTokens, t.familyId = t'.familyId →
    t.userId = t'.userId

/-- A family has at most one live token. -/
def Database.OneLive (db : Database) : Prop :=
  ∀ t ∈ db.refreshTokens, ∀ t' ∈ db.refreshTokens, t.IsLive → t'.IsLive →
    t.familyId = t'.familyId → t = t'

/-- The entry after the history `l` ends the family: it revokes it, or it ends every session
of the user who owned a token of it by then. -/
def EndsFamily (init : Database) (l : List (Entry Database Event Request))
    (e : Entry Database Event Request) (familyId : Uuid) : Prop :=
  e.event = .familyRevoked familyId ∨
    ∃ reason userId cutoff, e.event = .sessionsEnded reason userId cutoff ∧
      ∃ l₀, l₀ <:+ e :: l ∧ ∃ t ∈ (stateOf init l₀).refreshTokens,
        t.familyId = familyId ∧ t.userId = userId

/-- What holds of every history. -/
structure FamilyInv (w : SystemWorld) : Prop where
  owned : ∀ db db', w.Since 0 db → w.Since 0 db' → ∀ t ∈ db.refreshTokens,
    ∀ t' ∈ db'.refreshTokens, t.familyId = t'.familyId → t.userId = t'.userId
  oneLive : w.db.OneLive
  ended : ∀ e l familyId, (e :: l) <:+ w.log → EndsFamily w.init l e familyId →
    (∃ db, w.Since 0 db ∧ db.Mentions familyId) ∧ ¬ w.db.LiveFamily familyId

theorem live_of_evolves {t t' : RefreshToken} (h : t.Evolves t') (hlive : t'.IsLive) :
    t.IsLive :=
  ⟨h.consumed hlive.1, h.revoked hlive.2⟩

theorem mentions_family {t : RefreshToken} (ht : t ∈ db.refreshTokens) :
    db.Mentions t.familyId :=
  .inr (.inr (.inr (.inr ⟨t, ht, .inr rfl⟩)))

/-- A token after the commit has the owner that earlier tokens of its family had. -/
theorem TokenStep.owned (h : TokenStep a w ev db') (hinv : FamilyInv w) {d : Database}
    (hd : w.Since 0 d) {t t' : RefreshToken} (ht : t ∈ d.refreshTokens)
    (ht' : t' ∈ db'.refreshTokens) (hfamily : t.familyId = t'.familyId) :
    t.userId = t'.userId := by
  have hnow := w.since_db (Nat.zero_le _)
  have hold : ∀ t₀ ∈ w.db.refreshTokens, t₀.Evolves t' → t.userId = t'.userId := by
    intro t₀ ht₀ hevolves
    have hsame : t.familyId = t₀.familyId := hfamily.trans hevolves.familyId
    exact (hinv.owned d w.db hd hnow t ht t₀ ht₀ hsame).trans hevolves.userId.symm
  cases h with
  | evolves _ _ h =>
    obtain ⟨t₀, ht₀, hevolves⟩ := h t' ht'
    exact hold t₀ ht₀ hevolves
  | started t₁ _ _ hdrawn hrows =>
    rcases hrows t' ht' with hmem | rfl
    · exact hold t' hmem (.refl t')
    · exact absurd (hfamily ▸ mentions_family ht) (hdrawn.unused d hd)
  | rotated t₁ child _ hmem _ hsame huser hrows =>
    rcases hrows t' ht' with rfl | ⟨t₀, ht₀, hevolves, -⟩
    · have hparent : t.familyId = t₁.familyId := hfamily.trans hsame
      exact (hinv.owned d w.db hd hnow t ht t₁ hmem hparent).trans huser.symm
    · exact hold t₀ ht₀ hevolves

/-- Two tokens of one family after the commit have one owner. -/
theorem TokenStep.familiesOwned (h : TokenStep a w ev db') (hinv : FamilyInv w) :
    db'.FamiliesOwned := by
  have hnow := w.since_db (Nat.zero_le _)
  intro t ht t' ht' hfamily
  have hold : ∀ t₀ ∈ w.db.refreshTokens, t₀.Evolves t → t.userId = t'.userId := by
    intro t₀ ht₀ hevolves
    have hsame : t₀.familyId = t'.familyId := hevolves.familyId.symm.trans hfamily
    exact hevolves.userId.trans (h.owned hinv hnow ht₀ ht' hsame)
  cases h with
  | evolves _ _ h =>
    obtain ⟨t₀, ht₀, hevolves⟩ := h t ht
    exact hold t₀ ht₀ hevolves
  | started t₁ _ _ hdrawn hrows =>
    rcases hrows t ht with hmem | rfl
    · exact hold t hmem (.refl t)
    · rcases hrows t' ht' with hmem' | rfl
      · exact absurd (hfamily ▸ mentions_family hmem') (hdrawn.unused w.db hnow)
      · rfl
  | rotated t₁ child _ hmem hlive hsame huser hrows =>
    rcases hrows t ht with rfl | ⟨t₀, ht₀, hevolves, -⟩
    · have hparent : t₁.familyId = t'.familyId := hsame.symm.trans hfamily
      have hstep : TokenStep a w (.tokenRotated t₁.id t.id) db' :=
        .rotated t₁ t db' hmem hlive hsame huser hrows
      exact huser.trans (hstep.owned hinv hnow hmem ht' hparent)
    · exact hold t₀ ht₀ hevolves

/-- A commit leaves at most one live token in a family. -/
theorem TokenStep.oneLive (h : TokenStep a w ev db') (hinv : FamilyInv w) : db'.OneLive := by
  have hnow := w.since_db (Nat.zero_le _)
  -- two versions of live tokens of one family are versions of one token
  have hversions : ∀ t₀ ∈ w.db.refreshTokens, ∀ t₁ ∈ w.db.refreshTokens,
      ∀ t ∈ db'.refreshTokens, ∀ t' ∈ db'.refreshTokens, t₀.Evolves t → t₁.Evolves t' →
        t.IsLive → t'.IsLive → t.familyId = t'.familyId → t = t' := by
    intro t₀ ht₀ t₁ ht₁ t ht t' ht' hevolves hevolves' hlive hlive' hfamily
    have hsame : t₀.familyId = t₁.familyId :=
      hevolves.familyId.symm.trans (hfamily.trans hevolves'.familyId)
    have heq : t₀ = t₁ := hinv.oneLive t₀ ht₀ t₁ ht₁ (live_of_evolves hevolves hlive)
      (live_of_evolves hevolves' hlive') hsame
    have hid : t.id = t'.id := by rw [hevolves.id_eq, hevolves'.id_eq, heq]
    exact Table.eq_of_key ht ht' hid
  intro t ht t' ht' hlive hlive' hfamily
  cases h with
  | evolves _ _ h =>
    obtain ⟨t₀, ht₀, hevolves⟩ := h t ht
    obtain ⟨t₁, ht₁, hevolves'⟩ := h t' ht'
    exact hversions t₀ ht₀ t₁ ht₁ t ht t' ht' hevolves hevolves' hlive hlive' hfamily
  | started t₂ _ _ hdrawn hrows =>
    rcases hrows t ht with hmem | rfl <;> rcases hrows t' ht' with hmem' | rfl
    · exact hversions t hmem t' hmem' t ht t' ht' (.refl t) (.refl t') hlive hlive' hfamily
    · exact absurd (hfamily ▸ mentions_family hmem) (hdrawn.unused w.db hnow)
    · exact absurd (hfamily ▸ mentions_family hmem') (hdrawn.unused w.db hnow)
    · rfl
  | rotated t₂ child _ hmem hlive₂ hsame huser hrows =>
    -- a live version of the exchanged token would be a second one beside the child
    have hspent : ∀ s ∈ db'.refreshTokens, s.IsLive → s.familyId = child.familyId →
        ∀ t₀ ∈ w.db.refreshTokens, t₀.Evolves s → (t₀ = t₂ → s.consumedAt ≠ none) → False := by
      intro s _ hs hfam t₀ ht₀ hevolves hconsumed
      have hfam₀ : t₀.familyId = t₂.familyId := hevolves.familyId.symm.trans (hfam.trans hsame)
      have heq : t₀ = t₂ :=
        hinv.oneLive t₀ ht₀ t₂ hmem (live_of_evolves hevolves hs) hlive₂ hfam₀
      exact hconsumed heq hs.1
    rcases hrows t ht with rfl | ⟨t₀, ht₀, hevolves, hc⟩ <;>
      rcases hrows t' ht' with rfl | ⟨t₁, ht₁, hevolves', hc'⟩
    · rfl
    · exact absurd hc' fun hc' => hspent t' ht' hlive' hfamily.symm t₁ ht₁ hevolves' hc'
    · exact absurd hc fun hc => hspent t ht hlive hfamily t₀ ht₀ hevolves hc
    · exact hversions t₀ ht₀ t₁ ht₁ t ht t' ht' hevolves hevolves' hlive hlive' hfamily

/-- A known family without a live token gets none. -/
theorem TokenStep.notLive (h : TokenStep a w ev db') {familyId : Uuid}
    (hknown : ∃ db, w.Since 0 db ∧ db.Mentions familyId) (hdead : ¬ w.db.LiveFamily familyId) :
    ¬ db'.LiveFamily familyId := by
  rintro ⟨t', ht', hfamily, hlive⟩
  have hold : ∀ t₀ ∈ w.db.refreshTokens, t₀.Evolves t' → False := by
    intro t₀ ht₀ hevolves
    exact hdead ⟨t₀, ht₀, hevolves.familyId ▸ hfamily, live_of_evolves hevolves hlive⟩
  cases h with
  | evolves _ _ h =>
    obtain ⟨t₀, ht₀, hevolves⟩ := h t' ht'
    exact hold t₀ ht₀ hevolves
  | started t₁ _ _ hdrawn hrows =>
    rcases hrows t' ht' with hmem | rfl
    · exact hold t' hmem (.refl t')
    · obtain ⟨d, hd, hmentions⟩ := hknown
      exact hdrawn.unused d hd (hfamily ▸ hmentions)
  | rotated t₁ child _ hmem hlive₁ hsame _ hrows =>
    rcases hrows t' ht' with rfl | ⟨t₀, ht₀, hevolves, -⟩
    · exact hdead ⟨t₁, hmem, hsame.symm.trans hfamily, hlive₁⟩
    · exact hold t₀ ht₀ hevolves

/-- The commit that ends a family leaves it without a live token. -/
theorem Commit.endsFamily (h : Commit a L w ev db') (hinv : FamilyInv w) {familyId : Uuid}
    (hends : EndsFamily w.init w.log ⟨a, ev, db'⟩ familyId) :
    (∃ db, (w.push a ev db').Since 0 db ∧ db.Mentions familyId) ∧
      ¬ db'.LiveFamily familyId := by
  have hnow := w.since_db (Nat.zero_le _)
  have hpast : ∀ {d : Database}, w.Since 0 d → (w.push a ev db').Since 0 d := fun hd =>
    World.since_push.mpr (.inl hd)
  rcases hends with hev | ⟨reason, userId, cutoff, hev, l₀, hl₀, t, ht, hfamily, huser⟩
  · simp only at hev
    subst hev
    cases h with
    | familyRevoked _ revoked now _ hrevoked hknown =>
      obtain ⟨d, hd, hmentions⟩ := hknown
      refine ⟨⟨d, hpast hd, hmentions⟩, ?_⟩
      rintro ⟨t', ht', hfamily, hlive⟩
      rcases Table.of_mem_update ht' with ⟨hmem, hnot⟩ | ⟨t₀, -, -, rfl⟩
      · rcases hrevoked with hnone | ⟨d', hd', any, hany, hfam, hall⟩
        · exact hnone t' hmem hfamily
        · have howner : t'.userId = any.userId :=
            hinv.owned w.db d' hnow hd' t' hmem any hany (hfamily.trans hfam.symm)
          exact hnot (hall t' hmem hfamily howner hlive.2)
      · cases hlive.2
  · simp only at hev
    subst hev
    have hstate : (w.push a (.sessionsEnded reason userId cutoff) db').Since 0
        (stateOf w.init l₀) := ⟨l₀, hl₀, Nat.zero_le _, rfl⟩
    refine ⟨⟨_, hstate, hfamily ▸ mentions_family ht⟩, ?_⟩
    have hstep := h.tokenStep
    rintro ⟨t', ht', hfamily', hlive⟩
    have howner : t'.userId = userId := by
      have hfam : t.familyId = t'.familyId := hfamily.trans hfamily'.symm
      rcases World.since_push.mp hstate with hold | ⟨-, heq⟩
      · exact (hstep.owned hinv hold ht ht' hfam).symm.trans huser
      · rw [heq] at ht
        exact (hstep.familiesOwned hinv t ht t' ht' hfam).symm.trans huser
    cases h with
    | sessionsEnded _ _ _ _ _ _ revoked _ revokedAt hends =>
      rcases Table.of_mem_update ht' with ⟨hmem, hnot⟩ | ⟨t₀, -, -, rfl⟩
      · exact hnot (hends.complete t' hmem howner hlive.2)
      · cases hlive.2

/-- The step: a commit keeps the laws. -/
theorem FamilyInv.push (hinv : FamilyInv w) (h : Commit a L w ev db') :
    FamilyInv (w.push a ev db') where
  owned d d' hd hd' t ht t' ht' hfamily := by
    have hstep := h.tokenStep
    rcases World.since_push.mp hd with hold | ⟨-, rfl⟩ <;>
      rcases World.since_push.mp hd' with hold' | ⟨-, rfl⟩
    · exact hinv.owned d d' hold hold' t ht t' ht' hfamily
    · exact hstep.owned hinv hold ht ht' hfamily
    · exact (hstep.owned hinv hold' ht' ht hfamily.symm).symm
    · exact hstep.familiesOwned hinv t ht t' ht' hfamily
  oneLive := h.tokenStep.oneLive hinv
  ended e l familyId hl hends := by
    rcases List.suffix_cons_iff.mp hl with hnew | hold
    · obtain ⟨rfl, rfl⟩ := List.cons.inj hnew
      exact h.endsFamily hinv hends
    · obtain ⟨⟨d, hd, hmentions⟩, hdead⟩ := hinv.ended e l familyId hold hends
      exact ⟨⟨d, World.since_push.mpr (.inl hd), hmentions⟩,
        h.tokenStep.notLive ⟨d, hd, hmentions⟩ hdead⟩

/-! ### Every run -/

variable {env : Env} {Allowed : Request → Prop} {init : Database} {σ : SystemConfig}

/-- The laws hold after every run. -/
theorem RunsTo.familyInv (hrun : RunsTo env Allowed init σ) (howned : init.FamiliesOwned)
    (hlive : init.OneLive) : FamilyInv σ.world := by
  refine hrun.history (J := FamilyInv) (fun now => ⟨?_, hlive, ?_⟩) (fun h => ⟨h.1, h.2, h.3⟩)
    (fun h => ⟨h.1, h.2, h.3⟩) fun _ _ _ h hinv => hinv.push h
  · intro d d' hd hd' t ht t' ht' hfamily
    obtain rfl := since_start hd
    obtain rfl := since_start hd'
    exact howned t ht t' ht' hfamily
  · intro e l familyId hl
    simp at hl

/-- Refresh families, whatever the requests and however they interleave: one owner, at most
one live token, and no live token once the family was revoked or its owner's sessions ended. -/
theorem refreshFamilies_chained (hrun : RunsTo env Allowed init σ) (howned : init.FamiliesOwned)
    (hlive : init.OneLive) :
    σ.world.db.FamiliesOwned ∧ σ.world.db.OneLive ∧
      ∀ e l familyId, (e :: l) <:+ σ.world.log → EndsFamily init l e familyId →
        ¬ σ.world.db.LiveFamily familyId := by
  have hinv := hrun.familyInv howned hlive
  have hnow := σ.world.since_db (Nat.zero_le _)
  refine ⟨fun t ht t' ht' hfamily => hinv.owned _ _ hnow hnow t ht t' ht' hfamily, hinv.oneLive,
    fun e l familyId hl hends => ?_⟩
  exact (hinv.ended e l familyId hl (hrun.init_eq ▸ hends)).2

/-- A sign-in, an exchange and a logout with the child. -/
def signInAndOut : List (Order Request) :=
  [.serve 1 (.login "ann" "secret"), .proceed 1, .proceed 1, .serve 2 (.refresh "#iii"),
    .proceed 2, .proceed 2, .proceed 2, .serve 3 (.logout "#iiiii"), .proceed 3]

theorem refreshFamilies_chained_signInAndOut :
    (Sample.perform (Sample.database [] ["ann"]) 5000 signInAndOut).world.db.OneLive ∧
      ¬ (Sample.perform (Sample.database [] ["ann"]) 5000 signInAndOut).world.db.LiveFamily
        "#ii" := by
  have hlaws := refreshFamilies_chained
    (Sample.runsTo_perform (Sample.database [] ["ann"]) 5000 signInAndOut)
    (fun t ht => absurd ht Table.not_mem_empty) (fun t ht => absurd ht Table.not_mem_empty)
  have hlast : (Sample.perform (Sample.database [] ["ann"]) 5000 signInAndOut).world.log.head?.map
      Entry.event = some (.familyRevoked "#ii") := by decide +kernel
  obtain ⟨e, hhead, hev⟩ := Option.map_eq_some_iff.mp hlast
  obtain ⟨l, hlog⟩ := List.head?_eq_some_iff.mp hhead
  exact ⟨hlaws.2.1, hlaws.2.2 e l "#ii" (hlog ▸ List.suffix_refl _) (.inl hev)⟩

end NestApi
