import NestApi.Files.Judgement

/-!
# Judging the transactions on pictures

Both lock the account first. Under that lock the picture stays what was read, so it is attached,
and nobody else refers to it. What a claim writes was `ready` and stays locked. So at the commit
the account exchanges its picture for a file that was not attached.
-/

namespace NestApi

open Txn Program Files
open WorkspaceMemberships (toLowerCase)

variable {α β : Type} {env : FileEnv} {a : Agent FileRequest} {held : FileLock → Prop}
  {w w' : FileWorld} {userId : Uuid} {current requested : Option Uuid} {data : AccountUpdateInput}
  {pend : FileStore → FileStore}
  {Q : Except Failure β → Ctx FileStore FileLock → FileWorld → Prop}

/-! ### Statements -/

theorem wp_updateFileUserRow {k : Account → FileTask β}
    (hpend : ∀ s, (pend s).toAccountStore = s.toAccountStore) (herr : ∀ e c w, Q (.error e) c w)
    (h : ∀ w' row, Interf fileGuarantee a held w w' →
      w'.db.toAccountStore.user? userId = some row →
      wp fileGuarantee a (k (data.apply row)) Q
        ⟨fun l => l = .user userId ∨ held l, fun s => (pend s).updateUser userId data⟩ w') :
    wp fileGuarantee a (Files.updateUserRow userId data >>= k) Q ⟨held, pend⟩ w := by
  unfold Files.updateUserRow
  simp only [bind_assoc, pure_bind]
  refine wp_lockRow fun w₁ hw₁ => wp_select fun w₂ hw₂ => wp_orThrow (fun row hrow => ?_)
    fun _ => herr _ _ _
  refine wp_modify fun w₃ hw₃ => h w₃ row ?_ ?_
  · exact hw₁.trans ((hw₂.trans hw₃).mono fun l hl => .inr hl)
  · rw [hw₃.fileUser?_eq (.inl rfl), ← hpend]
    exact hrow

/-- The write of an attachment. -/
def IsAttachment (d : FileAssetUpdateInput) : Prop :=
  d.status = some .attached ∧ d.expiresAt = some none

/-- A claim that succeeds wrote the file that was asked for, which was `ready`. -/
theorem wp_claimRequested {actorId : Uuid} {k : Unit → FileTask β}
    (herr : ∀ e c w, Q (.error e) c w)
    (h : ∀ (w' : FileWorld) (held' : FileLock → Prop) (d : FileAssetUpdateInput) (t : ℕ),
      Interf fileGuarantee a held w w' → (∀ l, held l → held' l) → IsAttachment d →
      (∀ x, requested = some x → held' (.fileAsset x) ∧
        ∃ f, w'.db.fileAsset? x = some f ∧ f.status = .ready) →
      wp fileGuarantee a (k ()) Q
        ⟨held', fun s => s.updateFileAssets requested.toList d t⟩ w') :
    wp fileGuarantee a (claimRequested actorId requested >>= k) Q ⟨held, id⟩ w := by
  cases requested with
  | none =>
    have hnone : (fun s : FileStore => s.updateFileAssets (none : Option Uuid).toList
        { status := some .attached, expiresAt := some none } 0) = id := by
      funext s
      simp [FileStore.updateFileAssets]
    have hstart := h w held { status := some .attached, expiresAt := some none } 0 .refl
      (fun _ hl => hl) ⟨rfl, rfl⟩ (by simp)
    rw [hnone] at hstart
    exact wp_bind hstart
  | some x =>
    unfold claimRequested claimForAttachment
    simp only [bind_assoc]
    refine wp_now fun w₁ hw₁ => wp_updateManyFileAssets
      fun w₂ w₃ w₄ found ids t hw₂ hw₃ hw₄ hfound hids => ?_
    have hready : ∀ id ∈ ids, id = x ∧ ∃ f, w₄.db.fileAsset? x = some f ∧ f.status = .ready := by
      intro id hid
      obtain ⟨hmem, f, hf, hp⟩ := (hids id).mp hid
      simp only [isClaimable, Bool.and_eq_true, decide_eq_true_eq] at hp
      obtain rfl : id = x := (FileStore.fileAsset?_eq_some.mp hf).2.symm.trans hp.1.1.1.1
      exact ⟨rfl, f, hw₄.fileAsset?_eq (.inl (List.mem_map_of_mem hmem)) hf, hp.1.2⟩
    split
    · next hlength =>
      obtain ⟨id, rfl⟩ := List.length_eq_one_iff.mp hlength
      obtain ⟨rfl, f, hf, hstatus⟩ := hready id (List.mem_singleton_self _)
      have hlock : FileLock.fileAsset id ∈ found.map FileLock.fileAsset :=
        List.mem_map_of_mem ((hids id).mp (List.mem_singleton_self _)).1
      unfold findUniqueFileAsset
      simp only [bind_assoc, pure_bind]
      refine wp_select fun w₅ hw₅ => wp_orThrow (fun _ _ => ?_) fun _ => herr _ _ _
      have hbefore := hw₁.trans (hw₂.trans hw₃)
      refine h w₅ _ _ t (hbefore.trans ((hw₄.trans hw₅).mono fun _ hl => .inr hl))
        (fun _ hl => .inr hl) ⟨rfl, rfl⟩ ?_
      rintro x ⟨⟩
      exact ⟨.inl hlock, f, hw₅.fileAsset?_eq (.inl hlock) hf, hstatus⟩
    · refine wp_bind (wp_select fun w₅ hw₅ => wp_orThrow (fun _ _ => ?_) fun _ => herr _ _ _)
      exact herr _ _ _

/-- Under the lock of its account, the picture is attached, so releasing it writes its row. -/
theorem wp_markPictureDeleting {k : Unit → FileTask β} (hinv : FileInv w)
    (hlock : held (.user userId)) (hcurrent : w.db.picture userId = current)
    (hpend : ∀ s x, current = some x → s.IsAttached x → (pend s).IsAttached x)
    (h : ∀ (w' : FileWorld) (held' : FileLock → Prop) (ids : List Uuid) (t : ℕ),
      Interf fileGuarantee a held w w' → (∀ l, held l → held' l) →
      (∀ id, id ∈ ids ↔ current = some id) → (∀ id ∈ ids, held' (.fileAsset id)) →
      wp fileGuarantee a (k ()) Q
        ⟨held', fun s => (pend s).updateFileAssets ids releasedData t⟩ w') :
    wp fileGuarantee a (markDeleting current.toList >>= k) Q ⟨held, pend⟩ w := by
  unfold markDeleting
  split
  · next hnone =>
    have hempty : (fun s : FileStore => (pend s).updateFileAssets [] releasedData 0) = pend := by
      funext s
      simp [FileStore.updateFileAssets]
    have hstart := h w held [] 0 .refl (fun _ hl => hl)
      (fun id => by cases current <;> simp at hnone ⊢) (by simp)
    rw [hempty] at hstart
    exact wp_bind hstart
  · simp only [bind_assoc, pure_bind]
    refine wp_updateManyFileAssets fun w₁ w₂ w₃ found ids t hw₁ hw₂ hw₃ hfound hids => ?_
    refine h w₃ _ ids t (hw₁.trans (hw₂.trans (hw₃.mono fun _ hl => .inr hl)))
      (fun _ hl => .inr hl) (fun id => ?_)
      fun id hid => .inl (List.mem_map_of_mem ((hids id).mp hid).1)
    -- the account is locked, so its picture is attached in every world from here on
    have hmatch : ∀ v, Interf fileGuarantee a held w v → current = some id →
        ∃ f, (pend v.db).fileAsset? id = some f ∧
          (decide (f.id ∈ current.toList) && decide (f.status ≠ .deleting)) = true := by
      intro v hv hid
      have hpicture : v.db.picture userId = some id := by
        rw [← hid, ← hcurrent]
        simp only [FileStore.picture, hv.fileUser?_eq hlock]
      obtain ⟨f, hf, hstatus⟩ :=
        hpend v.db id hid ((hv.moves.fileInv hinv).references.of_ref hpicture)
      obtain ⟨-, rfl⟩ := FileStore.fileAsset?_eq_some.mp hf
      exact ⟨f, hf, by simp [hid, hstatus]⟩
    constructor
    · intro hmem
      obtain ⟨-, f, hf, hp⟩ := (hids id).mp hmem
      simp only [Bool.and_eq_true, decide_eq_true_eq, Option.mem_toList,
        (FileStore.fileAsset?_eq_some.mp hf).2] at hp
      exact hp.1
    · intro hid
      exact (hids id).mpr ⟨(hfound id).mpr (hmatch w₁ hw₁ hid), hmatch w₂ (hw₁.trans hw₂) hid⟩

/-! ### Commits -/

section Commits

variable {L : FileLock → Prop} {ev : FileEvent} {s : FileStore} {ids ids' : List Uuid}
  {d : FileAssetUpdateInput} {t t' : ℕ} {x : Uuid}

/-- The commit of a transaction that locked an account and exchanged its picture. -/
theorem fileStep_exchange {r : Option Uuid} (hinv : FileInv w) (hev : ev.IsRowEvent)
    (hlock : L (.user userId)) (hpicture : s.picture userId = r)
    (hothers : ∀ i, i ≠ userId → s.toAccountStore.user? i = w.db.toAccountStore.user? i)
    (hrows : RowsWritten L w.db s) (hexpiry : ∀ f ∈ s.fileAssets, f.ExpiryMatches)
    (hfree : ∀ x, r = some x → ¬ w.db.IsAttached x)
    (hattached : ∀ x, s.IsAttached x ↔
      r = some x ∨ w.db.IsAttached x ∧ w.db.picture userId ≠ some x)
    (hobjects : s.objects = w.db.objects) : FileStep a L w ev s := by
  refine fileStep_rows hev hrows hexpiry (fun i => ?_)
    (references_exchange hinv hpicture hothers hfree hattached) hobjects
  by_cases hi : i = userId
  · exact .inr (hi ▸ hlock)
  · exact .inl (hothers i hi)

/-- The row of an account after its write and the writes of files. -/
theorem picture_updateUser {row : Account} (hrow : s.toAccountStore.user? userId = some row) :
    (s.updateUser userId data).picture userId = (data.apply row).profileImageFileAssetId := by
  have hafter : (s.toAccountStore.updateUser userId data).user? userId = some (data.apply row) :=
    AccountStore.user?_updateUser hrow
  simp only [FileStore.picture, FileStore.updateUser, hafter, Option.bind_some]

theorem user?_updateUser_others (i : Uuid) (hi : i ≠ userId) :
    (s.updateUser userId data).toAccountStore.user? i = s.toAccountStore.user? i :=
  AccountStore.user?_updateUser_of_ne hi

/-- Releasing the picture leaves every other file as it is. -/
theorem isAttached_released (hids : ∀ id, id ∈ ids ↔ current = some id) :
    (s.updateFileAssets ids releasedData t).IsAttached x ↔ s.IsAttached x ∧ current ≠ some x := by
  rw [isAttached_update]
  by_cases hx : x ∈ ids
  · simp [hx, (hids x).mp hx, releasedData]
  · have hother : current ≠ some x := fun heq => hx ((hids x).mpr heq)
    simp [hx, hother]

theorem expiry_released (hexpiry : ∀ f ∈ s.fileAssets, f.ExpiryMatches) :
    ∀ f ∈ (s.updateFileAssets ids releasedData t).fileAssets, f.ExpiryMatches :=
  expiry_update hexpiry fun f _ _ _ => by simp [FileAsset.ExpiryMatches, releasedData]

theorem rowsWritten_released (hlock : ∀ id ∈ ids, L (.fileAsset id)) :
    RowsWritten L s (s.updateFileAssets ids releasedData t) :=
  rowsWritten_update hlock fun id _ f _ => by
    cases hstatus : f.status <;> simp [releasedData, FileAssetStatus.rank]

/-- The commit of a new picture. -/
theorem fileStep_profileImageSet {row : Account} (hinv : FileInv w) (hlock : L (.user userId))
    (hrow : w.db.toAccountStore.user? userId = some row) (hcurrent : w.db.picture userId = current)
    (hne : requested ≠ current) (hd : IsAttachment d)
    (hready : ∀ x, requested = some x → L (.fileAsset x) ∧
      ∃ f, w.db.fileAsset? x = some f ∧ f.status = .ready)
    (hids : ∀ id, id ∈ ids ↔ current = some id) (hlockIds : ∀ id ∈ ids, L (.fileAsset id))
    (hdata : data.profileImageFileAssetId = some requested) :
    FileStep a L w (.profileImageSet userId requested)
      (((w.db.updateFileAssets requested.toList d t).updateFileAssets ids releasedData
        t').updateUser userId data) := by
  obtain ⟨hattached, hexpires⟩ := hd
  refine fileStep_exchange (r := requested) hinv trivial hlock ?_ (fun i hi => ?_) ?_ ?_ ?_ ?_ rfl
  · exact (picture_updateUser hrow).trans (by simp [AccountUpdateInput.apply, hdata])
  · exact user?_updateUser_others i hi
  · -- the claimed file was `ready`
    have hclaimed : RowsWritten L w.db (w.db.updateFileAssets requested.toList d t) := by
      refine rowsWritten_update (fun id hid => (hready id (by simpa using hid)).1)
        fun id hid f hf => ?_
      obtain ⟨-, f', hf', hstatus⟩ := hready id (by simpa using hid)
      obtain rfl : f' = f := Option.some_inj.mp (hf'.symm.trans hf)
      simp [hstatus, hattached, FileAssetStatus.rank]
    exact hclaimed.trans (rowsWritten_released (s := w.db.updateFileAssets _ _ _) hlockIds)
  · refine expiry_released (expiry_update hinv.expiry fun f _ _ _ => ?_)
    simp [FileAsset.ExpiryMatches, hattached, hexpires]
  · intro x hx
    obtain ⟨-, f, hf, hstatus⟩ := hready x hx
    simp [FileStore.isAttached_iff hf, hstatus]
  · intro x
    have hreleased := isAttached_released (s := w.db.updateFileAssets requested.toList d t)
      (t := t') (x := x) hids
    refine Iff.trans hreleased ?_
    rw [isAttached_update, hcurrent]
    by_cases hx : requested = some x
    · obtain ⟨-, f, hf, -⟩ := hready x hx
      have hother : current ≠ some x := fun heq => hne (hx.trans heq.symm)
      simp [hx, hf, hattached, hother]
    · simp [hx]

/-- The commit of an erasure. -/
theorem fileStep_erased {row : Account} {now : ℕ} (hinv : FileInv w) (hlock : L (.user userId))
    (hrow : w.db.toAccountStore.user? userId = some row) (hcurrent : w.db.picture userId = current)
    (hids : ∀ id, id ∈ ids ↔ current = some id) (hlockIds : ∀ id ∈ ids, L (.fileAsset id))
    (hids' : ∀ id ∈ ids', L (.fileAsset id) ∧ id ∉ ids ∧
      ∃ f, w.db.fileAsset? id = some f ∧ isUnattached f = true)
    (hdata : data.profileImageFileAssetId = some none) :
    FileStep a L w (.erased userId)
      ((((w.db.updateFileAssets ids releasedData t).updateFileAssets ids' releasedData
        t').updateUser userId data).revokeTokens userId now) := by
  refine fileStep_exchange (r := none) hinv trivial hlock ?_ (fun i hi => ?_) ?_ ?_ (by simp) ?_ rfl
  · exact (picture_updateUser hrow).trans (by simp [AccountUpdateInput.apply, hdata])
  · exact user?_updateUser_others (s := w.db) i hi
  · exact (rowsWritten_released hlockIds).trans
      (rowsWritten_released (s := w.db.updateFileAssets _ _ _) fun id hid => (hids' id hid).1)
  · exact expiry_released (expiry_released hinv.expiry)
  · intro x
    refine Iff.trans (isAttached_update (s := w.db.updateFileAssets ids releasedData t)) ?_
    rw [isAttached_released hids, hcurrent]
    by_cases hx : x ∈ ids'
    · -- what was never attached is not attached now
      obtain ⟨-, -, f, hf, hun⟩ := hids' x hx
      have hstatus : f.status ≠ .attached := by
        intro hattached
        simp [isUnattached, hattached] at hun
      simp [hx, releasedData, FileStore.isAttached_iff hf, hstatus]
    · simp [hx]

end Commits

/-! ### The programs -/

theorem wp_setProfileImage {fileId : Option Uuid} {actorId : Uuid} (hinv : FileInv w) :
    wp fileGuarantee a (setProfileImage userId fileId actorId) (fun _ _ _ => True) Ctx.start w := by
  unfold setProfileImage Files.lockLiveUser
  simp only [bind_assoc]
  refine wp_bind (wp_transaction (wp_lockRow fun w₁ hw₁ => wp_select fun w₂ hw₂ =>
    wp_orThrow (fun lockedUser hlocked => ?_) fun _ _ _ => trivial))
  have hinv₂ := (hw₁.trans (hw₂.mono fun _ hl => hl.elim)).moves.fileInv hinv
  obtain ⟨hrow, -⟩ := AccountStore.of_scopedUser? hlocked
  have hcurrent : w₂.db.picture userId = lockedUser.profileImageFileAssetId := by
    simp only [FileStore.picture]
    exact congrArg (Option.bind · Account.profileImageFileAssetId) hrow
  split
  · exact fun v hv => ⟨fileStep_unchanged (hv.moves.fileInv hinv₂) trivial, trivial⟩
  · next hne =>
    refine wp_claimRequested (fun _ _ _ _ _ => trivial)
      fun w₃ held₃ d t hw₃ hsub₃ hd hready => ?_
    have hcurrent₃ : w₃.db.picture userId = lockedUser.profileImageFileAssetId := by
      rw [← hcurrent]
      simp only [FileStore.picture, hw₃.fileUser?_eq (.inl rfl)]
    have hinv₃ := hw₃.moves.fileInv hinv₂
    refine wp_markPictureDeleting hinv₃ (hsub₃ _ (.inl rfl)) hcurrent₃ (fun s x hx hattached => ?_)
      fun w₄ held₄ ids t' hw₄ hsub₄ hids hlockIds => ?_
    · have hother : x ∉ (fileId.map toLowerCase).toList := by
        rw [Option.mem_toList]
        exact fun hmem => hne (Option.mem_def.mp hmem ▸ hx.symm)
      rw [isAttached_update, if_neg hother]
      exact hattached
    · refine wp_updateFileUserRow (fun _ => rfl) (fun _ _ _ _ _ => trivial)
        fun w₅ row hw₅ hrow₅ => wp_pure fun v hv => ?_
      have hafter := hw₅.trans (hv.mono fun _ hl => .inr hl)
      have hrow' : v.db.toAccountStore.user? userId = some row := by
        rw [hv.fileUser?_eq (.inl rfl), hrow₅]
      have hcurrent' : v.db.picture userId = lockedUser.profileImageFileAssetId := by
        rw [← hcurrent₃]
        simp only [FileStore.picture, (hw₄.trans (hafter.mono hsub₄)).fileUser?_eq
          (hsub₃ _ (.inl rfl))]
      refine ⟨fileStep_profileImageSet ((hw₄.moves.trans hafter.moves).fileInv hinv₃) (.inl rfl)
        hrow' hcurrent' hne hd (fun x hx => ?_) hids (fun id hid => .inr (hlockIds id hid)) rfl,
        trivial⟩
      obtain ⟨hlock, f, hf, hstatus⟩ := hready x hx
      have hstill := (hw₄.trans (hafter.mono hsub₄)).fileAsset?_eq hlock hf
      exact ⟨.inr (hsub₄ _ hlock), f, hstill, hstatus⟩

theorem wp_gdprErase {currentPassword : String} (hinv : FileInv w) :
    wp fileGuarantee a (Files.gdprErase env userId currentPassword) (fun _ _ _ => True) Ctx.start
      w := by
  unfold Files.gdprErase
  refine wp_select fun w₁ hw₁ => wp_orThrow (fun user _ => ?_) fun _ => trivial
  refine wp_ensure (fun _ => ?_) fun _ => trivial
  refine wp_now fun w₂ hw₂ => wp_freshId fun w₃ hw₃ salt hsalt => ?_
  have hinv₃ := FileInv.move ((hw₁.trans (hw₂.trans hw₃)).moves.fileInv hinv)
    (.issue salt a.pid hsalt)
  refine wp_transaction (wp_lockRow fun w₄ hw₄ => wp_select fun w₅ hw₅ =>
    wp_orThrow (fun lockedUser hrow => ?_) fun _ _ _ => trivial)
  have hinv₅ := (hw₄.trans (hw₅.mono fun _ hl => hl.elim)).moves.fileInv hinv₃
  have hcurrent : w₅.db.picture userId = lockedUser.profileImageFileAssetId := by
    simp only [FileStore.picture]
    exact congrArg (Option.bind · Account.profileImageFileAssetId) hrow
  refine wp_markPictureDeleting hinv₅ (.inl rfl) hcurrent (fun _ _ _ h => h)
    fun w₆ held₆ ids t hw₆ hsub₆ hids hlockIds => ?_
  unfold markUnattachedDeleting
  simp only [bind_assoc, pure_bind]
  refine wp_updateManyFileAssets
    fun w₇ w₈ w₉ found ids' t' hw₇ hw₈ hw₉ hfound hids' => ?_
  -- the rows of the uploads are locked, and the picture is not among them
  have hunattached : ∀ id ∈ ids', FileLock.fileAsset id ∈ found.map FileLock.fileAsset ∧
      id ∉ ids ∧ ∃ f, w₉.db.fileAsset? id = some f ∧ isUnattached f = true := by
    intro id hid
    obtain ⟨hmem, f, hf, hp⟩ := (hids' id).mp hid
    simp only [Bool.and_eq_true] at hp
    have hlock : FileLock.fileAsset id ∈ found.map FileLock.fileAsset := List.mem_map_of_mem hmem
    have hfind : (w₈.db.updateFileAssets ids releasedData t).fileAsset? id = some f := hf
    rw [FileStore.fileAsset?_updateFileAssets] at hfind
    have hnot : id ∉ ids := by
      intro hmem'
      rw [if_pos hmem'] at hfind
      obtain ⟨g, -, rfl⟩ := Option.map_eq_some_iff.mp hfind
      simp [isUnattached, releasedData] at hp
    rw [if_neg hnot] at hfind
    exact ⟨hlock, hnot, f, hw₉.fileAsset?_eq (.inl hlock) hfind, hp.2⟩
  unfold Files.endAllSessionsInTransaction
  refine wp_now fun w₁₀ hw₁₀ => wp_updateFileUserRow (fun _ => rfl) (fun _ _ _ _ _ => trivial)
    fun w₁₁ row hw₁₁ hrow₁₁ => wp_now fun w₁₂ hw₁₂ => ?_
  rw [← bind_pure (modify _)]
  refine wp_modify fun w₁₃ hw₁₃ => wp_pure fun v hv => ?_
  have hlast := hw₁₂.trans (hw₁₃.trans hv)
  have hafter := hw₁₀.trans (hw₁₁.trans (hlast.mono fun _ hl => .inr hl))
  have hbefore : Interf fileGuarantee a _ w₆ w₉ :=
    hw₇.trans (hw₈.trans (hw₉.mono fun _ hl => .inr hl))
  have hwhole := hw₆.trans ((hbefore.trans (hafter.mono fun _ hl => .inr hl)).mono hsub₆)
  have hcurrent' : v.db.picture userId = lockedUser.profileImageFileAssetId := by
    rw [← hcurrent]
    simp only [FileStore.picture, hwhole.fileUser?_eq (.inl rfl)]
  have hrow' : v.db.toAccountStore.user? userId = some row := by
    rw [hlast.fileUser?_eq (.inl rfl), hrow₁₁]
  refine ⟨fileStep_erased (hwhole.moves.fileInv hinv₅) (.inl rfl) hrow' hcurrent' hids
    (fun id hid => .inr (.inr (hlockIds id hid))) (fun id hid => ?_) rfl, trivial⟩
  obtain ⟨hlock, hnot, f, hf, hp⟩ := hunattached id hid
  exact ⟨.inr (.inl hlock), hnot, f, hafter.fileAsset?_eq (.inl hlock) hf, hp⟩

/-! ### The system -/

/-- Every program an arriving request starts is within the guarantee. -/
theorem fileBody_admitted (env : FileEnv) (Allowed : FileRequest → Prop) :
    fileProtocol.Admits (fileBody env) Allowed := by
  rintro ⟨pid, req⟩ w - hinv
  have hdiscard : ∀ {β : Type} {x : FileTask β}, wp fileGuarantee ⟨pid, req⟩ x
      (fun _ _ _ => True) Ctx.start w →
        wp fileGuarantee ⟨pid, req⟩ (discard x) (fun _ _ _ => True) Ctx.start w :=
    fun h => wp_bind (wp_mono (fun r _ _ _ => by cases r <;> trivial) h)
  cases req with
  | upload => exact hdiscard (wp_upload hinv)
  | setProfileImage => exact wp_setProfileImage hinv
  | releaseUnattached => exact wp_releaseUnattached hinv
  | cleanUp => exact hdiscard (wp_cleanUp hinv)
  | gdprErase => exact wp_gdprErase hinv

end NestApi
