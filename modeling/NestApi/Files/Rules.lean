import NestApi.Files.Invariant

/-!
# Rules for the file system

Why a commit is a step: what it writes keeps the references exclusive. Most writes touch no
attached file. Only the two transactions that lock an account exchange its picture.
-/

namespace NestApi

open Txn Program Files

variable {α β : Type} {a : Agent FileRequest} {L held : FileLock → Prop} {w w' : FileWorld}
  {ev : FileEvent} {s s' s'' : FileStore} {x userId : Uuid} {f g : FileAsset} {key : StorageKey}
  {ids : List Uuid} {data : FileAssetUpdateInput} {t : ℕ} {p : FileAsset → Bool}

/-! ### Writes of rows -/

/-- Every row is kept, or written under its lock without going back to an earlier status. -/
def RowsWritten (L : FileLock → Prop) (s s' : FileStore) : Prop :=
  ∀ x, s'.fileAsset? x = s.fileAsset? x ∨ L (.fileAsset x) ∧ ∃ f g, s.fileAsset? x = some f ∧
    s'.fileAsset? x = some g ∧ g.storageKey = f.storageKey ∧ f.status.rank ≤ g.status.rank

theorem RowsWritten.refl : RowsWritten L s s := fun _ => .inl rfl

theorem RowsWritten.trans (h : RowsWritten L s s') (h' : RowsWritten L s' s'') :
    RowsWritten L s s'' := by
  intro x
  rcases h x with hkept | ⟨hlock, f, g, hf, hg, hkey, hrank⟩
  · rw [← hkept]
    exact h' x
  · refine .inr ⟨hlock, f, ?_⟩
    rcases h' x with hkept | ⟨-, g', k, hg', hk, hkey', hrank'⟩
    · exact ⟨g, hf, hkept.trans hg, hkey, hrank⟩
    · obtain rfl : g' = g := Option.some_inj.mp (hg'.symm.trans hg)
      exact ⟨k, hf, hk, hkey'.trans hkey, hrank.trans hrank'⟩

/-- A write by id. -/
theorem rowsWritten_update (hlock : ∀ id ∈ ids, L (.fileAsset id))
    (hrank : ∀ id ∈ ids, ∀ f, s.fileAsset? id = some f →
      f.status.rank ≤ (data.status.getD f.status).rank) :
    RowsWritten L s (s.updateFileAssets ids data t) := by
  intro x
  rw [FileStore.fileAsset?_updateFileAssets]
  by_cases hx : x ∈ ids
  · rw [if_pos hx]
    cases hrow : s.fileAsset? x with
    | none => exact .inl rfl
    | some f => exact .inr ⟨hlock x hx, f, data.apply t f, rfl, rfl, rfl, hrank x hx f hrow⟩
  · exact .inl (if_neg hx)

/-- A write that sets the status and the expiry to match. -/
theorem expiry_update (hexpiry : ∀ f ∈ s.fileAssets, f.ExpiryMatches)
    (hmatch : ∀ f ∈ s.fileAssets, f.id ∈ ids → f.ExpiryMatches → (data.apply t f).ExpiryMatches) :
    ∀ f ∈ (s.updateFileAssets ids data t).fileAssets, f.ExpiryMatches := by
  intro f hf
  rcases Table.of_mem_update hf with ⟨hold, -⟩ | ⟨r, hr, hid, rfl⟩
  · exact hexpiry f hold
  · exact hmatch r hr hid (hexpiry r hr)

/-- A write of the status decides what is attached among the written rows. -/
theorem isAttached_update : (s.updateFileAssets ids data t).IsAttached x ↔
    if x ∈ ids then ∃ f ∈ s.fileAsset? x, data.status.getD f.status = .attached
    else s.IsAttached x := by
  unfold FileStore.IsAttached
  rw [FileStore.fileAsset?_updateFileAssets]
  by_cases hx : x ∈ ids
  · simp [hx]
  · simp [hx]

/-! ### Steps -/

/-- A write of rows and accounts. -/
theorem fileStep_rows (hev : ev.IsRowEvent) (hrows : RowsWritten L w.db s)
    (hexpiry : ∀ f ∈ s.fileAssets, f.ExpiryMatches)
    (husers : ∀ userId, s.toAccountStore.user? userId = w.db.toAccountStore.user? userId ∨
      L (.user userId))
    (hreferences : s.References) (hobjects : s.objects = w.db.objects) : FileStep a L w ev s where
  files x := by
    rcases hrows x with hkept | ⟨hlock, f, g, hf, hg, hkey, hrank⟩
    · exact .kept hkept
    · exact .written f g hf hg hkey hrank hlock
  users := husers
  expiry := hexpiry
  references := hreferences
  storage := .row ev hev hobjects

/-- A commit without a write. -/
theorem fileStep_unchanged (hinv : FileInv w) (hev : ev.IsRowEvent) : FileStep a L w ev w.db :=
  fileStep_rows hev .refl hinv.expiry (fun _ => .inl rfl) hinv.references rfl

/-- A step of the storage. -/
theorem fileStep_objects (hinv : FileInv w) (hfiles : s.fileAssets = w.db.fileAssets)
    (haccounts : s.toAccountStore = w.db.toAccountStore) (hstorage : StorageChange a L w s ev) :
    FileStep a L w ev s where
  files x := .kept (by rw [FileStore.fileAsset?, hfiles]; rfl)
  users _ := .inl (by rw [haccounts])
  expiry := by
    rw [hfiles]
    exact hinv.expiry
  references := by
    refine hinv.references.congr (fun i => ?_) fun x => ?_
    · rw [FileStore.picture, haccounts]
      rfl
    · rw [FileStore.IsAttached, FileStore.fileAsset?, hfiles]
      rfl
  storage := hstorage

/-- The rows that satisfy `p` are not attached and are written to what is not: the write is one
that references do not notice. -/
def Harmless (p : FileAsset → Bool) (data : FileAssetUpdateInput) : Prop :=
  ∀ f, p f = true → f.ExpiryMatches → f.status ≠ .attached ∧
    data.status.getD f.status ≠ .attached ∧ f.status.rank ≤ (data.status.getD f.status).rank ∧
      ∀ t, (data.apply t f).ExpiryMatches

/-- What a harmless write leaves. -/
theorem Harmless.attached (h : Harmless p data) (hexpiry : ∀ f ∈ s.fileAssets, f.ExpiryMatches)
    (hids : ∀ id ∈ ids, ∃ f, s.fileAsset? id = some f ∧ p f = true) :
    (s.updateFileAssets ids data t).IsAttached x ↔ s.IsAttached x := by
  rw [isAttached_update]
  by_cases hx : x ∈ ids
  · obtain ⟨f, hf, hp⟩ := hids x hx
    obtain ⟨hbefore, hafter, -⟩ := h f hp (hexpiry f (FileStore.mem_of_fileAsset? hf))
    rw [if_pos hx, FileStore.isAttached_iff hf]
    simp [hf, hbefore, hafter]
  · rw [if_neg hx]

theorem Harmless.rowsWritten (h : Harmless p data)
    (hexpiry : ∀ f ∈ s.fileAssets, f.ExpiryMatches) (hlock : ∀ id ∈ ids, L (.fileAsset id))
    (hids : ∀ id ∈ ids, ∃ f, s.fileAsset? id = some f ∧ p f = true) :
    RowsWritten L s (s.updateFileAssets ids data t) := by
  refine rowsWritten_update hlock fun id hid f hf => ?_
  obtain ⟨f', hf', hp⟩ := hids id hid
  obtain rfl : f' = f := Option.some_inj.mp (hf'.symm.trans hf)
  exact (h f' hp (hexpiry f' (FileStore.mem_of_fileAsset? hf))).2.2.1

theorem Harmless.expiry (h : Harmless p data) (hexpiry : ∀ f ∈ s.fileAssets, f.ExpiryMatches)
    (hids : ∀ id ∈ ids, ∃ f, s.fileAsset? id = some f ∧ p f = true) :
    ∀ f ∈ (s.updateFileAssets ids data t).fileAssets, f.ExpiryMatches := by
  refine expiry_update hexpiry fun f hf hid hmatch => ?_
  obtain ⟨f', hf', hp⟩ := hids f.id hid
  obtain rfl : f' = f := Option.some_inj.mp (hf'.symm.trans (FileStore.fileAsset?_of_mem hf))
  exact (h f' hp hmatch).2.2.2 t

/-- A conditional write of rows that nobody refers to. -/
theorem fileStep_update (hinv : FileInv w) (h : Harmless p data)
    (hlock : ∀ id ∈ ids, L (.fileAsset id))
    (hids : ∀ id ∈ ids, ∃ f, w.db.fileAsset? id = some f ∧ p f = true) :
    FileStep a L w (.updated data ids) (w.db.updateFileAssets ids data t) := by
  refine fileStep_rows trivial (h.rowsWritten hinv.expiry hlock hids) (h.expiry hinv.expiry hids)
    (fun _ => .inl rfl) ?_ rfl
  exact hinv.references.congr (fun _ => rfl) fun x => h.attached hinv.expiry hids

/-- The row of an upload is new. -/
theorem fileStep_created (hinv : FileInv w) (hstatus : f.status = .processing)
    (hexpires : f.expiresAt = none) (hdrew : Drew a w f.id) (hnew : ¬ Known w f.id)
    (hdrewObject : Drew a w f.storageKey.objectId) (hobject : ¬ Known w f.storageKey.objectId) :
    FileStep a L w (.created f.id f.storageKey) (w.db.insertFileAsset f) := by
  have hnone : w.db.fileAsset? f.id = none := by
    refine Table.find?_eq_none.mpr fun g hg hid => ?_
    exact hnew (hid ▸ (known_of_mem hg).1)
  have hfind : ∀ x, (w.db.insertFileAsset f).fileAsset? x =
      if x = f.id then some f else w.db.fileAsset? x := fun _ =>
    FileStore.fileAsset?_insertFileAsset hnone
  constructor
  · intro x
    by_cases hx : x = f.id
    · subst hx
      exact .created f rfl hnone ((hfind f.id).trans (if_pos rfl)) hstatus hnew hobject hdrew
        hdrewObject
    · exact .kept ((hfind x).trans (if_neg hx))
  · exact fun _ => .inl rfl
  · intro g hg
    rcases Table.mem_of_mem_insert hg with hold | rfl
    · exact hinv.expiry g hold
    · simp [FileAsset.ExpiryMatches, hstatus, hexpires]
  · refine hinv.references.congr (fun _ => rfl) fun x => ?_
    unfold FileStore.IsAttached
    rw [hfind x]
    by_cases hx : x = f.id
    · subst hx
      simp [hnone, hstatus]
    · rw [if_neg hx]
  · exact .row _ trivial rfl

/-- A row whose object was cleaned up goes. -/
theorem fileStep_removed (hinv : FileInv w) (hrow : w.db.fileAsset? x = some f)
    (hdeleting : f.status = .deleting) (hcleaned : Cleaned f.storageKey w.log)
    (hlock : L (.fileAsset x)) : FileStep a L w (.removed x) (w.db.deleteFileAssets [x]) := by
  have hfind : ∀ y, (w.db.deleteFileAssets [x]).fileAsset? y =
      if y ∈ [x] then none else w.db.fileAsset? y := fun _ => FileStore.fileAsset?_deleteFileAssets
  constructor
  · intro y
    by_cases hy : y = x
    · subst hy
      exact .removed f hrow ((hfind y).trans (if_pos (by simp))) hdeleting hcleaned hlock
    · exact .kept ((hfind y).trans (if_neg (by simpa using hy)))
  · exact fun _ => .inl rfl
  · intro g hg
    exact hinv.expiry g (Table.mem_delete.mp hg).1
  · refine hinv.references.congr (fun _ => rfl) fun y => ?_
    unfold FileStore.IsAttached
    rw [hfind y]
    by_cases hy : y = x
    · subst hy
      simp [hrow, hdeleting]
    · rw [if_neg (by simpa using hy)]
  · exact .row _ trivial rfl

/-- An account gives up its picture for a file that was not attached. -/
theorem references_exchange {r : Option Uuid} (hinv : FileInv w)
    (hpicture : s.picture userId = r)
    (hothers : ∀ i, i ≠ userId → s.toAccountStore.user? i = w.db.toAccountStore.user? i)
    (hfree : ∀ x, r = some x → ¬ w.db.IsAttached x)
    (hattached : ∀ x, s.IsAttached x ↔
      r = some x ∨ w.db.IsAttached x ∧ w.db.picture userId ≠ some x) : s.References := by
  refine hinv.references.exchange hpicture (fun i hi => ?_) hfree hattached
  rw [FileStore.picture, hothers i hi]
  rfl

/-! ### Statements -/

section Statements

variable {Q : Except Failure β → Ctx FileStore FileLock → FileWorld → Prop}
  {c : Ctx FileStore FileLock}

/-- A conditional write reaches the rows that matched when it started and still match under
their locks. -/
theorem wp_updateManyFileAssets {k : List Uuid → FileTask β}
    (h : ∀ (w₁ w₂ w₃ : FileWorld) (found ids : List Uuid) (t : ℕ),
      Interf fileGuarantee a c.held w w₁ → Interf fileGuarantee a c.held w₁ w₂ →
      Interf fileGuarantee a (fun l => l ∈ found.map FileLock.fileAsset ∨ c.held l) w₂ w₃ →
      (∀ id, id ∈ found ↔ ∃ f, (c.pend w₁.db).fileAsset? id = some f ∧ p f = true) →
      (∀ id, id ∈ ids ↔ id ∈ found ∧ ∃ f, (c.pend w₂.db).fileAsset? id = some f ∧ p f = true) →
      wp fileGuarantee a (k ids) Q
        ⟨fun l => l ∈ found.map FileLock.fileAsset ∨ c.held l,
          fun s => (c.pend s).updateFileAssets ids data t⟩ w₃) :
    wp fileGuarantee a (updateManyFileAssets p data >>= k) Q c w := by
  unfold updateManyFileAssets
  simp only [bind_assoc, pure_bind]
  refine wp_select fun w₁ hw₁ => wp_lockRows fun w₂ hw₂ => wp_select fun w₃ hw₃ =>
    wp_now fun w₄ hw₄ => wp_modify fun w₅ hw₅ => ?_
  refine h w₁ w₃ w₅ _ _ _ hw₁ (hw₂.trans (hw₃.mono fun l hl => .inr hl)) (hw₄.trans hw₅)
    (fun id => ?_) fun id => ?_
  · simp only [List.mem_map, Table.mem_filter, FileStore.fileAsset?_eq_some]
    exact exists_congr fun f => by tauto
  · simp only [List.mem_map, Table.mem_filter, FileStore.fileAsset?_eq_some, Bool.and_eq_true,
      decide_eq_true_eq]
    constructor
    · rintro ⟨f, ⟨hmem, hp, f', ⟨hmem', hp'⟩, hid⟩, rfl⟩
      exact ⟨⟨f', ⟨hmem', hp'⟩, hid⟩, f, ⟨hmem, rfl⟩, hp⟩
    · rintro ⟨⟨f', ⟨hmem', hp'⟩, hid'⟩, f, ⟨hmem, rfl⟩, hp⟩
      exact ⟨f, ⟨hmem, hp, f', ⟨hmem', hp'⟩, hid'⟩, rfl⟩

/-- A harmless write as a transaction of its own. -/
theorem wp_updateMany {k : List Uuid → FileTask β} (hinv : FileInv w) (hharmless : Harmless p data)
    (h : ∀ (v : FileWorld) (ids : List Uuid) (t : ℕ),
      Interf fileGuarantee a (fun _ => False) w v →
      (∀ id ∈ ids, ∃ f, v.db.fileAsset? id = some f ∧ p f = true) →
      Move fileGuarantee v (v.push a (.updated data ids) (v.db.updateFileAssets ids data t)) →
      wp fileGuarantee a (k ids) Q Ctx.start
        (v.push a (.updated data ids) (v.db.updateFileAssets ids data t))) :
    wp fileGuarantee a (updateMany p data >>= k) Q Ctx.start w := by
  refine wp_bind (wp_transaction ?_)
  rw [← bind_pure (updateManyFileAssets p data)]
  refine wp_updateManyFileAssets fun w₁ w₂ w₃ found ids t hw₁ hw₂ hw₃ hfound hids => wp_pure ?_
  intro v hv
  have hinterf : Interf fileGuarantee a (fun _ => False) w v :=
    hw₁.trans (hw₂.trans (hw₃.trans hv).unlocked)
  have hlock : ∀ id ∈ ids, FileLock.fileAsset id ∈ found.map FileLock.fileAsset ∨ False :=
    fun id hid => .inl (List.mem_map_of_mem ((hids id).mp hid).1)
  -- the rows are locked, so they still match at the commit
  have hmatch : ∀ id ∈ ids, ∃ f, v.db.fileAsset? id = some f ∧ p f = true := by
    intro id hid
    obtain ⟨-, f, hf, hp⟩ := (hids id).mp hid
    exact ⟨f, (hw₃.trans hv).fileAsset?_eq (hlock id hid) hf, hp⟩
  have hstep := fileStep_update (a := a) (t := t)
    (L := fun l => l ∈ found.map FileLock.fileAsset ∨ False) (hinterf.moves.fileInv hinv) hharmless
    hlock hmatch
  exact ⟨hstep, h v ids t hinterf hmatch (.act a _ _ _ hstep)⟩

/-- A put, which is one step of the storage. -/
theorem wp_storagePut {k : Unit → FileTask β} {body : List UInt8} {outcome : PutOutcome}
    (hinv : FileInv w) (hdrew : Drew a w key.objectId) (hknown : KnownObject w key)
    (h : ∀ (v : FileWorld) (s : FileStore), Interf fileGuarantee a (fun _ => False) w v →
      Move fileGuarantee v (v.push a (.put key outcome) s) →
      wp fileGuarantee a (k ()) Q Ctx.start (v.push a (.put key outcome) s)) :
    wp fileGuarantee a (storagePut key body outcome >>= k) Q Ctx.start w := by
  refine wp_bind (wp_transaction (wp_lockRow fun w₁ hw₁ => ?_))
  have hstep : ∀ (v : FileWorld) (s : FileStore), Interf fileGuarantee a (fun _ => False) w v →
      s.fileAssets = v.db.fileAssets → s.toAccountStore = v.db.toAccountStore →
      (∀ k, s.Stores k → k = key ∧ outcome.isWritten = true ∨ v.db.Stores k) →
      FileStep a (fun l => l = .object key ∨ False) v (.put key outcome) s := by
    intro v s hv hfiles haccounts hobjects
    refine fileStep_objects (hv.moves.fileInv hinv) hfiles haccounts ?_
    exact .put key outcome (.inl rfl) (hv.moves.drew hdrew) (hknown.mono hv.extends) hobjects
  rw [← bind_pure (onlyIf _ _)]
  refine wp_onlyIf (fun hwritten => wp_modify fun w₂ hw₂ => wp_pure ?_) fun _ => wp_pure ?_
  · intro v hv
    have hinterf := hw₁.trans (hw₂.trans hv).unlocked
    have hput := hstep v (v.db.putObject ⟨key, body⟩) hinterf rfl rfl fun k hk =>
      (FileStore.stores_putObject hk).imp (fun heq => ⟨heq, hwritten⟩) id
    exact ⟨hput, h v _ hinterf (.act a _ _ _ hput)⟩
  · intro v hv
    have hinterf := hw₁.trans hv.unlocked
    have hput := hstep v v.db hinterf rfl rfl fun k hk => .inr hk
    exact ⟨hput, h v _ hinterf (.act a _ _ _ hput)⟩

/-- A delete of an object, in the same way. -/
theorem wp_storageDelete {k : Unit → FileTask β} {succeeds : Bool} (hinv : FileInv w)
    (hstorage : ∀ (v : FileWorld) (s : FileStore) (L : FileLock → Prop),
      Interf fileGuarantee a (fun _ => False) w v →
      (∀ k, s.Stores k → v.db.Stores k ∧ (succeeds = true → k ≠ key)) →
      StorageChange a L v s ev)
    (h : ∀ (v : FileWorld) (s : FileStore), Interf fileGuarantee a (fun _ => False) w v →
      Move fileGuarantee v (v.push a ev s) →
      wp fileGuarantee a (k ()) Q Ctx.start (v.push a ev s)) :
    wp fileGuarantee a (storageDelete key succeeds ev >>= k) Q Ctx.start w := by
  refine wp_bind (wp_transaction (wp_lockRow fun w₁ hw₁ => ?_))
  rw [← bind_pure (onlyIf _ _)]
  refine wp_onlyIf (fun _ => wp_modify fun w₂ hw₂ => wp_pure ?_) fun hfails => wp_pure ?_
  · intro v hv
    have hinterf := hw₁.trans (hw₂.trans hv).unlocked
    have hstep := fileStep_objects (hinterf.moves.fileInv hinv) (s := v.db.deleteObject key) rfl rfl
      (hstorage v _ (fun l => l = .object key ∨ False) hinterf fun k hk =>
        (FileStore.stores_deleteObject hk).imp id fun hne _ => hne)
    exact ⟨hstep, h v _ hinterf (.act a _ _ _ hstep)⟩
  · intro v hv
    have hinterf := hw₁.trans hv.unlocked
    have hstep := fileStep_objects (hinterf.moves.fileInv hinv) (s := v.db) rfl rfl
      (hstorage v _ (fun l => l = .object key ∨ False) hinterf fun k hk =>
        ⟨hk, fun hsucceeds => absurd hsucceeds hfails⟩)
    exact ⟨hstep, h v _ hinterf (.act a _ _ _ hstep)⟩

end Statements

end NestApi
