import NestApi.Files.Rules

/-!
# Judging the operations on files

Each program stays within the guarantee, whatever the others do. An upload returns settled: its
row was promoted before anybody cleaned its object up, or it deleted the object itself. A cleanup
deletes a row only after its object, and every row that it took up is about to go. A transaction
that locks an account finds the picture of the account attached.
-/

namespace NestApi

open Txn Program Files

variable {α β : Type} {env : FileEnv} {a : Agent FileRequest} {held : FileLock → Prop}
  {w w' : FileWorld} {ev : FileEvent} {s : FileStore} {userId : Uuid} {key : StorageKey}
  {row : FileAsset} {log : FileLog}
  {Q : Except Failure β → Ctx FileStore FileLock → FileWorld → Prop}

/-! ### Upload -/

/-- The process has written the row of its upload. -/
structure Uploading (a : Agent FileRequest) (w : FileWorld) (row : FileAsset) : Prop where
  inv : FileInv w
  drew : Drew a w row.storageKey.objectId
  known : Known w row.id
  names : ∀ f, w.db.fileAsset? row.id = some f → f.storageKey = row.storageKey
  object : KnownObject w row.storageKey

theorem Uploading.moves (h : Uploading a w row) (hw : Moves fileGuarantee w w') :
    Uploading a w' row where
  inv := hw.fileInv h.inv
  drew := hw.drew h.drew
  known := h.known.mono hw.extends
  names := hw.names h.known h.names
  object := h.object.mono hw.extends

/-- The object was not put yet. -/
def NotPut (key : StorageKey) (log : FileLog) : Prop :=
  ∀ e ∈ log, ∀ outcome, e.event ≠ .put key outcome

theorem NotPut.interf (h : NotPut key w.log) (hdrew : Drew a w key.objectId)
    (hw : Interf fileGuarantee a held w w') : NotPut key w'.log := by
  intro e he outcome hev
  obtain ⟨l, hl⟩ := exists_suffix_of_mem he
  exact h e ((hw.put_before hdrew hl hev).subset List.mem_cons_self) outcome hev

theorem NotPut.settled (h : NotPut key log) : Settled key log :=
  fun e _ hl hev => absurd hev (h e (hl.subset List.mem_cons_self) _)

/-- An event that is no successful put of the object leaves the upload settled. -/
theorem Settled.push (h : Settled key w.log) (hev : ev ≠ .put key .succeeded) :
    Settled key (w.push a ev s).log := by
  intro e l hl he
  rcases List.suffix_cons_iff.mp hl with hnew | hold
  · obtain ⟨rfl, -⟩ := List.cons.inj hnew
    exact absurd he hev
  · rcases h e l hold he with hclean | ⟨d, m, succeeded, hm, hlt, hd⟩
    · exact .inl hclean
    · exact .inr ⟨d, m, succeeded, hm.trans (List.suffix_cons _ _), hlt, hd⟩

theorem settled_of_not_cleaned (h : ¬ Cleaned key log) : Settled key log :=
  fun _ l hl _ => .inl fun hcleaned =>
    h (hcleaned.mono ((List.suffix_cons _ l).trans hl))

/-- An upload that has just deleted its object is settled. -/
theorem settled_discarded {succeeded : Bool} :
    Settled key (w.push a (.discarded key succeeded) s).log := by
  intro e l hl he
  rcases List.suffix_cons_iff.mp hl with hnew | hold
  · obtain ⟨rfl, -⟩ := List.cons.inj hnew
    cases he
  · exact .inr ⟨_, w.log, succeeded, List.suffix_refl _, length_lt_of_before hold, rfl⟩

/-- How an upload may end. -/
def Ends (a : Agent FileRequest) (key : StorageKey) :
    Except Failure β → Ctx FileStore FileLock → FileWorld → Prop :=
  fun _ _ w => FileInv w ∧ Drew a w key.objectId ∧ Settled key w.log

theorem wp_reporting {x : FileTask β} {c : Ctx FileStore FileLock}
    (h : wp fileGuarantee a x (Ends a key) c w) :
    wp fileGuarantee a (reporting x (.uploadReturned key)) (fun _ _ _ => True) c w := by
  refine wp_handle (wp_mono ?_ h)
  rintro r c v ⟨hinv, hdrew, hsettled⟩
  have hreturn : ∀ v', Interf fileGuarantee a c.held v v' →
      fileGuarantee a c.held v' (.uploadReturned key) v'.db := fun v' hv =>
    fileStep_objects (hv.moves.fileInv hinv) rfl rfl
      (.uploadReturned key (hv.settled hdrew hsettled) rfl)
  cases r with
  | ok r => exact fun v' hv => ⟨hreturn v' hv, trivial⟩
  | error e => exact fun v' hv => ⟨hreturn v' hv, trivial⟩

theorem wp_releaseFailedUpload {fileId : Uuid} {k : Unit → FileTask β} (hinv : FileInv w)
    (h : ∀ (v : FileWorld) (ids : List Uuid) (s : FileStore),
      Interf fileGuarantee a (fun _ => False) w v →
      Move fileGuarantee v (v.push a (.updated { status := some .deleting } ids) s) →
      wp fileGuarantee a (k ()) Q Ctx.start
        (v.push a (.updated { status := some .deleting } ids) s)) :
    wp fileGuarantee a (releaseFailedUpload fileId >>= k) Q Ctx.start w := by
  unfold releaseFailedUpload
  simp only [bind_assoc, pure_bind]
  refine wp_updateMany hinv ?_ fun v ids t hv _ hmove => h v ids _ hv hmove
  intro f hp hmatch
  have hstatus : f.status = .processing := by
    simp only [Bool.and_eq_true, decide_eq_true_eq] at hp
    exact hp.2
  refine ⟨by simp [hstatus], by simp, by simp [hstatus, FileAssetStatus.rank], fun t => ?_⟩
  simpa [FileAsset.ExpiryMatches, hstatus] using hmatch

/-- The end of an upload whose object is stored. -/
theorem wp_promote {file : UploadedFileInput} {body : List UInt8} (h : Uploading a w row) :
    wp fileGuarantee a (promote env file row body) (Ends a row.storageKey) Ctx.start w := by
  unfold promote
  refine wp_now fun w₁ hw₁ => ?_
  have hinv₁ := hw₁.moves.fileInv h.inv
  refine wp_updateMany hinv₁ ?_ fun v ids t hv hids hmove => ?_
  · intro f hp hmatch
    have hstatus : f.status = .processing := by
      simp only [Bool.and_eq_true, decide_eq_true_eq] at hp
      exact hp.2
    exact ⟨by simp [hstatus], by simp, by simp [hstatus, FileAssetStatus.rank],
      fun t => by simp [FileAsset.ExpiryMatches]⟩
  · have hv' := h.moves (hw₁.trans hv).moves
    have hpush := hv'.moves (.single hmove)
    split
    · -- the row was taken from the upload, which deletes the object
      refine wp_storageDelete hpush.inv (fun v₂ s₂ L _ hobjects => .discarded _ _ hobjects)
        fun v₂ s₂ hv₂ hdiscard => ?_
      have hend := hpush.moves (hv₂.moves.tail hdiscard)
      exact ⟨hend.inv, hend.drew, settled_discarded⟩
    · -- the row was still `processing`, so nobody had cleaned the object up
      next hlength =>
      obtain ⟨id, rfl⟩ := List.length_eq_one_iff.mp (not_not.mp hlength)
      obtain ⟨f, hf, hp⟩ := hids id (List.mem_singleton_self _)
      simp only [Bool.and_eq_true, decide_eq_true_eq] at hp
      obtain ⟨hmem, hid⟩ := FileStore.fileAsset?_eq_some.mp hf
      have hnames : f.storageKey = row.storageKey := hv'.names f (by rw [← hp.1, hid]; exact hf)
      have hclean : ¬ Cleaned row.storageKey v.log := by
        intro hcleaned
        have hdeleting := (hv'.inv.cleaned _ hcleaned).deleting f hmem hnames
        rw [hp.2] at hdeleting
        cases hdeleting
      have hsettled : ∀ data s, Settled row.storageKey (v.push a (.updated data [id]) s).log :=
        fun data s => (settled_of_not_cleaned hclean).push (by simp)
      have hends : ∀ v₂, Interf fileGuarantee a (fun _ => False) _ v₂ → FileInv v₂ ∧
          Drew a v₂ row.storageKey.objectId ∧ Settled row.storageKey v₂.log := fun v₂ hv₂ =>
        ⟨hv₂.moves.fileInv hpush.inv, hv₂.moves.drew hpush.drew,
          hv₂.settled hpush.drew (hsettled _ _)⟩
      unfold findUniqueFileAsset
      refine wp_select fun v₂ hv₂ => ?_
      rw [← bind_pure (orThrow _ _)]
      exact wp_orThrow (fun _ _ => hends v₂ hv₂) fun _ => hends v₂ hv₂

theorem wp_store {file : UploadedFileInput} (h : Uploading a w row)
    (hput : NotPut row.storageKey w.log) :
    wp fileGuarantee a (store env file row) (Ends a row.storageKey) Ctx.start w := by
  unfold store
  split
  · -- nothing was put
    refine wp_releaseFailedUpload h.inv fun v ids s hv hmove => ?_
    have hpush := (h.moves hv.moves).moves (.single hmove)
    exact ⟨hpush.inv, hpush.drew, (hput.interf h.drew hv).settled.push (by simp)⟩
  · refine wp_storagePut h.inv h.drew h.object fun v s hv hmove => ?_
    have hpush := (h.moves hv.moves).moves (.single hmove)
    split
    · next hfailed =>
      -- only a successful put is one to settle
      have hsettled : Settled row.storageKey (v.push a (.put row.storageKey file.put) s).log :=
        (hput.interf h.drew hv).settled.push (by simpa using hfailed)
      refine wp_releaseFailedUpload hpush.inv fun v₂ ids s₂ hv₂ hmove₂ => ?_
      have hend := (hpush.moves hv₂.moves).moves (.single hmove₂)
      exact ⟨hend.inv, hend.drew, (hv₂.settled hpush.drew hsettled).push (by simp)⟩
    · exact wp_promote hpush

/-- The row is written: from here on the process uploads. -/
theorem wp_createFileAsset {actorId : Uuid} {purpose : FilePurpose} {k : FileAsset → FileTask β}
    (hinv : FileInv w) (hdrew : Drew a w key.objectId) (hnew : ¬ Known w key.objectId)
    (h : ∀ v row, row.storageKey = key → Uploading a v row → NotPut row.storageKey v.log →
      wp fileGuarantee a (k row) Q Ctx.start v) :
    wp fileGuarantee a (createFileAsset actorId purpose key >>= k) Q Ctx.start w := by
  unfold createFileAsset
  simp only [bind_assoc]
  refine wp_freshId fun w₁ hw₁ id hid => wp_now fun w₂ hw₂ => ?_
  have hinv₁ := hw₁.moves.fileInv hinv
  have hdraw : Interf fileGuarantee a (fun _ => False) w (w₁.issue id a.pid) := hw₁.draw hid
  have hdrewId := drew_issue (a := a) hid
  have hnewId := hinv₁.unknown_issue (a := a) hid
  refine wp_bind (wp_transaction (wp_modify fun w₃ hw₃ => wp_pure ?_))
  intro v hv
  have hafter := hw₂.trans (hw₃.trans hv)
  have hinterf := hdraw.trans hafter
  have hinv' := hinterf.moves.fileInv hinv
  have hdrew' := hinterf.moves.drew hdrew
  have hunknown := hinterf.unknown hdrew hnew
  have hunknownId := hafter.unknown hdrewId hnewId
  have hstep := fileStep_created (a := a) (L := fun _ => False)
    (f := newFileAsset id w₂.now actorId purpose key) hinv' rfl rfl (hafter.moves.drew hdrewId)
    hunknownId hdrew' hunknown
  have hmove : Move fileGuarantee v _ := .act a _ _ _ hstep
  -- the row is there, and names the object that was not in use
  have hfresh : ∀ g ∈ v.db.fileAssets, g.id ≠ id := fun g hg hgid =>
    hunknownId (hgid ▸ (known_of_mem hg).1)
  have hrow : newFileAsset id w₂.now actorId purpose key ∈
      (v.db.insertFileAsset (newFileAsset id w₂.now actorId purpose key)).fileAssets :=
    (Table.mem_insert hfresh).mpr (.inr rfl)
  refine ⟨hstep, h _ _ rfl ⟨.move hinv' hmove, Moves.drew (.single hmove) hdrew',
    (known_of_mem (w := v.push a _ _) hrow).1, ?_, knownObject_of_mem (w := v.push a _ _) hrow⟩ ?_⟩
  · intro f hf
    obtain rfl := Option.some_inj.mp ((FileStore.fileAsset?_of_mem hrow).symm.trans hf)
    rfl
  · intro e he outcome hev
    rcases List.mem_cons.mp he with rfl | hold
    · cases hev
    · exact hunknown (hinv'.put e hold _ outcome hev).known

theorem wp_fileAnswer {x : Except ApiError α} {k : α → FileTask β} {c : Ctx FileStore FileLock}
    (hok : ∀ r, wp fileGuarantee a (k r) Q c w) (herr : ∀ e, Q (.error e) c w) :
    wp fileGuarantee a (answer x >>= k) Q c w := by
  cases x with
  | ok r => exact wp_bind (hok r)
  | error e => exact wp_bind (herr _)

theorem wp_upload {file : UploadedFileInput} {purpose : FilePurpose} {actorId : Uuid}
    (hinv : FileInv w) :
    wp fileGuarantee a (upload env file purpose actorId) (fun _ _ _ => True) Ctx.start w := by
  unfold upload
  refine wp_ensure (fun _ => ?_) fun _ => trivial
  refine wp_now fun w₁ hw₁ => wp_select fun w₂ hw₂ => wp_ensure (fun _ => ?_) fun _ => trivial
  refine wp_fileAnswer (fun fileExtension => ?_) fun _ => trivial
  refine wp_freshId fun w₃ hw₃ objectId hid => ?_
  have hinv₃ := (hw₁.trans (hw₂.trans hw₃)).moves.fileInv hinv
  refine wp_createFileAsset (FileInv.move hinv₃ (.issue objectId a.pid hid)) (drew_issue hid)
    (hinv₃.unknown_issue hid) fun v row hkey huploading hput => ?_
  exact wp_reporting (wp_store huploading hput)

/-! ### Release -/

theorem wp_releaseUnattached {fileId actorId : Uuid} (hinv : FileInv w) :
    wp fileGuarantee a (releaseUnattached fileId actorId) (fun _ _ _ => True) Ctx.start w := by
  unfold releaseUnattached
  refine wp_updateMany hinv ?_ fun v ids t _ _ _ => ?_
  · intro f hp _
    simp only [Bool.and_eq_true, decide_eq_true_eq] at hp
    exact ⟨by simp [hp.2], by simp, by simp [hp.2, FileAssetStatus.rank],
      fun t => by simp [FileAsset.ExpiryMatches]⟩
  · split
    · trivial
    · refine wp_select fun v₂ _ => wp_orThrow (fun ownFile _ => ?_) fun _ => trivial
      rw [← bind_pure (ensure _ _)]
      exact wp_ensure (fun _ => trivial) fun _ => trivial

/-! ### Cleanup -/

/-- The part of a program that ends outside of a transaction. -/
def Leaves (w : FileWorld) : Except Failure β → Ctx FileStore FileLock → FileWorld → Prop :=
  fun _ c v => c = Ctx.start ∧ Moves fileGuarantee w v

/-- A file that a cleanup took up: its object is about to go, and its row keeps naming it. -/
structure Due (w : FileWorld) (file : FileAsset) : Prop where
  doomed : Doomed w file.storageKey
  known : Known w file.id
  names : ∀ f, w.db.fileAsset? file.id = some f → f.storageKey = file.storageKey

theorem Due.moves {file : FileAsset} (h : Due w file) (hw : Moves fileGuarantee w w') :
    Due w' file where
  doomed := hw.doomed h.doomed
  known := h.known.mono hw.extends
  names := hw.names h.known h.names

/-- Whatever is in a batch is due. -/
theorem due_of_mem_cleanupBatch {file : FileAsset} (hinv : FileInv w)
    (h : file ∈ cleanupBatch w.db) : Due w file := by
  obtain ⟨hmem, hstatus⟩ := Table.mem_filter.mp ((List.mem_mergeSort).mp (List.mem_of_mem_take h))
  have hdeleting : file.status = .deleting := by simpa using hstatus
  refine ⟨⟨knownObject_of_mem hmem, fun f hf hkey => ?_⟩, (known_of_mem hmem).1, fun f hf => ?_⟩
  · have hid := hinv.unique f hf file hmem hkey
    rwa [Table.eq_of_key hf hmem hid]
  · obtain rfl := Option.some_inj.mp (hf.symm.trans (FileStore.fileAsset?_of_mem hmem))
    rfl

theorem wp_deleteFileAsset {file : FileAsset} (hinv : FileInv w) (hdue : Due w file)
    (hcleaned : Cleaned file.storageKey w.log) :
    wp fileGuarantee a (deleteFileAsset file.id) (Leaves w) Ctx.start w := by
  unfold deleteFileAsset
  refine wp_transaction (wp_lockRow fun w₁ hw₁ => wp_select fun w₂ hw₂ =>
    wp_select fun w₃ hw₃ => ?_)
  have hw := hw₁.trans (hw₂.trans hw₃).unlocked
  refine wp_ensure (fun _ => ?_) fun _ v hv => ⟨rfl, (hw.trans hv.unlocked).moves⟩
  refine wp_onlyIf (fun hfound => wp_modify fun w₄ hw₄ => wp_pure ?_) fun _ => wp_pure ?_
  · obtain ⟨f, hf⟩ := Option.isSome_iff_exists.mp hfound
    obtain ⟨hrow, hstatus⟩ := Option.filter_eq_some_iff.mp hf
    intro v hv
    have hlocked := hw₃.trans (hw₄.trans hv)
    have hmoves := (hw₁.trans (hw₂.trans hlocked).unlocked).moves
    have hnow := hlocked.fileAsset?_eq (.inl rfl) hrow
    have hstep := fileStep_removed (a := a) (L := fun l => l = .fileAsset file.id ∨ False)
      (hmoves.fileInv hinv) hnow (by simpa using hstatus)
      ((hdue.moves hmoves).names f hnow ▸ hcleaned.mono hmoves.log_suffix) (.inl rfl)
    exact ⟨hstep, rfl, hmoves.tail (.act a _ _ _ hstep)⟩
  · intro v hv
    have hmoves := (hw.trans hv.unlocked).moves
    have hstep : FileStep a (fun l => l = .fileAsset file.id ∨ False) v (.removed file.id) v.db :=
      fileStep_unchanged (hmoves.fileInv hinv) trivial
    exact ⟨hstep, rfl, hmoves.tail (.act a _ _ _ hstep)⟩

theorem wp_deleteFile {failing : List StorageKey} {file : FileAsset} (hinv : FileInv w)
    (hdue : Due w file) :
    wp fileGuarantee a (deleteFile failing file) (Leaves w) Ctx.start w := by
  unfold deleteFile
  refine wp_storageDelete hinv (fun v s L hv hobjects => ?_) fun v s hv hmove => ?_
  · exact .objectDeleted _ _ (hdue.moves hv.moves).doomed hobjects
  · have hmoves : Moves fileGuarantee w _ := hv.moves.tail hmove
    refine wp_ensure (fun hsucceeds => ?_) fun _ => ⟨rfl, hmoves⟩
    refine wp_mono (fun r c v' hleaves => ⟨hleaves.1, hmoves.trans hleaves.2⟩)
      (wp_deleteFileAsset (hmoves.fileInv hinv) (hdue.moves hmoves) ?_)
    exact ⟨_, List.mem_cons_self, by rw [hsucceeds]⟩

theorem wp_deleteFileOrRecord {failing : List StorageKey} {file : FileAsset}
    {progress : CleanupProgress} (hinv : FileInv w) (hdue : Due w file) :
    wp fileGuarantee a (deleteFileOrRecord failing file progress) (Leaves w) Ctx.start w := by
  unfold deleteFileOrRecord
  refine wp_catchError (wp_bind (wp_mono ?_ (wp_deleteFile hinv hdue)))
  rintro (e | removed) c v ⟨rfl, hmoves⟩
  · unfold recordFailedDelete
    simp only [rescue, andThen, bind_assoc, pure_bind]
    refine wp_updateMany (hmoves.fileInv hinv) ?_ fun v₂ ids t hv₂ _ hmove => ?_
    · intro f hp hmatch
      simp only [Bool.and_eq_true, decide_eq_true_eq] at hp
      refine ⟨by simp [hp.2], by simp [hp.2], by simp, fun t => ?_⟩
      simpa [FileAsset.ExpiryMatches] using hmatch
    · exact ⟨rfl, hmoves.trans (hv₂.moves.tail hmove)⟩
  · exact ⟨rfl, hmoves⟩

/-- The delete loop, by induction on what is left of the batch. -/
theorem wp_deleteBatch {failing : List StorageKey} {startedAt : ℕ} {batch : List FileAsset}
    {progress : CleanupProgress} (hinv : FileInv w) (hdue : ∀ file ∈ batch, Due w file) :
    wp fileGuarantee a (deleteBatch failing startedAt batch progress) (fun _ _ _ => True)
      Ctx.start w := by
  induction batch generalizing w progress with
  | nil => trivial
  | cons file batch ih =>
    unfold deleteBatch
    refine wp_now fun w₁ hw₁ => ?_
    split
    · trivial
    · have hinv₁ := hw₁.moves.fileInv hinv
      have hdue₁ := fun file' hmem => (hdue file' hmem).moves hw₁.moves
      refine wp_bind (wp_mono ?_
        (wp_deleteFileOrRecord hinv₁ (hdue₁ file List.mem_cons_self)))
      rintro (e | r) c v ⟨rfl, hmoves⟩
      · trivial
      · exact ih (hmoves.fileInv hinv₁) fun file' hmem =>
          (hdue₁ file' (List.mem_cons_of_mem _ hmem)).moves hmoves

theorem wp_cleanUp {failing : List StorageKey} (hinv : FileInv w) :
    wp fileGuarantee a (cleanUp failing) (fun _ _ _ => True) Ctx.start w := by
  unfold cleanUp
  refine wp_now fun w₁ hw₁ => wp_updateMany (hw₁.moves.fileInv hinv) ?_
    fun v ids t hv _ hmove => ?_
  · intro f hp _
    simp only [isReclaimable, Bool.or_eq_true, Bool.and_eq_true, decide_eq_true_eq] at hp
    refine ⟨?_, by simp [releasedData], ?_,
      fun t => by simp [FileAsset.ExpiryMatches, releasedData]⟩
    · rcases hp with ⟨hstatus, -⟩ | ⟨hstatus, -⟩ <;> simp [hstatus]
    · rcases hp with ⟨hstatus, -⟩ | ⟨hstatus, -⟩ <;>
        simp [hstatus, releasedData, FileAssetStatus.rank]
  · have hinv' := FileInv.move ((hw₁.trans hv).moves.fileInv hinv) hmove
    refine wp_select fun v₂ hv₂ => wp_now fun v₃ hv₃ => ?_
    have hinv₂ := hv₂.moves.fileInv hinv'
    refine wp_bind (wp_mono (fun r c v' _ => ?_) (wp_deleteBatch (hv₃.moves.fileInv hinv₂)
      fun file hmem => (due_of_mem_cleanupBatch hinv₂ hmem).moves hv₃.moves))
    cases r <;> trivial

end NestApi
