import NestApi.Accounts.Runs
import NestApi.Files.Pictures

/-!
# Runs of the file system

A run starts from any consistent store whose names count as drawn, and admits every request. Each
entry is a step from the world before it.
-/

namespace NestApi

open Txn Files

/-- The references are exclusive, the expiry matches the status, and no two rows name one
object. -/
structure FileStore.Consistent (s : FileStore) : Prop where
  references : s.References
  expiry : ∀ f ∈ s.fileAssets, f.ExpiryMatches
  unique : ∀ f ∈ s.fileAssets, ∀ g ∈ s.fileAssets, f.storageKey = g.storageKey → f.id = g.id

/-- No request has arrived yet. -/
def startFiles (init : FileStore) (now : ℕ) (ids : Table (Prod.fst : Uuid × Option ℕ → Uuid)) :
    FileConfig := Config.start init now ids

/-- `σ` is reached from `init`, whatever requests arrive and wherever they die. -/
def FilesRunTo (env : FileEnv) (init : FileStore) (σ : FileConfig) : Prop :=
  ∃ now ids, init.Consistent ∧
    (∀ f ∈ init.fileAssets, ids.find? f.id ≠ none ∧ ids.find? f.storageKey.objectId ≠ none) ∧
      Config.Reaches (fileBody env) (fun _ => True) (startFiles init now ids) σ

section Runs

variable {env : FileEnv} {init : FileStore} {σ : FileConfig} {l l' : FileLog}
  {e : Entry FileStore FileEvent FileRequest}

theorem FileStore.Consistent.inv {now : ℕ} {ids : Table (Prod.fst : Uuid × Option ℕ → Uuid)}
    (h : init.Consistent)
    (hids : ∀ f ∈ init.fileAssets, ids.find? f.id ≠ none ∧
      ids.find? f.storageKey.objectId ≠ none) : FileInv ⟨init, [], now, ids⟩ where
  references := h.references
  expiry := h.expiry
  unique := h.unique
  drawn := by
    rintro x ⟨s, ⟨k, hk, -, rfl⟩, f, hf, hname⟩
    obtain rfl := List.suffix_nil.mp hk
    obtain ⟨hid, hobject⟩ := hids f hf
    rcases hname with rfl | rfl
    · exact hid
    · exact hobject
  cleaned := by
    rintro key ⟨e, he, -⟩
    cases he
  put := by
    intro e he
    cases he

/-- A run of the machine is a run of the abstract system. -/
theorem FilesRunTo.moves (h : FilesRunTo env init σ) :
    ∃ now ids, FileInv ⟨init, [], now, ids⟩ ∧ Moves fileGuarantee ⟨init, [], now, ids⟩ σ.world := by
  obtain ⟨now, ids, hinit, hids, hreach⟩ := h
  have hinv : FileInv ⟨init, [], now, ids⟩ := hinit.inv hids
  exact ⟨now, ids, hinv, (fileProtocol.refines (fileBody_admitted env _) hinv hreach).1⟩

theorem FilesRunTo.init_eq (h : FilesRunTo env init σ) : σ.world.init = init := by
  obtain ⟨now, ids, -, hmoves⟩ := h.moves
  exact hmoves.init_eq

/-- Every entry is a step, in a world with the history before it. -/
theorem FilesRunTo.entry (h : FilesRunTo env init σ) (hl : (e :: l) <:+ σ.world.log) :
    ∃ (w : FileWorld) (L : FileLock → Prop), w.log = l ∧ w.init = init ∧ FileInv w ∧
      FileStep e.agent L w e.event e.db := by
  obtain ⟨now, ids, hinv, hmoves⟩ := h.moves
  obtain ⟨w, L, hlog, hinit, hw, hstep, -⟩ := fileProtocol.entry hinv hmoves hl
  exact ⟨w, L, hlog, hinit, hw, hstep⟩

/-- What every step keeps holds from one point of the history to any later one. -/
theorem FilesRunTo.persists (h : FilesRunTo env init σ) {P : FileStore → Prop} (hl : l <:+ l')
    (hl' : l' <:+ σ.world.log) (hP : P (stateOf init l))
    (hstep : ∀ {w a L ev s}, FileInv w → w.init = init → l <:+ w.log →
      (⟨a, ev, s⟩ :: w.log) <:+ l' → FileStep a L w ev s → P w.db → P s) :
    P (stateOf init l') := by
  refine stateOf_persists hl hP fun e k hk hek hPk => ?_
  obtain ⟨w, L, rfl, hinit, hinv, hentry⟩ := h.entry (hek.trans hl')
  rw [← hinit] at hPk
  exact hstep hinv hinit hk hek hentry hPk

end Runs

/-! ### A small store -/

namespace Sample

/-- A ceiling of ten bytes, and uploads that wait for a minute. -/
def fileEnv : FileEnv where
  toEnv := env
  maxUploadBytes := 10
  uploadTtlSeconds := 60

/-- A store with one account and no files. -/
def fileStore : FileStore where
  toAccountStore := accountStore ann
  fileAssets := .empty
  objects := .empty

/-- Carry out a schedule over it. -/
def performFiles (now : ℕ) (orders : List (Order FileRequest)) : FileConfig :=
  (startFiles fileStore now .empty).performAll (fileBody fileEnv) name 200 orders

/-- Two bytes of a picture, with what the storage answers. -/
def picture (put : PutOutcome) : UploadedFileInput where
  size := 2
  identified := .ok ".png"
  processed := .ok [1, 2]
  put
  discarded := true

theorem filesRunTo (now : ℕ) (orders : List (Order FileRequest)) :
    FilesRunTo fileEnv fileStore (performFiles now orders) := by
  have hempty : ∀ f : FileAsset, f ∉ fileStore.fileAssets := fun _ => Table.not_mem_empty
  have hpicture : ∀ userId, fileStore.picture userId = none := by
    intro userId
    rcases hrow : fileStore.toAccountStore.user? userId with _ | u
    · simp [FileStore.picture, hrow]
    · obtain rfl := user?_accountStore hrow
      simp [FileStore.picture, hrow, ann]
  refine ⟨now, .empty, ⟨⟨?_, ?_⟩, ?_, ?_⟩, ?_, Config.reaches_performAll (by simp)⟩
  · intro x
    simp only [hpicture, FileStore.IsAttached, FileStore.fileAsset?]
    simp [fileStore, Table.find?, Table.empty]
  · intro i j x hi
    rw [hpicture i] at hi
    cases hi
  · exact fun f hf => absurd hf (hempty f)
  · exact fun f hf => absurd hf (hempty f)
  · exact fun f hf => absurd hf (hempty f)

end Sample

end NestApi
