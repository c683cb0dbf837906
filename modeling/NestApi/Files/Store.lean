import NestApi.Accounts.Store
import NestApi.Txn.References

/-!
# The store behind files

The rows of `file_assets` beside the accounts that refer to them, and the objects in storage. A
row is written before its object and removed after it.
-/

namespace NestApi

open Txn

/-! ### Rows and objects -/

/-- What a file is uploaded for. -/
inductive FilePurpose
  | profileImage | document
deriving DecidableEq, Repr

/-- The lifecycle of a stored file. -/
inductive FileAssetStatus
  | processing | ready | attached | deleting
deriving DecidableEq, Repr

/-- How far a file has come. A status is never left for an earlier one. -/
def FileAssetStatus.rank : FileAssetStatus → ℕ
  | .processing => 0
  | .ready => 1
  | .attached => 2
  | .deleting => 3

/-- The name of an object, by its parts. A drawn identifier contains neither a slash nor a dot,
so the text of the name determines them. -/
structure StorageKey where
  subdirectory : String
  objectId : Uuid
  fileExtension : String
deriving DecidableEq, Repr

/-- A row of `file_assets`. -/
structure FileAsset where
  id : Uuid
  createdAt : ℕ
  updatedAt : ℕ
  uploadedBy : Uuid
  purpose : FilePurpose
  status : FileAssetStatus
  storageKey : StorageKey
  sizeBytes : Option ℕ
  expiresAt : Option ℕ
  attachedAt : Option ℕ
  deleteAttempts : ℕ
deriving DecidableEq, Repr

/-- The expiry is set exactly while the file waits to be attached. -/
def FileAsset.ExpiryMatches (f : FileAsset) : Prop := f.expiresAt ≠ none ↔ f.status = .ready

instance (f : FileAsset) : Decidable f.ExpiryMatches := inferInstanceAs (Decidable (_ ↔ _))

/-- An object in storage. -/
structure StoredObject where
  storageKey : StorageKey
  body : List UInt8
deriving DecidableEq, Repr

/-- The columns that a write of files names. The count of attempts is incremented. -/
structure FileAssetUpdateInput where
  status : Option FileAssetStatus := none
  sizeBytes : Option (Option ℕ) := none
  expiresAt : Option (Option ℕ) := none
  attachedAt : Option (Option ℕ) := none
  deleteAttempts : ℕ := 0
deriving DecidableEq

namespace FileAssetUpdateInput

variable (data : FileAssetUpdateInput) (updatedAt : ℕ) (f : FileAsset)

/-- The written row. -/
def apply : FileAsset :=
  { f with
    updatedAt
    status := data.status.getD f.status
    sizeBytes := data.sizeBytes.getD f.sizeBytes
    expiresAt := data.expiresAt.getD f.expiresAt
    attachedAt := data.attachedAt.getD f.attachedAt
    deleteAttempts := f.deleteAttempts + data.deleteAttempts }

/-- A write of rows. -/
def rewrite : Rewrite FileAsset.id where
  row := data.apply updatedAt
  key_row _ := rfl

@[simp] theorem id_apply : (data.apply updatedAt f).id = f.id := rfl

@[simp] theorem storageKey_apply : (data.apply updatedAt f).storageKey = f.storageKey := rfl

@[simp] theorem status_apply : (data.apply updatedAt f).status = data.status.getD f.status := rfl

@[simp] theorem expiresAt_apply :
    (data.apply updatedAt f).expiresAt = data.expiresAt.getD f.expiresAt := rfl

end FileAssetUpdateInput

/-! ### The store -/

/-- The accounts, the rows of their files, and the objects. -/
structure FileStore extends AccountStore where
  fileAssets : Table FileAsset.id
  objects : Table StoredObject.storageKey

namespace FileStore

variable (s : FileStore)

/-- The row of a file. -/
def fileAsset? (fileId : Uuid) : Option FileAsset := s.fileAssets.find? fileId

/-- The file that an account shows as its picture. -/
def picture (userId : Uuid) : Option Uuid :=
  (s.toAccountStore.user? userId).bind Account.profileImageFileAssetId

/-- The file is attached. -/
def IsAttached (fileId : Uuid) : Prop := ∃ f ∈ s.fileAsset? fileId, f.status = .attached

/-- There is an object under this name. -/
def Stores (key : StorageKey) : Prop := ∃ o ∈ s.objects, o.storageKey = key

/-- Some row names this object. -/
def NamesObject (key : StorageKey) : Prop := ∃ f ∈ s.fileAssets, f.storageKey = key

/-- Write one account. -/
def updateUser (userId : Uuid) (data : AccountUpdateInput) : FileStore :=
  { s with toAccountStore := s.toAccountStore.updateUser userId data }

/-- Revoke the unrevoked tokens of an account. -/
def revokeTokens (userId : Uuid) (now : ℕ) : FileStore :=
  { s with toAccountStore := s.toAccountStore.revokeTokens userId now }

def insertFileAsset (f : FileAsset) : FileStore := { s with fileAssets := s.fileAssets.insert f }

/-- Write the rows with the given ids. -/
def updateFileAssets (ids : List Uuid) (data : FileAssetUpdateInput) (updatedAt : ℕ) : FileStore :=
  { s with fileAssets := s.fileAssets.update ids (data.rewrite updatedAt) }

def deleteFileAssets (ids : List Uuid) : FileStore :=
  { s with fileAssets := s.fileAssets.delete ids }

/-- Store an object, in the place of the one that has its name. -/
def putObject (o : StoredObject) : FileStore :=
  { s with objects := (s.objects.delete [o.storageKey]).insert o }

def deleteObject (key : StorageKey) : FileStore := { s with objects := s.objects.delete [key] }

instance (fileId : Uuid) : Decidable (s.IsAttached fileId) :=
  inferInstanceAs (Decidable (∃ f ∈ s.fileAsset? fileId, _))

instance (key : StorageKey) : Decidable (s.Stores key) :=
  inferInstanceAs (Decidable (∃ o ∈ s.objects.rows, _))

instance (key : StorageKey) : Decidable (s.NamesObject key) :=
  inferInstanceAs (Decidable (∃ f ∈ s.fileAssets.rows, _))

variable {s} {fileId userId : Uuid} {f : FileAsset} {ids : List Uuid}
  {data : FileAssetUpdateInput} {updatedAt : ℕ}

/-! ### Lookups -/

theorem fileAsset?_eq_some : s.fileAsset? fileId = some f ↔ f ∈ s.fileAssets ∧ f.id = fileId :=
  Table.find?_eq_some

theorem fileAsset?_of_mem (h : f ∈ s.fileAssets) : s.fileAsset? f.id = some f :=
  Table.find?_of_mem h

theorem mem_of_fileAsset? (h : s.fileAsset? fileId = some f) : f ∈ s.fileAssets :=
  Table.mem_of_find? h

theorem isAttached_iff (h : s.fileAsset? fileId = some f) :
    s.IsAttached fileId ↔ f.status = .attached := by
  simp [IsAttached, h]

/-- A row after a write is the old row, or the old row written. -/
theorem fileAsset?_updateFileAssets : (s.updateFileAssets ids data updatedAt).fileAsset? fileId =
    if fileId ∈ ids then (s.fileAsset? fileId).map (data.apply updatedAt)
    else s.fileAsset? fileId := by
  have hfind : (s.fileAssets.update ids (data.rewrite updatedAt)).find? fileId =
      (s.fileAssets.find? fileId).map fun r =>
        if fileId ∈ ids then (data.rewrite updatedAt).row r else r := Table.find?_update
  by_cases hmem : fileId ∈ ids <;>
    simpa [fileAsset?, updateFileAssets, hmem, FileAssetUpdateInput.rewrite] using hfind

/-- A lookup after an insert sees the new row under its id only. -/
theorem fileAsset?_insertFileAsset (hnew : s.fileAsset? f.id = none) :
    (s.insertFileAsset f).fileAsset? fileId =
      if fileId = f.id then some f else s.fileAsset? fileId := by
  by_cases hid : fileId = f.id
  · have hfresh : ∀ r ∈ s.fileAssets, r.id ≠ f.id := Table.find?_eq_none.mp hnew
    have hmem : f ∈ s.fileAssets.insert f := (Table.mem_insert hfresh).mpr (.inr rfl)
    rw [if_pos hid, hid]
    exact Table.find?_of_mem hmem
  · rw [if_neg hid]
    exact Table.find?_insert hid

/-- A lookup after a delete misses the deleted rows only. -/
theorem fileAsset?_deleteFileAssets : (s.deleteFileAssets ids).fileAsset? fileId =
    if fileId ∈ ids then none else s.fileAsset? fileId := by
  by_cases hid : fileId ∈ ids
  · rw [if_pos hid]
    exact Table.find?_delete_of_mem hid
  · rw [if_neg hid]
    exact Table.find?_delete hid

/-! ### Objects -/

/-- What is stored after a put was put, or was there. -/
theorem stores_putObject {o : StoredObject} {key : StorageKey} (h : (s.putObject o).Stores key) :
    key = o.storageKey ∨ s.Stores key := by
  obtain ⟨x, hx, rfl⟩ := h
  rcases Table.mem_of_mem_insert hx with hold | rfl
  · exact .inr ⟨x, (Table.mem_delete.mp hold).1, rfl⟩
  · exact .inl rfl

/-- What is stored after a delete was there, and is not what was deleted. -/
theorem stores_deleteObject {deleted key : StorageKey} (h : (s.deleteObject deleted).Stores key) :
    s.Stores key ∧ key ≠ deleted := by
  obtain ⟨x, hx, rfl⟩ := h
  obtain ⟨hmem, hkey⟩ := Table.mem_delete.mp hx
  exact ⟨⟨x, hmem, rfl⟩, by simpa using hkey⟩

end FileStore

end NestApi
