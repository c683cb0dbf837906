import NestApi.Accounts.Requests
import NestApi.Files.Store

/-!
# Requests on files

What arrives, what the programs report, and the statements that they share. What the storage and
the decoder answer is part of a request, so a statement about every request is one about every
answer.
-/

namespace NestApi

open Txn.Program

/-! ### Configuration -/

/-- Configuration and libraries. -/
structure FileEnv extends Env where
  maxUploadBytes : ℕ
  uploadTtlSeconds : ℕ

/-- What a purpose accepts and where its objects go. -/
structure FilePurposePolicy where
  maxBytes : ℕ
  storageSubdirectory : String

/-- The policy of each purpose. -/
def filePurposePolicies : FilePurpose → FilePurposePolicy
  | .profileImage => ⟨10 * (1024 * 1024), "files/profile-images"⟩
  | .document => ⟨25 * (1024 * 1024), "files/documents"⟩

/-- How many unattached files one person may hold. -/
def maxUnattachedFilesPerUser : ℕ := 20

/-- A `processing` row older than this belongs to a request that died. -/
def staleProcessingMilliseconds : ℕ := 15 * 60 * 1000

/-- Objects deleted per cleanup run. -/
def cleanupBatchSize : ℕ := 200

/-- A cleanup run starts no delete after this long. -/
def cleanupTimeBudgetMilliseconds : ℕ := 2 * 60 * 1000

/-- A cleanup run stops after this many failures in a row. -/
def cleanupConsecutiveFailureLimit : ℕ := 5

/-- How long a released file counts against the quota of its uploader. -/
def releasedFileQuotaWindowMilliseconds : ℕ := 60 * 60 * 1000

/-! ### Requests -/

/-- How the storage answers a put. A failed one may have written. -/
inductive PutOutcome
  | succeeded
  | failed (written : Bool)
deriving DecidableEq, Repr

/-- The object is there afterwards. -/
def PutOutcome.isWritten : PutOutcome → Bool
  | .succeeded => true
  | .failed written => written

/-- An upload, with what the decoder and the storage make of it: the extension of the accepted
type, the processed bytes, and the answers of the put and of the delete that may follow. An error
without a response is one that no handler provides for. -/
structure UploadedFileInput where
  size : ℕ
  identified : Except ApiError String
  processed : Except (Option ApiError) (List UInt8)
  put : PutOutcome
  discarded : Bool
deriving DecidableEq

/-- Requests and the cleanup job. -/
inductive FileRequest
  | upload (file : UploadedFileInput) (purpose : FilePurpose) (actorId : Uuid)
  | setProfileImage (userId : Uuid) (fileId : Option Uuid) (actorId : Uuid)
  | releaseUnattached (fileId actorId : Uuid)
  /-- `failing` are the objects whose delete the storage refuses. -/
  | cleanUp (failing : List StorageKey)
  | gdprErase (userId : Uuid) (currentPassword : String)
deriving DecidableEq

/-! ### Events -/

/-- What the programs report. -/
inductive FileEvent
  /-- An upload recorded its row. -/
  | created (fileId : Uuid) (key : StorageKey)
  /-- A conditional write of rows, with the ids of those that it matched. -/
  | updated (data : FileAssetUpdateInput) (fileIds : List Uuid)
  /-- The cleanup deleted the row, if it was still there. -/
  | removed (fileId : Uuid)
  /-- An upload put its object. -/
  | put (key : StorageKey) (outcome : PutOutcome)
  /-- An upload whose row was taken from it deleted the object that it had put. -/
  | discarded (key : StorageKey) (succeeded : Bool)
  /-- The cleanup deleted an object. -/
  | objectDeleted (key : StorageKey) (succeeded : Bool)
  /-- The upload of an object returned, with an answer or an error. -/
  | uploadReturned (key : StorageKey)
  | profileImageSet (userId : Uuid) (fileId : Option Uuid)
  /-- A transaction committed and had nothing to write. -/
  | unchanged (userId : Uuid)
  | erased (userId : Uuid)
deriving DecidableEq

/-- The rows that are locked, and the objects: an operation of the storage is one step. -/
inductive FileLock
  | user (id : Uuid)
  | fileAsset (id : Uuid)
  | object (key : StorageKey)
deriving DecidableEq

/-- A program over the store of files. -/
abbrev FileTask (α : Type) := Txn.Program FileStore FileLock FileEvent Uuid Failure α

/-! ### Statements -/

namespace Files

/-- What another service answered. -/
def answer {α : Type} : Except ApiError α → FileTask α
  | .ok a => .done a
  | .error e => .fail (.api e)

/-- Report the end of a program, and end as it did. -/
def reporting {α : Type} (x : FileTask α) (ev : FileEvent) : FileTask α :=
  x.handle fun
    | .ok a => .observe (fun _ => ev) fun _ => .done a
    | .error e => .observe (fun _ => ev) fun _ => .fail e

/-- `fileAsset.updateMany`: the rows that match when the statement starts are locked, and those
that still match under the lock are written. Answers their ids. -/
def updateManyFileAssets (p : FileAsset → Bool) (data : FileAssetUpdateInput) :
    FileTask (List Uuid) := do
  let found ← select fun s => (s.fileAssets.filter p).map (·.id)
  lockRows (found.map .fileAsset)
  let ids ← select fun s => (s.fileAssets.filter fun f => p f && decide (f.id ∈ found)).map (·.id)
  let updatedAt ← now
  modify fun s => s.updateFileAssets ids data updatedAt
  pure ids

/-- The same as a transaction of its own. -/
def updateMany (p : FileAsset → Bool) (data : FileAssetUpdateInput) : FileTask (List Uuid) :=
  transaction (updateManyFileAssets p data) fun ids => .updated data ids

/-- `fileAsset.findUniqueOrThrow`. -/
def findUniqueFileAsset (fileId : Uuid) : FileTask FileAsset := do
  let found ← select fun s => s.fileAsset? fileId
  orThrow found .internal

/-- `user.update`: the row must exist. -/
def updateUserRow (userId : Uuid) (data : AccountUpdateInput) : FileTask Account := do
  lockRow (.user userId)
  let found ← select fun s => s.toAccountStore.user? userId
  let user ← orThrow found .internal
  modify fun s => s.updateUser userId data
  pure (data.apply user)

/-- The row of an account that was not deleted meanwhile, under its lock. -/
def lockLiveUser (userId : Uuid) : FileTask Account := do
  lockRow (.user userId)
  let lockedUser ← select fun s => s.toAccountStore.scopedUser? userId
  orThrow lockedUser (.api (Errors.resourceNotFound "User"))

/-- `storage.put`. -/
def storagePut (key : StorageKey) (body : List UInt8) (outcome : PutOutcome) : FileTask Unit :=
  transaction (do
      lockRow (.object key)
      onlyIf (outcome.isWritten = true) (modify fun s => s.putObject ⟨key, body⟩))
    fun _ => .put key outcome

/-- `storage.delete`. -/
def storageDelete (key : StorageKey) (succeeds : Bool) (ev : FileEvent) : FileTask Unit :=
  transaction (do
      lockRow (.object key)
      onlyIf (succeeds = true) (modify fun s => s.deleteObject key))
    fun _ => ev

end Files

end NestApi
