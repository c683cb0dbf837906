import NestApi.Accounts.Service
import NestApi.Files.Requests

/-!
# The operations on files

Ingest, attach and release, in the order of the source. Every change of a row's status is one
conditional write. An upload writes its row first, then its object, then promotes the row, and
the cleanup deletes the object before the row.
-/

namespace NestApi.Files

open Txn.Program
open WorkspaceMemberships (toLowerCase)

/-! ### Upload -/

/-- The file belongs to nothing yet. -/
def isUnattached (f : FileAsset) : Bool := f.status = .processing || f.status = .ready

/-- What the upload quota counts. -/
def quotaWhere (actorId : Uuid) (now : ℕ) (f : FileAsset) : Bool :=
  f.uploadedBy = actorId && (isUnattached f ||
    (f.status = .deleting && f.sizeBytes.isSome && f.attachedAt = none &&
      decide (now < f.createdAt + releasedFileQuotaWindowMilliseconds)))

/-- Give up the row of an upload that is still `processing`. -/
def releaseFailedUpload (fileId : Uuid) : FileTask Unit := do
  let _ ← updateMany (fun f => f.id = fileId && f.status = .processing)
    { status := some .deleting }
  pure ()

/-- The new row of an upload. -/
def newFileAsset (id : Uuid) (createdAt : ℕ) (actorId : Uuid) (purpose : FilePurpose)
    (storageKey : StorageKey) : FileAsset where
  id
  createdAt
  updatedAt := createdAt
  uploadedBy := actorId
  purpose
  status := .processing
  storageKey
  sizeBytes := none
  expiresAt := none
  attachedAt := none
  deleteAttempts := 0

/-- `fileAsset.create`. -/
def createFileAsset (actorId : Uuid) (purpose : FilePurpose) (storageKey : StorageKey) :
    FileTask FileAsset := do
  let id ← freshId
  let createdAt ← now
  let row := newFileAsset id createdAt actorId purpose storageKey
  transaction (do
      modify fun s => s.insertFileAsset row
      pure row)
    fun _ => .created id storageKey

/-- Promote the row to `ready`, or remove the object when the row is no longer `processing`. -/
def promote (env : FileEnv) (file : UploadedFileInput) (row : FileAsset) (body : List UInt8) :
    FileTask FileAsset := do
  let now ← now
  let finished ← updateMany (fun f => f.id = row.id && f.status = .processing)
    { status := some .ready
      sizeBytes := some (some body.length)
      expiresAt := some (some (now + env.uploadTtlSeconds * 1000)) }
  if finished.length ≠ 1 then do
    storageDelete row.storageKey file.discarded (.discarded row.storageKey file.discarded)
    .fail (.api (Errors.externalServiceUnavailable "The upload took too long. Please try again."))
  else
    findUniqueFileAsset row.id

/-- The rest of an upload whose row is written. -/
def store (env : FileEnv) (file : UploadedFileInput) (row : FileAsset) : FileTask FileAsset :=
  match file.processed with
  | .error e => do
    releaseFailedUpload row.id
    .fail (.api (e.getD (Errors.fileContentInvalid "The file could not be processed.")))
  | .ok body => do
    storagePut row.storageKey body file.put
    if file.put ≠ .succeeded then do
      -- the write may have happened; the source leaves the object to the cleanup
      releaseFailedUpload row.id
      .fail (.api (Errors.externalServiceUnavailable
        "File storage is unavailable. Please try again."))
    else
      promote env file row body

/-- Phase one: validate, process and store one file. -/
def upload (env : FileEnv) (file : UploadedFileInput) (purpose : FilePurpose) (actorId : Uuid) :
    FileTask FileAsset :=
  let policy := filePurposePolicies purpose
  let maxBytes := min policy.maxBytes env.maxUploadBytes
  do
    ensure (file.size ≤ maxBytes) (.api (Errors.payloadTooLarge
      s!"This file is larger than the {maxBytes} bytes allowed here."))
    let countedAt ← now
    let unattachedCount ← select fun s =>
      (s.fileAssets.filter (quotaWhere actorId countedAt)).length
    ensure (unattachedCount < maxUnattachedFilesPerUser)
      (.api (Errors.fileQuotaExceeded maxUnattachedFilesPerUser))
    let fileExtension ← answer file.identified
    let objectId ← freshId
    let storageKey : StorageKey := ⟨policy.storageSubdirectory, objectId, fileExtension⟩
    let row ← createFileAsset actorId purpose storageKey
    reporting (store env file row) (.uploadReturned row.storageKey)

/-! ### Attach and release -/

/-- The conditional write of an attachment. -/
def isClaimable (fileId actorId : Uuid) (purpose : FilePurpose) (now : ℕ) (f : FileAsset) : Bool :=
  f.id = fileId && f.uploadedBy = actorId && f.purpose = purpose && f.status = .ready &&
    f.expiresAt.any fun t => decide (now < t)

/-- Phase two: consume a `ready` file, inside the caller's transaction. -/
def claimForAttachment (fileId actorId : Uuid) (purpose : FilePurpose) : FileTask FileAsset := do
  let now ← now
  let claimed ← updateManyFileAssets (isClaimable fileId actorId purpose now)
    { status := some .attached, attachedAt := some (some now), expiresAt := some none }
  if claimed.length = 1 then
    findUniqueFileAsset fileId
  else do
    let ownFile ← select fun s => (s.fileAsset? fileId).filter fun f =>
      f.uploadedBy = actorId && f.purpose = purpose
    let _ ← orThrow ownFile (.api (Errors.resourceNotFound "File"))
    .fail (.api Errors.fileNotAttachable)

/-- Release the caller's own upload that was never attached. -/
def releaseUnattached (fileId actorId : Uuid) : FileTask Unit := do
  let released ← updateMany
    (fun f => f.id = fileId && f.uploadedBy = actorId && f.status = .ready)
    { status := some .deleting, expiresAt := some none }
  if released.length = 1 then
    pure ()
  else do
    let found ← select fun s => (s.fileAsset? fileId).filter fun f => f.uploadedBy = actorId
    let ownFile ← orThrow found (.api (Errors.resourceNotFound "File"))
    ensure (ownFile.status = .deleting) (.api Errors.fileNotReleasable)

/-- The write of a release. -/
def releasedData : FileAssetUpdateInput := { status := some .deleting, expiresAt := some none }

/-- Release files that their resource no longer references, inside the caller's transaction. -/
def markDeleting (fileIds : List Uuid) : FileTask Unit :=
  if fileIds = [] then pure ()
  else do
    let _ ← updateManyFileAssets (fun f => decide (f.id ∈ fileIds) && f.status ≠ .deleting)
      releasedData
    pure ()

/-- Release what an account uploaded and never attached. -/
def markUnattachedDeleting (uploaderId : Uuid) : FileTask Unit := do
  let _ ← updateManyFileAssets (fun f => f.uploadedBy = uploaderId && isUnattached f)
    releasedData
  pure ()

/-! ### Cleanup -/

/-- What a cleanup run did. -/
structure CleanupResult where
  released : ℕ
  deleted : ℕ
  failed : ℕ
deriving DecidableEq

/-- The counters of the delete loop. -/
structure CleanupProgress where
  deleted : ℕ := 0
  failed : ℕ := 0
  consecutiveFailures : ℕ := 0

/-- What a cleanup run claims: expired files, and rows that a dead upload left behind. -/
def isReclaimable (now : ℕ) (f : FileAsset) : Bool :=
  f.status = .ready && f.expiresAt.any (fun t => decide (t ≤ now)) ||
    f.status = .processing && decide (f.createdAt + staleProcessingMilliseconds < now)

/-- Fewest attempts first, then the longest untouched. -/
def isTriedBefore (f g : FileAsset) : Bool :=
  decide (f.deleteAttempts < g.deleteAttempts) ||
    (f.deleteAttempts = g.deleteAttempts && decide (f.updatedAt ≤ g.updatedAt))

/-- The files whose deletion is due, at most one batch. -/
def cleanupBatch (s : FileStore) : List FileAsset :=
  ((s.fileAssets.filter fun f => f.status = .deleting).mergeSort isTriedBefore).take
    cleanupBatchSize

/-- `fileAsset.deleteMany` of one `deleting` row, which the foreign key of `users` may refuse.
Answers how many rows it deleted. -/
def deleteFileAsset (fileId : Uuid) : FileTask ℕ :=
  transaction (do
      lockRow (.fileAsset fileId)
      let found ← select fun s => (s.fileAsset? fileId).filter fun f => f.status = .deleting
      let isReferenced ← select fun s =>
        s.users.rows.any fun u => u.profileImageFileAssetId = some fileId
      ensure (found = none ∨ isReferenced = false) .internal
      onlyIf (found.isSome = true) (modify fun s => s.deleteFileAssets [fileId])
      pure found.toList.length)
    fun _ => .removed fileId

/-- Count a failed attempt. -/
def recordFailedDelete (fileId : Uuid) : FileTask Unit := do
  let _ ← updateMany (fun f => f.id = fileId && f.status = .deleting) { deleteAttempts := 1 }
  pure ()

/-- Delete the object, then the row. -/
def deleteFile (failing : List StorageKey) (file : FileAsset) : FileTask ℕ :=
  let succeeds := decide (file.storageKey ∉ failing)
  do
    storageDelete file.storageKey succeeds (.objectDeleted file.storageKey succeeds)
    ensure (succeeds = true) .internal
    deleteFileAsset file.id

/-- One round of the delete loop. A failure keeps the row and counts the attempt. -/
def deleteFileOrRecord (failing : List StorageKey) (file : FileAsset) (progress : CleanupProgress) :
    FileTask CleanupProgress :=
  catchError (do
      let removed ← deleteFile failing file
      pure { progress with deleted := progress.deleted + removed, consecutiveFailures := 0 })
    fun _ => do
      recordFailedDelete file.id
      pure { progress with
        failed := progress.failed + 1, consecutiveFailures := progress.consecutiveFailures + 1 }

/-- The delete loop, bounded in time and in failures. -/
def deleteBatch (failing : List StorageKey) (startedAt : ℕ) :
    List FileAsset → CleanupProgress → FileTask CleanupProgress
  | [], progress => pure progress
  | file :: batch, progress => do
    let now ← now
    if cleanupTimeBudgetMilliseconds < now - startedAt ∨
        cleanupConsecutiveFailureLimit ≤ progress.consecutiveFailures then
      pure progress
    else do
      let progress ← deleteFileOrRecord failing file progress
      deleteBatch failing startedAt batch progress

/-- The cleanup job. -/
def cleanUp (failing : List StorageKey) : FileTask CleanupResult := do
  let now ← now
  let claimed ← updateMany (isReclaimable now) releasedData
  let batch ← select cleanupBatch
  let startedAt ← Txn.Program.now
  let progress ← deleteBatch failing startedAt batch {}
  pure ⟨claimed.length, progress.deleted, progress.failed⟩

/-! ### The services that refer to files -/

/-- Claim the picture that is asked for, if one is. -/
def claimRequested (actorId : Uuid) : Option Uuid → FileTask Unit
  | some requested => do
    let _ ← claimForAttachment requested actorId .profileImage
    pure ()
  | none => pure ()

/-- Set, replace or remove the picture of an account. The current picture again writes nothing. -/
def setProfileImage (userId : Uuid) (fileId : Option Uuid) (actorId : Uuid) : FileTask Unit :=
  let requestedFileId := fileId.map toLowerCase
  do
    let _ ← transaction (do
        let lockedUser ← lockLiveUser userId
        let currentFileId := lockedUser.profileImageFileAssetId
        if requestedFileId = currentFileId then
          pure false
        else do
          claimRequested actorId requestedFileId
          markDeleting currentFileId.toList
          let _ ← updateUserRow userId
            { profileImageFileAssetId := some requestedFileId, updatedBy := some (some actorId) }
          pure true)
      fun
        | true => .profileImageSet userId requestedFileId
        | false => .unchanged userId
    pure ()

/-- End every session of an account, whose row the caller has locked. -/
def endAllSessionsInTransaction (userId : Uuid) (actorId : Option Uuid)
    (userData : AccountUpdateInput) : FileTask Unit := do
  let now ← now
  let _ ← updateUserRow userId (userData.endSessions actorId (nextWholeSecond now))
  let revokedAt ← Txn.Program.now
  modify fun s => s.revokeTokens userId revokedAt

/-- Erase an account. Its files go with it: the picture, and what was never attached. -/
def gdprErase (env : FileEnv) (userId : Uuid) (currentPassword : String) : FileTask Unit := do
  let found ← select fun s => s.toAccountStore.user? userId
  let user ← orThrow found (.api (Errors.resourceNotFound "User"))
  ensure (env.bcryptCompare currentPassword user.password = true)
    (.api Errors.currentPasswordIncorrect)
  let now ← now
  let salt ← freshId
  let erasedPasswordHash := env.hashPassword s!"erased-{userId}-{now}" salt
  transaction (do
      lockRow (.user userId)
      let found ← select fun s => s.toAccountStore.user? userId
      let lockedUser ← orThrow found .internal
      markDeleting lockedUser.profileImageFileAssetId.toList
      markUnattachedDeleting userId
      endAllSessionsInTransaction userId (some userId)
        (Accounts.erasedData userId erasedPasswordHash now))
    fun _ => .erased userId

end NestApi.Files

namespace NestApi

open Files

/-- The program of a request. -/
def fileBody (env : FileEnv) : FileRequest → FileTask Unit
  | .upload file purpose actorId => discard (upload env file purpose actorId)
  | .setProfileImage userId fileId actorId => setProfileImage userId fileId actorId
  | .releaseUnattached fileId actorId => releaseUnattached fileId actorId
  | .cleanUp failing => discard (cleanUp failing)
  | .gdprErase userId currentPassword => gdprErase env userId currentPassword

/-- A configuration of the file system. -/
abbrev FileConfig := Txn.Config FileStore FileLock FileEvent Uuid Failure FileRequest

/-- What its processes share. -/
abbrev FileWorld := Txn.World FileStore FileEvent Uuid FileRequest

end NestApi
