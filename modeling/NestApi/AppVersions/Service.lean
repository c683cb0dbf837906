import NestApi.Common.Errors
import NestApi.Txn.Table

/-!
# Released versions of the apps

A release train is an independently versioned distribution: a platform with one of its operating
systems, or a platform that ships everywhere at once. Operators create, change and remove the
rows; clients look the newest one up.
-/

namespace NestApi.AppVersions

open Txn

/-! ### Release trains -/

inductive AppPlatform
  | web | mobile | desktop
deriving DecidableEq

inductive DeviceOs
  | ios | android | macos | linux | windows
deriving DecidableEq

def AppPlatform.toString : AppPlatform → String
  | web => "web"
  | mobile => "mobile"
  | desktop => "desktop"

def DeviceOs.toString : DeviceOs → String
  | ios => "ios"
  | android => "android"
  | macos => "macos"
  | linux => "linux"
  | windows => "windows"

/-- `RELEASE_TRAIN_OS_BY_PLATFORM`. -/
def releaseTrainOsFor : AppPlatform → List DeviceOs
  | .web => []
  | .mobile => [.ios, .android]
  | .desktop => [.macos, .windows, .linux]

def isSingleDistributionPlatform (platform : AppPlatform) : Bool :=
  (releaseTrainOsFor platform).length = 0

/-- A device OS as a request has it. Where validation skips the field it can be any text. -/
inductive RequestedOs
  | known (os : DeviceOs)
  | other (s : String)
deriving DecidableEq

/-- How an error prints the field. -/
def printRequestedOs : Option RequestedOs → String
  | none => "null"
  | some (.known os) => os.toString
  | some (.other s) => s

/-! ### Rows -/

/-- A row of `app_versions`. -/
structure AppVersion where
  id : String
  createdBy : Option String
  updatedBy : Option String
  version : String
  description : Option String
  platform : AppPlatform
  deviceOs : Option DeviceOs
  releaseDate : String
  downloadUrl : Option String
  isForceUpdate : Bool
deriving DecidableEq

abbrev AppVersionTable := Table AppVersion.id

/-- A refusal of the service, or of the database and its client. -/
inductive Refusal
  | api (error : ApiError)
  | database
deriving DecidableEq

/-- Statements commit one by one. A refusal keeps what was written before it. -/
abbrev AppVersionTask := EStateM Refusal AppVersionTable

/-- What a release is known by, with null as a value. -/
def AppVersion.release (row : AppVersion) : AppPlatform × Option DeviceOs × String :=
  (row.platform, row.deviceOs, row.version)

/-- The unique index. A null in it is distinct from every other value. -/
def violatesIndex (t : AppVersionTable) (row : AppVersion) : Bool :=
  t.rows.any fun other => other.id ≠ row.id && row.deviceOs.isSome && other.release = row.release

def insertAppVersion (row : AppVersion) : AppVersionTask AppVersion := do
  let t ← get
  if (t.find? row.id).isSome || violatesIndex t row then throw .database
  set (t.insert row)
  return row

/-- The columns of an update. An absent one is not written. -/
structure AppVersionUpdateInput where
  version : Option (Option String)
  description : Option (Option String)
  platform : Option (Option AppPlatform)
  deviceOs : Option (Option DeviceOs)
  releaseDate : Option (Option String)
  downloadUrl : Option (Option String)
  isForceUpdate : Option (Option Bool)
  updatedBy : Option String

namespace AppVersionUpdateInput

variable (data : AppVersionUpdateInput)

/-- A null for a column that has none is refused before anything is sent. -/
def hasForbiddenNull : Bool :=
  data.version = some none || data.platform = some none || data.releaseDate = some none ||
    data.isForceUpdate = some none

def apply (row : AppVersion) : AppVersion :=
  { row with
    version := data.version.join.getD row.version
    description := data.description.getD row.description
    platform := data.platform.join.getD row.platform
    deviceOs := data.deviceOs.getD row.deviceOs
    releaseDate := data.releaseDate.join.getD row.releaseDate
    downloadUrl := data.downloadUrl.getD row.downloadUrl
    isForceUpdate := data.isForceUpdate.join.getD row.isForceUpdate
    updatedBy := data.updatedBy }

def rewrite : Rewrite AppVersion.id where
  row := data.apply
  key_row _ := rfl

end AppVersionUpdateInput

def updateAppVersion (id : String) (data : AppVersionUpdateInput) : AppVersionTask AppVersion := do
  let t ← get
  match t.find? id with
  | none => throw .database
  | some row =>
    if data.hasForbiddenNull || violatesIndex t (data.apply row) then throw .database
    set (t.update [id] data.rewrite)
    return data.apply row

def deleteAppVersion (id : String) : AppVersionTask Unit := do
  let t ← get
  if (t.find? id).isNone then throw .database
  set (t.delete [id])

/-! ### The service -/

structure CreateAppVersionDto where
  version : String
  description : Option String
  platform : AppPlatform
  deviceOs : Option (Option RequestedOs)
  releaseDate : String
  downloadUrl : Option String
  isForceUpdate : Option (Option Bool)
deriving DecidableEq

/-- Every field may be absent, and validation lets a null pass. -/
structure UpdateAppVersionDto where
  version : Option (Option String)
  description : Option (Option String)
  platform : Option (Option AppPlatform)
  deviceOs : Option (Option RequestedOs)
  releaseDate : Option (Option String)
  downloadUrl : Option (Option String)
  isForceUpdate : Option (Option Bool)
deriving DecidableEq

/-- The systems of a platform as an error lists them. -/
def trainList (platform : AppPlatform) : String :=
  ", ".intercalate ((releaseTrainOsFor platform).map DeviceOs.toString)

def resolveDeviceOs (platform : AppPlatform) (deviceOs : Option (Option RequestedOs)) :
    AppVersionTask (Option DeviceOs) := do
  if isSingleDistributionPlatform platform then return none
  match deviceOs with
  | none =>
    throw (.api (Errors.badRequest ("deviceOs is required for platform \"" ++ platform.toString ++
      "\" — it ships one release per OS (" ++ trainList platform ++ ")")))
  | some requested =>
    let mismatch := Refusal.api (Errors.badRequest ("deviceOs \"" ++ printRequestedOs requested ++
      "\" is not a release train for platform \"" ++ platform.toString ++
      "\" — expected one of: " ++ trainList platform))
    match requested with
    | some (.known os) =>
      if os ∈ releaseTrainOsFor platform then return some os
      throw mismatch
    | _ => throw mismatch

def assertVersionAvailable (platform : AppPlatform) (deviceOs : Option DeviceOs) (version : String)
    (excludeId : Option String) : AppVersionTask Unit := do
  let t ← get
  if t.rows.any fun row =>
      row.release = (platform, deviceOs, version) && excludeId ≠ some row.id then
    throw (.api (Errors.uniqueConstraintViolation "version"))

def findById (id : String) : AppVersionTask AppVersion := do
  match (← get).find? id with
  | some row => return row
  | none => throw (.api (Errors.resourceNotFound "App version"))

/-- A new row under an id that is drawn for it. -/
def create (id : String) (dto : CreateAppVersionDto) (actorId : Option String) :
    AppVersionTask AppVersion := do
  let deviceOs ← resolveDeviceOs dto.platform dto.deviceOs
  assertVersionAvailable dto.platform deviceOs dto.version none
  match dto.isForceUpdate with
  | some none => throw .database
  | isForceUpdate =>
    insertAppVersion
      { id := id, createdBy := actorId, updatedBy := actorId, version := dto.version
        description := dto.description, platform := dto.platform, deviceOs := deviceOs
        releaseDate := dto.releaseDate, downloadUrl := dto.downloadUrl
        isForceUpdate := isForceUpdate.join.getD false }

/-- The system that an update writes: none at all unless it touches the train. -/
def deviceOsToWrite (isReleaseTrainAffected : Bool) (platform : AppPlatform)
    (deviceOs : Option (Option RequestedOs)) : AppVersionTask (Option (Option DeviceOs)) :=
  if isReleaseTrainAffected then some <$> resolveDeviceOs platform deviceOs else pure none

def update (id : String) (dto : UpdateAppVersionDto) (actorId : Option String) :
    AppVersionTask AppVersion := do
  let existing ← findById id
  let platform := dto.platform.join.getD existing.platform
  let isReleaseTrainAffected := dto.platform.isSome || dto.deviceOs.isSome
  let deviceOs ← deviceOsToWrite isReleaseTrainAffected platform dto.deviceOs
  let effectiveVersion := dto.version.join.getD existing.version
  let effectiveDeviceOs := if isReleaseTrainAffected then deviceOs.join else existing.deviceOs
  assertVersionAvailable platform effectiveDeviceOs effectiveVersion (some id)
  updateAppVersion id
    { version := dto.version, description := dto.description, platform := dto.platform
      deviceOs := deviceOs, releaseDate := dto.releaseDate, downloadUrl := dto.downloadUrl
      isForceUpdate := dto.isForceUpdate, updatedBy := actorId }

def remove (id : String) : AppVersionTask Unit := do
  let _ ← findById id
  deleteAppVersion id

/-! ### Requests -/

inductive AppVersionRequest
  | create (id : String) (dto : CreateAppVersionDto) (actorId : Option String)
  | update (id : String) (dto : UpdateAppVersionDto) (actorId : Option String)
  | remove (id : String)

def perform : AppVersionRequest → AppVersionTask Unit
  | .create id dto actorId => discard (create id dto actorId)
  | .update id dto actorId => discard (update id dto actorId)
  | .remove id => remove id

/-- The table after a request, answered or refused. -/
def serve (t : AppVersionTable) (request : AppVersionRequest) : AppVersionTable :=
  match perform request t with
  | .ok _ t' | .error _ t' => t'

end NestApi.AppVersions
