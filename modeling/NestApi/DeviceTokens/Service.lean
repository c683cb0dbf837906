import NestApi.Authorization.Query
import NestApi.Db.Schema

/-!
# Device tokens

A device token belongs to an account. A change or a removal reads the row first, through a filter
of what the caller may do, and writes it in a second statement, by its id alone. Other requests run
in between.
-/

namespace NestApi

open Authorization

/-! ### Rows -/

/-- A row of the table, without its times. -/
structure DeviceToken where
  id : Uuid
  userId : Uuid
  token : String
  appPlatform : String
  deviceType : String
  deviceOs : String
  deviceOsVersion : String
  createdBy : Option Uuid
  updatedBy : Option Uuid
deriving DecidableEq

structure CreateDeviceTokenDto where
  userId : Uuid
  token : String
  appPlatform : String
  deviceType : String
  deviceOs : String
  deviceOsVersion : String

structure UpdateDeviceTokenDto where
  userId : Option Uuid := none
  token : Option String := none
  appPlatform : Option String := none
  deviceType : Option String := none
  deviceOs : Option String := none
  deviceOsVersion : Option String := none

namespace DeviceToken

/-- `Object.entries` of a row. -/
def entries (row : DeviceToken) : List (String × Option String) :=
  [("id", some row.id), ("createdBy", row.createdBy), ("updatedBy", row.updatedBy),
    ("userId", some row.userId), ("token", some row.token),
    ("appPlatform", some row.appPlatform), ("deviceType", some row.deviceType),
    ("deviceOs", some row.deviceOs), ("deviceOsVersion", some row.deviceOsVersion)]

/-- The row as the ability sees it. -/
def toRecord (row : DeviceToken) : Record := fun key =>
  match row.entries.lookup key with
  | some (some value) => .string value
  | some none => .null
  | none => .undefined

@[simp] theorem toRecord_userId (row : DeviceToken) :
    row.toRecord "userId" = .string row.userId := rfl

end DeviceToken

/-- `REDACTED_COLUMNS`. -/
def redactedColumns : List String := ["password", "otpHash", "otpPurpose", "otpExpiresAt", "token"]

def buildAuditSnapshot (row : List (String × Option String)) : List (String × Option String) :=
  row.filter fun entry => entry.1 ∉ redactedColumns

structure TokenAudit where
  action : String
  actorId : Uuid
  targetUserId : Uuid
  deviceTokenId : Uuid
  snapshot : Option (List (String × Option String)) := none

/-- A request that fails: by the service, by the code of the database client, or otherwise. -/
inductive TokenFailure
  | api (error : ApiError)
  | prisma (code : String)
  | internal

/-! ### The service -/

namespace DeviceTokensService

variable (accessibleBy : AccessibleBy DeviceToken) (ability : Ability)

def assertCan (action : AuthorizationAction) (record : Record) : Except TokenFailure Unit :=
  if ability.can action.value "DeviceToken" record then .ok ()
  else .error (.api (Errors.permissionDenied action.value "DeviceToken"))

/-- The check of `update` on the user that it names. -/
def assertDestination (dto : UpdateDeviceTokenDto) : Except TokenFailure Unit :=
  match dto.userId with
  | some userId => assertCan ability .update (Record.of "userId" userId)
  | none => .ok ()

def buildRecordWhere (action : AuthorizationAction) (id : Uuid) :
    Except ApiError (Where DeviceToken) :=
  buildWhere accessibleBy ability action .deviceToken (.field fun row => some (row.id = id))

def findById (rows : List DeviceToken) (action : AuthorizationAction) (id : Uuid) :
    Except TokenFailure DeviceToken :=
  match buildRecordWhere accessibleBy ability action id with
  | .error error => .error (.api error)
  | .ok filter =>
    match rows.find? fun row => filter.selects row with
    | some row => .ok row
    | none => .error (.api (Errors.resourceNotFound "Device token"))

/-- The rows of a page, in the order that the query asks for, and how many there are. -/
def findPaginated (rows : List DeviceToken) (order : DeviceToken → DeviceToken → Bool)
    (page perPage : ℕ) : Except TokenFailure (List DeviceToken × ℕ) :=
  match buildWhere accessibleBy ability .read .deviceToken .empty with
  | .error error => .error (.api error)
  | .ok filter =>
    let selected := rows.filter fun row => filter.selects row
    .ok (((selected.mergeSort order).drop ((page - 1) * perPage)).take perPage, selected.length)

/-- The row that `create` inserts. -/
def inserted (dto : CreateDeviceTokenDto) (actorId : Option Uuid) (id : Uuid) : DeviceToken where
  id := id
  userId := dto.userId
  token := dto.token
  appPlatform := dto.appPlatform
  deviceType := dto.deviceType
  deviceOs := dto.deviceOs
  deviceOsVersion := dto.deviceOsVersion
  createdBy := actorId
  updatedBy := actorId

/-- What `update` makes of a row: a field that is undefined stays. -/
def updated (dto : UpdateDeviceTokenDto) (actorId : Option Uuid) (row : DeviceToken) :
    DeviceToken :=
  { row with
    userId := dto.userId.getD row.userId
    token := dto.token.getD row.token
    appPlatform := dto.appPlatform.getD row.appPlatform
    deviceType := dto.deviceType.getD row.deviceType
    deviceOs := dto.deviceOs.getD row.deviceOs
    deviceOsVersion := dto.deviceOsVersion.getD row.deviceOsVersion
    updatedBy := actorId }

end DeviceTokensService

/-! ### Requests side by side -/

/-- A caller with the grants that were loaded for the request. -/
structure TokenCaller where
  id : Uuid
  grants : AuthorizationGrants

def TokenCaller.ability (caller : TokenCaller) : Except String Ability :=
  createForUser caller.id caller.grants

/-- A request between its two statements, with the row that it read. -/
inductive PendingToken
  | updating (caller : TokenCaller) (ability : Ability) (dto : UpdateDeviceTokenDto)
      (seen : DeviceToken)
  | removing (caller : TokenCaller) (ability : Ability) (seen : DeviceToken)

/-- What a caller did to a row or saw of it. -/
inductive TokenEvent
  | created (caller : TokenCaller) (row : DeviceToken)
  | answered (caller : TokenCaller) (row : DeviceToken)
  | updated (caller : TokenCaller) (before after : DeviceToken)
  | removed (caller : TokenCaller) (row : DeviceToken)

def TokenEvent.caller : TokenEvent → TokenCaller
  | .created caller _ | .answered caller _ | .updated caller _ _ | .removed caller _ => caller

/-- The table, the accounts, the ids that were given out, and what happened, the latest first. -/
structure TokensState where
  rows : List DeviceToken := []
  users : List Uuid := []
  ids : List Uuid := []
  pending : ℕ → Option PendingToken := fun _ => none
  events : List TokenEvent := []
  audit : List TokenAudit := []

inductive TokensAction
  | addUser (userId : Uuid)
  /-- The database gives the row an id that no row has had. -/
  | create (caller : TokenCaller) (dto : CreateDeviceTokenDto) (id : Uuid)
  | list (caller : TokenCaller) (order : DeviceToken → DeviceToken → Bool) (page perPage : ℕ)
  | find (caller : TokenCaller) (id : Uuid)
  | beginUpdate (request : ℕ) (caller : TokenCaller) (id : Uuid) (dto : UpdateDeviceTokenDto)
  | beginRemove (request : ℕ) (caller : TokenCaller) (id : Uuid)
  /-- The second statement of a request. -/
  | finish (request : ℕ)

namespace TokensState

open DeviceTokensService

variable (s : TokensState)

def setPending (request : ℕ) (pending : Option PendingToken) : TokensState :=
  { s with pending := Function.update s.pending request pending }

@[simp] theorem setPending_pending (request other : ℕ) (pending : Option PendingToken) :
    (s.setPending request pending).pending other =
      if other = request then pending else s.pending other := Function.update_apply ..

/-- The database refuses a token that another row has. -/
def tokenIsTaken (id : Uuid) (token : String) : Bool :=
  s.rows.any fun row => row.id ≠ id && row.token = token

/-- `create`. -/
def createRow (caller : TokenCaller) (dto : CreateDeviceTokenDto) (id : Uuid) :
    Except TokenFailure TokensState := do
  let ability ← caller.ability.mapError fun _ => .internal
  assertCan ability .create (Record.of "userId" dto.userId)
  let row := inserted dto (some caller.id) id
  if s.tokenIsTaken id dto.token then .error (.prisma "P2002")
  else if dto.userId ∉ s.users then .error (.prisma "P2003")
  else
    .ok { s with
      rows := row :: s.rows
      ids := id :: s.ids
      events := .created caller row :: s.events
      audit := ⟨"device_token.created", caller.id, row.userId, row.id, none⟩ :: s.audit }

/-- The statement that `update` ends with. -/
def writeRow (caller : TokenCaller) (dto : UpdateDeviceTokenDto) (id : Uuid) :
    Except TokenFailure TokensState :=
  match s.rows.find? fun row => row.id = id with
  | none => .error (.prisma "P2025")
  | some before =>
    let after := updated dto (some caller.id) before
    if s.tokenIsTaken id after.token then .error (.prisma "P2002")
    else if after.userId ∉ s.users then .error (.prisma "P2025")
    else
      .ok { s with
        rows := s.rows.map fun row => if row.id = id then after else row
        events := .updated caller before after :: s.events
        audit := ⟨"device_token.updated", caller.id, after.userId, id, none⟩ :: s.audit }

/-- `update` after its read: the user that is to have the token is checked too. -/
def updateRow (caller : TokenCaller) (ability : Ability) (dto : UpdateDeviceTokenDto) (id : Uuid) :
    Except TokenFailure TokensState :=
  match assertDestination ability dto with
  | .ok () => s.writeRow caller dto id
  | .error failure => .error failure

/-- `remove` after its read. -/
def removeRow (caller : TokenCaller) (existing : DeviceToken) : Except TokenFailure TokensState :=
  match s.rows.find? fun row => row.id = existing.id with
  | none => .error (.prisma "P2025")
  | some row =>
    .ok { s with
      rows := s.rows.filter fun row => row.id ≠ existing.id
      events := .removed caller row :: s.events
      audit := ⟨"device_token.deleted", caller.id, existing.userId, existing.id,
        some (buildAuditSnapshot existing.entries)⟩ :: s.audit }

variable (accessibleBy : AccessibleBy DeviceToken)

/-- A caller reads rows, and is answered. -/
def answer (caller : TokenCaller) (rows : List DeviceToken) : TokensState :=
  { s with events := rows.map (.answered caller) ++ s.events }

/-- The first statement of `update` and `remove`. -/
def readRow (caller : TokenCaller) (action : AuthorizationAction) (id : Uuid) :
    Except TokenFailure (Ability × DeviceToken) := do
  let ability ← caller.ability.mapError fun _ => .internal
  let row ← findById accessibleBy ability s.rows action id
  pure (ability, row)

/-- A request that fails changes nothing. -/
def orElse (result : Except TokenFailure TokensState) : TokensState :=
  match result with
  | .ok next => next
  | .error _ => s

/-- What happens, when it can. -/
def exec (s : TokensState) : TokensAction → Option TokensState
  | .addUser userId => some { s with users := userId :: s.users }
  | .create caller dto id =>
    if id ∈ s.ids then none else some (s.orElse (s.createRow caller dto id))
  | .list caller order page perPage =>
    some (s.orElse (do
      let ability ← caller.ability.mapError fun _ => .internal
      let (rows, _) ←
        DeviceTokensService.findPaginated accessibleBy ability s.rows order page perPage
      pure (s.answer caller rows)))
  | .find caller id =>
    some (s.orElse ((s.readRow accessibleBy caller .read id).map fun found =>
      s.answer caller [found.2]))
  | .beginUpdate request caller id dto =>
    if (s.pending request).isSome then none
    else
      some (s.orElse ((s.readRow accessibleBy caller .update id).map fun found =>
        s.setPending request (some (.updating caller found.1 dto found.2))))
  | .beginRemove request caller id =>
    if (s.pending request).isSome then none
    else
      some (s.orElse ((s.readRow accessibleBy caller .delete id).map fun found =>
        s.setPending request (some (.removing caller found.1 found.2))))
  | .finish request => do
    let pending ← s.pending request
    let rest := s.setPending request none
    some (match pending with
      | .updating caller ability dto seen =>
        rest.orElse (rest.updateRow caller ability dto seen.id)
      | .removing caller _ seen => rest.orElse (rest.removeRow caller seen))

end TokensState

end NestApi
