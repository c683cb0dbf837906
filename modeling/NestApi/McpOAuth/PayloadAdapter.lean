import Mathlib.Algebra.Field.Rat
import Mathlib.Data.NNRat.Defs
import NestApi.Common.Json
import NestApi.Txn.Table

/-!
# The payload adapter of the OAuth server

Every record of the OAuth server is a row under its model and id. The id of a credential is kept
as a hash, and so is not in the payload either. Times are in milliseconds.
-/

namespace NestApi.OAuthPayloads

/-- `CREDENTIAL_MODELS`. -/
def credentialModels : List String := ["AuthorizationCode", "AccessToken", "RefreshToken"]

/-- A payload of the library: the fields that the adapter knows, and the others. -/
structure AdapterPayload where
  jti : Option String
  grantId : Option String
  userCode : Option String
  uid : Option String
  consumed : Option Json
  other : String → Option Json

/-- A row of `oauth_payloads`. -/
structure PayloadRow where
  model : String
  id : String
  payload : AdapterPayload
  grantId : Option String
  userCode : Option String
  uid : Option String
  expiresAt : Option ℕ
  consumedAt : Option ℕ

def PayloadRow.key (r : PayloadRow) : String × String := (r.model, r.id)

abbrev PayloadTable := Txn.Table PayloadRow.key

/-- `data` of an upsert: the columns that it writes, in a row that exists or a new one. -/
structure PayloadData where
  payload : AdapterPayload
  grantId : Option String
  userCode : Option String
  uid : Option String
  expiresAt : Option ℕ

/-- The `create` of an upsert. -/
def PayloadData.create (d : PayloadData) (model id : String) : PayloadRow :=
  ⟨model, id, d.payload, d.grantId, d.userCode, d.uid, d.expiresAt, none⟩

/-- The `update` of an upsert. -/
def PayloadData.update (d : PayloadData) : Txn.Rewrite PayloadRow.key where
  row r := ⟨r.model, r.id, d.payload, d.grantId, d.userCode, d.uid, d.expiresAt, r.consumedAt⟩
  key_row _ := rfl

/-- The `data` of a consumption. -/
def consumeRow (now : ℕ) : Txn.Rewrite PayloadRow.key where
  row r := { r with consumedAt := some now }
  key_row _ := rfl

/-- What a call of the adapter answers. -/
inductive PayloadAnswer
  | done
  | found (payload : Option AdapterPayload)
  | invalidGrant

/-- A call of the adapter of a model. `expiresIn` is in seconds. -/
inductive PayloadOp
  | upsert (model id : String) (payload : AdapterPayload) (expiresIn : Option ℚ≥0)
  | find (model id : String)
  | findByUid (model uid : String)
  | findByUserCode (model userCode : String)
  | consume (model id : String)
  | destroy (model id : String)
  | revokeByGrantId (grantId : String)

section

variable (sha256 : String → String) (t : PayloadTable) (now : ℕ) (model id : String)

/-- The id of a row. -/
def key : String := if model ∈ credentialModels then sha256 id else id

/-- `new Date(Date.now() + expiresIn * 1000)`, in whole milliseconds, unless `expiresIn` is
falsy. -/
def expiryOf (expiresIn : Option ℚ≥0) : Option ℕ :=
  (expiresIn.filter fun seconds => seconds ≠ 0).map fun seconds =>
    ((now : ℚ) + (seconds : ℚ) * 1000).floor.toNat

/-- What an upsert stores. -/
def stored (payload : AdapterPayload) : AdapterPayload :=
  if model ∈ credentialModels then { payload with jti := none } else payload

/-- The columns that an upsert writes. -/
def dataOf (payload : AdapterPayload) (expiresIn : Option ℚ≥0) : PayloadData :=
  ⟨stored model payload, payload.grantId, payload.userCode, payload.uid, expiryOf now expiresIn⟩

def upsert (payload : AdapterPayload) (expiresIn : Option ℚ≥0) : PayloadTable :=
  match t.find? (model, key sha256 model id) with
  | some _ =>
    t.update [(model, key sha256 model id)] (dataOf now model payload expiresIn).update
  | none => t.insert ((dataOf now model payload expiresIn).create model (key sha256 model id))

/-- `toPayload`: an expired row reads as absent. -/
def toPayload (row : PayloadRow) (jti : Option String) : Option AdapterPayload :=
  if row.expiresAt.any fun expiresAt => expiresAt ≤ now then none
  else
    some { row.payload with
      jti := jti.or row.payload.jti
      consumed := (row.consumedAt.map fun time => Json.num (time / 1000 : ℕ)).or
        row.payload.consumed }

def find : Option AdapterPayload := do
  let row ← t.find? (model, key sha256 model id)
  toPayload now row (if model ∈ credentialModels then some id else none)

def findByUid (uid : String) : Option AdapterPayload := do
  let row ← t.rows.find? fun r => r.model = model ∧ r.uid = some uid
  toPayload now row none

def findByUserCode (userCode : String) : Option AdapterPayload := do
  let row ← t.rows.find? fun r => r.model = model ∧ r.userCode = some userCode
  toPayload now row none

/-- The row that a consumption would flip. -/
def consumable : List PayloadRow :=
  t.filter fun r => r.model = model ∧ r.id = key sha256 model id ∧ r.consumedAt = none

def consume : PayloadTable × PayloadAnswer :=
  let rows := consumable sha256 t model id
  (t.update (rows.map PayloadRow.key) (consumeRow now),
    if rows.length = 0 then .invalidGrant else .done)

def destroy : PayloadTable := t.delete [(model, key sha256 model id)]

def revokeByGrantId (grantId : String) : PayloadTable :=
  t.delete ((t.filter fun r => r.grantId = some grantId).map PayloadRow.key)

/-- A call of the adapter at a time. -/
def exec : PayloadOp → PayloadTable × PayloadAnswer
  | .upsert model id payload expiresIn => (upsert sha256 t now model id payload expiresIn, .done)
  | .find model id => (t, .found (find sha256 t now model id))
  | .findByUid model uid => (t, .found (findByUid t now model uid))
  | .findByUserCode model userCode => (t, .found (findByUserCode t now model userCode))
  | .consume model id => consume sha256 t now model id
  | .destroy model id => (destroy sha256 t model id, .done)
  | .revokeByGrantId grantId => (revokeByGrantId t grantId, .done)

/-- The rows after the calls of a history, newest first. -/
def tableAfter : List (ℕ × PayloadOp) → PayloadTable
  | [] => Txn.Table.empty
  | (now, op) :: history => (exec sha256 (tableAfter history) now op).1

end

end NestApi.OAuthPayloads
