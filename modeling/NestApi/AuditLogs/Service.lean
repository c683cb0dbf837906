import NestApi.Common.DateRange
import NestApi.Patterns.Like
import NestApi.Txn.Table

/-!
# Searching the audit log

A filter is assembled from what a query supplies. Free text is looked for in the action, in the
emails of the users that a row names, and in the text of the metadata. The last two are resolved
to ids by queries of their own.
-/

namespace NestApi.AuditLogs

open Patterns DateRange Txn

/-! ### The database -/

/-- The signs of `ILIKE`. -/
def ilikeSigns : LikeSigns Char where
  anyList := '%'
  anySign := '_'
  escape := '\\'
  anyList_ne_anySign := by decide
  anyList_ne_escape := by decide

/-- How the database compares texts. Case is folded sign by sign, and the signs of a pattern
have no case. The client's `contains` of mode `insensitive` is used only as far as it is
documented: on a term without those signs it looks for the term. -/
structure TextSearch where
  fold : Char → Char
  fold_special : ∀ c, ilikeSigns.IsSpecial c → fold c = c
  contains : String → String → Bool
  contains_iff : ∀ term, (∀ c ∈ term.toList, ¬ ilikeSigns.IsSpecial c) → ∀ value,
    contains term value = true ↔ ContainsFolded fold term.toList value.toList

namespace TextSearch

variable (search : TextSearch)

/-- The text contains the term literally, whatever the case. -/
def Contains (term value : String) : Prop :=
  ContainsFolded search.fold term.toList value.toList

instance (term value : String) : Decidable (search.Contains term value) :=
  inferInstanceAs (Decidable (ContainsFolded _ _ _))

/-- `value ILIKE pattern`. -/
def ilike (pattern value : String) : Bool :=
  likeMatches search.fold (likeTokens ilikeSigns pattern.toList) value.toList

end TextSearch

structure User where
  id : String
  email : String
deriving DecidableEq

/-- A row of `audit_logs`. The metadata is a JSON column, here the text that it is cast to. -/
structure AuditLog where
  id : String
  createdAt : ℤ
  actorId : Option String
  targetUserId : Option String
  action : String
  metadata : Option String
deriving DecidableEq

structure AuditDatabase where
  users : Table User.id
  auditLogs : Table AuditLog.id

/-! ### The query -/

/-- What a caller supplies. The ends of the range are checked to be instants. -/
structure AuditLogQuery where
  actorId : Option String
  targetUserId : Option String
  createdAt : Bounds
  action : Option String
  search : Option String
  valid : createdAt.Valid

/-- A text that is given and truthy. -/
def given (value : Option String) : Option String := value.filter (· ≠ "")

/-! ### The filter -/

/-- One of the conditions of which a row needs to meet any. -/
inductive AuditLogClause
  | actionContains (term : String)
  | actorIdIn (ids : List String)
  | targetUserIdIn (ids : List String)
  | idIn (ids : List String)
deriving DecidableEq

/-- `Prisma.AuditLogWhereInput`. A row meets all that is set. -/
structure AuditLogWhere where
  actorId : Option String
  targetUserId : Option String
  createdAt : Option DateFilter
  action : Option String
  or : Option (List AuditLogClause)
deriving DecidableEq

variable (search : TextSearch) (db : AuditDatabase)

def findUserIdsMatchingEmail (term : String) : List String :=
  (db.users.filter fun user => search.contains term user.email).map User.id

/-- The raw query. A null is not like anything. -/
def findAuditLogIdsMatchingMetadata (term : String) : List String :=
  let pattern := "%" ++ term ++ "%"
  (db.auditLogs.filter fun row => row.metadata.any (search.ilike pattern)).map AuditLog.id

def orClauses (term : String) : List AuditLogClause :=
  let matchingUserIds := findUserIdsMatchingEmail search db term
  let matchingAuditLogIds := findAuditLogIdsMatchingMetadata search db term
  [.actionContains term] ++
    (if matchingUserIds = [] then []
      else [.actorIdIn matchingUserIds, .targetUserIdIn matchingUserIds]) ++
    (if matchingAuditLogIds = [] then [] else [.idIn matchingAuditLogIds])

def buildFilter (query : AuditLogQuery) : Option AuditLogWhere :=
  let filter : AuditLogWhere :=
    { actorId := given query.actorId
      targetUserId := given query.targetUserId
      createdAt := buildDateRangeFilter query.createdAt
      action := given query.action
      or := if given query.action = none then (given query.search).map (orClauses search db)
        else none }
  if filter = ⟨none, none, none, none, none⟩ then none else some filter

/-! ### What a filter selects -/

variable {search db}

def AuditLogClause.Selects (search : TextSearch) (row : AuditLog) : AuditLogClause → Prop
  | .actionContains term => search.contains term row.action = true
  | .actorIdIn ids => ∃ id ∈ row.actorId, id ∈ ids
  | .targetUserIdIn ids => ∃ id ∈ row.targetUserId, id ∈ ids
  | .idIn ids => row.id ∈ ids

structure AuditLogWhere.Selects (search : TextSearch) (filter : AuditLogWhere) (row : AuditLog) :
    Prop where
  actorId : ∀ id ∈ filter.actorId, row.actorId = some id
  targetUserId : ∀ id ∈ filter.targetUserId, row.targetUserId = some id
  createdAt : DateRange.Selects filter.createdAt row.createdAt
  action : ∀ action ∈ filter.action, row.action = action
  or : ∀ clauses ∈ filter.or, ∃ clause ∈ clauses, clause.Selects search row

/-- Without a filter every row is selected. -/
def Selects (search : TextSearch) (filter : Option AuditLogWhere) (row : AuditLog) : Prop :=
  ∀ f ∈ filter, f.Selects search row

end NestApi.AuditLogs
