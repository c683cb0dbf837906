import NestApi.Common.Errors
import NestApi.Paging.Pages

/-!
# List endpoints

Every list endpoint takes a page, a page size and a sort column from the client, checks the column
against its own list, and reads one window of the ordered rows.
-/

namespace NestApi

open Paging

/-! ### Queries -/

inductive SortOrder
  | asc | desc
deriving DecidableEq

/-- `MAX_PER_PAGE`. -/
def maxPerPage : ℕ := 100

/-- A query that passed validation. -/
structure MetaQueryDto where
  page : ℕ
  perPage : ℕ
  sortBy : Option String
  sortOrder : Option SortOrder
  page_pos : 1 ≤ page
  perPage_pos : 1 ≤ perPage
  perPage_le : perPage ≤ maxPerPage

/-- The defaults, the clamp and the checks of the numbers. -/
def MetaQueryDto.validate? (page perPage : Option ℕ) (sortBy : Option String)
    (sortOrder : Option SortOrder) : Option MetaQueryDto :=
  if h : 1 ≤ page.getD 1 ∧ 1 ≤ min (perPage.getD 20) maxPerPage then
    some ⟨page.getD 1, min (perPage.getD 20) maxPerPage, sortBy, sortOrder, h.1, h.2,
      Nat.min_le_right _ _⟩
  else none

example : (MetaQueryDto.validate? none (some 500) none none).map (·.perPage) = some 100 := by
  decide

/-- The same query for the page with index `k`. -/
def MetaQueryDto.atPage (query : MetaQueryDto) (k : ℕ) : MetaQueryDto :=
  { query with page := k + 1, page_pos := Nat.le_add_left 1 k }

/-- `buildOrderBy`. -/
def buildOrderBy (query : MetaQueryDto) (allowedColumns : List String) (defaultColumn : String)
    (defaultOrder : SortOrder) : Except ApiError (String × SortOrder) :=
  if query.sortBy.any fun requested => !allowedColumns.contains requested then
    .error (Errors.badRequest ("sortBy must be one of: " ++ ", ".intercalate allowedColumns))
  else
    .ok (query.sortBy.getD defaultColumn, query.sortOrder.getD defaultOrder)

/-! ### Endpoints -/

/-- What an endpoint passes to `buildOrderBy`. -/
structure ListEndpoint where
  allowedColumns : List String
  defaultColumn : String
  defaultOrder : SortOrder

def listUsers : ListEndpoint :=
  ⟨["email", "firstName", "lastName", "createdAt", "updatedAt"], "createdAt", .desc⟩

def listAuditLogs : ListEndpoint := ⟨["createdAt", "action"], "createdAt", .desc⟩

def listWorkspaces : ListEndpoint :=
  ⟨["createdAt", "updatedAt", "name", "slug"], "createdAt", .desc⟩

def listWorkspaceMemberships : ListEndpoint :=
  ⟨["createdAt", "updatedAt", "joinedAt"], "createdAt", .desc⟩

def listWorkspaceInvitations : ListEndpoint := ⟨["createdAt", "expiresAt"], "createdAt", .desc⟩

def listAppVersions : ListEndpoint :=
  ⟨["releaseDate", "version", "createdAt", "updatedAt"], "releaseDate", .desc⟩

def listDeviceTokens : ListEndpoint := ⟨["createdAt", "updatedAt"], "createdAt", .desc⟩

def listRoles : ListEndpoint := ⟨["createdAt", "name", "rank", "scope"], "rank", .desc⟩

def listPermissions : ListEndpoint := ⟨["name", "scope"], "name", .desc⟩

/-- The endpoints that page. -/
def listEndpoints : List ListEndpoint :=
  [listUsers, listAuditLogs, listWorkspaces, listWorkspaceMemberships, listWorkspaceInvitations,
    listAppVersions, listDeviceTokens, listRoles, listPermissions]

/-- The default column of an endpoint passes its own check. -/
theorem defaultColumn_mem : ∀ endpoint ∈ listEndpoints,
    endpoint.defaultColumn ∈ endpoint.allowedColumns := by
  decide

/-! ### Reading a page -/

structure PaginationMeta where
  page : ℕ
  perPage : ℕ
  total : ℕ
  totalPages : ℕ

variable {Row : Type}

/-- `findPaginated`. The database answers the ordered query with `answer`, of which one window is
read, and the count with `total`. -/
def findPaginated (endpoint : ListEndpoint) (query : MetaQueryDto)
    (answer : String × SortOrder → List Row) (total : ℕ) :
    Except ApiError (List Row × PaginationMeta) := do
  let orderBy ← buildOrderBy query endpoint.allowedColumns endpoint.defaultColumn
    endpoint.defaultOrder
  pure (page query.perPage (query.page - 1) (answer orderBy),
    ⟨query.page, query.perPage, total, pageCount query.perPage total⟩)

/-- How the database compares rows under an `ORDER BY`, given the comparison of each column. -/
def compareBy (columns : String → Comparison Row) : String × SortOrder → Comparison Row
  | (column, .asc) => columns column
  | (column, .desc) => (columns column).reverse

/-- The order that an endpoint asks for. -/
def ListEndpoint.orderBy (endpoint : ListEndpoint) (query : MetaQueryDto) : String × SortOrder :=
  (query.sortBy.getD endpoint.defaultColumn, query.sortOrder.getD endpoint.defaultOrder)

/-- The column that the client asks for, if any, is one of the endpoint's. -/
def ListEndpoint.Permits (endpoint : ListEndpoint) (query : MetaQueryDto) : Prop :=
  ∀ requested ∈ query.sortBy, requested ∈ endpoint.allowedColumns

variable {endpoint : ListEndpoint} {query : MetaQueryDto}

/-- A permitted query is answered, whatever the page. -/
theorem findPaginated_atPage (h : endpoint.Permits query)
    (answer : String × SortOrder → List Row) (k total : ℕ) :
    findPaginated endpoint (query.atPage k) answer total =
      .ok (page query.perPage k (answer (endpoint.orderBy query)),
        ⟨k + 1, query.perPage, total, pageCount query.perPage total⟩) := by
  have hpass : (query.sortBy.any fun requested =>
      !endpoint.allowedColumns.contains requested) = false := by
    cases hsort : query.sortBy with
    | none => rfl
    | some requested => simpa using h requested hsort
  simp only [findPaginated, buildOrderBy, MetaQueryDto.atPage, hpass]
  rfl

/-- Another column is refused with the list of the permitted ones. -/
theorem findPaginated_refused {requested : String} (hrequested : query.sortBy = some requested)
    (h : requested ∉ endpoint.allowedColumns) (answer : String × SortOrder → List Row)
    (total : ℕ) :
    findPaginated endpoint query answer total = .error (Errors.badRequest
      ("sortBy must be one of: " ++ ", ".intercalate endpoint.allowedColumns)) := by
  simp [findPaginated, buildOrderBy, hrequested, h, bind, Except.bind]

end NestApi
