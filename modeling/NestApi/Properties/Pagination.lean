import Mathlib.Data.String.Basic
import NestApi.Catalog.Tables
import NestApi.Common.MetaQuery

/-!
# Pages partition a list

The order of a list endpoint is one column, and the database arranges rows that tie on it as it
likes, in every query anew. Reading page after page then finds every matching row once, whatever
the arrangements, exactly when the rows of each tie are on one page.
-/

namespace NestApi

open Authorization Paging Txn

variable {κ Row : Type} {key : Row → κ} {endpoint : ListEndpoint} {query : MetaQueryDto}
  {columns : String → Comparison Row} {matching : List Row}

/-- Whatever arrangement of the matching rows the database answers each query with, the pages
1..totalPages together hold every one of them once. -/
def PagesPartition (endpoint : ListEndpoint) (query : MetaQueryDto)
    (columns : String → Comparison Row) (matching : List Row) : Prop :=
  ∀ answers : ℕ → String × SortOrder → List Row,
    (∀ k orderBy, (compareBy columns orderBy).Orders matching (answers k orderBy)) →
      ∃ results : ℕ → List Row × PaginationMeta,
        (∀ k < pageCount query.perPage matching.length,
          findPaginated endpoint (query.atPage k) (answers k) matching.length = .ok (results k)) ∧
        (∀ k < pageCount query.perPage matching.length,
          (results k).2.totalPages = pageCount query.perPage matching.length) ∧
        ((List.range (pageCount query.perPage matching.length)).flatMap fun k =>
          (results k).1).Perm matching

/-- The answers of a permitted query are the pages of the library. -/
theorem pagesPartition_iff_pages (hpermits : endpoint.Permits query) :
    PagesPartition endpoint query columns matching ↔
      ∀ answers : ℕ → List Row,
        (∀ k, (compareBy columns (endpoint.orderBy query)).Orders matching (answers k)) →
          (pages query.perPage matching.length answers).Perm matching := by
  constructor
  · intro h answers hanswers
    -- other orders are not asked for
    have hother : ∀ orderBy, ∃ l, (compareBy columns orderBy).Orders matching l :=
      fun orderBy => Comparison.exists_orders matching
    choose other hsorted using hother
    obtain ⟨results, hresults, -, hperm⟩ := h (fun k orderBy =>
      if orderBy = endpoint.orderBy query then answers k else other orderBy) fun k orderBy => by
        split
        · next heq => exact heq ▸ hanswers k
        · exact hsorted orderBy
    refine List.Perm.trans (List.Perm.of_eq ?_) hperm
    refine List.flatMap_congr fun k hk => ?_
    have hresult := hresults k (List.mem_range.mp hk)
    rw [findPaginated_atPage hpermits, if_pos rfl] at hresult
    exact congrArg Prod.fst (Except.ok.inj hresult)
  · intro h answers hanswers
    exact ⟨_, fun k _ => findPaginated_atPage hpermits (answers k) k matching.length,
      fun _ _ => rfl, h _ fun k => hanswers k _⟩

/-- A list partitions into its pages exactly when no tie on the sort column is spread over two of
them. -/
theorem pagesPartition_iff [DecidableEq Row] (endpoint : ListEndpoint) (query : MetaQueryDto)
    (table : Table key) (filter : Row → Bool) (columns : String → Comparison Row)
    (hpermits : endpoint.Permits query) :
    PagesPartition endpoint query columns (table.filter filter) ↔
      (compareBy columns (endpoint.orderBy query)).TiesTogether query.perPage
        (table.filter filter) :=
  (pagesPartition_iff_pages hpermits).trans
    (Comparison.pages_perm_iff query.perPage_pos
      (List.Nodup.of_map key (table.nodup_filter filter)))

/-- Sorted by a column without duplicates, every list partitions into its pages. -/
theorem pagesPartition_of_unique [DecidableEq Row] (hpermits : endpoint.Permits query)
    (hnodup : matching.Nodup)
    (hunique : ∀ a ∈ matching, ∀ b ∈ matching,
      (compareBy columns (endpoint.orderBy query)).le a b = true →
        (compareBy columns (endpoint.orderBy query)).le b a = true → a = b) :
    PagesPartition endpoint query columns matching :=
  (pagesPartition_iff_pages hpermits).mpr
    ((Comparison.pages_perm_iff query.perPage_pos hnodup).mpr
      (Comparison.tiesTogether_of_antisymm hnodup hunique))

/-- How the database compares rows of `permissions`. -/
def permissionColumns : String → Comparison PermissionRow
  | "scope" => .onKey fun p => p.scope
  | _ => .onKey fun p => p.name

/-- Two permissions of the platform. -/
def twoPermissions : Table PermissionRow.id where
  rows :=
    [⟨readAnyUser.toRow, 1, permissionName readAnyUser, "View any user account"⟩,
      ⟨createAnyUser.toRow, 2, permissionName createAnyUser, "Create user accounts"⟩]
  nodup := by decide

/-- A list of permissions, one on a page. -/
def oneByOne (sortBy : Option String) : MetaQueryDto :=
  ⟨1, 1, sortBy, none, by decide, by decide, by decide⟩

/-- Names are unique, so the default order partitions. -/
theorem pagesPartition_byName :
    PagesPartition listPermissions (oneByOne none) permissionColumns
      (twoPermissions.filter fun _ => true) :=
  (pagesPartition_iff listPermissions (oneByOne none) twoPermissions (fun _ => true)
    permissionColumns (by simp [ListEndpoint.Permits, oneByOne])).mpr (by decide)

/-- By scope the two tie. The first query may put one of them first and the second the other,
so one permission is on both pages and the other on none. -/
theorem not_pagesPartition_byScope : ¬ ∀ endpoint ∈ listEndpoints, ∀ (query : MetaQueryDto)
    (table : Table PermissionRow.id) (filter : PermissionRow → Bool)
    (columns : String → Comparison PermissionRow), endpoint.Permits query →
      PagesPartition endpoint query columns (table.filter filter) := by
  intro hclaim
  have hpermits : listPermissions.Permits (oneByOne (some "scope")) := by
    simp [ListEndpoint.Permits, oneByOne, listPermissions]
  have hpartition := (pagesPartition_iff_pages hpermits).mp
    (hclaim listPermissions (by simp [listEndpoints]) (oneByOne (some "scope")) twoPermissions
      (fun _ => true) permissionColumns hpermits)
  have hperm := hpartition
    (fun k => if k = 0 then twoPermissions.rows else twoPermissions.rows.reverse) fun k => by
      split
      · exact ⟨.refl _, by decide⟩
      · exact ⟨List.reverse_perm _, by decide⟩
  exact absurd hperm (by decide)

end NestApi
