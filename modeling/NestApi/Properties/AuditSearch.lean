import NestApi.AuditLogs.Service
import NestApi.Properties.TimeScopes

/-!
# The audit search against what was asked

The filter selects what every supplied condition asks for. The metadata is compared with the
term spliced into a pattern, so a term with a wildcard or a backslash finds other rows.
-/

namespace NestApi.AuditLogs

open Patterns DateRange Txn

variable {search : TextSearch} {db : AuditDatabase} {query : AuditLogQuery} {row : AuditLog}
  {term : String}

/-! ### What was asked -/

/-- The email of a user that is named contains the term. -/
def EmailContains (search : TextSearch) (db : AuditDatabase) (userId : Option String)
    (term : String) : Prop :=
  ∃ user ∈ db.users, userId = some user.id ∧ search.Contains term user.email

/-- The action, an email or the metadata contains the term. -/
def MentionsTerm (search : TextSearch) (db : AuditDatabase) (row : AuditLog) (term : String) :
    Prop :=
  search.Contains term row.action ∨ EmailContains search db row.actorId term ∨
    EmailContains search db row.targetUserId term ∨
    ∃ metadata ∈ row.metadata, search.Contains term metadata

/-- Free text applies only without an exact action. -/
def AuditLogQuery.freeText (query : AuditLogQuery) : Option String :=
  if given query.action = none then given query.search else none

/-- The row satisfies everything that was supplied. -/
structure Asked (search : TextSearch) (db : AuditDatabase) (query : AuditLogQuery)
    (row : AuditLog) : Prop where
  actorId : ∀ id ∈ given query.actorId, row.actorId = some id
  targetUserId : ∀ id ∈ given query.targetUserId, row.targetUserId = some id
  createdAt : query.createdAt.InRange row.createdAt
  action : ∀ action ∈ given query.action, row.action = action
  freeText : ∀ term ∈ query.freeText, MentionsTerm search db row term

/-- The filter selects exactly the rows that were asked for, of every table. -/
def SearchIsExact (search : TextSearch) (query : AuditLogQuery) : Prop :=
  ∀ db : AuditDatabase, ∀ row ∈ db.auditLogs,
    Selects search (buildFilter search db query) row ↔ Asked search db query row

/-- No free text is looked for, or its term has neither wildcard nor backslash, or the range of
dates is empty. -/
def SearchIsPlain (query : AuditLogQuery) : Prop :=
  (∀ term ∈ query.freeText, ∀ c ∈ term.toList, ¬ ilikeSigns.IsSpecial c) ∨
    ∀ t, ¬ query.createdAt.InRange t

/-! ### The filter as conditions on a row -/

theorem selects_dateRange {bounds : Bounds} {t : ℤ} :
    DateRange.Selects (buildDateRangeFilter bounds) t ↔ bounds.InRange t := by
  rw [← selects_rangeFilter, ← getD_buildDateRangeFilter]
  cases buildDateRangeFilter bounds with
  | none => simp [DateRange.Selects, DateFilter.Selects, DateFilter.empty]
  | some filter => simp [DateRange.Selects]

/-- What the assembled clauses select. -/
def MatchesTerm (search : TextSearch) (db : AuditDatabase) (row : AuditLog) (term : String) :
    Prop :=
  search.contains term row.action = true ∨
    (∃ id ∈ row.actorId, id ∈ findUserIdsMatchingEmail search db term) ∨
    (∃ id ∈ row.targetUserId, id ∈ findUserIdsMatchingEmail search db term) ∨
    row.id ∈ findAuditLogIdsMatchingMetadata search db term

/-- A clause without ids would select nothing, so leaving it out changes nothing. -/
theorem exists_orClauses_iff :
    (∃ clause ∈ orClauses search db term, clause.Selects search row) ↔
      MatchesTerm search db row term := by
  unfold orClauses MatchesTerm
  by_cases husers : findUserIdsMatchingEmail search db term = []
  · by_cases hrows : findAuditLogIdsMatchingMetadata search db term = []
    · simp [husers, hrows, AuditLogClause.Selects]
    · simp [husers, hrows, AuditLogClause.Selects]
  · by_cases hrows : findAuditLogIdsMatchingMetadata search db term = []
    · simp [husers, hrows, AuditLogClause.Selects]
    · simp [husers, hrows, AuditLogClause.Selects]

/-- Leaving an empty filter out does not change what is selected. -/
theorem selects_buildFilter_iff : Selects search (buildFilter search db query) row ↔
    (∀ id ∈ given query.actorId, row.actorId = some id) ∧
      (∀ id ∈ given query.targetUserId, row.targetUserId = some id) ∧
      query.createdAt.InRange row.createdAt ∧
      (∀ action ∈ given query.action, row.action = action) ∧
      ∀ term ∈ query.freeText, MatchesTerm search db row term := by
  set filter : AuditLogWhere :=
    { actorId := given query.actorId
      targetUserId := given query.targetUserId
      createdAt := buildDateRangeFilter query.createdAt
      action := given query.action
      or := if given query.action = none then (given query.search).map (orClauses search db)
        else none } with hfilter
  have hselects : Selects search (buildFilter search db query) row ↔
      filter.Selects search row := by
    change (∀ f ∈ if filter = ⟨none, none, none, none, none⟩ then none else some filter,
      f.Selects search row) ↔ _
    split
    · next hempty =>
      rw [hempty]
      refine iff_of_true (by simp) ⟨by simp, by simp, ?_, by simp, by simp⟩
      simp [DateRange.Selects]
    · simp
  have hor : (∀ clauses ∈ filter.or, ∃ clause ∈ clauses, clause.Selects search row) ↔
      ∀ term ∈ query.freeText, MatchesTerm search db row term := by
    simp only [hfilter, AuditLogQuery.freeText]
    split
    · simp [exists_orClauses_iff]
    · simp
  rw [hselects]
  constructor
  · intro h
    exact ⟨h.actorId, h.targetUserId, selects_dateRange.mp h.createdAt, h.action, hor.mp h.or⟩
  · rintro ⟨hactor, htarget, hrange, haction, hterm⟩
    exact ⟨hactor, htarget, selects_dateRange.mpr hrange, haction, hor.mpr hterm⟩

/-! ### The term -/

theorem mem_findUserIds_iff {id : String} :
    id ∈ findUserIdsMatchingEmail search db term ↔
      ∃ user ∈ db.users, user.id = id ∧ search.contains term user.email = true := by
  simp [findUserIdsMatchingEmail]
  tauto

theorem mem_findAuditLogIds_iff (hrow : row ∈ db.auditLogs) :
    row.id ∈ findAuditLogIdsMatchingMetadata search db term ↔
      ∃ metadata ∈ row.metadata, search.ilike ("%" ++ term ++ "%") metadata = true := by
  simp only [findAuditLogIdsMatchingMetadata, List.mem_map, Table.mem_filter, Option.any_eq_true]
  constructor
  · rintro ⟨other, ⟨hother, hmatch⟩, hid⟩
    obtain rfl := Table.eq_of_key hother hrow hid
    exact hmatch
  · intro hmatch
    exact ⟨row, ⟨hrow, hmatch⟩, rfl⟩

theorem ilike_eq (value : String) :
    search.ilike ("%" ++ term ++ "%") value =
      likeMatches search.fold (likeTokens ilikeSigns (containsPattern ilikeSigns term.toList))
        value.toList := by
  simp [TextSearch.ilike, containsPattern, ilikeSigns]

/-- A term without special signs is found where it should be. -/
theorem matchesTerm_iff (hplain : ∀ c ∈ term.toList, ¬ ilikeSigns.IsSpecial c)
    (hrow : row ∈ db.auditLogs) :
    MatchesTerm search db row term ↔ MentionsTerm search db row term := by
  have hemail : ∀ userId : Option String,
      (∃ id ∈ userId, id ∈ findUserIdsMatchingEmail search db term) ↔
        EmailContains search db userId term := by
    intro userId
    simp only [mem_findUserIds_iff, search.contains_iff term hplain, EmailContains]
    constructor
    · rintro ⟨_, hid, user, huser, rfl, hcontains⟩
      exact ⟨user, huser, hid, hcontains⟩
    · rintro ⟨user, huser, hid, hcontains⟩
      exact ⟨_, hid, user, huser, rfl, hcontains⟩
  unfold MatchesTerm MentionsTerm
  rw [search.contains_iff term hplain, hemail, hemail, mem_findAuditLogIds_iff hrow]
  simp only [ilike_eq, containsPattern_matches_iff hplain]
  rfl

/-! ### Exactness -/

theorem searchIsExact_of_plain (h : SearchIsPlain query) : SearchIsExact search query := by
  intro db row hrow
  rw [selects_buildFilter_iff]
  rcases h with hplain | hempty
  · have hterm : (∀ term ∈ query.freeText, MatchesTerm search db row term) ↔
        ∀ term ∈ query.freeText, MentionsTerm search db row term :=
      forall₂_congr fun term hterm => matchesTerm_iff (hplain term hterm) hrow
    rw [hterm]
    constructor
    · rintro ⟨hactor, htarget, hrange, haction, hfound⟩
      exact ⟨hactor, htarget, hrange, haction, hfound⟩
    · intro h
      exact ⟨h.actorId, h.targetUserId, h.createdAt, h.action, h.freeText⟩
  · constructor
    · rintro ⟨-, -, hrange, -⟩
      exact absurd hrange (hempty _)
    · intro h
      exact absurd h.createdAt (hempty _)

/-- The table of one row and no users. -/
def oneRow (row : AuditLog) : AuditDatabase := ⟨Table.empty, ⟨[row], by simp⟩⟩

/-- A special sign in a term makes the search find a row that was not asked for. -/
theorem not_searchIsExact (h : ¬ SearchIsPlain query) : ¬ SearchIsExact search query := by
  simp only [SearchIsPlain, not_or, not_forall, not_not] at h
  obtain ⟨⟨term, hterm, c, hc, hspecial⟩, t, hrange⟩ := h
  have hfold : search.fold '%' = '%' ∧ search.fold '_' = '_' ∧ search.fold '\\' = '\\' :=
    ⟨search.fold_special _ (.inl rfl), search.fold_special _ (.inr (.inl rfl)),
      search.fold_special _ (.inr (.inr rfl))⟩
  have hother : search.fold '%' ≠ search.fold ilikeSigns.anySign := by
    simp [ilikeSigns, hfold.1, hfold.2.1]
  have hclose : search.fold ilikeSigns.anyList ≠ search.fold ilikeSigns.escape := by
    simp [ilikeSigns, hfold.1, hfold.2.2]
  obtain ⟨found, hmatch, hnot⟩ := exists_matches_not_contains hother hclose ⟨c, hc, hspecial⟩
  -- Nothing but the metadata of the row can hold the term.
  have hnoAction : given query.action = none := by
    by_contra hsome
    simp [AuditLogQuery.freeText, hsome] at hterm
  let row : AuditLog :=
    ⟨"", t, given query.actorId, given query.targetUserId, "", some (String.ofList found)⟩
  have hselected : Selects search (buildFilter search (oneRow row) query) row := by
    refine selects_buildFilter_iff.mpr ⟨fun _ h => h, fun _ h => h, hrange, ?_, ?_⟩
    · simp [hnoAction]
    · intro term' hterm'
      obtain rfl := Option.mem_unique hterm' hterm
      refine .inr (.inr (.inr ((mem_findAuditLogIds_iff (by simp [oneRow, Table.mem_def])).mpr ?_)))
      exact ⟨_, rfl, by rw [ilike_eq, String.toList_ofList]; exact hmatch⟩
  have hunasked : ¬ Asked search (oneRow row) query row := by
    intro hasked
    rcases hasked.freeText term hterm with haction | hactor | htarget | ⟨metadata, hmem, hmeta⟩
    · have hnil : term.toList.map search.fold = [] := List.infix_nil.mp haction
      simp [List.map_eq_nil_iff.mp hnil] at hc
    · obtain ⟨user, huser, -⟩ := hactor
      exact Table.not_mem_empty huser
    · obtain ⟨user, huser, -⟩ := htarget
      exact Table.not_mem_empty huser
    · obtain rfl := Option.mem_some_iff.mp hmem
      rw [TextSearch.Contains, String.toList_ofList] at hmeta
      exact hnot hmeta
  intro hexact
  exact hunasked ((hexact (oneRow row) row (by simp [oneRow, Table.mem_def])).mp hselected)

/-- The search returns what was asked for, whatever the tables hold, exactly when its term has
no wildcard and no backslash, or no row could be in the range of dates anyway. -/
theorem searchIsExact_iff (search : TextSearch) (query : AuditLogQuery) :
    SearchIsExact search query ↔ SearchIsPlain query :=
  ⟨fun h => by_contra fun hnot => not_searchIsExact hnot h, searchIsExact_of_plain⟩

/-! ### A wildcard in a term -/

/-- Texts of ASCII, and a client that looks for every term as it is. -/
def asciiSearch : TextSearch where
  fold := Char.toLower
  fold_special := by
    rintro c (rfl | rfl | rfl)
    · decide
    · decide
    · decide
  contains term value := decide (ContainsFolded Char.toLower term.toList value.toList)
  contains_iff _ _ _ := decide_eq_true_iff

/-- An entry about another order than the one that is looked for. -/
def otherOrder : AuditLog :=
  ⟨"1", 0, none, none, "user.updated", some "\x7b\"id\": \"order-1\"\x7d"⟩

/-- A search for an order by its id. -/
def orderQuery : AuditLogQuery where
  actorId := none
  targetUserId := none
  createdAt := ⟨fun _ => ⟨none⟩, none, none⟩
  action := none
  search := some "order_1"
  valid := ⟨by simp, by simp⟩

/-- The entry is found for a term that it does not contain. -/
theorem orderQuery_finds_otherOrder :
    otherOrder ∈ (oneRow otherOrder).auditLogs ∧
      Selects asciiSearch (buildFilter asciiSearch (oneRow otherOrder) orderQuery) otherOrder ∧
      ¬ Asked asciiSearch (oneRow otherOrder) orderQuery otherOrder := by
  have hmem : otherOrder ∈ (oneRow otherOrder).auditLogs := by simp [oneRow, Table.mem_def]
  have hterm : orderQuery.freeText = some "order_1" := by decide
  refine ⟨hmem, ?_, fun hasked => ?_⟩
  · refine selects_buildFilter_iff.mpr ⟨by decide, by decide, ?_, by decide, ?_⟩
    · simp [Bounds.InRange, Bounds.first, Bounds.last, orderQuery]
    · intro term hmem'
      obtain rfl := Option.mem_unique hmem' hterm
      refine .inr (.inr (.inr ((mem_findAuditLogIds_iff hmem).mpr ⟨_, rfl, ?_⟩)))
      decide +kernel
  · rcases hasked.freeText "order_1" hterm with
      haction | ⟨user, huser, -⟩ | ⟨user, huser, -⟩ | hmeta
    · exact absurd haction (by decide)
    · exact Table.not_mem_empty huser
    · exact Table.not_mem_empty huser
    · exact absurd hmeta (by decide +kernel)

end NestApi.AuditLogs
