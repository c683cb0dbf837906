import NestApi.Authorization.Tenancy
import NestApi.Common.Errors

/-!
# Ability-scoped queries

A list endpoint turns an ability into a filter for the database, a record endpoint
asks the ability about one row. The filter is evaluated in SQL's three-valued logic
with the client's irregular treatment of an empty `OR`: on its own it matches nothing,
as an element of an `AND` array it is dropped. Both ways of asking agree.
-/

namespace NestApi.Authorization

/-- A query filter. The fields are a conjunction of column and relation tests, each of
which may be unknown on a row. -/
inductive Where (Row : Type) : Type
  | mk (fields : List (Row → Option Bool)) (or : Option (List (Where Row)))
      (and : List (Where Row)) (not : List (Where Row)) : Where Row

namespace Where

variable {Row : Type}

/-- SQL conjunction. -/
def and3 : Option Bool → Option Bool → Option Bool
  | some false, _ => some false
  | _, some false => some false
  | some true, some true => some true
  | _, _ => none

/-- SQL disjunction. -/
def or3 : Option Bool → Option Bool → Option Bool
  | some true, _ => some true
  | _, some true => some true
  | some false, some false => some false
  | _, _ => none

/-- SQL negation. -/
def not3 : Option Bool → Option Bool := Option.map not

/-- The filter without any condition. -/
def empty : Where Row := .mk [] none [] []

/-- The filter with one field. -/
def field (test : Row → Option Bool) : Where Row := .mk [test] none [] []

mutual

/-- The value of a filter on a row. `inAnd` says that the filter stands as an element of
an `AND` array, where an empty `OR` is dropped. -/
def eval (row : Row) (inAnd : Bool) : Where Row → Option Bool
  | .mk fields or and not =>
    and3 ((fields.map fun test => test row).foldr and3 (some true))
      (and3 (evalOr row inAnd or) (and3 (evalAnd row and) (evalNot row not)))

/-- The value of the `OR` part. -/
def evalOr (row : Row) (inAnd : Bool) : Option (List (Where Row)) → Option Bool
  | none => some true
  | some [] => some inAnd
  | some (x :: xs) => or3 (eval row false x) (evalAny row xs)

/-- The disjunction of a list of alternatives. -/
def evalAny (row : Row) : List (Where Row) → Option Bool
  | [] => some false
  | x :: xs => or3 (eval row false x) (evalAny row xs)

/-- The value of the `AND` array. -/
def evalAnd (row : Row) : List (Where Row) → Option Bool
  | [] => some true
  | x :: xs => and3 (eval row true x) (evalAnd row xs)

/-- The value of the `NOT` array: none of its elements holds. -/
def evalNot (row : Row) : List (Where Row) → Option Bool
  | [] => some true
  | x :: xs => and3 (not3 (eval row false x)) (evalNot row xs)

end

/-- The query returns the row: its filter is true, not merely unknown. -/
def selects (filter : Where Row) (row : Row) : Prop := eval row false filter = some true

instance (filter : Where Row) (row : Row) : Decidable (filter.selects row) :=
  inferInstanceAs (Decidable (_ = _))

/-- The filter has no empty `OR` at its own level. -/
def HasNoEmptyOr : Where Row → Prop
  | .mk _ or _ _ => or ≠ some []

@[simp] theorem and3_eq_true {x y : Option Bool} :
    and3 x y = some true ↔ x = some true ∧ y = some true := by
  rcases x with _ | _ | _ <;> rcases y with _ | _ | _ <;> simp [and3]

@[simp] theorem or3_eq_true {x y : Option Bool} :
    or3 x y = some true ↔ x = some true ∨ y = some true := by
  rcases x with _ | _ | _ <;> rcases y with _ | _ | _ <;> simp [or3]

theorem evalAny_eq_true {row : Row} {xs : List (Where Row)} :
    evalAny row xs = some true ↔ ∃ x ∈ xs, x.selects row := by
  induction xs with
  | nil => simp [evalAny]
  | cons x xs ih => simp [evalAny, ih, selects]

/-- A filter without an empty `OR` means the same wherever it stands. -/
theorem eval_inAnd {row : Row} {filter : Where Row} (h : filter.HasNoEmptyOr) :
    eval row true filter = eval row false filter := by
  obtain ⟨fields, or, and, not⟩ := filter
  have hor : evalOr row true or = evalOr row false or := by
    rcases or with _ | _ | ⟨x, xs⟩
    · simp [evalOr]
    · exact absurd rfl h
    · simp [evalOr]
  simp only [eval, hor]

@[simp] theorem selects_empty {row : Row} : (empty : Where Row).selects row := by
  simp [selects, empty, eval, evalOr, evalAnd, evalNot]

@[simp] theorem selects_field {test : Row → Option Bool} {row : Row} :
    (field test).selects row ↔ test row = some true := by
  simp [selects, field, eval, evalOr, evalAnd, evalNot]

/-- Alternatives next to one `AND` element: both must hold. -/
theorem selects_alternatives {row : Row} {xs : List (Where Row)} {inner : Where Row}
    (hinner : inner.HasNoEmptyOr) :
    (mk [] (some xs) [inner] []).selects row ↔ (∃ x ∈ xs, x.selects row) ∧ inner.selects row := by
  have hor : evalOr row false (some xs) = some true ↔ ∃ x ∈ xs, x.selects row := by
    cases xs with
    | nil => simp [evalOr]
    | cons x xs => simp [evalOr, evalAny_eq_true, selects]
  simp only [selects, eval, evalAnd, evalNot, List.map_nil, List.foldr_nil, and3_eq_true, hor,
    eval_inAnd hinner, true_and, and_true]

theorem selects_and {row : Row} {inner : Where Row} (hinner : inner.HasNoEmptyOr) :
    (mk [] none [inner] []).selects row ↔ inner.selects row := by
  simp [selects, eval, evalOr, evalAnd, evalNot, eval_inAnd hinner]

theorem not_selects_of_false {row : Row} {and : List (Where Row)} :
    ¬ (mk [fun _ => some false] none and []).selects row := by
  simp [selects, eval]

end Where

/-- The subjects a query can be scoped by: the catalog's, without the wildcard and the
queue jobs, which are in no table. -/
inductive ScopableSubject
  | user | workspace | workspaceMembership | workspaceInvitation | role | permission
  | appVersion | deviceToken | auditLog
deriving DecidableEq, Repr

/-- The text of a scopable subject. -/
def ScopableSubject.value : ScopableSubject → String
  | user => "User"
  | workspace => "Workspace"
  | workspaceMembership => "WorkspaceMembership"
  | workspaceInvitation => "WorkspaceInvitation"
  | role => "Role"
  | permission => "Permission"
  | appVersion => "AppVersion"
  | deviceToken => "DeviceToken"
  | auditLog => "AuditLog"

section Scoping

variable {Row : Type} (toRecord : Row → Record)

/-- A rule's condition as a filter: one column equals one value. -/
def columnEquals (condition : String × String) : Where Row :=
  .field fun row =>
    match toRecord row condition.1 with
    | .undefined | .null => none
    | v => some (v = .string condition.2)

/-- How the library turns an ability into a filter for one action and subject. -/
abbrev AccessibleBy (Row : Type) := Ability → String → String → Where Row

/-- What the library promises: no restriction when some matching rule is unconditional,
otherwise the alternatives of the matching rules' conditions. -/
structure AccessibleBy.Lawful (accessibleBy : AccessibleBy Row) : Prop where
  unrestricted : ∀ (ability : Ability) action subject,
    (∃ rule ∈ ability, rule.relevant action subject ∧ rule.condition = none) →
      accessibleBy ability action subject = .empty
  alternatives : ∀ (ability : Ability) action subject,
    (∀ rule ∈ ability, rule.relevant action subject → rule.condition ≠ none) →
      ∃ conditions : List (String × String),
        (∀ condition, condition ∈ conditions ↔
          ∃ rule ∈ ability, rule.relevant action subject ∧ rule.condition = some condition) ∧
        accessibleBy ability action subject =
          .mk [] (some (conditions.map (columnEquals toRecord))) [] []

/-- The library's answer, written out. -/
def accessibleByRules : AccessibleBy Row := fun ability action subject =>
  let rules := ability.filter fun rule => rule.relevant action subject
  if rules.any fun rule => rule.condition = none then .empty
  else .mk [] (some ((rules.filterMap Rule.condition).map (columnEquals toRecord))) [] []

variable (accessibleBy : AccessibleBy Row)

/-- The fragment at the top level, the caller's filter under `AND`. -/
def scopedWhere (fragment callerWhere : Where Row) : Where Row :=
  match fragment with
  | .mk fields or _ not => .mk fields or [callerWhere] not

/-- The filter that selects the rows the ability may `action`. -/
def buildWhere (ability : Ability) (action : AuthorizationAction) (subject : ScopableSubject)
    (callerWhere : Where Row) : Except ApiError (Where Row) :=
  if ability.canType action.value subject.value = false then
    .error (Errors.permissionDenied action.value subject.value)
  else
    match accessibleBy ability action.value subject.value with
    | .mk _ (some []) _ _ => .error (Errors.permissionDenied action.value subject.value)
    | fragment => .ok (scopedWhere fragment callerWhere)

/-- The same, with a filter that matches nothing in place of the refusal. -/
def buildWhereOrEmpty (ability : Ability) (action : AuthorizationAction)
    (subject : ScopableSubject) (callerWhere : Where Row) : Except ApiError (Where Row) :=
  if ability.canType action.value subject.value = false then
    -- the column is in an empty list of values
    .ok (.mk [fun _ => some false] none [callerWhere] [])
  else
    buildWhere accessibleBy ability action subject callerWhere

variable {toRecord accessibleBy}

theorem selects_columnEquals {condition : String × String} {row : Row} :
    (columnEquals toRecord condition).selects row ↔
      toRecord row condition.1 = .string condition.2 := by
  rw [columnEquals, Where.selects_field]
  cases toRecord row condition.1 <;> simp

/-- The library's answer, written out, is what the library promises. -/
theorem accessibleByRules_lawful : AccessibleBy.Lawful toRecord (accessibleByRules toRecord) where
  unrestricted ability action subject h := by
    obtain ⟨rule, hmem, hrelevant, hnone⟩ := h
    have hany : ((ability.filter fun rule => rule.relevant action subject).any
        fun rule => rule.condition = none) = true := by
      simp only [List.any_eq_true, List.mem_filter, decide_eq_true_eq]
      exact ⟨rule, ⟨hmem, hrelevant⟩, hnone⟩
    simp [accessibleByRules, hany]
  alternatives ability action subject h := by
    have hany : ((ability.filter fun rule => rule.relevant action subject).any
        fun rule => rule.condition = none) = false := by
      simp only [List.any_eq_false, List.mem_filter, decide_eq_true_eq]
      exact fun rule hrule => h rule hrule.1 hrule.2
    refine ⟨(ability.filter fun rule => rule.relevant action subject).filterMap Rule.condition,
      ?_, by simp [accessibleByRules, hany]⟩
    intro condition
    simp only [List.mem_filterMap, List.mem_filter, and_assoc]

/-- The fragment by itself selects the rows of the instance check. -/
theorem AccessibleBy.Lawful.fragment (h : AccessibleBy.Lawful toRecord accessibleBy)
    {ability : Ability} {action subject : String} (htype : ability.canType action subject = true)
    (callerWhere : Where Row) (hcaller : callerWhere.HasNoEmptyOr) :
    (∀ fields and not, accessibleBy ability action subject ≠ .mk fields (some []) and not) ∧
    ∀ row, (scopedWhere (accessibleBy ability action subject) callerWhere).selects row ↔
      callerWhere.selects row ∧ ability.can action subject (toRecord row) = true := by
  obtain ⟨rule, hmem, hrelevant⟩ := List.any_eq_true.mp htype
  by_cases hsome : ∃ rule ∈ ability, rule.relevant action subject ∧ rule.condition = none
  · obtain ⟨free, hfree, hfreeRelevant, hnone⟩ := hsome
    rw [h.unrestricted ability action subject ⟨free, hfree, hfreeRelevant, hnone⟩]
    refine ⟨by simp [Where.empty], fun row => ?_⟩
    have hcan : ability.can action subject (toRecord row) = true :=
      List.any_eq_true.mpr ⟨free, hfree, by simp [hfreeRelevant, Rule.matchesConditions, hnone]⟩
    simp only [Where.empty, scopedWhere, Where.selects_and hcaller, hcan, and_true]
  · have hall : ∀ rule ∈ ability, rule.relevant action subject → rule.condition ≠ none :=
      fun rule hrule hrel hnone => hsome ⟨rule, hrule, hrel, hnone⟩
    obtain ⟨conditions, hconditions, heq⟩ := h.alternatives ability action subject hall
    rw [heq]
    obtain ⟨condition, hcondition⟩ := Option.ne_none_iff_exists'.mp (hall rule hmem hrelevant)
    have hne : conditions ≠ [] :=
      List.ne_nil_of_mem ((hconditions condition).mpr ⟨rule, hmem, hrelevant, hcondition⟩)
    refine ⟨by simp [hne], fun row => ?_⟩
    rw [scopedWhere, Where.selects_alternatives hcaller, and_comm]
    refine and_congr_right fun _ => ?_
    simp only [Ability.can, List.any_eq_true, Bool.and_eq_true, List.mem_map]
    constructor
    · rintro ⟨filter, ⟨condition, hmem, rfl⟩, hselects⟩
      obtain ⟨rule, hrule, hrel, hcond⟩ := (hconditions condition).mp hmem
      refine ⟨rule, hrule, hrel, ?_⟩
      simpa [Rule.matchesConditions, hcond] using selects_columnEquals.mp hselects
    · rintro ⟨rule, hrule, hrel, hmatches⟩
      obtain ⟨condition, hcond⟩ := Option.ne_none_iff_exists'.mp (hall rule hrule hrel)
      refine ⟨_, ⟨condition, (hconditions condition).mpr ⟨rule, hrule, hrel, hcond⟩, rfl⟩, ?_⟩
      exact selects_columnEquals.mpr (by simpa [Rule.matchesConditions, hcond] using hmatches)

/-- When some rule matches, both builders give the composed filter. -/
theorem buildWhere_ok (h : AccessibleBy.Lawful toRecord accessibleBy) {ability : Ability}
    {action : AuthorizationAction} {subject : ScopableSubject}
    (htype : ability.canType action.value subject.value = true) (callerWhere : Where Row)
    (hcaller : callerWhere.HasNoEmptyOr) :
    buildWhere accessibleBy ability action subject callerWhere =
      .ok (scopedWhere (accessibleBy ability action.value subject.value) callerWhere) := by
  have hne := (h.fragment htype callerWhere hcaller).1
  unfold buildWhere
  rw [if_neg (by simp [htype])]
  split
  · next fields and not heq => exact absurd heq (hne fields and not)
  · rfl

/-- List and instance decisions agree, for every ability, in particular for every one
the factory builds: the filter selects a row exactly when the caller's filter does and
the instance check allows it. Without a matching rule the lenient builder selects
nothing and the strict one refuses. -/
theorem buildWhere_agrees_can (h : AccessibleBy.Lawful toRecord accessibleBy)
    (ability : Ability) (action : AuthorizationAction) (subject : ScopableSubject)
    (callerWhere : Where Row) (hcaller : callerWhere.HasNoEmptyOr) :
    (ability.canType action.value subject.value = true →
      ∃ filter, buildWhere accessibleBy ability action subject callerWhere = .ok filter ∧
        buildWhereOrEmpty accessibleBy ability action subject callerWhere = .ok filter ∧
        ∀ row, filter.selects row ↔ callerWhere.selects row ∧
          ability.can action.value subject.value (toRecord row) = true) ∧
    (ability.canType action.value subject.value = false →
      buildWhere accessibleBy ability action subject callerWhere =
          .error (Errors.permissionDenied action.value subject.value) ∧
        ∃ filter, buildWhereOrEmpty accessibleBy ability action subject callerWhere = .ok filter ∧
          ∀ row, ¬ filter.selects row) := by
  constructor
  · intro htype
    have hok := buildWhere_ok h htype callerWhere hcaller
    refine ⟨_, hok, ?_, (h.fragment htype callerWhere hcaller).2⟩
    rw [buildWhereOrEmpty, if_neg (by simp [htype]), hok]
  · intro htype
    refine ⟨by rw [buildWhere, if_pos htype], ?_⟩
    exact ⟨_, by rw [buildWhereOrEmpty, if_pos htype], fun row => Where.not_selects_of_false⟩

/-- What a record lookup finds satisfies the caller's filter. -/
theorem selects_of_buildWhereOrEmpty (h : AccessibleBy.Lawful toRecord accessibleBy)
    {ability : Ability} {action : AuthorizationAction} {subject : ScopableSubject}
    {callerWhere filter : Where Row} (hcaller : callerWhere.HasNoEmptyOr)
    (hfilter : buildWhereOrEmpty accessibleBy ability action subject callerWhere = .ok filter)
    {row : Row} (hrow : filter.selects row) : callerWhere.selects row := by
  cases htype : ability.canType action.value subject.value with
  | true =>
    rw [buildWhereOrEmpty, if_neg (by simp [htype]), buildWhere_ok h htype callerWhere hcaller]
      at hfilter
    obtain rfl := Except.ok.inj hfilter
    exact ((h.fragment htype callerWhere hcaller).2 row).mp hrow |>.1
  | false =>
    rw [buildWhereOrEmpty, if_pos htype] at hfilter
    obtain rfl := Except.ok.inj hfilter
    exact absurd hrow Where.not_selects_of_false

end Scoping

/-- A caller's filter with its own `OR` on the tenant column. -/
def eitherWorkspace : Where Record :=
  .mk [] (some [columnEquals id ("workspaceId", "acme"),
    columnEquals id ("workspaceId", "globex")]) [] []

/-- The rules of the manager, asked with a filter that names two workspaces: only the
row of the manager's own workspace is selected. -/
theorem buildWhere_agrees_can_manager :
    ∃ filter, buildWhere (accessibleByRules id)
        [Rule.can "create" "WorkspaceMembership" (some ("workspaceId", "acme"))]
        .create .workspaceMembership eitherWorkspace = .ok filter ∧
      filter.selects (Record.of "workspaceId" "acme") ∧
      ¬ filter.selects (Record.of "workspaceId" "globex") := by
  obtain ⟨filter, hbuild, -, hselects⟩ := (buildWhere_agrees_can
    (@accessibleByRules_lawful Record id)
    [Rule.can "create" "WorkspaceMembership" (some ("workspaceId", "acme"))]
    .create .workspaceMembership eitherWorkspace (by simp [Where.HasNoEmptyOr, eitherWorkspace])).1
    (by decide)
  refine ⟨filter, hbuild, (hselects _).mpr ⟨by decide, by decide⟩, fun h => ?_⟩
  exact absurd ((hselects _).mp h).2 (by decide)

end NestApi.Authorization
