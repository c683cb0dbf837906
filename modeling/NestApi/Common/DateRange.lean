import Mathlib.Data.Int.Order.Basic

/-!
# Date filters

An optional inclusive range and an optional time scope become one filter for a column
that holds a moment. A side without a bound stays open.
-/

namespace NestApi.DateRange

/-- A `Date` by its time value in milliseconds. An invalid date has none. -/
structure Date where
  time : Option ℤ
deriving DecidableEq

/-- A date with a time value. -/
def Date.at (t : ℤ) : Date := ⟨some t⟩

/-- The comparison `>`. Nothing compares with an invalid date. -/
def Date.gt (a b : Date) : Bool :=
  match a.time, b.time with
  | some x, some y => y < x
  | _, _ => false

/-- How a caller may give a bound. -/
inductive DateInput
  | text (value : String)
  | date (value : Date)
deriving DecidableEq

/-- The bounds of a caller. The parser of texts is the one of `new Date(text)`. -/
structure Bounds where
  parse : String → Date
  start : Option DateInput
  «end» : Option DateInput

/-- The bound that an input stands for. The empty text is falsy. -/
def toDate (parse : String → Date) : DateInput → Option Date
  | .text value => if value = "" then none else some (parse value)
  | .date value => some value

/-- The operators of a date filter. All that are set apply. -/
structure DateFilter where
  gte : Option Date
  lte : Option Date
  lt : Option Date
deriving DecidableEq

/-- No operator is set. -/
def DateFilter.empty : DateFilter := ⟨none, none, none⟩

def buildDateRangeFilter (bounds : Bounds) : Option DateFilter :=
  let filter : DateFilter :=
    ⟨bounds.start.bind (toDate bounds.parse), bounds.end.bind (toDate bounds.parse), none⟩
  if filter = .empty then none else some filter

inductive TimeScope
  | upcoming | past | all
deriving DecidableEq

def buildTimeScopeFilter (bounds : Bounds) (scope : Option TimeScope) (now : Date) :
    Option DateFilter :=
  let filter := (buildDateRangeFilter bounds).getD .empty
  let filter :=
    match scope with
    | some .upcoming =>
      { filter with gte := some ((filter.gte.filter (·.gt now)).getD now) }
    | some .past =>
      -- An upper bound that is not after `now` stays, and then there is no strict one.
      if filter.lte.all (·.gt now) then { filter with lt := some now, lte := none } else filter
    | some .all | none => filter
  if filter = .empty then none else some filter

/-! ### What a filter selects -/

/-- The database keeps a moment when every operator that is set holds of it. -/
def DateFilter.Selects (filter : DateFilter) (t : ℤ) : Prop :=
  (∀ d ∈ filter.gte, ∀ x ∈ d.time, x ≤ t) ∧ (∀ d ∈ filter.lte, ∀ x ∈ d.time, t ≤ x) ∧
    ∀ d ∈ filter.lt, ∀ x ∈ d.time, t < x

/-- An absent filter keeps every moment. -/
def Selects (filter : Option DateFilter) (t : ℤ) : Prop := ∀ f ∈ filter, f.Selects t

/-- The bounds that are given are valid dates. -/
structure Bounds.Valid (bounds : Bounds) : Prop where
  start : ∀ d ∈ bounds.start.bind (toDate bounds.parse), d.time.isSome
  «end» : ∀ d ∈ bounds.end.bind (toDate bounds.parse), d.time.isSome

/-- The moment the range starts at. -/
def Bounds.first (bounds : Bounds) : Option ℤ :=
  (bounds.start.bind (toDate bounds.parse)).bind Date.time

/-- The moment the range ends at. -/
def Bounds.last (bounds : Bounds) : Option ℤ :=
  (bounds.end.bind (toDate bounds.parse)).bind Date.time

/-- The moment lies in the inclusive range. -/
def Bounds.InRange (bounds : Bounds) (t : ℤ) : Prop :=
  (∀ x ∈ bounds.first, x ≤ t) ∧ ∀ x ∈ bounds.last, t ≤ x

/-- The moment is in the scope. -/
def InScope (scope : Option TimeScope) (now t : ℤ) : Prop :=
  match scope with
  | some .past => t < now
  | some .upcoming => now ≤ t
  | some .all | none => True

end NestApi.DateRange
