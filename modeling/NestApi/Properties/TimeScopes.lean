import Mathlib.Tactic.Tauto
import NestApi.Common.DateRange

/-!
# Time scopes partition a range

The moments before `now` and those from `now` on should split every range in two. They do,
unless the range ends exactly at `now`: the past scope then keeps the inclusive end.
-/

namespace NestApi.DateRange

variable {bounds : Bounds} {now t : ℤ}

/-! ### The filter as conditions on a moment -/

/-- The filter of a range without a scope. -/
def rangeFilter (bounds : Bounds) : DateFilter :=
  ⟨bounds.start.bind (toDate bounds.parse), bounds.end.bind (toDate bounds.parse), none⟩

theorem getD_buildDateRangeFilter :
    (buildDateRangeFilter bounds).getD .empty = rangeFilter bounds := by
  change (if rangeFilter bounds = .empty then none else some (rangeFilter bounds)).getD .empty = _
  split
  · next h => exact h.symm
  · rfl

/-- The bounds of a range, narrowed to a scope. -/
def narrowed (filter : DateFilter) (now : Date) : Option TimeScope → DateFilter
  | some .upcoming => { filter with gte := some ((filter.gte.filter (·.gt now)).getD now) }
  | some .past =>
    if filter.lte.all (·.gt now) then { filter with lt := some now, lte := none } else filter
  | some .all | none => filter

/-- Leaving an empty filter out does not change what is selected. -/
theorem selects_build {scope : Option TimeScope} {now : Date} :
    Selects (buildTimeScopeFilter bounds scope now) t ↔
      (narrowed (rangeFilter bounds) now scope).Selects t := by
  have hbuild : buildTimeScopeFilter bounds scope now =
      if narrowed (rangeFilter bounds) now scope = .empty then none
        else some (narrowed (rangeFilter bounds) now scope) := by
    unfold buildTimeScopeFilter
    rw [getD_buildDateRangeFilter]
    rcases scope with _ | _ | _ | _ <;> rfl
  rw [hbuild]
  unfold Selects
  split
  · next h =>
    rw [h]
    simp [DateFilter.Selects, DateFilter.empty]
  · simp

theorem selects_rangeFilter : (rangeFilter bounds).Selects t ↔ bounds.InRange t := by
  unfold DateFilter.Selects Bounds.InRange Bounds.first Bounds.last rangeFilter
  constructor
  · rintro ⟨hgte, hlte, -⟩
    refine ⟨fun x hx => ?_, fun x hx => ?_⟩
    · obtain ⟨d, hd, hx⟩ := Option.bind_eq_some_iff.mp hx
      exact hgte d hd x hx
    · obtain ⟨d, hd, hx⟩ := Option.bind_eq_some_iff.mp hx
      exact hlte d hd x hx
  · rintro ⟨hfirst, hlast⟩
    exact ⟨fun d hd x hx => hfirst x (Option.bind_eq_some_iff.mpr ⟨d, hd, hx⟩),
      fun d hd x hx => hlast x (Option.bind_eq_some_iff.mpr ⟨d, hd, hx⟩), nofun⟩

/-- A valid bound is absent or has a time value. -/
theorem valid_cases {bound : Option Date} (h : ∀ d ∈ bound, d.time.isSome) :
    bound = none ∨ ∃ x, bound = some (.at x) := by
  rcases bound with _ | ⟨_ | x⟩
  · exact .inl rfl
  · simp at h
  · exact .inr ⟨x, rfl⟩

@[simp] theorem Date.at_time {x : ℤ} : (Date.at x).time = some x := rfl

@[simp] theorem Date.at_gt_at {x y : ℤ} : (Date.at x).gt (.at y) = decide (y < x) := rfl

/-! ### The scopes -/

/-- The later of the start and `now` is the lower bound of the upcoming scope. -/
theorem selects_upcoming (hvalid : bounds.Valid) :
    Selects (buildTimeScopeFilter bounds (some .upcoming) (.at now)) t ↔
      bounds.InRange t ∧ now ≤ t := by
  rw [selects_build, ← selects_rangeFilter]
  simp only [narrowed, rangeFilter, DateFilter.Selects]
  rcases valid_cases hvalid.start with h | ⟨x, h⟩
  · rw [h]
    simp [and_comm]
  · rw [h]
    by_cases hx : now < x
    · have hle : x ≤ t → now ≤ t := by omega
      simp [Option.filter, hx]
      tauto
    · have hle : now ≤ t → x ≤ t := by omega
      simp [Option.filter, hx]
      tauto

/-- A range that ends exactly at `now` keeps its inclusive end in the past scope. -/
theorem selects_past (hvalid : bounds.Valid) :
    Selects (buildTimeScopeFilter bounds (some .past) (.at now)) t ↔
      bounds.InRange t ∧ (t < now ∨ bounds.last = some now ∧ t = now) := by
  rw [selects_build, ← selects_rangeFilter]
  simp only [narrowed, rangeFilter, DateFilter.Selects, Bounds.last]
  rcases valid_cases hvalid.end with h | ⟨x, h⟩
  · simp [h]
  · by_cases hx : now < x
    · have hle : t < now → t ≤ x := by omega
      have hne : x ≠ now := by omega
      simp [h, hx, hne]
      tauto
    · -- The end is not after `now`, so it stays the only upper bound.
      have hcases : t ≤ x → t < now ∨ x = now ∧ t = now := by omega
      simp [h, hx]
      tauto

theorem selects_unscoped {scope : Option TimeScope} (hscope : scope = none ∨ scope = some .all) :
    Selects (buildTimeScopeFilter bounds scope (.at now)) t ↔ bounds.InRange t := by
  rw [selects_build, ← selects_rangeFilter]
  rcases hscope with rfl | rfl <;> rfl

/-! ### The partition -/

/-- The filter of a scope selects what the range and the scope say. -/
def ScopeExact (bounds : Bounds) (scope : Option TimeScope) (now : ℤ) : Prop :=
  ∀ t, Selects (buildTimeScopeFilter bounds scope (.at now)) t ↔
    bounds.InRange t ∧ InScope scope now t

/-- The past and the upcoming scope split the range in two. -/
def ScopesPartition (bounds : Bounds) (now : ℤ) : Prop :=
  (∀ t, ¬ (Selects (buildTimeScopeFilter bounds (some .past) (.at now)) t ∧
    Selects (buildTimeScopeFilter bounds (some .upcoming) (.at now)) t)) ∧
  ∀ t, bounds.InRange t ↔ Selects (buildTimeScopeFilter bounds (some .past) (.at now)) t ∨
    Selects (buildTimeScopeFilter bounds (some .upcoming) (.at now)) t

/-- The range ends exactly at `now`, and holds that moment. -/
def Bounds.EndsAt (bounds : Bounds) (now : ℤ) : Prop :=
  bounds.last = some now ∧ ∀ x ∈ bounds.first, x ≤ now

theorem Bounds.EndsAt.inRange (h : bounds.EndsAt now) : bounds.InRange now := by
  refine ⟨h.2, fun x hx => ?_⟩
  obtain rfl := Option.some_inj.mp (h.1.symm.trans hx)
  exact le_rfl

theorem scopeExact_iff (hvalid : bounds.Valid) (scope : Option TimeScope) :
    ScopeExact bounds scope now ↔ ¬ (scope = some .past ∧ bounds.EndsAt now) := by
  unfold ScopeExact
  rcases scope with _ | _ | _ | _
  · simp [selects_unscoped (.inl rfl), InScope]
  · simp [selects_upcoming hvalid, InScope]
  · simp only [selects_past hvalid, InScope, true_and]
    constructor
    · intro hexact hends
      have hnow := (hexact now).mp ⟨hends.inRange, .inr ⟨hends.1, rfl⟩⟩
      exact lt_irrefl now hnow.2
    · rintro hopen t
      refine ⟨fun ⟨hrange, hpast⟩ => ⟨hrange, ?_⟩, fun ⟨hrange, hpast⟩ => ⟨hrange, .inl hpast⟩⟩
      rcases hpast with hpast | ⟨hlast, rfl⟩
      · exact hpast
      · exact absurd ⟨hlast, hrange.1⟩ hopen
  · simp [selects_unscoped (.inr rfl), InScope]

/-- Whatever the range, no moment of it is lost, and only `now` can be in both scopes. -/
theorem scopesPartition_iff (hvalid : bounds.Valid) :
    ScopesPartition bounds now ↔ ¬ bounds.EndsAt now := by
  unfold ScopesPartition
  simp only [selects_past hvalid, selects_upcoming hvalid]
  constructor
  · rintro ⟨hdisjoint, -⟩ hends
    exact hdisjoint now ⟨⟨hends.inRange, .inr ⟨hends.1, rfl⟩⟩, hends.inRange, le_rfl⟩
  · intro hopen
    refine ⟨?_, fun t => ⟨fun hrange => ?_, ?_⟩⟩
    · rintro t ⟨⟨hrange, hpast | ⟨hlast, rfl⟩⟩, -, hupcoming⟩
      · omega
      · exact hopen ⟨hlast, hrange.1⟩
    · rcases lt_or_ge t now with hpast | hupcoming
      · exact .inl ⟨hrange, .inl hpast⟩
      · exact .inr ⟨hrange, hupcoming⟩
    · rintro (⟨hrange, -⟩ | ⟨hrange, -⟩) <;> exact hrange

/-- Every scope selects its part of the range, and the parts make up the range, unless the
range ends exactly at `now`. -/
theorem timeScopes_iff (bounds : Bounds) (now : ℤ) (hvalid : bounds.Valid) :
    (∀ scope, ScopeExact bounds scope now ↔ ¬ (scope = some .past ∧ bounds.EndsAt now)) ∧
      (ScopesPartition bounds now ↔ ¬ bounds.EndsAt now) :=
  ⟨scopeExact_iff hvalid, scopesPartition_iff hvalid⟩

/-- The month of a list, given as a text and as a date. -/
def july : Bounds :=
  { parse := fun value =>
      if value = "2026-07-01T00:00:00.000Z" then .at 1782864000000 else ⟨none⟩
    start := some (.text "2026-07-01T00:00:00.000Z")
    «end» := some (.date (.at 1785542399999)) }

theorem timeScopes_july :
    (∀ scope, ScopeExact july scope 1784116800000 ↔
      ¬ (scope = some .past ∧ july.EndsAt 1784116800000)) ∧
      (ScopesPartition july 1784116800000 ↔ ¬ july.EndsAt 1784116800000) :=
  timeScopes_iff july 1784116800000 ⟨by decide, by decide⟩

/-- With the end of the range at `now`, the past scope selects `now`. -/
theorem not_scopeExact_past :
    ¬ ∀ (bounds : Bounds) (now : ℤ), bounds.Valid →
      (∀ scope, ScopeExact bounds scope now) ∧ ScopesPartition bounds now := by
  intro hclaim
  have hvalid : july.Valid := ⟨by decide, by decide⟩
  obtain ⟨hexact, -⟩ := hclaim july 1785542399999 hvalid
  have hnow := (hexact (some .past) 1785542399999).mp
    ((selects_past hvalid).mpr ⟨⟨by decide, by decide⟩, .inr ⟨by decide, rfl⟩⟩)
  exact lt_irrefl _ hnow.2

end NestApi.DateRange
