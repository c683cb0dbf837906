import NestApi.Authorization.RouteAudit

/-!
# The audit of the routes agrees with their guard

What the audit lists are the routes that the guard opens to nobody, a platform administrator
included. A process starts exactly when it has no such route.
-/

namespace NestApi

open Authorization

variable {loadGrants : Uuid → Except Failure AuthorizationGrants} {route : Route}
  {request : AuthorizedRequest} {userId : Uuid} {grants : AuthorizationGrants}
  {ability : Ability} {required : RequiredPermission} {controllers : List ControllerWrapper}
  {wrapper : ControllerWrapper} {handler controller : Decorators} {name : String}

/-! ### What the guard reads -/

/-- The guard finds a decision on a route. -/
def Route.isDecided (route : Route) : Bool :=
  (route.get (·.isPublic)).getD false || (route.get (·.isAuthenticatedOnly)).getD false ||
    (route.get (·.required)).isSome

/-- Flags are set or missing, so the handler's and the controller's add up. -/
theorem flag_get {read : Decorators → Option Bool} (hhandler : read handler ≠ some false)
    (hcontroller : read controller ≠ some false) :
    (Route.get ⟨handler, controller⟩ read).getD false =
      (decide (read handler = some true) || decide (read controller = some true)) := by
  unfold Route.get
  cases hread : read handler with
  | none =>
    cases hread' : read controller with
    | none => rfl
    | some flag => cases flag with
      | true => rfl
      | false => exact absurd hread' hcontroller
  | some flag => cases flag with
    | true => rfl
    | false => exact absurd hread hhandler

/-- The audit looks for what the guard reads. -/
theorem isDecided_eq (hhandler : handler.IsDeclared) (hcontroller : controller.IsDeclared) :
    Route.isDecided ⟨handler, controller⟩ =
      (controller.hasAuthorizationDecision || handler.hasAuthorizationDecision) := by
  have hrequired : (Route.get ⟨handler, controller⟩ (·.required)).isSome =
      (handler.required.isSome || controller.required.isSome) := Option.isSome_or
  rw [Route.isDecided, flag_get hhandler.1 hcontroller.1, flag_get hhandler.2 hcontroller.2,
    hrequired, Decorators.hasAuthorizationDecision, Decorators.hasAuthorizationDecision]
  ac_rfl

/-! ### Whom the guard admits -/

/-- Somebody gets through with some request, whatever grants that may take. -/
def Admits (route : Route) : Prop :=
  ∃ loadGrants request ability, canActivate loadGrants route request = .ok ability

theorem canActivate_of_undecided (hroute : route.isDecided = false)
    (huser : request.user = some userId) (hgrants : loadGrants userId = .ok grants)
    (hability : createForUser userId grants = .ok ability) :
    canActivate loadGrants route request =
      .error (.api (Errors.permissionDenied "unknown" "")) := by
  simp only [Route.isDecided, Bool.or_eq_false_iff, Option.isSome_eq_false_iff,
    Option.isNone_iff_eq_none] at hroute
  obtain ⟨⟨hpublic, hauthenticated⟩, hrequired⟩ := hroute
  simp [canActivate, hpublic, huser, hgrants, hability, hauthenticated, hrequired]

theorem not_admits_of_undecided (hroute : route.isDecided = false) : ¬ Admits route := by
  rintro ⟨loadGrants, request, admitted, hadmitted⟩
  have hpublic : (route.get (·.isPublic)).getD false = false := by
    simp only [Route.isDecided, Bool.or_eq_false_iff] at hroute
    exact hroute.1.1
  cases huser : request.user with
  | none => simp [canActivate, hpublic, huser] at hadmitted
  | some userId =>
    cases hgrants : loadGrants userId with
    | error failure => simp [canActivate, hpublic, huser, hgrants] at hadmitted
    | ok grants =>
      cases hability : createForUser userId grants with
      | error message => simp [canActivate, hpublic, huser, hgrants, hability] at hadmitted
      | ok ability =>
        rw [canActivate_of_undecided hroute huser hgrants hability] at hadmitted
        cases hadmitted

/-- The rule of a platform administrator. -/
def manageAllRule : Rule := ⟨"manage", "all", none⟩

theorem relevant_manageAllRule (action subject : String) :
    manageAllRule.relevant action subject = true := by
  simp [Rule.relevant, covers, manageAllRule]

theorem matchesConditions_manageAllRule (record : Record) :
    manageAllRule.matchesConditions record = true := rfl

/-- Whoever manages everything passes every required permission that names a workspace. -/
theorem authorize_of_manageAll (hrule : manageAllRule ∈ ability) (workspaceId : Uuid) :
    authorize ability required (some workspaceId) userId = .ok () := by
  have htype : ∀ action subject, ability.canType action subject = true := fun action subject =>
    List.any_eq_true.mpr ⟨_, hrule, relevant_manageAllRule action subject⟩
  have hrecord : ∀ action subject record, ability.can action subject record = true :=
    fun action subject record => List.any_eq_true.mpr
      ⟨_, hrule, by simp [relevant_manageAllRule, matchesConditions_manageAllRule]⟩
  have hadministers : hasNonOwnerScopedRule ability required.action required.subject = true := by
    unfold hasNonOwnerScopedRule
    split
    · exact htype _ _
    · have hcondition : manageAllRule.condition = none := rfl
      exact List.any_eq_true.mpr ⟨_, hrule, by simp [relevant_manageAllRule, hcondition]⟩
  have hallowed : isAllowed ability required (some workspaceId) userId = true := by
    simp only [isAllowed, hrecord, htype, ite_self]
  simp [authorize, hadministers, hallowed]

def adminGrants : AuthorizationGrants := ⟨[manageEverything.toPermissionGrant], []⟩

theorem exists_manageAll : ∃ ability, createForUser "admin" adminGrants = .ok ability ∧
    manageAllRule ∈ ability := by
  refine ⟨_, rfl, ?_⟩
  decide +kernel

/-- A platform administrator who names a workspace gets through wherever there is a decision. -/
theorem admits_of_decided (hroute : route.isDecided = true) : Admits route := by
  obtain ⟨ability, hability, hrule⟩ := exists_manageAll
  have hworkspace : resolveWorkspaceId ⟨some "admin", fun _ => some "workspace", none⟩ =
      some "workspace" := by decide
  refine ⟨fun _ => .ok adminGrants, ⟨some "admin", fun _ => some "workspace", none⟩, ?_⟩
  simp only [canActivate, hability, hworkspace]
  split
  · exact ⟨_, rfl⟩
  · next hpublic =>
    split
    · exact ⟨_, rfl⟩
    · next hauthenticated =>
      cases hrequired : route.get (·.required) with
      | none =>
        rw [Bool.not_eq_true] at hpublic hauthenticated
        rw [Route.isDecided, hpublic, hauthenticated, hrequired] at hroute
        cases hroute
      | some required =>
        simp only [authorize_of_manageAll hrule]
        exact ⟨_, rfl⟩

theorem admits_iff : Admits route ↔ route.isDecided = true := by
  constructor
  · intro h
    by_contra hroute
    exact not_admits_of_undecided (Bool.eq_false_iff.mpr hroute) h
  · exact admits_of_decided

/-! ### What the audit lists -/

theorem undecided_eq (h : wrapper.IsDeclared) : wrapper.undecided =
    (wrapper.routes.filter fun entry => !entry.2.isDecided).map Prod.fst := by
  unfold ControllerWrapper.undecided ControllerWrapper.routes
  cases hmetatype : wrapper.metatype with
  | none => rfl
  | some metatype =>
    obtain ⟨name, decorators⟩ := metatype
    have hcontroller : decorators.IsDeclared := h.1 (name, decorators) hmetatype
    by_cases hinstance : wrapper.hasInstance = true
    · simp only [hinstance, Bool.not_true, Bool.false_or, if_true, List.filter_map,
        List.map_map, List.filter_filter]
      split
      · next hdecided =>
        symm
        rw [List.map_eq_nil_iff, List.filter_eq_nil_iff]
        intro method hmethod
        have hdecision := isDecided_eq (h.2 method hmethod) hcontroller
        simp [Function.comp, hdecision, hdecided]
      · next hundecided =>
        rw [Bool.not_eq_true] at hundecided
        have hfilter : wrapper.methods.filter (fun method =>
            method.isRouted && !method.decorators.hasAuthorizationDecision) =
            wrapper.methods.filter fun method =>
              !(Route.isDecided ⟨method.decorators, decorators⟩) && method.isRouted := by
          apply List.filter_congr
          intro method hmethod
          rw [isDecided_eq (h.2 method hmethod) hcontroller, hundecided, Bool.false_or,
            Bool.and_comm]
        rw [hfilter]
        rfl
    · simp [hinstance]

theorem findUndecidedHandlers_eq (h : ∀ wrapper ∈ controllers, wrapper.IsDeclared) :
    findUndecidedHandlers controllers =
      ((routesOf controllers).filter fun entry => !entry.2.isDecided).map Prod.fst := by
  rw [findUndecidedHandlers, routesOf, List.filter_flatMap, List.map_flatMap]
  exact List.flatMap_congr fun wrapper hwrapper => undecided_eq (h wrapper hwrapper)

/-- A process whose routes are declared with the decorators starts exactly when the guard opens
each of them to somebody. The audit lists those that it opens to nobody, and there a caller who is
signed in is refused as without the permission `unknown`. -/
theorem route_audit_agrees (hdeclared : ∀ wrapper ∈ controllers, wrapper.IsDeclared) :
    (auditRoutes controllers = .ok () ↔ ∀ entry ∈ routesOf controllers, Admits entry.2) ∧
    (∀ name, name ∈ findUndecidedHandlers controllers ↔
      ∃ route, (name, route) ∈ routesOf controllers ∧ ¬ Admits route) ∧
    ∀ entry ∈ routesOf controllers, ¬ Admits entry.2 →
      ∀ loadGrants request userId grants ability, request.user = some userId →
        loadGrants userId = .ok grants → createForUser userId grants = .ok ability →
        canActivate loadGrants entry.2 request =
          .error (.api (Errors.permissionDenied "unknown" "")) := by
  have hlisted : ∀ name, name ∈ findUndecidedHandlers controllers ↔
      ∃ route, (name, route) ∈ routesOf controllers ∧ ¬ Admits route := by
    intro name
    rw [findUndecidedHandlers_eq hdeclared, List.mem_map]
    constructor
    · rintro ⟨entry, hentry, rfl⟩
      obtain ⟨hmem, hundecided⟩ := List.mem_filter.mp hentry
      rw [Bool.not_eq_true'] at hundecided
      exact ⟨entry.2, hmem, not_admits_of_undecided hundecided⟩
    · rintro ⟨route, hmem, hadmits⟩
      refine ⟨(name, route), List.mem_filter.mpr ⟨hmem, ?_⟩, rfl⟩
      rw [admits_iff, Bool.not_eq_true] at hadmits
      simp [hadmits]
  refine ⟨?_, hlisted, ?_⟩
  · have hnil : auditRoutes controllers = .ok () ↔ findUndecidedHandlers controllers = [] := by
      by_cases hpos : (findUndecidedHandlers controllers).length > 0
      · rw [auditRoutes, if_pos hpos]
        simp [List.ne_nil_of_length_pos hpos]
      · have hempty : findUndecidedHandlers controllers = [] :=
          List.eq_nil_of_length_eq_zero (by omega)
        rw [auditRoutes, if_neg hpos, hempty]
        simp
    rw [hnil, List.eq_nil_iff_forall_not_mem]
    constructor
    · intro hnone entry hentry
      by_contra hadmits
      exact hnone entry.1 ((hlisted entry.1).mpr ⟨entry.2, hentry, hadmits⟩)
    · intro hall name hname
      obtain ⟨route, hmem, hadmits⟩ := (hlisted name).mp hname
      exact hadmits (hall (name, route) hmem)
  · intro entry _ hadmits loadGrants request userId grants ability huser hgrants hability
    rw [admits_iff, Bool.not_eq_true] at hadmits
    exact canActivate_of_undecided hadmits huser hgrants hability

/-! ### A controller that forgot one -/

def undeclared : Decorators := ⟨none, none, none⟩

/-- A public route, a helper, and a route without a decision. -/
def sampleController : ControllerWrapper where
  hasInstance := true
  metatype := some ("UsersController", undeclared)
  methods := [⟨"register", true, true, { undeclared with isPublic := some true }⟩,
    ⟨"helper", true, false, undeclared⟩, ⟨"findAll", true, true, undeclared⟩]

theorem route_audit_agrees_forgotten :
    auditRoutes [sampleController] ≠ .ok () ∧
      ∃ route, ("UsersController#findAll", route) ∈ routesOf [sampleController] ∧
        ¬ Admits route := by
  have hdeclared : ∀ wrapper ∈ [sampleController], wrapper.IsDeclared := by decide
  have hlisted : "UsersController#findAll" ∈ findUndecidedHandlers [sampleController] := by
    decide +kernel
  obtain ⟨hstarts, hnames, -⟩ := route_audit_agrees hdeclared
  obtain ⟨route, hmem, hadmits⟩ := (hnames _).mp hlisted
  exact ⟨fun hok => hadmits (hstarts.mp hok _ hmem), route, hmem, hadmits⟩

end NestApi
