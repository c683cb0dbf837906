import NestApi.Authorization.PermissionsGuard

/-!
# The audit of the routes

A process walks its controllers when it starts, and refuses to start if a method that is routed
declares no authorization decision, and neither does its controller.
-/

namespace NestApi

/-- A property of the prototype of a controller. -/
structure ControllerMethod where
  name : String
  isFunction : Bool
  isRouteHandler : Bool
  decorators : Decorators

/-- A controller as the discovery finds it: its class, if there is one, with its name. -/
structure ControllerWrapper where
  hasInstance : Bool
  metatype : Option (String × Decorators)
  methods : List ControllerMethod

def Decorators.hasAuthorizationDecision (target : Decorators) : Bool :=
  target.isPublic = some true || target.isAuthenticatedOnly = some true || target.required.isSome

def ControllerMethod.isRouted (method : ControllerMethod) : Bool :=
  method.isFunction && method.isRouteHandler

/-- One turn of the loop over the controllers. -/
def ControllerWrapper.undecided (wrapper : ControllerWrapper) : List String :=
  match wrapper.metatype with
  | none => []
  | some (name, decorators) =>
    if !wrapper.hasInstance || decorators.hasAuthorizationDecision then []
    else
      (wrapper.methods.filter fun method =>
        method.isRouted && !method.decorators.hasAuthorizationDecision).map fun method =>
          s!"{name}#{method.name}"

def findUndecidedHandlers (controllers : List ControllerWrapper) : List String :=
  controllers.flatMap ControllerWrapper.undecided

def undecidedHandlersError (undecidedHandlers : List String) : String :=
  s!"{undecidedHandlers.length} route handler(s) declare no authorization decision:\n" ++
    "\n".intercalate (undecidedHandlers.map fun handler => s!"  - {handler}") ++
    "\n\nEvery handler must carry exactly one of @Public(), @AuthenticatedOnly(), " ++
    "or @RequirePermission(action, subject). The application will not start."

/-- `onApplicationBootstrap`. -/
def auditRoutes (controllers : List ControllerWrapper) : Except String Unit :=
  let undecidedHandlers := findUndecidedHandlers controllers
  if undecidedHandlers.length > 0 then .error (undecidedHandlersError undecidedHandlers)
  else .ok ()

/-! ### The routes of a process -/

/-- The routes that requests can reach, under the names that the audit gives them. -/
def ControllerWrapper.routes (wrapper : ControllerWrapper) : List (String × Route) :=
  match wrapper.metatype with
  | none => []
  | some (name, decorators) =>
    if wrapper.hasInstance then
      (wrapper.methods.filter ControllerMethod.isRouted).map fun method =>
        (s!"{name}#{method.name}", ⟨method.decorators, decorators⟩)
    else []

def routesOf (controllers : List ControllerWrapper) : List (String × Route) :=
  controllers.flatMap ControllerWrapper.routes

/-- What the decorators can leave: they set a flag, and never clear one. -/
def Decorators.IsDeclared (target : Decorators) : Prop :=
  target.isPublic ≠ some false ∧ target.isAuthenticatedOnly ≠ some false

instance (target : Decorators) : Decidable target.IsDeclared :=
  inferInstanceAs (Decidable (_ ∧ _))

def ControllerWrapper.IsDeclared (wrapper : ControllerWrapper) : Prop :=
  (∀ metatype ∈ wrapper.metatype, metatype.2.IsDeclared) ∧
    ∀ method ∈ wrapper.methods, method.decorators.IsDeclared

instance (wrapper : ControllerWrapper) : Decidable wrapper.IsDeclared :=
  inferInstanceAs (Decidable (_ ∧ _))

end NestApi
