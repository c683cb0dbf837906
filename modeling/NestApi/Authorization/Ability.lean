import NestApi.Authorization.Catalog

/-!
# Compiling grants into an ability

Grants reach the factory as untrusted JSON. The factory turns each permission into a
rule whose condition is derived from the permission's scope and ownership, and the
rule engine allows an action when some rule matches. Rules are only ever positive,
so the order of rules never decides.
-/

namespace NestApi.Authorization

/-- A JavaScript value as far as the factory can tell values apart. -/
inductive JsValue
  | undefined | null
  | boolean (b : Bool)
  | number (n : Int)
  | string (s : String)
  | object (ref : ℕ)
deriving DecidableEq

/-- A record handed to an instance check. A missing key reads as `undefined`. -/
abbrev Record := String → JsValue

/-- The record with one key. -/
def Record.of (key : String) (value : String) : Record := fun k =>
  if k = key then .string value else .undefined

/-- The record with one more key. -/
def Record.with (r : Record) (key : String) (value : String) : Record := fun k =>
  if k = key then .string value else r k

/-- A permission as it reaches the factory. -/
structure PermissionGrant where
  action : String
  subject : String
  scope : JsValue
  ownership : JsValue

/-- A membership as it reaches the factory. -/
structure WorkspaceMembershipGrant where
  workspaceId : JsValue
  status : JsValue
  permissions : List PermissionGrant

/-- Everything the factory reads about a user. -/
structure AuthorizationGrants where
  platformPermissions : List PermissionGrant
  workspaceMemberships : List WorkspaceMembershipGrant

/-- A catalog permission as a grant. -/
def PermissionDefinition.toPermissionGrant (p : PermissionDefinition) : PermissionGrant :=
  ⟨p.action.value, p.subject.value, .string p.scope.value, .string p.ownership.value⟩

/-! ### Subject keys -/

/-- `subjectOwnerKey`: the column that ties a subject to its owning user. -/
def subjectOwnerKey : String → Option String
  | "User" => some "id"
  | "DeviceToken" => some "userId"
  | "WorkspaceMembership" => some "userId"
  | _ => none

/-- The column that ties a subject to its owning workspace. -/
def subjectTenantKey : String → Option String
  | "Workspace" => some "id"
  | "WorkspaceMembership" => some "workspaceId"
  | "WorkspaceInvitation" => some "workspaceId"
  | _ => none

/-- What a property that every object inherits turns into when it is used as a key.
The membership test `subject in MAP` sees these too. -/
def inheritedKey : String → Option String
  | "__proto__" => some "[object Object]"
  | "constructor" => some "function Object() \x7b [native code] \x7d"
  | "hasOwnProperty" => some "function hasOwnProperty() \x7b [native code] \x7d"
  | "isPrototypeOf" => some "function isPrototypeOf() \x7b [native code] \x7d"
  | "propertyIsEnumerable" => some "function propertyIsEnumerable() \x7b [native code] \x7d"
  | "toString" => some "function toString() \x7b [native code] \x7d"
  | "toLocaleString" => some "function toLocaleString() \x7b [native code] \x7d"
  | "valueOf" => some "function valueOf() \x7b [native code] \x7d"
  | "__defineGetter__" => some "function __defineGetter__() \x7b [native code] \x7d"
  | "__defineSetter__" => some "function __defineSetter__() \x7b [native code] \x7d"
  | "__lookupGetter__" => some "function __lookupGetter__() \x7b [native code] \x7d"
  | "__lookupSetter__" => some "function __lookupSetter__() \x7b [native code] \x7d"
  | _ => none

/-- The owner column of a subject. A subject without one is refused. -/
def resolveOwnerKey (subject : String) : Except String String :=
  match (subjectOwnerKey subject).or (inheritedKey subject) with
  | some key => .ok key
  | none => .error <|
      s!"Subject \"{subject}\" has an ownership-scoped permission but no entry in " ++
      "SUBJECT_OWNER_KEY. Add its owning-user column to " ++
      "src/common/authorization/subject-key.ts."

/-- The tenant column of a subject. A subject without one is refused. -/
def resolveTenantKey (subject : String) : Except String String :=
  match (subjectTenantKey subject).or (inheritedKey subject) with
  | some key => .ok key
  | none => .error <|
      s!"Subject \"{subject}\" has a workspace-scoped permission but no entry in " ++
      "SUBJECT_TENANT_KEY. Add its owning-workspace column to " ++
      "src/common/authorization/subject-key.ts."

/-! ### The rule engine -/

/-- A positive rule, conditioned on at most one column. -/
structure Rule where
  action : String
  subject : String
  condition : Option (String × String)
deriving DecidableEq

/-- A rule made by the builder. A rule without a subject is about `all`. -/
def Rule.can (action subject : String) (condition : Option (String × String)) : Rule :=
  ⟨action, if subject = "" then "all" else subject, condition⟩

/-- `manage` matches every action and `all` every subject. -/
def covers (granted asked : String × String) : Bool :=
  (granted.1 = asked.1 || granted.1 = "manage") &&
    (granted.2 = asked.2 || granted.2 = "all" || granted.2 = "")

/-- The rule speaks about an action on a subject. -/
def Rule.relevant (rule : Rule) (action subject : String) : Bool :=
  covers (rule.action, rule.subject) (action, subject)

/-- The rule's condition holds of a record. -/
def Rule.matchesConditions (rule : Rule) (record : Record) : Bool :=
  match rule.condition with
  | none => true
  | some (key, value) => record key = .string value

/-- What a user may do: the rules of all grants. -/
abbrev Ability := List Rule

/-- The instance check. -/
def Ability.can (ability : Ability) (action subject : String) (record : Record) : Bool :=
  ability.any fun rule => rule.relevant action subject && rule.matchesConditions record

/-- The subject-type check. Conditions are ignored: there is no record to test. -/
def Ability.canType (ability : Ability) (action subject : String) : Bool :=
  ability.any fun rule => rule.relevant action subject

/-! ### `AbilityFactory` -/

/-- Compile one platform-scope permission. An unknown ownership tag gives no rule. -/
def grant (permission : PermissionGrant) (userId : String) : Except String (List Rule) :=
  if permission.ownership = .string PermissionOwnership.own.value then do
    let key ← resolveOwnerKey permission.subject
    pure [Rule.can permission.action permission.subject (some (key, userId))]
  else if permission.ownership = .string PermissionOwnership.any.value then
    pure [Rule.can permission.action permission.subject none]
  else
    pure []

/-- The platform loop body: a permission of another scope gives no rule. -/
def grantPlatform (userId : String) (permission : PermissionGrant) :
    Except String (List Rule) :=
  if permission.scope ≠ .string RoleScope.platform.value then pure []
  else grant permission userId

/-- The inner loop body of a membership: bounded by the tenant, always. -/
def grantWorkspace (workspaceId : String) (permission : PermissionGrant) :
    Except String (List Rule) :=
  if permission.scope ≠ .string RoleScope.workspace.value then pure []
  else do
    let key ← resolveTenantKey permission.subject
    pure [Rule.can permission.action permission.subject (some (key, workspaceId))]

/-- Run the loop body over a list and collect the rules. -/
def collectRules {α : Type} (f : α → Except String (List Rule)) : List α →
    Except String (List Rule)
  | [] => .ok []
  | x :: xs => do
    let rules ← f x
    let rest ← collectRules f xs
    pure (rules ++ rest)

/-- The membership loop body. Only an active membership of a named workspace counts. -/
def grantMembership (membership : WorkspaceMembershipGrant) : Except String (List Rule) :=
  if membership.status ≠ .string WorkspaceMembershipStatus.active.value then pure []
  else
    match membership.workspaceId with
    | .string workspaceId =>
      if workspaceId = "" then pure []
      else collectRules (grantWorkspace workspaceId) membership.permissions
    | _ => pure []

/-- Compile a user's grants into one ability. -/
def createForUser (userId : String) (grants : AuthorizationGrants) : Except String Ability := do
  let intrinsic ← collectRules (grantPlatform userId)
    (authenticatedUserPermissions.map PermissionDefinition.toPermissionGrant)
  let platform ← collectRules (grantPlatform userId) grants.platformPermissions
  let memberships ← collectRules grantMembership grants.workspaceMemberships
  pure (intrinsic ++ platform ++ memberships)

end NestApi.Authorization
