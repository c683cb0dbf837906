import NestApi.Authorization.PermissionsGuard
import NestApi.Common.Text

/-!
# What requests are counted under

The rate limiter counts a request under a tracker: that of its user if a verified access token
names one and the route is not public, else that of its address. The forms for a password share a
key of the identifier and the address.
-/

namespace NestApi

/-! ### Bearer tokens -/

def isVisible (u : CodeUnit) : Bool := !isWhiteSpace u

/-- The token of a header, by `/^bearer\s+(\S+)\s*$/i`. -/
def bearerToken (header : Text) : Option Text :=
  let rest := header.drop 6
  let token := (rest.dropWhile isWhiteSpace).takeWhile isVisible
  let after := (rest.dropWhile isWhiteSpace).dropWhile isVisible
  if (header.take 6).map asciiLower = text "bearer" ∧ rest.head?.any isWhiteSpace ∧
      token ≠ [] ∧ after.all isWhiteSpace then some token
  else none

/-- The token that `passport-jwt` authenticates: it matches `/(\S+)\s+(\S+)/` anywhere, and
lowers the case of the scheme. -/
def fromAuthHeaderAsBearerToken (header : Text) : Option Text :=
  let words := header.dropWhile isWhiteSpace
  let scheme := words.takeWhile isVisible
  let token := ((words.dropWhile isVisible).dropWhile isWhiteSpace).takeWhile isVisible
  if token ≠ [] ∧ scheme.map asciiLower = text "bearer" then some token else none

/-! ### Trackers -/

/-- The claims of a verified token that the limiter reads. -/
structure VerifiedClaims where
  sub : Option Text
  act : Option Text
  purpose : Option Text

/-- A request when the limiter sees it: the header, and the tracker that the library gives its
address. -/
structure ThrottledRequest where
  time : ℕ
  authorization : Option Text
  clientTracker : Text

/-- `jwtService.verifyAsync`: what it answers for a token at a time, if it does not throw. -/
abbrev VerifyToken := ℕ → Text → Option VerifiedClaims

variable (verify : VerifyToken)

def resolveAuthenticatedUserId (request : ThrottledRequest) : Option Text := do
  let token ← bearerToken (request.authorization.getD [])
  let payload ← verify request.time token
  if payload.purpose = none then payload.act.or payload.sub else none

def isPublicRoute (route : Route) : Bool := route.get (·.isPublic) = some true

/-- The user that a request is counted under. Without a route it cannot be shown to be one that is
not public. -/
def trackedUser (route : Option Route) (request : ThrottledRequest) : Option Text :=
  (if route.any fun route => !isPublicRoute route then resolveAuthenticatedUserId verify request
  else none).filter (· ≠ [])

def getTracker (route : Option Route) (request : ThrottledRequest) : Text :=
  match trackedUser verify route request with
  | some userId => text "user:" ++ userId
  | none => text "ip:" ++ request.clientTracker

/-! ### Sign-in forms -/

inductive SignInForm
  | restLogin
  | mcpSignIn
deriving DecidableEq

/-- A password that is sent to a form. The identifier may be no string. -/
structure SignInRequest where
  form : SignInForm
  identifier : Option Text
  ip : Option Text

def loginThrottleTracker (case : LowerCase) (request : SignInRequest) : Text :=
  ((request.identifier.map fun identifier => case.toLowerCase (trim identifier)).getD []) ++
    unit '|' :: request.ip.getD []

/-- The key is the same for each form. -/
def passwordSignInThrottleKey (sha256 : Text → Text) (_context : SignInForm) (tracker : Text)
    (throttlerName : Text) : Text :=
  sha256 (text "password-sign-in-" ++ throttlerName ++ text "-" ++ tracker)

/-- The key that a password is counted under. -/
def signInKey (case : LowerCase) (sha256 : Text → Text) (throttlerName : Text)
    (request : SignInRequest) : Text :=
  passwordSignInThrottleKey sha256 request.form (loginThrottleTracker case request) throttlerName

/-- The names that an account has, as they are stored. -/
structure SignInNames where
  email : Text
  username : Option Text

/-- `findByEmailOrUsername` finds the account by this identifier. -/
def SignInNames.isFoundBy (case : LowerCase) (account : SignInNames) (identifier : Text) : Bool :=
  account.email = case.toLowerCase identifier ||
    account.username = some (case.toLowerCase identifier)

end NestApi
