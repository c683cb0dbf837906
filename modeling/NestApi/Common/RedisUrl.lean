import NestApi.Common.Percent

/-!
# Redis connection URLs

A connection URL is parsed into connection options. Every error that shows the URL shows it
without its credentials. The URL parser itself belongs to the platform.
-/

namespace NestApi.RedisUrl

/-- The parts of a parsed URL. -/
structure ParsedUrl where
  protocol : Text
  username : Text
  password : Text
  hostname : Text
  port : Text
  pathname : Text

structure ParsedRedisUrl where
  host : Text
  port : ℕ
  username : Option Text
  password : Option Text
  db : ℕ
  isSecureScheme : Bool

def defaultRedisPort : ℕ := 6379

def defaultRedisDatabaseIndex : ℕ := 0

/-- A unit that a scheme may have after its first letter. -/
def isSchemeUnit (u : CodeUnit) : Bool :=
  isAsciiLetter u || isDigit u || u = unit '+' || u = unit '.' || u = unit '-'

/-- `REDIS_URL_CREDENTIAL_PATTERN`: a scheme, a colon and up to two slashes, then everything
up to the first at sign. The first part is the group that is kept, the second what follows
the match. -/
def matchCredentials (url : Text) : Option (Text × Text) :=
  if url.head?.any isAsciiLetter then
    let scheme := url.takeWhile isSchemeUnit
    match url.drop scheme.length with
    | [] => none
    | colon :: tail =>
      if colon = unit ':' then
        let slashes := (tail.take 2).takeWhile (· = unit '/')
        (cut (unit '@') (tail.drop slashes.length)).map fun found =>
          (scheme ++ unit ':' :: slashes, found.2)
      else none
  else none

/-- Strip the credentials. -/
def redactRedisUrl (url : Text) : Text :=
  match matchCredentials url with
  | some (kept, rest) => kept ++ text "***@" ++ rest
  | none => url

/-! ### The errors -/

def invalidUrl (shown : Text) : Text := text "Invalid Redis URL: " ++ shown

def invalidScheme (protocol : Text) : Text :=
  text "Invalid Redis URL scheme \"" ++ protocol ++ text "\" — expected redis: or rediss:"

def invalidDatabaseIndex (shown : Text) : Text :=
  text "Invalid Redis logical database index in URL: " ++ shown ++
    text " — expected a non-negative integer path segment"

def invalidPercentEncoding (shown : Text) : Text :=
  text "Invalid percent-encoding in the credentials of Redis URL: " ++ shown ++
    text ". Percent-encode a literal \"%\" as \"%25\"."

/-- An option that is left out when it is empty. -/
def nonempty (t : Text) : Option Text := if t = [] then none else some t

/-- The path without its first slash. -/
def databaseSegment (pathname : Text) : Text :=
  if pathname.head? = some (unit '/') then pathname.tail else pathname

def parseRedisUrl (parseUrl : Text → Option ParsedUrl) (url : Text) :
    Except Text ParsedRedisUrl := do
  let some parsedUrl := parseUrl url | throw (invalidUrl (redactRedisUrl url))
  if parsedUrl.protocol ≠ text "redis:" ∧ parsedUrl.protocol ≠ text "rediss:" then
    throw (invalidScheme parsedUrl.protocol)
  let segment := databaseSegment parsedUrl.pathname
  -- The segment is not echoed: a malformed URL has its credentials in the path.
  if ¬ segment.all isDigit then
    throw (invalidDatabaseIndex (redactRedisUrl url))
  let some username := decodeURIComponent parsedUrl.username
    | throw (invalidPercentEncoding (redactRedisUrl url))
  let some password := decodeURIComponent parsedUrl.password
    | throw (invalidPercentEncoding (redactRedisUrl url))
  return {
    host := parsedUrl.hostname
    port := if parsedUrl.port = [] then defaultRedisPort else decimalValue parsedUrl.port
    username := nonempty username
    password := nonempty password
    db := if segment = [] then defaultRedisDatabaseIndex else decimalValue segment
    isSecureScheme := parsedUrl.protocol = text "rediss:" }

/-- An error message shows the URL as `redactRedisUrl` gives it, or the protocol, and nothing
else of the input. -/
theorem message_of_parseRedisUrl {parseUrl : Text → Option ParsedUrl} {url message : Text}
    (h : parseRedisUrl parseUrl url = .error message) :
    message = invalidUrl (redactRedisUrl url) ∨
      message = invalidDatabaseIndex (redactRedisUrl url) ∨
      message = invalidPercentEncoding (redactRedisUrl url) ∨
      ∃ parsedUrl, parseUrl url = some parsedUrl ∧ message = invalidScheme parsedUrl.protocol := by
  unfold parseRedisUrl at h
  cases hparse : parseUrl url with
  | none =>
    simp only [hparse, throw, throwThe, MonadExceptOf.throw] at h
    exact .inl (Except.error.inj h).symm
  | some parsedUrl =>
    simp only [hparse] at h
    split at h
    · exact .inr (.inr (.inr ⟨parsedUrl, rfl, (Except.error.inj h).symm⟩))
    · split at h
      · exact .inr (.inl (Except.error.inj h).symm)
      · cases husername : decodeURIComponent parsedUrl.username with
        | none =>
          simp only [husername] at h
          exact .inr (.inr (.inl (Except.error.inj h).symm))
        | some username =>
          cases hpassword : decodeURIComponent parsedUrl.password with
          | none =>
            simp only [husername, hpassword] at h
            exact .inr (.inr (.inl (Except.error.inj h).symm))
          | some password =>
            simp only [husername, hpassword] at h
            cases h

end NestApi.RedisUrl
