import NestApi.Common.Unicode

/-!
# What a send limit counts against

An address is reduced to the mailbox it reaches, so that its spellings share one budget. The
reduction is a chain of rewrites of the text before the last at sign and of the domain.
-/

namespace NestApi.SendLimit

/-- What is used of `toLowerCase` beyond its boundaries: the quotes stay, lowering twice is
lowering once, and a text of the basic plane is lowered when each of its units is. -/
structure MailCase extends lowering : LowerCase where
  quotes : ∀ u ∈ text "\"\\", toLowerCase [u] = [u]
  lowered : ∀ t, toLowerCase (toLowerCase t) = toLowerCase t
  fixed_iff : ∀ t, (∀ u ∈ t, isSurrogate u = false) →
    (toLowerCase t = t ↔ ∀ u ∈ t, toLowerCase [u] = [u])

/-- `domainToASCII` makes no at sign. -/
structure DomainNames where
  domainToASCII : Text → Text
  no_at : ∀ domain, unit '@' ∉ domain → unit '@' ∉ domainToASCII domain

/-- `DOT_INSENSITIVE_DOMAINS`. -/
def dotInsensitiveDomains : List Text := [text "gmail.com", text "googlemail.com"]

def normalizeEmail (case : MailCase) (email : Text) : Text := case.toLowerCase (trim email)

/-- The text between two quotes, and any other text as it is. -/
def unquoted (localPart : Text) : Text :=
  if 1 < localPart.length ∧ localPart.head? = some (unit '"') ∧
      localPart.getLast? = some (unit '"') then localPart.tail.dropLast
  else localPart

/-- The text before the first plus sign, unless that is nothing. -/
def untagged (localPart : Text) : Text :=
  match cut (unit '+') localPart with
  | some (front, _) => if front = [] then localPart else front
  | none => localPart

/-- The ASCII form of a domain. Where there is none the domain stays. -/
def asciiDomain (names : DomainNames) (domain : Text) : Text :=
  if names.domainToASCII domain = [] then domain else names.domainToASCII domain

def withoutDots (t : Text) : Text := t.filter (· ≠ unit '.')

def canonicalEmailDestination (case : MailCase) (names : DomainNames) (email : Text) : Text :=
  let normalized := normalizeEmail case email
  match cutLast (unit '@') normalized with
  | none => normalized
  | some (before, after) =>
    if before = [] then normalized
    else
      let localPart := untagged (unquoted before)
      let domain := asciiDomain names after
      if domain ∈ dotInsensitiveDomains then
        withoutDots localPart ++ unit '@' :: text "gmail.com"
      else localPart ++ unit '@' :: domain

end NestApi.SendLimit
