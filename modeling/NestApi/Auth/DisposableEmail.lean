import NestApi.Common.Text

/-!
# Disposable addresses

Registration refuses addresses of throwaway providers. The domain decides: two lists of the
operator come first, then the exact list and the wildcard list of a public package.
-/

namespace NestApi.DisposableEmail

/-- The four lists. -/
structure DomainLists where
  operatorAllowlist : List Text
  operatorDenylist : List Text
  disposableDomains : List Text
  disposableWildcardDomains : List Text

/-- The lists of the repository: the operator has added nothing to those of the package. -/
def packageLists (disposableDomains disposableWildcardDomains : List Text) : DomainLists :=
  ⟨[], [], disposableDomains, disposableWildcardDomains⟩

/-- The domain of an address with exactly one at sign, in lower case. -/
def extractEmailDomain (case : LowerCase) (email : Text) : Option Text :=
  match cut (unit '@') (case.toLowerCase (trim email)) with
  | none => none
  | some (before, after) =>
    if before = [] ∨ after = [] then none
    else if unit '@' ∈ after then none
    else some after

/-- The last step: the domain, and each suffix of it at a label. -/
def matchesWildcard (lists : DomainLists) (domain : Text) : Bool :=
  let parts := domain.splitOn (unit '.')
  (List.range parts.length).any fun labelIndex =>
    [unit '.'].intercalate (parts.drop labelIndex) ∈ lists.disposableWildcardDomains

def isDisposableEmail (case : LowerCase) (lists : DomainLists) (email : Text) : Bool :=
  match extractEmailDomain case email with
  | none => false
  | some domain =>
    if domain ∈ lists.operatorAllowlist then false
    else if domain ∈ lists.operatorDenylist then true
    else if domain ∈ lists.disposableDomains then true
    else matchesWildcard lists domain

/-- The first check of `register`: the domain that a refusal names. -/
def disallowedDomain (case : LowerCase) (lists : DomainLists) (email : Text) : Option Text :=
  if isDisposableEmail case lists email then some ((extractEmailDomain case email).getD [])
  else none

end NestApi.DisposableEmail
