import NestApi.Common.Text

/-!
# Messages of errors

What was thrown as one line of text, with the chain of its causes. The chain may be endless: an
error can be its own cause.
-/

namespace NestApi

/-- What a `catch` binds, or a `cause` holds: an `Error`, known by its identity, or another value
with what `String` makes of it. -/
inductive Caught
  | error (reference : ℕ)
  | value (string : Text)
  | undefined
  | null

/-- An `Error`, with its `code` where that is a string. -/
structure ErrorObject where
  message : Text
  code : Option Text
  cause : Caught

def maxCauseDepth : ℕ := 4

variable (errors : ℕ → ErrorObject)

def describeCause (error : ErrorObject) : Text :=
  match error.code with
  | some code => code ++ text ": " ++ error.message
  | none => error.message

/-- The loop of `collectCauseChain`, with room for so many more descriptions. -/
def causesFrom (visited : List ℕ) : ℕ → Caught → List Text
  | 0, _ => []
  | room + 1, .error reference =>
    if reference ∈ visited then []
    else describeCause (errors reference) ::
      causesFrom (reference :: visited) room (errors reference).cause
  | _ + 1, .value string => [string]
  | _ + 1, .undefined => []
  | _ + 1, .null => []

def collectCauseChain : Caught → List Text
  | .error reference => causesFrom errors [] maxCauseDepth (errors reference).cause
  | _ => []

def primaryMessage : Caught → Text
  | .error reference => (errors reference).message
  | .value string => string
  | .undefined => text "undefined"
  | .null => text "null"

def formatErrorMessage (error : Caught) : Text :=
  let causeChain := collectCauseChain errors error
  if causeChain.isEmpty then primaryMessage errors error
  else
    primaryMessage errors error ++ text " (cause: " ++
      (text " <- ").intercalate causeChain ++ text ")"

end NestApi
