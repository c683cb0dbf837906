import Mathlib.Algebra.GroupWithZero.Nat
import Mathlib.Data.Rat.Init

/-!
# JSON values
-/

namespace NestApi

/-- What `JSON.parse` makes. The names of an object are distinct. -/
inductive Json
  | null
  | bool (value : Bool)
  | num (value : ℚ)
  | str (value : String)
  | arr (items : List Json)
  | obj (fields : List (String × Json))

namespace Json

/-- A property of an object. -/
def get? : Json → String → Option Json
  | .obj fields, name => (fields.find? fun field => field.1 = name).map Prod.snd
  | _, _ => none

def asBool? : Json → Option Bool
  | .bool value => some value
  | _ => none

def asString? : Json → Option String
  | .str value => some value
  | _ => none

def asArray? : Json → Option (List Json)
  | .arr items => some items
  | _ => none

end Json

/-- `length` of a string: its UTF-16 code units. -/
def utf16Length (s : String) : ℕ := (s.toList.map fun c => if c.val < 0x10000 then 1 else 2).sum

end NestApi
