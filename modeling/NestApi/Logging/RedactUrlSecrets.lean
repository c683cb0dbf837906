import NestApi.Common.Percent

/-!
# Redacting what is logged of a request

A request is logged with its raw URL and with its parsed query. Both hide the values of the
parameters on one list of names. The raw URL is cut up by hand, so that what is kept stays as
the client sent it.
-/

namespace NestApi

def secretQueryParameterNames : List Text :=
  ["token", "access_token", "refresh_token", "id_token", "code", "secret", "password", "otp",
    "apikey", "api_key", "key", "signature", "sig", "x-amz-signature", "x-amz-credential",
    "x-amz-security-token", "x-goog-signature", "x-goog-credential", "skoid", "sktid", "skt",
    "ske", "sp", "se", "st", "sr", "sv"].map text

def personalQueryParameterNames : List Text := ["search"].map text

def redactedValue : Text := text "[redacted]"

def isRedactedParameter (case : LowerCase) (name : Text) : Bool :=
  case.toLowerCase name ∈ secretQueryParameterNames ||
    case.toLowerCase name ∈ personalQueryParameterNames

/-- A value of a parsed query. A repeated name has a list. -/
inductive QueryValue
  | one (value : Text)
  | many (values : List Text)
deriving DecidableEq

def redactQueryParameters (case : LowerCase) (query : List (Text × QueryValue)) :
    List (Text × QueryValue) :=
  query.map fun (name, value) =>
    (name, if isRedactedParameter case name then .one redactedValue else value)

/-- A parameter of the raw query. One without an equals sign has no value. -/
def redactParameter (case : LowerCase) (parameter : Text) : Text :=
  match cut (unit '=') parameter with
  | none => parameter
  | some (name, _) =>
    if isRedactedParameter case name then name ++ unit '=' :: redactedValue else parameter

def redactUrlSecrets (case : LowerCase) (url : Text) : Text :=
  match cut (unit '?') url with
  | none => url
  | some (pathPortion, queryPortion) =>
    pathPortion ++ unit '?' :: [unit '&'].intercalate
      ((queryPortion.splitOn (unit '&')).map (redactParameter case))

/-! ### Names on the list -/

variable {case : LowerCase} {name parameter : Text}

theorem names_plain : ∀ u ∈ caseBoundaries,
    ∀ listed ∈ secretQueryParameterNames ++ personalQueryParameterNames, u ∉ listed :=
  List.forall_iff_forall_mem.mp (by decide +kernel)

/-- A name on the list holds no percent sign, plus sign or space. -/
theorem not_mem_of_isRedactedParameter (h : isRedactedParameter case name = true)
    {u : CodeUnit} (hu : u ∈ caseBoundaries) : u ∉ name := by
  rw [← case.mem_iff hu]
  refine names_plain u hu _ (List.mem_append.mpr ?_)
  simpa [isRedactedParameter] using h

/-- The code is right about every name without a percent sign. -/
theorem isRedactedParameter_decode (h : unit '%' ∉ name) :
    isRedactedParameter case (decodeQueryComponent name) = isRedactedParameter case name := by
  rw [decodeQueryComponent_of_plain h]
  by_cases hplus : unit '+' ∈ name
  · -- Neither the plus sign nor the space it stands for is in a listed name.
    have hspace : unit ' ' ∈ name.map fun u => if u = unit '+' then unit ' ' else u :=
      List.mem_map.mpr ⟨unit '+', hplus, by simp⟩
    rw [Bool.eq_iff_iff]
    constructor
    · intro hlisted
      exact absurd hspace (not_mem_of_isRedactedParameter hlisted (by decide))
    · intro hlisted
      exact absurd hplus (not_mem_of_isRedactedParameter hlisted (by decide))
  · congr 1
    have hsame : ∀ u ∈ name, (if u = unit '+' then unit ' ' else u) = id u := fun u hu =>
      if_neg (ne_of_mem_of_not_mem hu hplus)
    rw [List.map_congr_left hsame, List.map_id]

end NestApi
