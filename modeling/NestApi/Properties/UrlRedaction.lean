import Mathlib.Data.List.Forall2
import NestApi.Logging.RedactUrlSecrets

/-!
# The raw URL against the parsed query

Both redactions go by the name of a parameter: the query's by the decoded name, the URL's by
the name as it is spelled. They agree unless a listed name is spelled with an escape.
-/

namespace NestApi

variable {case : LowerCase} {name value parameter : Text}

/-- The parameters that a parsed query hides. -/
def HiddenInQuery (case : LowerCase) (name : Text) : Prop :=
  ∀ query value, (name, value) ∈ redactQueryParameters case query → value = .one redactedValue

theorem hiddenInQuery_iff : HiddenInQuery case name ↔ isRedactedParameter case name = true := by
  constructor
  · intro hhidden
    by_contra hnot
    have hvalue := hhidden [(name, .many [])] (.many []) (by simp [redactQueryParameters, hnot])
    cases hvalue
  · intro hlisted query value hmem
    obtain ⟨entry, -, heq⟩ := List.mem_map.mp hmem
    obtain ⟨rfl, rfl⟩ := Prod.mk.inj heq
    simp [hlisted]

/-- A raw parameter is redacted as a query parser reads it: its value is replaced when the
parsed query hides its decoded name, and nothing else changes. -/
def RedactedAsParsed (case : LowerCase) (before after : Text) : Prop :=
  match cut (unit '=') before with
  | none => after = before
  | some (name, _) =>
    (HiddenInQuery case (decodeQueryComponent name) →
      after = name ++ unit '=' :: redactedValue) ∧
    (¬ HiddenInQuery case (decodeQueryComponent name) → after = before)

/-- The redacted URL has the path of the URL, and each of its parameters redacted as a query
parser reads it. -/
def UrlRedactedAsParsed (case : LowerCase) (url redacted : Text) : Prop :=
  match cut (unit '?') url with
  | none => redacted = url
  | some (pathPortion, queryPortion) => ∃ parameters,
    redacted = pathPortion ++ unit '?' :: [unit '&'].intercalate parameters ∧
      List.Forall₂ (RedactedAsParsed case) (queryPortion.splitOn (unit '&')) parameters

/-- No listed name is spelled with a percent sign in front of a value that is still to hide. -/
def NoEscapedName (case : LowerCase) (url : Text) : Prop :=
  ∀ pathPortion queryPortion, cut (unit '?') url = some (pathPortion, queryPortion) →
    ∀ parameter ∈ queryPortion.splitOn (unit '&'), ∀ name value,
      cut (unit '=') parameter = some (name, value) → value ≠ redactedValue →
        isRedactedParameter case (decodeQueryComponent name) = true → unit '%' ∉ name

/-! ### One parameter -/

/-- What a parameter should become. -/
def wanted (case : LowerCase) (parameter : Text) : Text :=
  match cut (unit '=') parameter with
  | none => parameter
  | some (name, _) =>
    if isRedactedParameter case (decodeQueryComponent name) then
      name ++ unit '=' :: redactedValue
    else parameter

theorem redactedAsParsed_iff {after : Text} :
    RedactedAsParsed case parameter after ↔ wanted case parameter = after := by
  unfold RedactedAsParsed wanted
  cases cut (unit '=') parameter with
  | none => exact eq_comm
  | some found =>
    simp only [hiddenInQuery_iff]
    split
    · next hlisted =>
      exact ⟨fun h => (h.1 hlisted).symm, fun h => ⟨fun _ => h.symm, absurd hlisted⟩⟩
    · next hlisted =>
      exact ⟨fun h => (h.2 hlisted).symm, fun h => ⟨(absurd · hlisted), fun _ => h.symm⟩⟩

/-- A parameter becomes what it should unless its name hides behind an escape. -/
theorem redactParameter_eq_wanted_iff : redactParameter case parameter = wanted case parameter ↔
    ∀ name value, cut (unit '=') parameter = some (name, value) → value ≠ redactedValue →
      isRedactedParameter case (decodeQueryComponent name) = true → unit '%' ∉ name := by
  unfold redactParameter wanted
  cases hcut : cut (unit '=') parameter with
  | none => simp
  | some found =>
    obtain ⟨name, value⟩ := found
    obtain ⟨rfl, -⟩ := cut_eq_some.mp hcut
    constructor
    · rintro hsame name' value' hfound hvalue hlisted hpercent
      obtain ⟨rfl, rfl⟩ := Prod.mk.inj (Option.some_inj.mp hfound)
      have hraw : ¬ isRedactedParameter case name = true := fun h =>
        not_mem_of_isRedactedParameter h (by decide) hpercent
      simp only [hraw, hlisted, if_true, if_false, Bool.false_eq_true] at hsame
      exact hvalue (List.cons.inj (List.append_cancel_left hsame)).2
    · intro hplain
      by_cases hpercent : unit '%' ∈ name
      · have hraw : ¬ isRedactedParameter case name = true := fun h =>
          not_mem_of_isRedactedParameter h (by decide) hpercent
        by_cases hlisted : isRedactedParameter case (decodeQueryComponent name) = true
        · have hvalue : value = redactedValue := by
            by_contra hvalue
            exact hplain name value rfl hvalue hlisted hpercent
          simp [hraw, hvalue]
        · simp [hraw, hlisted]
      · simp only [isRedactedParameter_decode hpercent]

/-! ### The whole URL -/

/-- The pieces of a query hold no ampersand. -/
theorem not_mem_splitOn {u : CodeUnit} {t : Text} : ∀ piece ∈ t.splitOn u, u ∉ piece := by
  induction t with
  | nil => simp
  | cons v t ih =>
    rw [List.splitOn_cons_eq_if_modifyHead]
    split
    · simpa using ih
    · next hv =>
      obtain ⟨first, rest, hsplit⟩ := List.exists_cons_of_ne_nil (List.splitOn_ne_nil u t)
      rw [hsplit] at ih ⊢
      simp only [List.modifyHead_cons, List.mem_cons, forall_eq_or_imp] at ih ⊢
      exact ⟨not_or.mpr ⟨fun h => hv (by simp [h]), ih.1⟩, ih.2⟩

/-- A parameter without an ampersand has none when its value is replaced, on whatever ground. -/
theorem ampersand_not_mem_redacted {value : Text} {listed : Prop} [Decidable listed]
    (hcut : cut (unit '=') parameter = some (name, value)) (h : unit '&' ∉ parameter) :
    unit '&' ∉ if listed then name ++ unit '=' :: redactedValue else parameter := by
  split
  · obtain ⟨rfl, -⟩ := cut_eq_some.mp hcut
    simp only [List.mem_append, not_or] at h ⊢
    exact ⟨h.1, by decide⟩
  · exact h

theorem ampersand_not_mem_redactParameter (h : unit '&' ∉ parameter) :
    unit '&' ∉ redactParameter case parameter := by
  unfold redactParameter
  split
  · exact h
  · next hcut => exact ampersand_not_mem_redacted hcut h

theorem ampersand_not_mem_wanted (h : unit '&' ∉ parameter) :
    unit '&' ∉ wanted case parameter := by
  unfold wanted
  split
  · exact h
  · next hcut => exact ampersand_not_mem_redacted hcut h

/-- Joining is injective on parameters without ampersands. -/
theorem intercalate_inj {xs ys : List Text} (hxs : ∀ x ∈ xs, unit '&' ∉ x)
    (hys : ∀ y ∈ ys, unit '&' ∉ y) (hx : xs ≠ []) (hy : ys ≠ [])
    (h : [unit '&'].intercalate xs = [unit '&'].intercalate ys) : xs = ys := by
  rw [← List.splitOn_intercalate _ hxs hx, h, List.splitOn_intercalate _ hys hy]

/-- What the URL should become. -/
def wantedUrl (case : LowerCase) (url : Text) : Text :=
  match cut (unit '?') url with
  | none => url
  | some (pathPortion, queryPortion) =>
    pathPortion ++ unit '?' :: [unit '&'].intercalate
      ((queryPortion.splitOn (unit '&')).map (wanted case))

theorem urlRedactedAsParsed_iff {url redacted : Text} :
    UrlRedactedAsParsed case url redacted ↔ redacted = wantedUrl case url := by
  have hrel : RedactedAsParsed case = fun before after => wanted case before = after := by
    funext before after
    exact propext redactedAsParsed_iff
  unfold UrlRedactedAsParsed wantedUrl
  cases cut (unit '?') url with
  | none => rfl
  | some found =>
    simp only [hrel, ← List.forall₂_map_left_iff, List.forall₂_eq_eq_eq]
    constructor
    · rintro ⟨parameters, rfl, rfl⟩
      rfl
    · rintro rfl
      exact ⟨_, rfl, rfl⟩

/-- The raw URL and the parsed query are redacted for the same parameters, exactly when no
listed name is spelled with an escape. -/
theorem urlRedacted_iff (case : LowerCase) (url : Text) :
    UrlRedactedAsParsed case url (redactUrlSecrets case url) ↔ NoEscapedName case url := by
  rw [urlRedactedAsParsed_iff]
  unfold redactUrlSecrets wantedUrl NoEscapedName
  cases cut (unit '?') url with
  | none => simp
  | some found =>
    obtain ⟨pathPortion, queryPortion⟩ := found
    have hplain := not_mem_splitOn (u := unit '&') (t := queryPortion)
    constructor
    · intro hredacted pathPortion' queryPortion' hfound parameter hparameter
      obtain ⟨rfl, rfl⟩ := Prod.mk.inj (Option.some_inj.mp hfound)
      have hjoined := (List.cons.inj (List.append_cancel_left hredacted)).2
      have hmaps := intercalate_inj
        (by simpa using fun p hp => ampersand_not_mem_redactParameter (hplain p hp))
        (by simpa using fun p hp => ampersand_not_mem_wanted (hplain p hp))
        (by simp) (by simp) hjoined
      exact redactParameter_eq_wanted_iff.mp (List.map_inj_left.mp hmaps parameter hparameter)
    · intro hnames
      have hmaps : (queryPortion.splitOn (unit '&')).map (redactParameter case) =
          (queryPortion.splitOn (unit '&')).map (wanted case) :=
        List.map_congr_left fun parameter hparameter => redactParameter_eq_wanted_iff.mpr
          (hnames pathPortion queryPortion rfl parameter hparameter)
      simp only [hmaps]

/-- The first letter of `token` is escaped, and the token stays in the URL. -/
theorem not_urlRedacted_escaped : ¬ ∀ (case : LowerCase) (url : Text),
    UrlRedactedAsParsed case url (redactUrlSecrets case url) := by
  intro hclaim
  have hredacted := urlRedactedAsParsed_iff.mp
    (hclaim asciiLowerCase (text "/api/auth/verify-email?%74oken=eyJhbGciOi"))
  exact absurd hredacted (by decide +kernel)

end NestApi
