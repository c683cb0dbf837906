import NestApi.Auth.DisposableEmail

/-!
# Addresses are judged by their domain

The domain of a validated address is what follows its last at sign. The code looks for the
first one, and takes an address on which that fails for a harmless one.
-/

namespace NestApi.DisposableEmail

variable {case : LowerCase} {lists : DomainLists} {mailbox domain : Text}

/-! ### The lists -/

/-- The domain itself, or what follows one of its dots. -/
def LabelSuffix (suffix domain : Text) : Prop :=
  domain = suffix ∨ ∃ before, domain = before ++ unit '.' :: suffix

/-- A domain of a throwaway provider. -/
def DisposableDomain (lists : DomainLists) (domain : Text) : Prop :=
  domain ∉ lists.operatorAllowlist ∧
    (domain ∈ lists.operatorDenylist ∨ domain ∈ lists.disposableDomains ∨
      ∃ suffix ∈ lists.disposableWildcardDomains, LabelSuffix suffix domain)

/-- Joining two nonempty lists of labels puts a dot between them. -/
theorem intercalate_append {xs ys : List Text} (hx : xs ≠ []) (hy : ys ≠ []) :
    [unit '.'].intercalate (xs ++ ys) =
      [unit '.'].intercalate xs ++ unit '.' :: [unit '.'].intercalate ys := by
  induction xs with
  | nil => exact absurd rfl hx
  | cons x xs ih =>
    cases xs with
    | nil => simp [List.intercalate_cons_of_ne_nil hy]
    | cons x' xs =>
      rw [List.cons_append, List.intercalate_cons_of_ne_nil (by simp),
        List.intercalate_cons_of_ne_nil (by simp), ih (by simp)]
      simp

/-- The walk over the labels visits the suffixes of the domain. -/
theorem matchesWildcard_iff : matchesWildcard lists domain = true ↔
    ∃ suffix ∈ lists.disposableWildcardDomains, LabelSuffix suffix domain := by
  simp only [matchesWildcard, List.any_eq_true, List.mem_range, decide_eq_true_eq]
  constructor
  · rintro ⟨i, hi, hmem⟩
    refine ⟨_, hmem, ?_⟩
    rcases Nat.eq_zero_or_pos i with rfl | hpos
    · exact .inl (by simp)
    · refine .inr ⟨[unit '.'].intercalate ((domain.splitOn (unit '.')).take i), ?_⟩
      rw [← intercalate_append, List.take_append_drop, List.intercalate_splitOn]
      · simp; omega
      · simpa using hi
  · rintro ⟨suffix, hmem, rfl | ⟨before, rfl⟩⟩
    · exact ⟨0, List.length_pos_iff.mpr (by simp), by simpa using hmem⟩
    · refine ⟨(before.splitOn (unit '.')).length, ?_, ?_⟩
      · rw [List.splitOn_append_cons_self, List.length_append]
        have hpos := List.length_pos_iff.mpr (List.splitOn_ne_nil (unit '.') suffix)
        omega
      · rw [List.splitOn_append_cons_self, List.drop_left]
        simpa using hmem

theorem isDisposableEmail_iff {email : Text} : isDisposableEmail case lists email = true ↔
    ∃ domain, extractEmailDomain case email = some domain ∧ DisposableDomain lists domain := by
  unfold isDisposableEmail DisposableDomain
  cases extractEmailDomain case email with
  | none => simp
  | some domain =>
    simp only [Option.some.injEq, exists_eq_left', ← matchesWildcard_iff]
    split
    · simp [*]
    · split
      · simp [*]
      · split <;> simp [*]

/-! ### The domain of a validated address -/

/-- What the validator of addresses promises: a mailbox, an at sign and a domain without one.
The domain ends in a top-level domain, which holds no white space. The mailbox may be quoted
and hold anything. -/
def ValidatesAddresses (isEmail : Text → Bool) : Prop :=
  ∀ email, isEmail email = true → ∃ mailbox domain, email = mailbox ++ unit '@' :: domain ∧
    unit '@' ∉ domain ∧ mailbox ≠ [] ∧
      ∃ hne : domain ≠ [], isWhiteSpace (domain.getLast hne) = false

/-- The mailbox has something in it besides white space. -/
def Visible (mailbox : Text) : Prop := ∃ u ∈ mailbox, isWhiteSpace u = false

instance : Decidable (Visible mailbox) :=
  inferInstanceAs (Decidable (∃ u ∈ mailbox, isWhiteSpace u = false))

theorem trim_address (hne : domain ≠ []) (hlast : isWhiteSpace (domain.getLast hne) = false) :
    trim (mailbox ++ unit '@' :: domain) =
      mailbox.dropWhile isWhiteSpace ++ unit '@' :: domain := by
  have hfront : (mailbox ++ unit '@' :: domain).dropWhile isWhiteSpace =
      mailbox.dropWhile isWhiteSpace ++ unit '@' :: domain := by
    rw [List.dropWhile_append]
    split
    · next hempty =>
      rw [List.isEmpty_iff.mp hempty, List.dropWhile_cons_of_neg (by decide)]
      rfl
    · rfl
  rw [trim, hfront, List.rdropWhile_eq_self_iff]
  intro hne'
  rw [List.getLast_append_of_ne_nil _ (by simp), List.getLast_cons hne]
  simp [hlast]

theorem dropWhile_eq_nil : mailbox.dropWhile isWhiteSpace = [] ↔ ¬ Visible mailbox := by
  simp [Visible]

theorem at_mem_dropWhile : unit '@' ∈ mailbox.dropWhile isWhiteSpace ↔ unit '@' ∈ mailbox := by
  refine ⟨fun h => (List.dropWhile_sublist _).subset h, fun h => ?_⟩
  rw [← List.takeWhile_append_dropWhile (p := isWhiteSpace) (l := mailbox)] at h
  rcases List.mem_append.mp h with h | h
  · exact absurd (List.mem_takeWhile_imp h) (by decide)
  · exact h

/-- The extraction succeeds on a visible mailbox without an at sign, and on no other. -/
theorem extractEmailDomain_address (hne : domain ≠ [])
    (hlast : isWhiteSpace (domain.getLast hne) = false) (hdomain : unit '@' ∉ domain) :
    extractEmailDomain case (mailbox ++ unit '@' :: domain) =
      if Visible mailbox ∧ unit '@' ∉ mailbox then some (case.toLowerCase domain) else none := by
  have hat : unit '@' ∈ caseBoundaries := by decide
  rw [extractEmailDomain, trim_address hne hlast, case.boundary _ hat]
  by_cases hmailbox : unit '@' ∈ mailbox
  · -- The first at sign is in the mailbox, so the last one is found behind it.
    have hmem := (case.mem_iff hat).mpr (at_mem_dropWhile.mpr hmailbox)
    obtain ⟨before, after, hlower, hbefore⟩ := List.eq_append_cons_of_mem hmem
    rw [hlower, List.append_assoc, List.cons_append, cut_append hbefore]
    simp [hmailbox]
  · have hplain : unit '@' ∉ case.toLowerCase (mailbox.dropWhile isWhiteSpace) :=
      fun h => hmailbox (at_mem_dropWhile.mp ((case.mem_iff hat).mp h))
    have hdomain' : unit '@' ∉ case.toLowerCase domain := fun h =>
      hdomain ((case.mem_iff hat).mp h)
    rw [cut_append hplain]
    simp only [case.eq_nil_iff, dropWhile_eq_nil, hne, hdomain', hmailbox, or_false,
      not_false_eq_true, and_true, if_false]
    by_cases hvisible : Visible mailbox <;> simp [hvisible]

/-- The verdict on an address is the verdict on its domain. -/
def JudgedByDomain (case : LowerCase) (lists : DomainLists) (mailbox domain : Text) : Prop :=
  isDisposableEmail case lists (mailbox ++ unit '@' :: domain) = true ↔
    DisposableDomain lists (case.toLowerCase domain)

/-- The domain can be found, or it is harmless anyway. -/
def FoundOrHarmless (case : LowerCase) (lists : DomainLists) (mailbox domain : Text) : Prop :=
  Visible mailbox ∧ unit '@' ∉ mailbox ∨ ¬ DisposableDomain lists (case.toLowerCase domain)

theorem judgedByDomain_iff (hne : domain ≠ [])
    (hlast : isWhiteSpace (domain.getLast hne) = false) (hdomain : unit '@' ∉ domain) :
    JudgedByDomain case lists mailbox domain ↔ FoundOrHarmless case lists mailbox domain := by
  rw [JudgedByDomain, FoundOrHarmless, isDisposableEmail_iff,
    extractEmailDomain_address hne hlast hdomain]
  by_cases hmailbox : Visible mailbox ∧ unit '@' ∉ mailbox
  · simp [hmailbox]
  · rw [if_neg hmailbox]
    simp [hmailbox]

theorem isSome_disallowedDomain {email : Text} :
    (disallowedDomain case lists email).isSome = isDisposableEmail case lists email := by
  unfold disallowedDomain
  split <;> simp_all

/-- An accepted address is judged by its domain exactly when the domain can be found behind
its mailbox or is harmless. Two such addresses are both refused or both accepted. -/
theorem disposableEmail_iff (case : LowerCase) (lists : DomainLists) (isEmail : Text → Bool)
    (hvalidator : ValidatesAddresses isEmail) (mailbox domain : Text)
    (hdomain : unit '@' ∉ domain) (haccepted : isEmail (mailbox ++ unit '@' :: domain) = true) :
    (JudgedByDomain case lists mailbox domain ↔ FoundOrHarmless case lists mailbox domain) ∧
      ∀ mailbox', isEmail (mailbox' ++ unit '@' :: domain) = true →
        FoundOrHarmless case lists mailbox domain →
          FoundOrHarmless case lists mailbox' domain →
            (disallowedDomain case lists (mailbox ++ unit '@' :: domain)).isSome =
              (disallowedDomain case lists (mailbox' ++ unit '@' :: domain)).isSome := by
  obtain ⟨other, domain', hsplit, hdomain', -, hne, hlast⟩ := hvalidator _ haccepted
  obtain ⟨rfl, rfl⟩ := splitLast_inj hdomain hdomain' hsplit
  refine ⟨judgedByDomain_iff hne hlast hdomain, fun mailbox' _ hfound hfound' => ?_⟩
  have hjudged := (judgedByDomain_iff hne hlast hdomain).mpr hfound
  have hjudged' := (judgedByDomain_iff hne hlast hdomain).mpr hfound'
  rw [isSome_disallowedDomain, isSome_disallowedDomain, Bool.eq_iff_iff]
  exact hjudged.trans hjudged'.symm

/-- A validator that knows one address. -/
def acceptsOnly (email : Text) : Text → Bool := fun other => other = email

theorem validatesAddresses_acceptsOnly {mailbox domain : Text} (hdomain : unit '@' ∉ domain)
    (hmailbox : mailbox ≠ []) (hne : domain ≠ [])
    (hlast : isWhiteSpace (domain.getLast hne) = false) :
    ValidatesAddresses (acceptsOnly (mailbox ++ unit '@' :: domain)) := by
  intro email hemail
  exact ⟨mailbox, domain, by simpa [acceptsOnly] using hemail, hdomain, hmailbox, hne, hlast⟩

/-- The package's lists, cut down to an entry each. -/
def sampleLists : DomainLists := packageLists [text "mailinator.com"] [text "anonaddy.com"]

theorem disposableEmail_anonaddy :
    (JudgedByDomain asciiLowerCase sampleLists (text "ann") (text "Box.Anonaddy.com") ↔
      FoundOrHarmless asciiLowerCase sampleLists (text "ann") (text "Box.Anonaddy.com")) ∧
    ∀ mailbox', acceptsOnly (text "ann" ++ unit '@' :: text "Box.Anonaddy.com")
        (mailbox' ++ unit '@' :: text "Box.Anonaddy.com") = true →
      FoundOrHarmless asciiLowerCase sampleLists (text "ann") (text "Box.Anonaddy.com") →
        FoundOrHarmless asciiLowerCase sampleLists mailbox' (text "Box.Anonaddy.com") →
          (disallowedDomain asciiLowerCase sampleLists
            (text "ann" ++ unit '@' :: text "Box.Anonaddy.com")).isSome =
          (disallowedDomain asciiLowerCase sampleLists
            (mailbox' ++ unit '@' :: text "Box.Anonaddy.com")).isSome :=
  disposableEmail_iff asciiLowerCase sampleLists _
    (validatesAddresses_acceptsOnly (by decide) (by decide) (by decide) (by decide))
    (text "ann") (text "Box.Anonaddy.com") (by decide) (by decide)

/-- A quoted mailbox with an at sign hides a domain of the exact list. -/
theorem not_judgedByDomain_quoted : ¬ ∀ (case : LowerCase) (lists : DomainLists)
    (isEmail : Text → Bool), ValidatesAddresses isEmail → ∀ mailbox domain : Text,
      unit '@' ∉ domain → isEmail (mailbox ++ unit '@' :: domain) = true →
        JudgedByDomain case lists mailbox domain := by
  intro hclaim
  have hjudged := hclaim asciiLowerCase sampleLists
    (acceptsOnly (text "\"a@b\"" ++ unit '@' :: text "mailinator.com"))
    (validatesAddresses_acceptsOnly (by decide) (by decide) (by decide) (by decide))
    (text "\"a@b\"") (text "mailinator.com") (by decide) (by decide)
  have hlisted : DisposableDomain sampleLists
      (asciiLowerCase.toLowerCase (text "mailinator.com")) :=
    ⟨by decide, .inr (.inl (by decide +kernel))⟩
  exact absurd (hjudged.mpr hlisted) (by decide +kernel)

end NestApi.DisposableEmail
