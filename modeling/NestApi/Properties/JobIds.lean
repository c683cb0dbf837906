import NestApi.Queue.JobId

/-!
# When job ids collide

The words of a job name have no dot, so an id splits after the second one. An entity id may have
dots, and so may a version: a version of more than one digit and twenty-one places is spelled with
a dot and an exponent.
-/

namespace NestApi

/-- The value of a natural number. -/
def Number.value? : Number → Option ℕ
  | natural number => some number.value
  | other _ => none

/-- The inputs have one domain, operation, entity and schedule version. -/
def SameParts (a b : DeterministicJobIdParts) : Prop :=
  matchJobName a.jobName = matchJobName b.jobName ∧ a.entityId = b.entityId ∧
    a.scheduleVersion = b.scheduleVersion

/-- A version nearest to `m.d · 10 ^ (j + 1)` and one nearest to `d · 10 ^ (j + 1)`, where the
second entity has what the first version has before its dot. -/
def EndsOverlap (entity : Text) (version : ℕ) (entity' : Text) (version' : ℕ) : Prop :=
  ∃ m d j, 0 < m ∧ m < 10 ∧ 0 < d ∧ d < 10 ∧ 20 ≤ j ∧
    version = nearestDouble ((10 * m + d) * 10 ^ j) ∧
    version' = nearestDouble (d * 10 ^ (j + 1)) ∧ entity' = entity ++ unit '.' :: decimalText m

/-- The inputs are for one domain and operation, and their ends overlap. -/
def Overlap (a b : DeterministicJobIdParts) : Prop :=
  matchJobName a.jobName = matchJobName b.jobName ∧
    ∃ x ∈ a.scheduleVersion.value?, ∃ y ∈ b.scheduleVersion.value?,
      EndsOverlap a.entityId x b.entityId y

/-! ### Entities and versions -/

variable {x y j : ℕ} {e e' : Text} {first : CodeUnit} {rest : Text}

/-- A spelling has no dot, or one behind its first digit. -/
theorem numberToString_dot (h : nearestDouble x = x) : unit '.' ∉ numberToString x ∨
    ∃ s j first rest, nearestDouble (s * 10 ^ j) = x ∧ decimalText s = first :: rest ∧
      21 ≤ rest.length + j ∧ numberToString x = first :: unit '.' :: behindDot rest j := by
  rcases numberToString_cases h with ⟨hdigits, -⟩ | ⟨s, j, first, rest, -, hround, hs, hlarge, heq⟩
  · exact .inl (not_mem_of_digits hdigits (by decide))
  by_cases hrest : rest = []
  · subst hrest
    have hfirst : unit '.' ≠ first :=
      List.ne_of_not_mem_cons (not_mem_of_digits (isDigit_of_decimalText hs) (by decide))
    rw [heq, exponentForm_nil]
    exact .inl (List.not_mem_cons_of_ne_of_not_mem hfirst (dot_not_mem_behindDot (by simp)))
  · exact .inr ⟨s, j, first, rest, hround, hs, hlarge, heq.trans (exponentForm_of_ne_nil hrest)⟩

/-- A spelling that stands behind the dot of another has one digit before its exponent, and the
same exponent. -/
theorem oneDigit_of_behindDot (hy : nearestDouble y = y) (hdot : unit '.' ∉ numberToString y)
    (hrest : ∀ u ∈ rest, isDigit u = true) (h : numberToString y = behindDot rest j) :
    ∃ d, 0 < d ∧ d < 10 ∧ rest = decimalText d ∧ y = nearestDouble (d * 10 ^ (j + 1)) := by
  have hcut := cut_behindDot (j := j) hrest
  rw [← h] at hcut
  rcases numberToString_cases hy with ⟨hdigits, -⟩ | ⟨s, i, first, more, hne, hround, hs, -, heq⟩
  · rw [cut_eq_none.mpr (not_mem_of_digits hdigits (by decide))] at hcut
    cases hcut
  have hmore : more = [] := by
    by_contra hmore
    rw [heq, exponentForm_of_ne_nil hmore] at hdot
    exact hdot (by simp)
  subst hmore
  have hfirst := isDigit_of_decimalText hs
  rw [heq, cut_exponentForm hfirst] at hcut
  obtain ⟨hmantissa, hexponent⟩ := Prod.mk.inj (Option.some.inj hcut)
  obtain rfl : [first] = rest := by simpa using hmantissa
  obtain rfl : i = j + 1 := by
    have hvalue := decimalText_injective (List.cons.inj hexponent).2
    simpa [Nat.add_comm] using hvalue
  obtain ⟨hlt, hspelled⟩ := decimalText_of_isDigit (hfirst first List.mem_cons_self)
  obtain rfl : s = decimalValue [first] := decimalText_injective (hs.trans hspelled.symm)
  exact ⟨_, Nat.pos_of_ne_zero hne, hlt, hs.symm, hround.symm⟩

theorem exists_digit {d : ℕ} (h : d < 10) : ∃ v, isDigit v = true ∧ decimalText d = [v] := by
  have hdigits : decimalText d = [unit d.digitChar] := by
    rw [decimalText, Nat.toDigits_of_lt_base h, List.map_singleton]
  exact ⟨_, isDigit_of_mem_decimalText (hdigits ▸ List.mem_singleton_self _), hdigits⟩

theorem decimalText_two {m d : ℕ} (hm : 0 < m) (hd : d < 10) :
    decimalText (10 * m + d) = decimalText m ++ decimalText d := by
  rw [decimalText, ← Nat.toDigits_append_toDigits (by decide) hm hd, List.map_append]
  rfl

theorem dotted_eq (e : Text) (first : CodeUnit) (t : Text) :
    e ++ unit '.' :: first :: unit '.' :: t = (e ++ [unit '.', first]) ++ unit '.' :: t := by
  simp

/-- The digit before the dot of a version goes to the entity. -/
theorem endsOverlap_of_eq {s : ℕ} (hround : nearestDouble (s * 10 ^ j) = x)
    (hs : decimalText s = first :: rest) (hlarge : 21 ≤ rest.length + j)
    (hspelled : numberToString x = first :: unit '.' :: behindDot rest j)
    (hy : nearestDouble y = y) (hdot : unit '.' ∉ numberToString y)
    (h : e ++ unit '.' :: numberToString x = e' ++ unit '.' :: numberToString y) :
    EndsOverlap e x e' y := by
  obtain ⟨hfirst, hrest⟩ := List.forall_mem_cons.mp (isDigit_of_decimalText hs)
  rw [hspelled, dotted_eq] at h
  obtain ⟨rfl, hbehind⟩ := splitLast_inj (dot_not_mem_behindDot hrest) hdot h
  obtain ⟨d, hdpos, hd, rfl, hvalue⟩ := oneDigit_of_behindDot hy hdot hrest hbehind.symm
  obtain ⟨hm, hmtext⟩ := decimalText_of_isDigit hfirst
  obtain ⟨v, -, hv⟩ := exists_digit hd
  have hmpos : 0 < decimalValue [first] := by
    by_contra hzero
    have hsd : s = d := by
      calc s = decimalValue ([first] ++ decimalText d) := by
            rw [List.singleton_append, ← hs, decimalValue_decimalText]
        _ = decimalValue (decimalText d) := by
            rw [decimalValue_append, Nat.eq_zero_of_not_pos hzero]
            rfl
        _ = d := decimalValue_decimalText d
    rw [hsd] at hs
    exact absurd (congrArg List.length hs) (by simp)
  have hsvalue : s = 10 * decimalValue [first] + d := by
    refine decimalText_injective ?_
    rw [hs, decimalText_two hmpos hd, hmtext, List.singleton_append]
  refine ⟨decimalValue [first], d, j, hmpos, hm, hdpos, hd, ?_, ?_, hvalue, by rw [hmtext]⟩
  · rw [hv] at hlarge
    simpa [Nat.add_comm] using hlarge
  · rw [← hsvalue, hround]

/-- Overlapping ends are spelled alike. -/
theorem EndsOverlap.eq (h : EndsOverlap e x e' y) :
    e ++ unit '.' :: numberToString x = e' ++ unit '.' :: numberToString y := by
  obtain ⟨m, d, j, hmpos, hm, hdpos, hd, hj, rfl, rfl, rfl⟩ := h
  obtain ⟨u, -, hu⟩ := exists_digit hm
  obtain ⟨v, -, hv⟩ := exists_digit hd
  have htwo : decimalText (10 * m + d) = [u, v] := by
    rw [decimalText_two hmpos hd, hu, hv]
    rfl
  have hlong : numberToString (nearestDouble ((10 * m + d) * 10 ^ j)) =
      u :: unit '.' :: behindDot [v] j := by
    rw [numberToString_of_short (by omega) (by omega) htwo (by simpa [Nat.add_comm] using hj),
      exponentForm_of_ne_nil (by simp)]
  have hshort : numberToString (nearestDouble (d * 10 ^ (j + 1))) = behindDot [v] j := by
    rw [numberToString_of_short (by omega) (by omega) hv (by simpa using hj), exponentForm_nil]
    simp [behindDot, Nat.add_comm]
  rw [hlong, hshort, hu]
  simp

theorem EndsOverlap.entity_ne (h : EndsOverlap e x e' y) : e ≠ e' := by
  obtain ⟨m, d, j, -, -, -, -, -, -, -, rfl⟩ := h
  simp

/-- A version that is spelled with a dot has twenty-two places. -/
theorem EndsOverlap.large (h : EndsOverlap e x e' y) : 10 ^ 21 ≤ x := by
  obtain ⟨m, d, j, hm, -, hd, -, hj, rfl, -, -⟩ := h
  have herror := (nearestDouble_error ((10 * m + d) * 10 ^ j)).2
  have hlarge : 11 * 10 ^ 20 ≤ (10 * m + d) * 10 ^ j :=
    Nat.mul_le_mul (by omega) (Nat.pow_le_pow_right (by decide) hj)
  omega

/-- An entity and a version are told from their joined spelling, unless the ends of two such pairs
overlap. -/
theorem eq_or_endsOverlap (hx : nearestDouble x = x) (hy : nearestDouble y = y)
    (h : e ++ unit '.' :: numberToString x = e' ++ unit '.' :: numberToString y) :
    (e = e' ∧ x = y) ∨ EndsOverlap e x e' y ∨ EndsOverlap e' y e x := by
  rcases numberToString_dot hx with hxdot | ⟨s, j, first, rest, hround, hs, hlarge, hspelled⟩
  · rcases numberToString_dot hy with hydot | ⟨s, j, first, rest, hround, hs, hlarge, hspelled⟩
    · obtain ⟨hentity, hversion⟩ := splitLast_inj hxdot hydot h
      exact .inl ⟨hentity, numberToString_inj hx hy hversion⟩
    · exact .inr (.inr (endsOverlap_of_eq hround hs hlarge hspelled hx hxdot h.symm))
  · rcases numberToString_dot hy with hydot | ⟨t, k, front, more, -, ht, -, hyspelled⟩
    · exact .inr (.inl (endsOverlap_of_eq hround hs hlarge hspelled hy hydot h))
    · have hrest := (List.forall_mem_cons.mp (isDigit_of_decimalText hs)).2
      have hmore := (List.forall_mem_cons.mp (isDigit_of_decimalText ht)).2
      rw [hspelled, hyspelled, dotted_eq, dotted_eq] at h
      obtain ⟨hfront, hbehind⟩ :=
        splitLast_inj (dot_not_mem_behindDot hrest) (dot_not_mem_behindDot hmore) h
      obtain ⟨hentity, hdigit⟩ := List.append_inj' hfront rfl
      obtain rfl : first = front := by simpa using hdigit
      refine .inl ⟨hentity, numberToString_inj hx hy ?_⟩
      rw [hspelled, hyspelled, hbehind]

/-! ### Ids -/

variable {a b : DeterministicJobIdParts} {idA idB : Text}

theorem colon_not_mem_numberToString (h : nearestDouble x = x) :
    unit ':' ∉ numberToString x := by
  rcases numberToString_cases h with ⟨hdigits, -⟩ | ⟨s, j, first, rest, -, -, hs, -, heq⟩
  · exact not_mem_of_digits hdigits (by decide)
  have hdigits : unit ':' ∉ first :: rest :=
    not_mem_of_digits (isDigit_of_decimalText hs) (by decide)
  obtain ⟨hfirst, hrest⟩ := List.ne_and_not_mem_of_not_mem_cons hdigits
  have hexponent : unit ':' ∉ decimalText (rest.length + j) := not_mem_decimalText (by decide)
  have hsigns : unit ':' ≠ unit '.' ∧ unit ':' ∉ text "e+" := by decide
  rw [heq, exponentForm]
  split <;> simp [hfirst, hrest, hexponent, hsigns]

/-- No id has a colon. -/
theorem colon_not_mem (h : buildDeterministicJobId a = .ok idA) : unit ':' ∉ idA := by
  obtain ⟨subject, version, hsubject, -, -, hentity, rfl⟩ := buildDeterministicJobId_eq_ok h
  obtain ⟨⟨-, hdomain⟩, -, hoperation⟩ := matchJobName_spec hsubject
  have hversion := colon_not_mem_numberToString version.exact
  have hdot : unit ':' ≠ unit '.' := by decide
  simp [hdomain, hoperation, hentity, hversion, hdot]

/-- Ids agree when the subjects do, and what follows them. -/
theorem ids_eq_iff {subject subject' : JobSubject} {rest rest' : Text}
    (h : unit '.' ∉ subject.domain ∧ unit '.' ∉ subject.operation)
    (h' : unit '.' ∉ subject'.domain ∧ unit '.' ∉ subject'.operation) :
    subject.domain ++ unit '.' :: (subject.operation ++ unit '.' :: rest) =
        subject'.domain ++ unit '.' :: (subject'.operation ++ unit '.' :: rest') ↔
      subject = subject' ∧ rest = rest' := by
  constructor
  · intro heq
    obtain ⟨hdomain, hbehind⟩ := split_inj h.1 h'.1 heq
    obtain ⟨hoperation, hrest⟩ := split_inj h.2 h'.2 hbehind
    cases subject
    cases subject'
    exact ⟨(JobSubject.mk.injEq ..).mpr ⟨hdomain, hoperation⟩, hrest⟩
  · rintro ⟨rfl, rfl⟩
    rfl

/-- One id comes from one input, or from two whose ends overlap. -/
theorem sameParts_or_overlap (ha : buildDeterministicJobId a = .ok idA)
    (hb : buildDeterministicJobId b = .ok idB) (h : idA = idB) :
    SameParts a b ∨ Overlap a b ∨ Overlap b a := by
  obtain ⟨subject, x, hsubject, hx, -, -, rfl⟩ := buildDeterministicJobId_eq_ok ha
  obtain ⟨subject', y, hsubject', hy, -, -, rfl⟩ := buildDeterministicJobId_eq_ok hb
  obtain ⟨⟨hdomain, -⟩, hoperation, -⟩ := matchJobName_spec hsubject
  obtain ⟨⟨hdomain', -⟩, hoperation', -⟩ := matchJobName_spec hsubject'
  obtain ⟨rfl, hends⟩ := (ids_eq_iff ⟨hdomain, hoperation⟩ ⟨hdomain', hoperation'⟩).mp h
  have hname : matchJobName a.jobName = matchJobName b.jobName := hsubject.trans hsubject'.symm
  have hx' : x.value ∈ a.scheduleVersion.value? := by rw [hx]; rfl
  have hy' : y.value ∈ b.scheduleVersion.value? := by rw [hy]; rfl
  rcases eq_or_endsOverlap x.exact y.exact hends with ⟨hentity, hversion⟩ | hends | hends
  · refine .inl ⟨hname, hentity, ?_⟩
    cases x
    cases y
    rw [hx, hy, Number.natural.injEq]
    exact (NaturalDouble.mk.injEq ..).mpr hversion
  · exact .inr (.inl ⟨hname, _, hx', _, hy', hends⟩)
  · exact .inr (.inr ⟨hname.symm, _, hy', _, hx', hends⟩)

theorem Overlap.entity_ne (h : Overlap a b) : a.entityId ≠ b.entityId := by
  obtain ⟨-, x, -, y, -, hends⟩ := h
  exact hends.entity_ne

theorem not_overlap_of_lt (h : ∀ x ∈ a.scheduleVersion.value?, x < 10 ^ 21) : ¬ Overlap a b := by
  rintro ⟨-, x, hx, y, -, hends⟩
  exact absurd (h x hx) (not_lt.mpr hends.large)

/-- Inputs with overlapping ends have one id. -/
theorem Overlap.id_eq (ha : buildDeterministicJobId a = .ok idA)
    (hb : buildDeterministicJobId b = .ok idB) (h : Overlap a b) : idA = idB := by
  obtain ⟨subject, version, hsubject, hversion, -, -, rfl⟩ := buildDeterministicJobId_eq_ok ha
  obtain ⟨subject', version', hsubject', hversion', -, -, rfl⟩ := buildDeterministicJobId_eq_ok hb
  obtain ⟨hname, x, hx, y, hy, hends⟩ := h
  rw [hversion] at hx
  rw [hversion'] at hy
  obtain rfl : version.value = x := Option.some.inj hx
  obtain rfl : version'.value = y := Option.some.inj hy
  rw [hsubject, hsubject'] at hname
  rw [Option.some.inj hname, hends.eq]

/-- A bumped schedule version gives another id, so a reschedule is not refused for it. -/
theorem bumped_id_ne (ha : buildDeterministicJobId a = .ok idA)
    (hb : buildDeterministicJobId b = .ok idB) (hentity : a.entityId = b.entityId)
    (hbumped : a.scheduleVersion ≠ b.scheduleVersion) : idA ≠ idB := by
  intro hid
  rcases sameParts_or_overlap ha hb hid with hsame | hover | hover
  · exact hbumped hsame.2.2
  · exact hover.entity_ne hentity
  · exact hover.entity_ne hentity.symm

/-- The ids tell their inputs apart, have no colon, and differ when a version is bumped. -/
def IdsDistinct (a b : DeterministicJobIdParts) (idA idB : Text) : Prop :=
  (idA = idB → SameParts a b) ∧ unit ':' ∉ idA ∧ unit ':' ∉ idB ∧
    (a.jobName = b.jobName → a.entityId = b.entityId → a.scheduleVersion ≠ b.scheduleVersion →
      idA ≠ idB)

/-- Two ids do what they are for exactly when the ends of the inputs do not overlap. -/
theorem idsDistinct_iff (a b : DeterministicJobIdParts) (idA idB : Text)
    (ha : buildDeterministicJobId a = .ok idA) (hb : buildDeterministicJobId b = .ok idB) :
    IdsDistinct a b idA idB ↔ ¬ Overlap a b ∧ ¬ Overlap b a := by
  constructor
  · rintro ⟨hdistinct, -⟩
    refine ⟨fun hover => ?_, fun hover => ?_⟩
    · exact hover.entity_ne (hdistinct (hover.id_eq ha hb)).2.1
    · exact hover.entity_ne (hdistinct (hover.id_eq hb ha).symm).2.1.symm
  · rintro ⟨hno, hno'⟩
    refine ⟨fun hid => ?_, colon_not_mem ha, colon_not_mem hb, fun _ => bumped_id_ne ha hb⟩
    rcases sameParts_or_overlap ha hb hid with hsame | hover | hover
    · exact hsame
    · exact absurd hover hno
    · exact absurd hover hno'

/-- A job that expires a booking. -/
def bookingExpiry (entityId : Text) (version : NaturalDouble) : DeterministicJobIdParts where
  jobName := text "booking.expire.v1"
  entityId := entityId
  scheduleVersion := .natural version

/-- The first two versions of a schedule. -/
theorem idsDistinct_bumped :
    IdsDistinct (bookingExpiry (text "a1") ⟨0, by decide, by decide⟩)
        (bookingExpiry (text "a1") ⟨1, by decide, by decide⟩)
        (text "booking.expire.a1.0") (text "booking.expire.a1.1") ↔
      ¬ Overlap (bookingExpiry (text "a1") ⟨0, by decide, by decide⟩)
          (bookingExpiry (text "a1") ⟨1, by decide, by decide⟩) ∧
        ¬ Overlap (bookingExpiry (text "a1") ⟨1, by decide, by decide⟩)
          (bookingExpiry (text "a1") ⟨0, by decide, by decide⟩) :=
  idsDistinct_iff _ _ _ _ (by decide) (by decide)

/-! ### A version of twenty-two places -/

/-- An entity with a dot, at version `5e+21`. -/
def dottedExpiry : DeterministicJobIdParts :=
  bookingExpiry (text "x.1") ⟨5 * 10 ^ 21, by decide +kernel, by decide +kernel⟩

/-- An entity without one, at version `1.5e+21`. -/
def plainExpiry : DeterministicJobIdParts :=
  bookingExpiry (text "x") ⟨15 * 10 ^ 20, by decide +kernel, by decide +kernel⟩

/-- Two entities at two versions have one id. -/
theorem twoEntities_oneId :
    buildDeterministicJobId dottedExpiry = .ok (text "booking.expire.x.1.5e+21") ∧
      buildDeterministicJobId plainExpiry = .ok (text "booking.expire.x.1.5e+21") ∧
      ¬ SameParts dottedExpiry plainExpiry := by
  refine ⟨by decide +kernel, by decide +kernel, fun hsame => ?_⟩
  exact absurd hsame.2.1 (by decide)

end NestApi
