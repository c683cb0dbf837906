import NestApi.Numbers.Decimal

/-!
# Deterministic job ids

An id joins the domain and the operation of a job name, an entity and a version of its schedule.
Two enqueues under one id leave one job.
-/

namespace NestApi

/-- What is used of a number: its value if it is a natural number, else how it is shown. -/
inductive Number
  | natural (number : NaturalDouble)
  | other (shown : Text)
deriving DecidableEq

structure DeterministicJobIdParts where
  jobName : Text
  entityId : Text
  scheduleVersion : Number
deriving DecidableEq

/-- What a job name is about. -/
structure JobSubject where
  domain : Text
  operation : Text
deriving DecidableEq

def isSmallLetter (u : CodeUnit) : Bool := unit 'a' ≤ u && u ≤ unit 'z'

/-- `[a-z][a-z0-9-]*`. -/
def isKebabWord : Text → Bool
  | [] => false
  | u :: t => isSmallLetter u && t.all fun v => isSmallLetter v || isDigit v || v = unit '-'

/-- `JOB_NAME_PATTERN`, `{domain}.{operation}.v{n}`. No part of it has a dot. -/
def matchJobName (jobName : Text) : Option JobSubject :=
  match jobName.splitOn (unit '.') with
  | [domain, operation, version] =>
    if isKebabWord domain && isKebabWord operation && version.head? = some (unit 'v') &&
        version.tail ≠ [] && version.tail.all isDigit then
      some ⟨domain, operation⟩
    else none
  | _ => none

def invalidJobName (jobName : Text) : Text :=
  text "Invalid job name \"" ++ jobName ++
    text "\" — expected \x7bdomain\x7d.\x7boperation\x7d.v\x7bversion\x7d"

def missingEntityId : Text := text "Cannot build a deterministic job ID without an entity ID"

def invalidScheduleVersion (shown : Text) : Text :=
  text "Invalid schedule version \"" ++ shown ++ text "\" — expected a non-negative integer"

def colonInEntityId (entityId : Text) : Text :=
  text "Entity ID \"" ++ entityId ++
    text "\" contains \":\", which BullMQ rejects in a custom job ID"

def buildDeterministicJobId (parts : DeterministicJobIdParts) : Except Text Text :=
  match matchJobName parts.jobName with
  | none => .error (invalidJobName parts.jobName)
  | some subject =>
    if parts.entityId = [] then .error missingEntityId
    else
      match parts.scheduleVersion with
      | .other shown => .error (invalidScheduleVersion shown)
      | .natural version =>
        if unit ':' ∈ parts.entityId then .error (colonInEntityId parts.entityId)
        else
          .ok (subject.domain ++ unit '.' :: (subject.operation ++ unit '.' ::
            (parts.entityId ++ unit '.' :: numberToString version.value)))

/-! ### What an accepted input is -/

variable {parts : DeterministicJobIdParts} {subject : JobSubject} {id jobName t : Text}
  {u : CodeUnit}

theorem buildDeterministicJobId_eq_ok (h : buildDeterministicJobId parts = .ok id) :
    ∃ subject version, matchJobName parts.jobName = some subject ∧
      parts.scheduleVersion = .natural version ∧ parts.entityId ≠ [] ∧
      unit ':' ∉ parts.entityId ∧
      id = subject.domain ++ unit '.' :: (subject.operation ++ unit '.' ::
        (parts.entityId ++ unit '.' :: numberToString version.value)) := by
  unfold buildDeterministicJobId at h
  split at h
  · cases h
  · next subject hsubject =>
    split at h
    · cases h
    · next hentity =>
      split at h
      · cases h
      · next version hversion =>
        split at h
        · cases h
        · next hcolon =>
          obtain rfl := Except.ok.inj h
          exact ⟨subject, version, hsubject, hversion, hentity, hcolon, rfl⟩

theorem not_mem_of_isKebabWord (h : isKebabWord t = true)
    (hu : (isSmallLetter u || isDigit u || u = unit '-') = false) : u ∉ t := by
  cases t with
  | nil => simp
  | cons v t =>
    simp only [isKebabWord, Bool.and_eq_true, List.all_eq_true] at h
    have hall : ∀ w ∈ v :: t, (isSmallLetter w || isDigit w || w = unit '-') = true :=
      List.forall_mem_cons.mpr ⟨by simp [h.1], h.2⟩
    intro hmem
    rw [hall u hmem] at hu
    cases hu

/-- Neither word of a job name has a dot or a colon. -/
theorem matchJobName_spec (h : matchJobName jobName = some subject) :
    (unit '.' ∉ subject.domain ∧ unit ':' ∉ subject.domain) ∧
      unit '.' ∉ subject.operation ∧ unit ':' ∉ subject.operation := by
  unfold matchJobName at h
  split at h
  · split at h
    · next hwords =>
      obtain rfl := Option.some.inj h
      simp only [Bool.and_eq_true] at hwords
      obtain ⟨⟨⟨⟨hdomain, hoperation⟩, -⟩, -⟩, -⟩ := hwords
      exact ⟨⟨not_mem_of_isKebabWord hdomain (by decide),
          not_mem_of_isKebabWord hdomain (by decide)⟩,
        not_mem_of_isKebabWord hoperation (by decide),
        not_mem_of_isKebabWord hoperation (by decide)⟩
    · cases h
  · cases h

end NestApi
