import NestApi.Queue.LifecycleLog

/-!
# A line of the lifecycle log can be read back

Every field that a line shows is read back as it was written, up to quotation marks, and a line
has no other fields: no reason, job name or correlation id makes one up.
-/

namespace NestApi

/-! ### Numbers -/

theorem not_mem_exponentForm {first : CodeUnit} {rest : Text} {zeros : ℕ}
    (h : ∀ u ∈ first :: rest, isDigit u = true) :
    quotationMark ∉ exponentForm first rest zeros := by
  have hdigits : quotationMark ∉ first :: rest := not_mem_of_digits h (by decide)
  have hexponent : quotationMark ∉ decimalText (rest.length + zeros) :=
    not_mem_decimalText (by decide)
  have hsigns : quotationMark ∉ text "e+" := by decide
  have hdot : quotationMark ∉ if rest = [] then [] else unit '.' :: rest := by
    split
    · exact List.not_mem_nil
    · simp only [List.mem_cons, not_or] at hdigits ⊢
      exact ⟨by decide, hdigits.2⟩
  simp only [exponentForm, List.mem_cons, List.mem_append, not_or] at hdigits ⊢
  exact ⟨hdigits.1, ⟨hdot, hsigns⟩, hexponent⟩

theorem not_mem_numberToString (x : ℕ) : quotationMark ∉ numberToString x := by
  unfold numberToString
  split
  · exact not_mem_decimalText (by decide)
  · next decimal _ =>
    split
    · exact List.not_mem_nil
    · next first rest hdigits =>
      have hall := isDigit_of_decimalText hdigits
      split
      · have hmem : quotationMark ∉ first :: rest := not_mem_of_digits hall (by decide)
        rw [← List.cons_append, List.mem_append]
        rintro (h | h)
        · exact hmem h
        · exact absurd (List.eq_of_mem_replicate h) (by decide)
      · exact not_mem_exponentForm hall

theorem not_mem_integerToString (n : ℤ) : quotationMark ∉ integerToString n := by
  have hnat := not_mem_numberToString n.natAbs
  unfold integerToString
  split
  · rintro (_ | ⟨_, h⟩)
    exact hnat h
  · exact hnat

/-- A value without quotation marks is shown as it is. -/
theorem replaceQuotes_of_not_mem {value : Text} (h : quotationMark ∉ value) :
    replaceQuotes value = value := by
  have hmap : replaceQuotes value = value.map id :=
    List.map_congr_left fun u hu => if_neg (ne_of_mem_of_not_mem hu h)
  rw [hmap, List.map_id]

/-! ### Fields -/

namespace LifecycleField

theorem mem_all (field : LifecycleField) : field ∈ all := by
  cases field <;> decide

theorem key_injective : Function.Injective key := by
  have hkeys : ∀ f ∈ all, ∀ g ∈ all, f.key = g.key → f = g := by decide
  exact fun f g => hkeys f f.mem_all g g.mem_all

theorem not_mem_key (field : LifecycleField) : unit '=' ∉ field.key := by
  have hkeys : ∀ f ∈ all, unit '=' ∉ f.key := by decide
  exact hkeys field field.mem_all

/-- The fields that hold one of a few words, a number or a time. -/
def isPlain : LifecycleField → Bool
  | event | payloadVersion | scheduleVersion | attempt | maxAttempts | durationMs => true
  | queue | job | jobId | scheduledAt | correlationId | reason => false

theorem isPlain_value {field : LifecycleField} (h : field.isPlain = true)
    {record : QueueLifecycleRecord} {value : Text} (hvalue : field.value record = some value) :
    quotationMark ∉ value := by
  have hnumber : ∀ n : Option ℤ, n.map integerToString = some value →
      quotationMark ∉ value := by
    intro n hn
    obtain ⟨m, -, rfl⟩ := Option.map_eq_some_iff.mp hn
    exact not_mem_integerToString m
  cases field with
  | event =>
    obtain rfl := Option.some.inj hvalue
    cases record.event <;> decide
  | payloadVersion | scheduleVersion | attempt | maxAttempts | durationMs =>
    exact hnumber _ hvalue
  | queue | job | jobId | scheduledAt | correlationId | reason => cases h

end LifecycleField

namespace QueueLifecycleRecord

variable (record : QueueLifecycleRecord)

/-- What a reader has of a field of the record. -/
def read (field : LifecycleField) : Option Text := (record.shown field).map replaceQuotes

/-- What a reader has of the record. -/
def readFields : List (Text × Text) :=
  LifecycleField.all.filterMap fun field =>
    (record.read field).map fun value => (field.key, value)

variable {record}

theorem readLine_format : readLine (formatLifecycleRecord record) = some record.readFields := by
  rw [formatLifecycleRecord, readLine_renderLine]
  · rw [List.map_filterMap]
    refine congrArg some (List.filterMap_congr fun field _ => ?_)
    simp only [read, Option.map_map]
    rfl
  · intro entry hentry
    obtain ⟨field, -, hfield⟩ := List.mem_filterMap.mp hentry
    obtain ⟨value, -, rfl⟩ := Option.map_eq_some_iff.mp hfield
    exact field.not_mem_key

/-- A key is looked up among some fields as in the record. -/
theorem lookup_readFields_of (field : LifecycleField) (fields : List LifecycleField) :
    (fields.filterMap fun f => (record.read f).map fun value => (f.key, value)).lookup field.key =
      if field ∈ fields then record.read field else none := by
  induction fields with
  | nil => rfl
  | cons g fields ih =>
    cases hread : record.read g with
    | none =>
      rw [List.filterMap_cons_none (by rw [hread]; rfl), ih]
      by_cases hfield : field = g
      · subst hfield
        simp [hread]
      · simp [hfield]
    | some value =>
      simp only [List.filterMap_cons, hread, Option.map_some]
      by_cases hfield : field = g
      · subst hfield
        rw [List.lookup_cons_self, if_pos List.mem_cons_self, hread]
      · have hkey : field.key ≠ g.key := LifecycleField.key_injective.ne hfield
        rw [List.lookup_cons, beq_false_of_ne hkey]
        simp only [ih, List.mem_cons, hfield, false_or]

theorem lookup_readFields (record : QueueLifecycleRecord) (field : LifecycleField) :
    record.readFields.lookup field.key = record.read field := by
  rw [readFields, lookup_readFields_of, if_pos field.mem_all]

end QueueLifecycleRecord

/-- A reader of a line finds under each key what the record shows in that field, a number or the
event as it is and a text up to its quotation marks. There are no other keys. -/
theorem lifecycle_line_reads_back (record : QueueLifecycleRecord) :
    ∃ fields, readLine (formatLifecycleRecord record) = some fields ∧
      (∀ field : LifecycleField,
        fields.lookup field.key = (record.shown field).map replaceQuotes ∧
          (field.isPlain = true → fields.lookup field.key = record.shown field)) ∧
      ∀ entry ∈ fields, ∃ field : LifecycleField, entry.1 = field.key := by
  refine ⟨record.readFields, QueueLifecycleRecord.readLine_format, fun field => ?_, ?_⟩
  · have hlookup := record.lookup_readFields field
    refine ⟨hlookup, fun hplain => hlookup.trans ?_⟩
    cases hshown : record.shown field with
    | none => simp [QueueLifecycleRecord.read, hshown]
    | some value =>
      have hvalue := (Option.filter_eq_some_iff.mp hshown).1
      simp [QueueLifecycleRecord.read, hshown,
        replaceQuotes_of_not_mem (LifecycleField.isPlain_value hplain hvalue)]
  · intro entry hentry
    obtain ⟨field, -, hfield⟩ := List.mem_filterMap.mp hentry
    obtain ⟨value, -, rfl⟩ := Option.map_eq_some_iff.mp hfield
    exact ⟨field, rfl⟩

end NestApi
