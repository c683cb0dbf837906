import NestApi.Email.TemplateEngine

/-!
# Inserted values in a text body

An inserted value is escaped once and decoded by a chain of replacements. The ampersand is
decoded early in the chain, so what the value spells as an entity is decoded after it. Nothing
else of a value changes.
-/

namespace NestApi.Email

open Rewriting

variable {s t : Text}

/-! ### The escaped value -/

/-- The names that are left when the first `k` of them are decoded. -/
def names (k : ℕ) (u : CodeUnit) : Option Text := (escapedCharacters.drop k).lookup u

theorem mem_of_names {k : ℕ} {u : CodeUnit} {body : Text} (h : names k u = some body) :
    (u, body) ∈ escapedCharacters.drop k := by
  obtain ⟨l₁, l₂, hsplit, -⟩ := List.lookup_eq_some_iff.mp h
  rw [hsplit]
  simp

theorem not_mem_escapeExpression : unit '<' ∉ escapeExpression s := by
  intro hmem
  obtain ⟨u, -, hu⟩ := List.mem_flatMap.mp hmem
  cases hname : escapedCharacters.lookup u with
  | none =>
    simp only [hname, Option.map_none, Option.getD_none, List.mem_singleton] at hu
    rw [← hu] at hname
    exact absurd hname (by decide)
  | some body =>
    have hbody := mem_of_names (k := 0) hname
    have hplain : ∀ p ∈ escapedCharacters, unit '<' ∉ spell (unit '&') (unit ';') p.2 := by
      decide +kernel
    simp only [hname, Option.map_some, Option.getD_some] at hu
    exact hplain _ hbody hu

/-- An escaped value holds no tag. -/
theorem withoutTags_escapeExpression :
    replaceAll anyTag (replaceAll blockEnd (replaceAll lineBreak
      (replaceAll styleOrScript (escapeExpression s)))) = escapeExpression s := by
  have hstyle : ∀ u t, u ≠ unit '<' → styleOrScript (u :: t) = none := fun u t hu => if_neg hu
  have hbreak : ∀ u t, u ≠ unit '<' → lineBreak (u :: t) = none := by
    intro u t hu
    simp [lineBreak, hu]
  have hblock : ∀ u t, u ≠ unit '<' → blockEnd (u :: t) = none := fun u t hu => if_neg hu
  have htag : ∀ u t, u ≠ unit '<' → anyTag (u :: t) = none := by
    intro u t hu
    simp [anyTag, hu]
  have hplain := not_mem_escapeExpression (s := s)
  rw [replaceAll_of_not_mem hstyle hplain, replaceAll_of_not_mem hbreak hplain,
    replaceAll_of_not_mem hblock hplain, replaceAll_of_not_mem htag hplain]

/-! ### The chain on an escaped value -/

/-- The bodies that are decoded after the ampersand. -/
def laterDecoders : List (Text → Option Text) :=
  [named (text "lt") (text "<"), named (text "gt") (text ">"), named (text "quot") (text "\""),
    named (text "apos") (text "'"), hexadecimalEntity, decimalEntity]

/-- The chain from there on. -/
def decodeLater (t : Text) : Text := laterDecoders.foldl (fun t d => replaceAll (entity d) t) t

theorem plain_names {k : ℕ} {u : CodeUnit} {body : Text} (h : names k u = some body) :
    Plain (unit '&') (unit ';') body := by
  have hplain : ∀ p ∈ escapedCharacters, unit '&' ∉ p.2 ∧ unit ';' ∉ p.2 := by decide +kernel
  exact hplain _ ((List.drop_suffix k _).subset (mem_of_names h))

/-- Nothing spells a nonbreaking space in an escaped value. -/
theorem replaceAll_nbsp : replaceAll (entity (named (text "nbsp") (text " ")))
    (escapeExpression s) = escapeExpression s := by
  refine replaceAll_escape (by decide) (by decide) (fun a body h => plain_names (k := 0) h)
    (fun a body h => ?_) (fun _ h => h) s
  have hnone : ∀ p ∈ escapedCharacters, named (text "nbsp") (text " ") p.2 = none := by
    decide +kernel
  rw [hnone _ (mem_of_names (k := 0) h), h]
  rfl

/-- The ampersands are decoded, each once. -/
theorem replaceAll_amp : replaceAll (entity (named (text "amp") (text "&")))
    (escapeExpression s) = escape (unit '&') (unit ';') (names 1) s := by
  refine replaceAll_escape (by decide) (by decide) (fun a body h => plain_names (k := 0) h)
    (fun a body h => ?_) (fun a h => ?_) s
  · have hnext : ∀ p ∈ escapedCharacters,
        (named (text "amp") (text "&") p.2).getD (spell (unit '&') (unit ';') p.2) =
          ((names 1 p.1).map (spell (unit '&') (unit ';'))).getD [p.1] := by
      decide +kernel
    exact hnext _ (mem_of_names (k := 0) h)
  · exact (List.drop_suffix 1 _).lookup_eq_none h

/-- A pass decodes the names it should and no other. -/
theorem spells_next (k k' : ℕ) {decode : Text → Option Text} {x : Text} (hk : 1 ≤ k)
    (hnext : ∀ p ∈ escapedCharacters.drop k,
      decode p.2 = some [p.1] ∨ decode p.2 = none ∧ names k' p.1 = some p.2)
    (hclear : ∀ body out, decode body = some out → ∀ a ∈ body, names 1 a = none)
    (h : Spells (unit '&') (unit ';') (names k) x t) :
    Spells (unit '&') (unit ';') (names k') (replaceAll (entity decode) x)
      (replaceAll (entity decode) t) := by
  have hlater {u : CodeUnit} (hu : names 1 u = none) : names k u = none := by
    obtain ⟨j, rfl⟩ := Nat.exists_eq_add_of_le hk
    have hsuffix := List.drop_suffix j (escapedCharacters.drop 1)
    rw [List.drop_drop] at hsuffix
    exact hsuffix.lookup_eq_none hu
  exact h.replaceAll (by decide) (hlater (by decide)) (hlater (by decide))
    (fun a body => plain_names) (fun a body hname => hnext _ (mem_of_names hname))
    fun body out hdecode a ha => hlater (hclear body out hdecode a ha)

theorem clear_named (name out : Text) (h : name.Forall fun a => names 1 a = none) :
    ∀ body out', named name out body = some out' → ∀ a ∈ body, names 1 a = none := by
  intro body out' hdecode
  unfold named at hdecode
  split at hdecode
  · next hbody =>
    rw [hbody]
    exact List.forall_iff_forall_mem.mp h
  · cases hdecode

/-- The body of a numeric entity holds its front and digits only. -/
theorem not_mem_numeric {body front : Text} {n : ℕ} {digit : CodeUnit → Bool} {u : CodeUnit}
    (hfront : (body.take n).map asciiLower = front)
    (hdigits : ∀ v ∈ body.drop n, digit v = true) (hu : asciiLower u ∉ front)
    (hdigit : ¬ digit u = true) : u ∉ body := by
  intro hmem
  rw [← List.take_append_drop n body] at hmem
  rcases List.mem_append.mp hmem with hmem | hmem
  · exact hu (hfront ▸ List.mem_map_of_mem hmem)
  · exact hdigit (hdigits u hmem)

/-- No escaped character is part of a hexadecimal entity. -/
theorem clear_hexadecimal : ∀ body out, hexadecimalEntity body = some out →
    ∀ a ∈ body, names 1 a = none := by
  intro body out hdecode a ha
  cases hname : names 1 a with
  | none => rfl
  | some spelled =>
    exfalso
    have hkeys : ∀ p ∈ escapedCharacters.drop 1,
        hexValue p.1 = none ∧ asciiLower p.1 ∉ text "#x" := by
      decide +kernel
    obtain ⟨hvalue, hlower⟩ := hkeys _ (mem_of_names hname)
    obtain ⟨hfront, hdigits, -⟩ := hexadecimalEntity_eq_some hdecode
    exact not_mem_numeric hfront hdigits hlower (by simp [hvalue]) ha

/-- On an escaped value, the chain does what its later part does to the value itself. -/
theorem htmlToText_escapeExpression :
    htmlToText (escapeExpression s) = trim (replaceAll blankLines (decodeLater s)) := by
  have hamp : Spells (unit '&') (unit ';') (names 1)
      (escape (unit '&') (unit ';') (names 1) s) s := spells_escape s
  have hlt := spells_next 1 2 (by decide) (by decide +kernel)
    (clear_named (text "lt") (text "<") (by decide +kernel)) hamp
  have hgt := spells_next 2 3 (by decide) (by decide +kernel)
    (clear_named (text "gt") (text ">") (by decide +kernel)) hlt
  have hquot := spells_next 3 4 (by decide) (by decide +kernel)
    (clear_named (text "quot") (text "\"") (by decide +kernel)) hgt
  have hapos := spells_next 4 4 (by decide) (by decide +kernel)
    (clear_named (text "apos") (text "'") (by decide +kernel)) hquot
  have hhex := spells_next 4 7 (by decide) (by decide +kernel)
    clear_hexadecimal hapos
  have hdone := hhex.eq fun _ => rfl
  simp only [htmlToText, withoutTags_escapeExpression, namedEntities, List.foldl_cons,
    List.foldl_nil, replaceAll_nbsp, replaceAll_amp, decodeLater, laterDecoders, hdone]

/-! ### What the later part changes -/

/-- A body that is decoded after the ampersand: of a named entity, or of a numeric one. -/
def DecodedLater (body : Text) : Prop :=
  body ∈ [text "lt", text "gt", text "quot", text "apos"] ∨
    (hexadecimalEntity body).isSome ∨ (decimalEntity body).isSome

/-- The text holds an entity, spelled out, that is decoded after the ampersand. -/
def SpellsEntity (s : Text) : Prop :=
  ∃ before body after, s = before ++ unit '&' :: (body ++ unit ';' :: after) ∧ DecodedLater body

theorem decodedLater_iff {body : Text} :
    DecodedLater body ↔ ∃ d ∈ laterDecoders, ∃ out, d body = some out := by
  have hnamed (name replacement : Text) :
      (named name replacement body).isSome ↔ body = name := by
    unfold named
    split <;> simp_all
  simp only [DecodedLater, laterDecoders, List.mem_cons, List.not_mem_nil, or_false,
    exists_eq_or_imp, exists_eq_left, ← Option.isSome_iff_exists, hnamed, or_assoc]

/-- A decoded body holds neither sign, and is longer than the unit it stands for. -/
theorem laterDecoders_spec : ∀ d ∈ laterDecoders, ∀ body out, d body = some out →
    Plain (unit '&') (unit ';') body ∧ out.length < body.length + 2 := by
  have hnamed (name replacement body out : Text) (hplain : Plain (unit '&') (unit ';') name)
      (hlength : replacement.length < name.length + 2)
      (h : named name replacement body = some out) :
      Plain (unit '&') (unit ';') body ∧ out.length < body.length + 2 := by
    unfold named at h
    split at h
    · next hbody =>
      obtain rfl := Option.some_inj.mp h
      rw [hbody]
      exact ⟨hplain, hlength⟩
    · cases h
  intro d hd body out h
  simp only [laterDecoders, List.mem_cons, List.not_mem_nil, or_false] at hd
  rcases hd with rfl | rfl | rfl | rfl | rfl | rfl
  · exact hnamed _ _ _ _ ⟨by decide, by decide⟩ (by decide) h
  · exact hnamed _ _ _ _ ⟨by decide, by decide⟩ (by decide) h
  · exact hnamed _ _ _ _ ⟨by decide, by decide⟩ (by decide) h
  · exact hnamed _ _ _ _ ⟨by decide, by decide⟩ (by decide) h
  · obtain ⟨hfront, hdigits, hbody, hout⟩ := hexadecimalEntity_eq_some h
    have hampersand := not_mem_numeric (u := unit '&') hfront hdigits (by decide) (by decide)
    have hsemicolon := not_mem_numeric (u := unit ';') hfront hdigits (by decide) (by decide)
    exact ⟨⟨hampersand, hsemicolon⟩, by omega⟩
  · obtain ⟨hfront, hdigits, hbody, hout⟩ := decimalEntity_eq_some h
    have hampersand := not_mem_numeric (u := unit '&') hfront hdigits (by decide) (by decide)
    have hsemicolon := not_mem_numeric (u := unit ';') hfront hdigits (by decide) (by decide)
    exact ⟨⟨hampersand, hsemicolon⟩, by omega⟩

theorem shortens_later : ∀ d ∈ laterDecoders, Shortens (entity d) := fun d hd =>
  shortens_escapeMatcher fun body out h => (laterDecoders_spec d hd body out h).2

/-- No pass of a list of passes finds anything. -/
def FindsNothing (decoders : List (Text → Option Text)) (t : Text) : Prop :=
  ∀ d ∈ decoders, ∀ u, u ≠ [] → u <:+ t → entity d u = none

variable {decoders : List (Text → Option Text)}

theorem foldl_of_findsNothing (h : FindsNothing decoders t) :
    decoders.foldl (fun t d => replaceAll (entity d) t) t = t := by
  induction decoders with
  | nil => rfl
  | cons d decoders ih =>
    rw [List.foldl_cons, replaceAll_of_forall_none (h d List.mem_cons_self)]
    exact ih fun d' hd' => h d' (List.mem_cons_of_mem _ hd')

theorem length_foldl_le (hd : ∀ d ∈ decoders, Shortens (entity d)) :
    (decoders.foldl (fun t d => replaceAll (entity d) t) t).length ≤ t.length := by
  induction decoders generalizing t with
  | nil => rfl
  | cons d decoders ih =>
    have hrest := ih (t := replaceAll (entity d) t) fun d' hd' => hd d' (List.mem_cons_of_mem _ hd')
    exact hrest.trans (length_replaceAll_le (hd d List.mem_cons_self))

/-- Passes that shorten leave the length alone only when they find nothing. -/
theorem findsNothing_of_length (hd : ∀ d ∈ decoders, Shortens (entity d))
    (h : t.length ≤ (decoders.foldl (fun t d => replaceAll (entity d) t) t).length) :
    FindsNothing decoders t := by
  induction decoders with
  | nil => exact fun d hd => absurd hd List.not_mem_nil
  | cons d decoders ih =>
    have hrest : ∀ d' ∈ decoders, Shortens (entity d') := fun d' hd' =>
      hd d' (List.mem_cons_of_mem _ hd')
    have hfirst := forall_none_of_length_replaceAll (hd d List.mem_cons_self)
      (h.trans (length_foldl_le hrest))
    rw [List.foldl_cons, replaceAll_of_forall_none hfirst] at h
    intro d' hd'
    rcases List.mem_cons.mp hd' with rfl | hd'
    · exact hfirst
    · exact ih hrest h d' hd'

theorem findsNothing_iff : FindsNothing laterDecoders s ↔ ¬ SpellsEntity s := by
  constructor
  · rintro hnothing ⟨before, body, after, rfl, hbody⟩
    obtain ⟨d, hd, out, hdecode⟩ := decodedLater_iff.mp hbody
    have hmatch := escapeMatcher_spell d after
      (laterDecoders_spec d hd body out hdecode).1
    have hnone := hnothing d hd (unit '&' :: (body ++ unit ';' :: after)) (by simp)
      (List.suffix_append _ _)
    rw [entity, hmatch, hdecode] at hnone
    cases hnone
  · intro hspells d hd u hu hsuffix
    by_contra hsome
    obtain ⟨⟨n, out⟩, hfound⟩ := Option.ne_none_iff_exists'.mp hsome
    obtain ⟨a, u, rfl⟩ := List.exists_cons_of_ne_nil hu
    obtain ⟨rfl, body, rest, rfl, -, hdecode, -⟩ := escapeMatcher_eq_some hfound
    obtain ⟨before, rfl⟩ := hsuffix
    exact hspells ⟨before, body, rest, rfl, decodedLater_iff.mpr ⟨d, hd, out, hdecode⟩⟩

/-! ### The round trip -/

/-- Three line breaks in a row. -/
def HasBlankLines (s : Text) : Prop := text "\n\n\n" <:+: s

instance : Decidable (HasBlankLines s) := inferInstanceAs (Decidable (_ <:+: _))

theorem blankLines_eq_some {u : CodeUnit} {n : ℕ} {out : Text}
    (h : blankLines (u :: t) = some (n, out)) :
    out.length < n + 1 ∧ n + 1 ≤ (u :: t).length ∧
      ∃ after, u :: t = text "\n\n\n" ++ after := by
  simp only [blankLines, Option.ite_none_right_eq_some, Bool.and_eq_true, decide_eq_true_eq,
    Option.some.injEq, Prod.mk.injEq] at h
  obtain ⟨⟨rfl, hmore⟩, rfl, rfl⟩ := h
  have hprefix := List.takeWhile_prefix (p := fun x => decide (x = unit '\n')) (l := t)
  have hbreaks : ∀ x ∈ t.takeWhile fun x => decide (x = unit '\n'), x = unit '\n' := fun x hx => by
    simpa using List.mem_takeWhile_imp hx
  have htwo : (text "\n\n").length = 2 := by decide
  refine ⟨by omega, by simpa using hprefix.length_le, ?_⟩
  generalize t.takeWhile (fun x => decide (x = unit '\n')) = more at hmore hprefix hbreaks
  obtain ⟨rest, rfl⟩ := hprefix
  match more, hmore, hbreaks with
  | a :: b :: more, _, hbreaks =>
    rw [hbreaks a (by simp), hbreaks b (by simp)]
    exact ⟨more ++ rest, rfl⟩

theorem shortens_blankLines : Shortens blankLines := by
  rintro (_ | ⟨u, t⟩) n out h
  · cases h
  · exact ⟨(blankLines_eq_some h).1, (blankLines_eq_some h).2.1⟩

theorem length_trim_le : (trim t).length ≤ t.length :=
  ((List.rdropWhile_prefix _ _).length_le).trans (List.dropWhile_sublist _).length_le

/-- An inserted value shows as it was given, exactly when it spells no entity that is decoded
after the ampersand. -/
theorem htmlToText_escapeExpression_iff (s : Text) (htrim : trim s = s)
    (hblank : ¬ HasBlankLines s) : htmlToText (escapeExpression s) = s ↔ ¬ SpellsEntity s := by
  rw [htmlToText_escapeExpression, ← findsNothing_iff]
  constructor
  · intro heq
    refine findsNothing_of_length shortens_later ?_
    have hlength := congrArg List.length heq
    have htrim' := length_trim_le (t := replaceAll blankLines (decodeLater s))
    have hlines := length_replaceAll_le shortens_blankLines (t := decodeLater s)
    exact hlength.symm.le.trans (htrim'.trans hlines)
  · intro hnothing
    have hlines : ∀ u, u ≠ [] → u <:+ s → blankLines u = none := by
      rintro u hu ⟨before, rfl⟩
      by_contra hsome
      obtain ⟨⟨n, out⟩, hfound⟩ := Option.ne_none_iff_exists'.mp hsome
      obtain ⟨a, u, rfl⟩ := List.exists_cons_of_ne_nil hu
      obtain ⟨-, -, after, hafter⟩ := blankLines_eq_some hfound
      exact hblank ⟨before, after, by rw [hafter, List.append_assoc]⟩
    rw [decodeLater, foldl_of_findsNothing hnothing, replaceAll_of_forall_none hlines, htrim]

/-- A value with tags, an equals sign and the entity of an ampersand, spelled out. -/
theorem htmlToText_escapeExpression_tags :
    htmlToText (escapeExpression (text "<b>R&amp;D</b> = 'x'")) = text "<b>R&amp;D</b> = 'x'" ↔
      ¬ SpellsEntity (text "<b>R&amp;D</b> = 'x'") :=
  htmlToText_escapeExpression_iff _ (by decide +kernel) (by decide +kernel)

/-- An entity that a value spells out is decoded. -/
theorem not_htmlToText_escapeExpression : ¬ ∀ s : Text, trim s = s → ¬ HasBlankLines s →
    htmlToText (escapeExpression s) = s := by
  intro hclaim
  have hsame := hclaim (text "&lt;") (by decide +kernel) (by decide +kernel)
  exact absurd hsame (by decide +kernel)

end NestApi.Email
