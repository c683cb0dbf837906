import NestApi.Common.Text
import NestApi.Numbers.Double
import NestApi.Rewriting.Escapes

/-!
# The text of an email

A template is compiled to functions of its variables. A template without a text body has one
derived from its HTML: a chain of replacements that drops the tags and decodes the entities.
-/

namespace NestApi.Email

open Rewriting

/-! ### Numbers of entities -/

/-- `String.fromCharCode` of a parsed number: one code unit, the number modulo 2¹⁶. -/
def fromCharCode (n : ℕ) : Text := [(nearestDouble n).toUInt16]

/-- `parseInt` on hexadecimal digits. -/
def hexadecimalValue (digits : Text) : ℕ :=
  digits.foldl (fun n u => 16 * n + (hexValue u).getD 0) 0

/-! ### The tags -/

/-- The list starts with a small-letter pattern, whatever the case of its letters. -/
def startsWith (pattern t : Text) : Bool := (t.take pattern.length).map asciiLower = pattern

/-- Where a pattern first occurs, whatever the case of its letters. -/
def indexOfIgnoringCase (pattern : Text) : Text → Option ℕ
  | [] => if pattern = [] then some 0 else none
  | u :: t =>
    if startsWith pattern (u :: t) then some 0
    else (indexOfIgnoringCase pattern t).map (· + 1)

/-- `<(style|script)[\s\S]*?<\/\1>`: up to the first closing tag of the same name. -/
def styleOrScript : Matcher CodeUnit CodeUnit
  | [] => none
  | u :: t =>
    if u = unit '<' then
      [text "style", text "script"].findSome? fun tag =>
        if startsWith tag t then
          let closing := text "</" ++ tag ++ text ">"
          (indexOfIgnoringCase closing (t.drop tag.length)).map fun skipped =>
            (tag.length + skipped + closing.length, [])
        else none
    else none

/-- `<br\s*\/?>`. -/
def lineBreak : Matcher CodeUnit CodeUnit
  | [] => none
  | u :: t =>
    if u = unit '<' && startsWith (text "br") t then
      let spaces := (t.drop 2).takeWhile isWhiteSpace
      let rest := t.drop (2 + spaces.length)
      let slash := if rest.head? = some (unit '/') then 1 else 0
      if (rest.drop slash).head? = some (unit '>') then
        some (2 + spaces.length + slash + 1, text "\n")
      else none
    else none

def blockTags : List Text :=
  ["p", "div", "h1", "h2", "h3", "h4", "h5", "h6", "li"].map text

/-- `<\/(p|div|h[1-6]|li)>`. -/
def blockEnd : Matcher CodeUnit CodeUnit
  | [] => none
  | u :: t =>
    if u = unit '<' then
      blockTags.findSome? fun tag =>
        let closing := unit '/' :: (tag ++ text ">")
        if startsWith closing t then some (closing.length, text "\n\n") else none
    else none

/-- `<[^>]+>`. -/
def anyTag : Matcher CodeUnit CodeUnit
  | [] => none
  | u :: t =>
    let inside := t.takeWhile (· ≠ unit '>')
    if u = unit '<' && inside ≠ [] && (t.drop inside.length).head? = some (unit '>') then
      some (inside.length + 1, [])
    else none

/-! ### The entities -/

/-- Recognise an entity by what stands between the ampersand and the semicolon. -/
def entity (decode : Text → Option Text) : Matcher CodeUnit CodeUnit :=
  escapeMatcher (unit '&') (unit ';') decode

/-- A named entity. -/
def named (name replacement body : Text) : Option Text :=
  if body = name then some replacement else none

/-- `&#x([0-9a-f]+);`, in either case. -/
def hexadecimalEntity (body : Text) : Option Text :=
  let digits := body.drop 2
  if startsWith (text "#x") body && digits ≠ [] && digits.all (hexValue · |>.isSome) then
    some (fromCharCode (hexadecimalValue digits))
  else none

/-- `&#(\d+);`. -/
def decimalEntity (body : Text) : Option Text :=
  let digits := body.drop 1
  if startsWith (text "#") body && digits ≠ [] && digits.all isDigit then
    some (fromCharCode (decimalValue digits))
  else none

theorem hexadecimalEntity_eq_some {body out : Text} (h : hexadecimalEntity body = some out) :
    (body.take 2).map asciiLower = text "#x" ∧ (∀ u ∈ body.drop 2, (hexValue u).isSome = true) ∧
      3 ≤ body.length ∧ out.length = 1 := by
  simp only [hexadecimalEntity, Option.ite_none_right_eq_some, Bool.and_eq_true,
    decide_eq_true_eq, List.all_eq_true, Option.some.injEq] at h
  obtain ⟨⟨⟨hfront, hdigits⟩, hall⟩, rfl⟩ := h
  have hlength := List.length_pos_iff.mpr hdigits
  rw [List.length_drop] at hlength
  exact ⟨of_decide_eq_true hfront, hall, by omega, rfl⟩

theorem decimalEntity_eq_some {body out : Text} (h : decimalEntity body = some out) :
    (body.take 1).map asciiLower = text "#" ∧ (∀ u ∈ body.drop 1, isDigit u = true) ∧
      2 ≤ body.length ∧ out.length = 1 := by
  simp only [decimalEntity, Option.ite_none_right_eq_some, Bool.and_eq_true,
    decide_eq_true_eq, List.all_eq_true, Option.some.injEq] at h
  obtain ⟨⟨⟨hfront, hdigits⟩, hall⟩, rfl⟩ := h
  have hlength := List.length_pos_iff.mpr hdigits
  rw [List.length_drop] at hlength
  exact ⟨of_decide_eq_true hfront, hall, by omega, rfl⟩

/-- `\n{3,}`. -/
def blankLines : Matcher CodeUnit CodeUnit
  | [] => none
  | u :: t =>
    let more := t.takeWhile (· = unit '\n')
    if u = unit '\n' && 2 ≤ more.length then some (more.length, text "\n\n") else none

/-- The named entities, in the order in which they are decoded. -/
def namedEntities : List (Text × Text) :=
  [(text "nbsp", text " "), (text "amp", text "&"), (text "lt", text "<"), (text "gt", text ">"),
    (text "quot", text "\""), (text "apos", text "'")]

def htmlToText (html : Text) : Text :=
  let withoutTags :=
    replaceAll anyTag (replaceAll blockEnd (replaceAll lineBreak (replaceAll styleOrScript html)))
  let withoutNames := namedEntities.foldl
    (fun t (name, replacement) => replaceAll (entity (named name replacement)) t) withoutTags
  trim (replaceAll blankLines
    (replaceAll (entity decimalEntity) (replaceAll (entity hexadecimalEntity) withoutNames)))

/-! ### Rendering -/

/-- A compiled template. -/
structure CompiledTemplate (Vars : Type) where
  html : Vars → Text
  text : Option (Vars → Text)

structure RenderedEmail where
  subject : Text
  html : Text
  text : Text

/-- Render a template with its variables. -/
def render {Vars : Type} (key : Text) (compiled : Option (CompiledTemplate Vars))
    (subject : Vars → Text) (vars : Vars) : Except Text RenderedEmail :=
  match compiled with
  | none => .error (NestApi.text "Unknown email template: \"" ++ key ++
      NestApi.text "\" — did you add " ++ key ++
      NestApi.text ".html.hbs to the templates directory?")
  | some template =>
    let html := trim (template.html vars)
    .ok {
      subject := trim (subject vars)
      html
      text := match template.text with
        | some text => trim (text vars)
        | none => htmlToText html }

/-! ### Inserted values -/

/-- What Handlebars puts for a character of an inserted value. -/
def escapedCharacters : List (CodeUnit × Text) :=
  [(unit '&', text "amp"), (unit '<', text "lt"), (unit '>', text "gt"), (unit '"', text "quot"),
    (unit '\'', text "#x27"), (unit (Char.ofNat 96), text "#x60"), (unit '=', text "#x3D")]

/-- `escapeExpression`, in one pass over the value. -/
def escapeExpression (value : Text) : Text :=
  escape (unit '&') (unit ';') (fun u => escapedCharacters.lookup u) value

end NestApi.Email
