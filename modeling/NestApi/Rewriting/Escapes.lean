import Mathlib.Data.List.TakeWhile
import NestApi.Rewriting.Rewrite

/-!
# Escapes

An escape is a body between a start sign and a stop sign. Escaping spells some elements of a
list as escapes. A decoding pass replaces the escapes whose body it knows, and cannot tell an
escape that was written by the escaper from one that the list held before.
-/

namespace NestApi.Rewriting

variable {α : Type} {start stop : α}

/-- A body holds neither sign. -/
def Plain (start stop : α) (body : List α) : Prop := start ∉ body ∧ stop ∉ body

/-- The escape with a body. -/
def spell (start stop : α) (body : List α) : List α := start :: (body ++ [stop])

/-! ### Escaping -/

/-- Spell every element that has a name as an escape. -/
def escape (start stop : α) (name : α → Option (List α)) (t : List α) : List α :=
  t.flatMap fun a => ((name a).map (spell start stop)).getD [a]

variable {name name' : α → Option (List α)} {a : α} {body t x : List α}

@[simp] theorem escape_nil : escape start stop name [] = [] := rfl

theorem escape_cons_some (h : name a = some body) :
    escape start stop name (a :: t) = spell start stop body ++ escape start stop name t := by
  simp [escape, h]

theorem escape_cons_none (h : name a = none) :
    escape start stop name (a :: t) = a :: escape start stop name t := by
  simp [escape, h]

/-! ### Lists that are partly escaped -/

/-- The first list is the second with some of the named elements spelled as escapes. -/
inductive Spells (start stop : α) (name : α → Option (List α)) : List α → List α → Prop
  | nil : Spells start stop name [] []
  | plain (a : α) {x t : List α} (h : Spells start stop name x t) :
      Spells start stop name (a :: x) (a :: t)
  | escaped (a : α) (body : List α) {x t : List α} (hname : name a = some body)
      (h : Spells start stop name x t) :
      Spells start stop name (start :: (body ++ stop :: x)) (a :: t)

theorem spells_escape (t : List α) : Spells start stop name (escape start stop name t) t := by
  induction t with
  | nil => exact .nil
  | cons a t ih =>
    cases hname : name a with
    | some body =>
      rw [escape_cons_some hname]
      have hescaped := Spells.escaped a body hname ih
      simpa [spell] using hescaped
    | none =>
      rw [escape_cons_none hname]
      exact .plain a ih

/-- Without names there is nothing to spell. -/
theorem Spells.eq (h : Spells start stop name x t) (hname : ∀ a, name a = none) : x = t := by
  induction h with
  | nil => rfl
  | plain a _ ih => rw [ih]
  | escaped a body hsome => rw [hname a] at hsome; cases hsome

theorem Spells.append (h : Spells start stop name x t) :
    Spells start stop name (body ++ x) (body ++ t) := by
  induction body with
  | nil => exact h
  | cons a body ih => exact .plain a ih

/-- A front part without start signs was not spelled. -/
theorem Spells.of_append (ha : start ∉ body) {x t : List α}
    (h : Spells start stop name (body ++ x) t) :
    ∃ rest, t = body ++ rest ∧ Spells start stop name x rest := by
  induction body generalizing t with
  | nil => exact ⟨t, rfl, h⟩
  | cons b body ih =>
    rw [List.cons_append] at h
    generalize hfront : b :: (body ++ x) = front at h
    cases h with
    | nil => cases hfront
    | plain c htail =>
      obtain ⟨rfl, rfl⟩ := List.cons.inj hfront
      obtain ⟨rest, rfl, hrest⟩ := ih (fun hmem => ha (List.mem_cons_of_mem _ hmem)) htail
      exact ⟨rest, rfl, hrest⟩
    | escaped c body' hname htail =>
      exact absurd ((List.cons.inj hfront).1 ▸ List.mem_cons_self) ha

/-- A front part without named elements is spelled as it is. -/
theorem Spells.of_append_right (hnone : ∀ a ∈ body, name a = none) {x t : List α}
    (h : Spells start stop name x (body ++ t)) :
    ∃ rest, x = body ++ rest ∧ Spells start stop name rest t := by
  induction body generalizing x with
  | nil => exact ⟨x, rfl, h⟩
  | cons b body ih =>
    rw [List.cons_append] at h
    generalize hfront : b :: (body ++ t) = front at h
    cases h with
    | nil => cases hfront
    | plain c htail =>
      obtain ⟨rfl, rfl⟩ := List.cons.inj hfront
      obtain ⟨rest, rfl, hrest⟩ := ih (fun a hmem => hnone a (List.mem_cons_of_mem _ hmem)) htail
      exact ⟨rest, rfl, hrest⟩
    | escaped c body' hname htail =>
      rw [← (List.cons.inj hfront).1, hnone b List.mem_cons_self] at hname
      cases hname

/-! ### Decoding -/

section Decoding

variable [DecidableEq α] {decode : List α → Option (List α)}

/-- Recognise an escape whose body is known. -/
def escapeMatcher (start stop : α) (decode : List α → Option (List α)) : Matcher α α
  | [] => none
  | a :: t =>
    if a = start then
      let body := t.takeWhile fun x => x ≠ start && x ≠ stop
      if (t.drop body.length).head? = some stop then
        (decode body).map fun out => (body.length + 1, out)
      else none
    else none

theorem escapeMatcher_of_ne (ha : a ≠ start) : escapeMatcher start stop decode (a :: t) = none :=
  if_neg ha

theorem takeWhile_body (hplain : Plain start stop body) :
    (body ++ stop :: t).takeWhile (fun x => x ≠ start && x ≠ stop) = body := by
  rw [List.takeWhile_append_of_pos, List.takeWhile_cons_of_neg (by simp), List.append_nil]
  intro x hx
  have hstart := ne_of_mem_of_not_mem hx hplain.1
  have hstop := ne_of_mem_of_not_mem hx hplain.2
  simp [hstart, hstop]

theorem escapeMatcher_spell (decode : List α → Option (List α)) (t : List α)
    (hplain : Plain start stop body) :
    escapeMatcher start stop decode (start :: (body ++ stop :: t)) =
      (decode body).map fun out => (body.length + 1, out) := by
  simp only [escapeMatcher, if_true, takeWhile_body hplain, List.drop_left, List.head?_cons]

theorem escapeMatcher_eq_some {n : ℕ} {out : List α}
    (h : escapeMatcher start stop decode (a :: t) = some (n, out)) :
    a = start ∧ ∃ body rest, t = body ++ stop :: rest ∧ Plain start stop body ∧
      decode body = some out ∧ n = body.length + 1 := by
  simp only [escapeMatcher] at h
  split at h
  · next ha =>
    split at h
    · next hstop =>
      obtain ⟨out', hdecode, heq⟩ := Option.map_eq_some_iff.mp h
      obtain ⟨rfl, rfl⟩ := Prod.mk.inj heq
      obtain ⟨rest, hrest⟩ : ∃ rest,
          t.drop (t.takeWhile fun x => x ≠ start && x ≠ stop).length = stop :: rest := by
        cases hdrop : t.drop (t.takeWhile fun x => x ≠ start && x ≠ stop).length with
        | nil =>
          rw [hdrop] at hstop
          cases hstop
        | cons b rest =>
          rw [hdrop] at hstop
          exact ⟨rest, by rw [Option.some_inj.mp hstop]⟩
      refine ⟨ha, _, rest, ?_, ⟨fun hmem => ?_, fun hmem => ?_⟩, hdecode, rfl⟩
      · rw [← hrest]
        exact (List.prefix_iff_eq_append.mp (List.takeWhile_prefix _)).symm
      · simpa using List.mem_takeWhile_imp hmem
      · simpa using List.mem_takeWhile_imp hmem
    · cases h
  · cases h

/-- Decoding shortens when no body decodes to more than a few elements. -/
theorem shortens_escapeMatcher
    (h : ∀ body out, decode body = some out → out.length < body.length + 2) :
    Shortens (escapeMatcher start stop decode) := by
  rintro (_ | ⟨a, t⟩) n out hfound
  · simp [escapeMatcher] at hfound
  · obtain ⟨-, body, rest, rfl, -, hdecode, rfl⟩ := escapeMatcher_eq_some hfound
    have hshort := h body out hdecode
    simp
    omega

/-- Elements that are no start sign are kept. -/
theorem replaceAll_escape_append (ha : start ∉ body) :
    replaceAll (escapeMatcher start stop decode) (body ++ t) =
      body ++ replaceAll (escapeMatcher start stop decode) t := by
  refine replaceAll_append fun s hs hsuffix => ?_
  obtain ⟨b, s, rfl⟩ := List.exists_cons_of_ne_nil hs
  exact escapeMatcher_of_ne fun hb => ha (hb ▸ hsuffix.subset (by simp))

/-- An escape is decoded, or kept when its body is unknown. -/
theorem replaceAll_spell (decode : List α → Option (List α)) (t : List α)
    (hplain : Plain start stop body) (hne : start ≠ stop) :
    replaceAll (escapeMatcher start stop decode) (spell start stop body ++ t) =
      (decode body).getD (spell start stop body) ++
        replaceAll (escapeMatcher start stop decode) t := by
  have hspell : spell start stop body ++ t = start :: (body ++ stop :: t) := by simp [spell]
  have hmatch := escapeMatcher_spell decode t hplain
  rw [hspell]
  cases hdecode : decode body with
  | some out =>
    rw [hdecode] at hmatch
    rw [replaceAll_hit hmatch]
    simp
  | none =>
    rw [hdecode] at hmatch
    have hstart : start ∉ body ++ [stop] := by simpa using ⟨hplain.1, hne⟩
    rw [replaceAll_miss hmatch, show body ++ stop :: t = body ++ [stop] ++ t by simp,
      replaceAll_escape_append hstart]
    simp [spell]

/-- When the start sign itself is escaped, a pass sees exactly the escapes of the escaper. -/
theorem replaceAll_escape (hne : start ≠ stop) (hstart : name start ≠ none)
    (hplain : ∀ a body, name a = some body → Plain start stop body)
    (hnext : ∀ a body, name a = some body →
      (decode body).getD (spell start stop body) =
        ((name' a).map (spell start stop)).getD [a])
    (hkept : ∀ a, name a = none → name' a = none) (t : List α) :
    replaceAll (escapeMatcher start stop decode) (escape start stop name t) =
      escape start stop name' t := by
  induction t with
  | nil => rfl
  | cons a t ih =>
    cases hname : name a with
    | some body =>
      rw [escape_cons_some hname, replaceAll_spell decode _ (hplain a body hname) hne, ih,
        hnext a body hname]
      simp [escape]
    | none =>
      have ha : a ≠ start := by
        rintro rfl
        exact hstart hname
      rw [escape_cons_none hname, replaceAll_miss (escapeMatcher_of_ne ha), ih,
        escape_cons_none (hkept a hname)]

/-- A pass over a partly escaped list does what it does to the list, besides decoding some of
the escapes that spell elements of it. -/
theorem Spells.replaceAll (h : Spells start stop name x t) (hne : start ≠ stop)
    (hstart : name start = none) (hstop : name stop = none)
    (hplain : ∀ a body, name a = some body → Plain start stop body)
    (hnext : ∀ a body, name a = some body →
      decode body = some [a] ∨ decode body = none ∧ name' a = some body)
    (hclear : ∀ body out, decode body = some out → ∀ a ∈ body, name a = none) :
    Spells start stop name' (replaceAll (escapeMatcher start stop decode) x)
      (replaceAll (escapeMatcher start stop decode) t) := by
  induction hlength : t.length using Nat.strong_induction_on generalizing x t with
  | _ length ih =>
    cases h with
    | nil => exact .nil
    | @plain a x t htail =>
      cases hx : escapeMatcher start stop decode (a :: x) with
      | some found =>
        -- An escape that starts with a kept sign is kept as a whole, so both lists hold it.
        obtain ⟨n, out⟩ := found
        obtain ⟨rfl, body, x', rfl, hbody, hdecode, rfl⟩ := escapeMatcher_eq_some hx
        have hfront : a ∉ body ++ [stop] := by simpa using ⟨hbody.1, hne⟩
        rw [show body ++ stop :: x' = body ++ [stop] ++ x' by simp] at htail
        obtain ⟨t', rfl, htail'⟩ := htail.of_append hfront
        have ht : escapeMatcher a stop decode (a :: (body ++ [stop] ++ t')) =
            some (body.length + 1, out) := by
          simpa [hdecode] using escapeMatcher_spell decode t' hbody
        rw [replaceAll_hit hx, replaceAll_hit ht]
        refine Spells.append ?_
        have hdrop (y : List α) : (body ++ stop :: y).drop (body.length + 1) = y := by
          simp
        rw [hdrop, List.append_assoc, List.singleton_append, hdrop]
        exact ih t'.length (by simp at hlength; omega) htail' rfl
      | none =>
        have ht : escapeMatcher start stop decode (a :: t) = none := by
          by_contra hsome
          obtain ⟨⟨n, out⟩, hfound⟩ := Option.ne_none_iff_exists'.mp hsome
          obtain ⟨rfl, body, t', rfl, hbody, hdecode, rfl⟩ := escapeMatcher_eq_some hfound
          have hnone : ∀ b ∈ body ++ [stop], name b = none := by
            intro b hb
            rcases List.mem_append.mp hb with hb | hb
            · exact hclear body out hdecode b hb
            · rw [List.mem_singleton.mp hb]
              exact hstop
          rw [show body ++ stop :: t' = body ++ [stop] ++ t' by simp] at htail
          obtain ⟨x', rfl, -⟩ := htail.of_append_right hnone
          have hmatch := escapeMatcher_spell decode x' hbody
          rw [show body ++ [stop] ++ x' = body ++ stop :: x' by simp, hmatch, hdecode] at hx
          cases hx
        rw [replaceAll_miss hx, replaceAll_miss ht]
        exact .plain a (ih t.length (by simp at hlength; omega) htail rfl)
    | @escaped a body x t hname htail =>
      have ha : a ≠ start := by
        rintro rfl
        rw [hstart] at hname
        cases hname
      have hrest := ih t.length (by simp at hlength; omega) htail rfl
      have hspell := replaceAll_spell decode x (hplain a body hname) hne
      rw [show spell start stop body ++ x = start :: (body ++ stop :: x) by simp [spell]] at hspell
      rw [hspell, replaceAll_miss (escapeMatcher_of_ne ha)]
      rcases hnext a body hname with hdecode | ⟨hdecode, hname'⟩
      · rw [hdecode]
        exact .plain a hrest
      · rw [hdecode, Option.getD_none, spell, List.cons_append, List.append_assoc]
        exact .escaped a body hname' hrest

end Decoding

end NestApi.Rewriting
