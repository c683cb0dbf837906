import NestApi.SendLimit.MessageDestination

/-!
# The key of a mailbox

Two spellings of an address share a key when they should reach one mailbox: the local part is
read by its content, the tag is dropped, and the domain is taken in its ASCII form. The key
leaves the backslashes of a quoted local part in place.
-/

namespace NestApi.SendLimit

/-! ### Local parts -/

/-- One item of a quoted local part: a sign that stands for itself, or one behind a backslash. -/
inductive QuotedItem
  | sign (u : CodeUnit)
  | pair (u : CodeUnit)
deriving DecidableEq

/-- The two signs that need a backslash. -/
def needsBackslash (u : CodeUnit) : Bool := u ∈ text "\"\\"

namespace QuotedItem

/-- The sign that is meant. -/
def value : QuotedItem → CodeUnit
  | sign u | pair u => u

def raw : QuotedItem → Text
  | sign u => [u]
  | pair u => [unit '\\', u]

/-- The item as it is spelled without needless backslashes. -/
def escaped (u : CodeUnit) : QuotedItem := if needsBackslash u then pair u else sign u

/-- An item that a well-formed quoted string may have. The validation admits no half of a
surrogate pair. -/
def IsWellFormed (item : QuotedItem) : Prop :=
  isSurrogate item.value = false ∧ ∀ u, item = sign u → needsBackslash u = false

/-- The item has no needless backslash. -/
def IsPlain (item : QuotedItem) : Prop := item = escaped item.value

instance : DecidablePred IsPlain := fun _ => inferInstanceAs (Decidable (_ = _))

end QuotedItem

open QuotedItem

/-- The text of a list of items. -/
def spell (items : List QuotedItem) : Text := items.flatMap raw

/-- The items of a text. -/
def quotedItems : Text → List QuotedItem
  | [] => []
  | u :: t =>
    if u = unit '\\' then
      match t with
      | [] => [.sign u]
      | v :: t => .pair v :: quotedItems t
    else .sign u :: quotedItems t

/-- A sign of an atom: no blank, none of the signs with a meaning of their own. -/
def isAtomSign (u : CodeUnit) : Bool :=
  !isSurrogate u && !isWhiteSpace u && u ∉ text "\"(),.:;<>@[\\]"

/-- Atoms with single dots between them. -/
def IsDotAtom (t : Text) : Prop :=
  [] ∉ t.splitOn (unit '.') ∧ ∀ u ∈ t, u = unit '.' ∨ isAtomSign u = true

/-- Well-formed items between two quotes. -/
def IsQuotedString (t : Text) : Prop :=
  ∃ items, (∀ item ∈ items, item.IsWellFormed) ∧ t = unit '"' :: (spell items ++ [unit '"'])

/-- What is used of a domain that was validated. -/
def IsDomain (t : Text) : Prop :=
  t ≠ [] ∧ ∀ u ∈ t, u ≠ unit '@' ∧ isWhiteSpace u = false

/-- An address, trimmed and lowered, with a local part of one of the two forms. -/
def IsAddress (t : Text) : Prop :=
  ∃ localPart domain, t = localPart ++ unit '@' :: domain ∧ IsDomain domain ∧
    (IsDotAtom localPart ∨ IsQuotedString localPart)

/-! ### The mailbox -/

structure Mailbox where
  content : Text
  domain : Text
deriving DecidableEq

/-- What is left of a content without the part from the first plus sign that is not its first
sign. -/
def dropTag : Text → Text
  | [] => []
  | u :: t => u :: t.takeWhile (· ≠ unit '+')

/-- The items of a local part, with the outer quotes dropped. -/
def localItems (localPart : Text) : List QuotedItem := quotedItems (unquoted localPart)

/-- The mailbox that an address names. -/
def mailbox (case : MailCase) (names : DomainNames) (email : Text) : Option Mailbox :=
  (cutLast (unit '@') (normalizeEmail case email)).map fun parts =>
    let content := dropTag ((localItems parts.1).map value)
    let domain := asciiDomain names parts.2
    if domain ∈ dotInsensitiveDomains then ⟨withoutDots content, text "gmail.com"⟩
    else ⟨content, domain⟩

/-- The items up to the plus sign of a tag, which is not the first item. -/
def upToTag : List QuotedItem → List QuotedItem
  | [] => []
  | first :: rest =>
    first :: (rest.takeWhile (·.value ≠ unit '+') ++
      (rest.dropWhile (·.value ≠ unit '+')).take 1)

/-- Up to the tag every backslash stands before a quote or a backslash, and a plus sign in front
is the only one. -/
def IsPlainlySpelled (items : List QuotedItem) : Prop :=
  (∀ item ∈ upToTag items, item.IsPlain) ∧
    (items.head? = some (.sign (unit '+')) → ∀ item ∈ items.tail, item.value ≠ unit '+')

/-- The local part of the address is plainly spelled. -/
def IsPlainAddress (case : MailCase) (email : Text) : Prop :=
  ∀ parts ∈ cutLast (unit '@') (normalizeEmail case email), IsPlainlySpelled (localItems parts.1)

/-! ### Spellings and items -/

variable {items kept : List QuotedItem} {item first : QuotedItem} {t a b : Text} {u : CodeUnit}

@[simp] theorem value_sign (u : CodeUnit) : (sign u).value = u := rfl

@[simp] theorem value_pair (u : CodeUnit) : (pair u).value = u := rfl

@[simp] theorem spell_nil : spell [] = [] := rfl

@[simp] theorem spell_cons : spell (item :: items) = item.raw ++ spell items := rfl

@[simp] theorem spell_append : spell (items ++ kept) = spell items ++ spell kept :=
  List.flatMap_append

theorem spell_map_sign (t : Text) : spell (t.map .sign) = t := by
  induction t with
  | nil => rfl
  | cons u t ih => simp [raw, ih]

theorem quotedItems_cons (h : u ≠ unit '\\') : quotedItems (u :: t) = .sign u :: quotedItems t := by
  cases t <;> simp [quotedItems, h]

theorem quotedItems_backslash (u : CodeUnit) (t : Text) :
    quotedItems (unit '\\' :: u :: t) = .pair u :: quotedItems t := by
  simp [quotedItems]

theorem quotedItems_eq_map (h : unit '\\' ∉ t) : quotedItems t = t.map .sign := by
  induction t with
  | nil => rfl
  | cons u t ih =>
    obtain ⟨hu, ht⟩ := List.ne_and_not_mem_of_not_mem_cons h
    rw [quotedItems_cons hu.symm, ih ht, List.map_cons]

/-- The items of a spelling are the ones that were spelled. -/
theorem quotedItems_spell (h : ∀ item ∈ items, item ≠ .sign (unit '\\')) :
    quotedItems (spell items) = items := by
  induction items with
  | nil => rfl
  | cons item items ih =>
    have hrest := ih fun other hother => h other (List.mem_cons_of_mem _ hother)
    cases item with
    | sign u =>
      have hu : u ≠ unit '\\' := by
        rintro rfl
        exact h _ List.mem_cons_self rfl
      simp [raw, quotedItems_cons hu, hrest]
    | pair u => simp [raw, quotedItems_backslash, hrest]

theorem QuotedItem.IsWellFormed.ne_backslash (h : item.IsWellFormed) :
    item ≠ .sign (unit '\\') := by
  rintro rfl
  exact absurd (h.2 _ rfl) (by decide)

/-! ### The plain spelling of a content -/

/-- The spelling of a content without needless backslashes. -/
def escape (t : Text) : Text := spell (t.map escaped)

@[simp] theorem value_escaped (u : CodeUnit) : (escaped u).value = u := by
  unfold escaped
  split <;> rfl

theorem map_value_escaped (t : Text) : (t.map escaped).map value = t := by
  rw [List.map_map]
  exact (List.map_congr_left fun u _ => value_escaped u).trans (List.map_id t)

theorem isPlain_escaped (u : CodeUnit) : (escaped u).IsPlain := by
  rw [IsPlain, value_escaped]

theorem isWellFormed_escaped (h : isSurrogate u = false) : (escaped u).IsWellFormed := by
  refine ⟨by rwa [value_escaped], fun v hv => ?_⟩
  unfold escaped at hv
  split at hv
  · cases hv
  · next hneeds =>
    obtain rfl := QuotedItem.sign.inj hv
    simpa using hneeds

theorem escaped_ne_backslash (u : CodeUnit) : escaped u ≠ .sign (unit '\\') := by
  unfold escaped
  split
  · simp
  · next hneeds =>
    intro hu
    rw [QuotedItem.sign.inj hu] at hneeds
    exact hneeds (by decide)

theorem quotedItems_escape (t : Text) : quotedItems (escape t) = t.map escaped := by
  refine quotedItems_spell fun item hitem => ?_
  obtain ⟨u, -, rfl⟩ := List.mem_map.mp hitem
  exact escaped_ne_backslash u

theorem escape_injective : Function.Injective escape := by
  intro a b h
  have hitems : a.map escaped = b.map escaped := by
    rw [← quotedItems_escape, h, quotedItems_escape]
  rw [← map_value_escaped a, hitems, map_value_escaped]

theorem mem_spell (h : u ∈ spell items) : u = unit '\\' ∨ u ∈ items.map value := by
  obtain ⟨item, hitem, hu⟩ := List.mem_flatMap.mp h
  have hvalue := List.mem_map_of_mem (f := value) hitem
  cases item with
  | sign v =>
    obtain rfl := List.mem_singleton.mp hu
    exact .inr hvalue
  | pair v =>
    rcases List.mem_cons.mp hu with rfl | hv
    · exact .inl rfl
    · obtain rfl := List.mem_singleton.mp hv
      exact .inr hvalue

theorem mem_escape (h : u ∈ escape t) : u = unit '\\' ∨ u ∈ t := by
  have hmem := mem_spell h
  rwa [map_value_escaped] at hmem

theorem withoutDots_append (a b : Text) : withoutDots (a ++ b) = withoutDots a ++ withoutDots b :=
  List.filter_append a b

/-- An item keeps its backslash when its sign is kept. -/
theorem withoutDots_raw (h : u ≠ unit '.') : withoutDots (escaped u).raw = (escaped u).raw := by
  have hback : unit '\\' ≠ unit '.' := by decide
  unfold escaped
  split <;> simp [raw, withoutDots, h, hback]

/-- The dots of a content are the dots of its spelling. -/
theorem withoutDots_escape (t : Text) : withoutDots (escape t) = escape (withoutDots t) := by
  induction t with
  | nil => rfl
  | cons u t ih =>
    have hspell : escape (u :: t) = (escaped u).raw ++ escape t := rfl
    by_cases hdot : u = unit '.'
    · have hraw : withoutDots (escaped u).raw = [] := by
        subst hdot
        decide
      have hdropped : withoutDots (u :: t) = withoutDots t := by simp [withoutDots, hdot]
      rw [hspell, withoutDots_append, hraw, ih, hdropped, List.nil_append]
    · have hkept : withoutDots (u :: t) = u :: withoutDots t := by simp [withoutDots, hdot]
      rw [hspell, withoutDots_append, withoutDots_raw hdot, ih, hkept]
      rfl

/-! ### Tags -/

theorem untagged_append (hne : a ≠ []) (ha : unit '+' ∉ a) :
    untagged (a ++ unit '+' :: b) = a := by
  rw [untagged, cut_append ha]
  simp [hne]

theorem untagged_plus (t : Text) : untagged (unit '+' :: t) = unit '+' :: t := by
  have hcut : cut (unit '+') (unit '+' :: t) = some ([], t) := cut_append List.not_mem_nil
  rw [untagged, hcut]
  simp

theorem untagged_eq_self (h : unit '+' ∉ t) : untagged t = t := by
  rw [untagged, cut_eq_none.mpr h]

theorem plus_mem_raw : unit '+' ∈ item.raw ↔ item.value = unit '+' := by
  have hback : unit '+' ≠ unit '\\' := by decide
  cases item with
  | sign u => simp [raw, value, eq_comm]
  | pair u => simp [raw, value, hback, eq_comm]

theorem plus_not_mem_spell (h : ∀ item ∈ items, item.value ≠ unit '+') :
    unit '+' ∉ spell items := by
  intro hmem
  obtain ⟨item, hitem, hu⟩ := List.mem_flatMap.mp hmem
  exact h item hitem (plus_mem_raw.mp hu)

theorem raw_ne_nil (item : QuotedItem) : item.raw ≠ [] := by
  cases item <;> simp [raw]

/-- The items behind the first are those up to the tag, and either nothing or a plus sign and
the rest of the tag. -/
theorem exists_tag (first : QuotedItem) (rest : List QuotedItem) :
    ∃ kept, (∀ item ∈ kept, item.value ≠ unit '+') ∧
      dropTag ((first :: rest).map value) = (first :: kept).map value ∧
      ((rest = kept ∧ upToTag (first :: rest) = first :: kept) ∨
        ∃ tag after, tag.value = unit '+' ∧ rest = kept ++ tag :: after ∧
          upToTag (first :: rest) = (first :: kept) ++ [tag]) := by
  have hkept : ∀ item ∈ rest.takeWhile (·.value ≠ unit '+'), item.value ≠ unit '+' :=
    fun item hitem => by simpa using List.mem_takeWhile_imp hitem
  refine ⟨rest.takeWhile (·.value ≠ unit '+'), hkept, ?_, ?_⟩
  · simp only [dropTag, List.map_cons, List.takeWhile_map]
    rfl
  · have hsplit := List.takeWhile_append_dropWhile (p := (·.value ≠ unit '+')) (l := rest)
    cases hdrop : rest.dropWhile (·.value ≠ unit '+') with
    | nil =>
      rw [hdrop, List.append_nil] at hsplit
      exact .inl ⟨hsplit.symm, by rw [upToTag, hdrop, List.take_nil, List.append_nil]⟩
    | cons tag after =>
      have htag : tag.value = unit '+' := by
        have hhead := List.head?_dropWhile_not (fun item => item.value ≠ unit '+') rest
        rw [hdrop] at hhead
        simpa using hhead
      rw [hdrop] at hsplit
      exact .inr ⟨tag, after, htag, hsplit.symm, by rw [upToTag, hdrop]; rfl⟩

theorem spell_of_plain (h : ∀ item ∈ items, item.IsPlain) :
    spell items = escape (items.map value) := by
  rw [escape, List.map_map]
  exact congrArg spell ((List.map_id items).symm.trans (List.map_congr_left h))

theorem sign_plus_of_plain (hvalue : item.value = unit '+') (h : item.IsPlain) :
    item = .sign (unit '+') := by
  rw [IsPlain, hvalue] at h
  exact h.trans (by decide)

/-- A plainly spelled local part without its tag is the plain spelling of its content without
the tag. -/
theorem untagged_of_plain (h : IsPlainlySpelled items) :
    untagged (spell items) = escape (dropTag (items.map value)) := by
  obtain ⟨hplain, hfront⟩ := h
  cases items with
  | nil => rfl
  | cons first rest =>
    obtain ⟨kept, hkept, hcontent, ⟨rfl, htag⟩ | ⟨tag, after, hvalue, rfl, htag⟩⟩ :=
      exists_tag first rest
    · rw [htag] at hplain
      rw [hcontent, ← spell_of_plain hplain]
      by_cases hfirst : first.value = unit '+'
      · rw [sign_plus_of_plain hfirst (hplain first List.mem_cons_self)]
        exact untagged_plus _
      · exact untagged_eq_self (plus_not_mem_spell (List.forall_mem_cons.mpr ⟨hfirst, hkept⟩))
    · rw [htag] at hplain
      have hbefore : ∀ item ∈ first :: kept, item.IsPlain := fun item hitem =>
        hplain item (List.mem_append_left _ hitem)
      have hsign := sign_plus_of_plain hvalue (hplain tag (by simp))
      have hfirst : first.value ≠ unit '+' := by
        intro hfirst
        have hhead := sign_plus_of_plain hfirst (hbefore first List.mem_cons_self)
        exact hfront (by rw [hhead]; rfl) tag (by simp) hvalue
      rw [hcontent, ← spell_of_plain hbefore, hsign, ← List.cons_append, spell_append]
      refine untagged_append ?_ (plus_not_mem_spell (List.forall_mem_cons.mpr ⟨hfirst, hkept⟩))
      simp [raw_ne_nil]

/-! ### Counting backslashes -/

theorem escaped_of_needsBackslash (h : needsBackslash u = true) : escaped u = .pair u := by
  rw [escaped, if_pos h]

theorem escaped_of_not_needsBackslash (h : needsBackslash u = false) : escaped u = .sign u := by
  rw [escaped, h]
  rfl

theorem count_raw (h : item.IsWellFormed) : item.raw.count (unit '\\') =
    (escaped item.value).raw.count (unit '\\') + if item.IsPlain then 0 else 1 := by
  cases item with
  | sign u =>
    have hplain : escaped u = .sign u := escaped_of_not_needsBackslash (h.2 u rfl)
    simp [IsPlain, value, hplain]
  | pair u =>
    by_cases hneeds : needsBackslash u = true
    · have hplain : escaped u = .pair u := escaped_of_needsBackslash hneeds
      simp [IsPlain, value, hplain]
    · have hplain : escaped u = .sign u := escaped_of_not_needsBackslash (by simpa using hneeds)
      simp [IsPlain, value, hplain, raw]

/-- A spelling has one backslash more than the plain one for each needless one. -/
theorem count_backslash_spell (h : ∀ item ∈ items, item.IsWellFormed) :
    (spell items).count (unit '\\') =
      (escape (items.map value)).count (unit '\\') + items.countP (¬ ·.IsPlain) := by
  induction items with
  | nil => rfl
  | cons item items ih =>
    have hspell : escape ((item :: items).map value) =
        (escaped item.value).raw ++ escape (items.map value) := rfl
    rw [spell_cons, hspell, List.count_append, List.count_append, List.countP_cons,
      ih fun other hother => h other (List.mem_cons_of_mem _ hother),
      count_raw (h item List.mem_cons_self)]
    by_cases hplain : item.IsPlain
    · simp [hplain]
      omega
    · simp [hplain]
      omega

theorem plain_of_count (h : ∀ item ∈ items, item.IsWellFormed)
    (hcount : (spell items).count (unit '\\') ≤ (escape (items.map value)).count (unit '\\')) :
    ∀ item ∈ items, item.IsPlain := by
  rw [count_backslash_spell h] at hcount
  have hzero : items.countP (¬ ·.IsPlain) = 0 := by omega
  simpa [List.countP_eq_zero] using hzero

theorem count_plus_spell (items : List QuotedItem) :
    (spell items).count (unit '+') = (items.map value).count (unit '+') := by
  have hback : unit '\\' ≠ unit '+' := by decide
  induction items with
  | nil => rfl
  | cons item items ih =>
    rw [spell_cons, List.count_append, ih, List.map_cons, List.count_cons]
    cases item with
    | sign u => simp [raw, value, List.count_cons, Nat.add_comm]
    | pair u => simp [raw, value, List.count_cons, hback, Nat.add_comm]

theorem count_plus_escape (t : Text) : (escape t).count (unit '+') = t.count (unit '+') := by
  rw [escape, count_plus_spell, map_value_escaped]

/-- Behind a front other than a plus sign the tag goes, but not the backslash before its plus
sign. -/
theorem plain_of_untagged_front (hfirst : first.value ≠ unit '+')
    (hwell : ∀ item ∈ first :: items, item.IsWellFormed)
    (hback : (untagged (spell (first :: items))).count (unit '\\') =
      (escape (dropTag ((first :: items).map value))).count (unit '\\')) :
    ∀ item ∈ upToTag (first :: items), item.IsPlain := by
  obtain ⟨kept, hkept, hcontent, hcases⟩ := exists_tag first items
  have hfront : unit '+' ∉ spell (first :: kept) :=
    plus_not_mem_spell (List.forall_mem_cons.mpr ⟨hfirst, hkept⟩)
  rw [hcontent] at hback
  obtain ⟨rfl, htag⟩ | ⟨tag, after, hvalue, rfl, htag⟩ := hcases
  · rw [untagged_eq_self hfront] at hback
    rw [htag]
    exact plain_of_count hwell hback.le
  · rw [← List.cons_append] at hback hwell
    have hwell' := (List.forall_mem_append.mp hwell).1
    rw [htag, List.forall_mem_append, List.forall_mem_singleton]
    cases tag with
    | sign u =>
      obtain rfl : u = unit '+' := hvalue
      have hcut : untagged (spell ((first :: kept) ++ .sign (unit '+') :: after)) =
          spell (first :: kept) := by
        rw [spell_append]
        exact untagged_append (by simp [raw_ne_nil]) hfront
      rw [hcut] at hback
      exact ⟨plain_of_count hwell' hback.le, by decide⟩
    | pair u =>
      obtain rfl : u = unit '+' := hvalue
      have hcut : untagged (spell ((first :: kept) ++ .pair (unit '+') :: after)) =
          spell (first :: kept) ++ [unit '\\'] := by
        have hspell : spell ((first :: kept) ++ .pair (unit '+') :: after) =
            (spell (first :: kept) ++ [unit '\\']) ++ unit '+' :: spell after := by
          simp [raw]
        rw [hspell]
        refine untagged_append (by simp) fun hmem => ?_
        exact (List.mem_append.mp hmem).elim hfront (by decide)
      rw [hcut, List.count_append, count_backslash_spell hwell'] at hback
      simp at hback
      omega

/-- A plus sign in front keeps the whole text, and a backslash before it is all that stays. -/
theorem plain_of_untagged_plus (hfirst : first.value = unit '+')
    (hwell : ∀ item ∈ first :: items, item.IsWellFormed)
    (hback : (untagged (spell (first :: items))).count (unit '\\') =
      (escape (dropTag ((first :: items).map value))).count (unit '\\'))
    (hplus : (untagged (spell (first :: items))).count (unit '+') =
      (escape (dropTag ((first :: items).map value))).count (unit '+')) :
    IsPlainlySpelled (first :: items) := by
  obtain ⟨kept, hkept, hcontent, hcases⟩ := exists_tag first items
  rw [hcontent] at hback hplus
  have hnone : (kept.map value).count (unit '+') = 0 := by
    rw [List.count_eq_zero, List.mem_map]
    rintro ⟨item, hitem, hvalue⟩
    exact hkept item hitem hvalue
  have hone : (escape ((first :: kept).map value)).count (unit '+') = 1 := by
    rw [count_plus_escape, List.map_cons, hfirst, List.count_cons_self, hnone]
  rw [hone] at hplus
  cases first with
  | sign u =>
    obtain rfl : u = unit '+' := hfirst
    have hwhole : untagged (spell (.sign (unit '+') :: items)) =
      spell (.sign (unit '+') :: items) := untagged_plus _
    rw [hwhole] at hback hplus
    obtain ⟨rfl, htag⟩ | ⟨tag, after, hvalue, rfl, htag⟩ := hcases
    · refine ⟨?_, fun _ => hkept⟩
      rw [htag]
      exact plain_of_count hwell hback.le
    · -- The plus sign of the tag is still there.
      rw [count_plus_spell] at hplus
      simp [hvalue] at hplus
  | pair u =>
    obtain rfl : u = unit '+' := hfirst
    have hspell : spell (.pair (unit '+') :: items) = [unit '\\'] ++ unit '+' :: spell items := rfl
    have hcut : untagged (spell (.pair (unit '+') :: items)) = [unit '\\'] := by
      rw [hspell]
      exact untagged_append (by simp) (by decide)
    rw [hcut] at hplus
    exact absurd hplus (by decide)

/-- A local part whose text without the tag has the backslashes and plus signs of the plain
spelling is plainly spelled. -/
theorem plain_of_untagged (hwell : ∀ item ∈ items, item.IsWellFormed)
    (hback : (untagged (spell items)).count (unit '\\') =
      (escape (dropTag (items.map value))).count (unit '\\'))
    (hplus : (untagged (spell items)).count (unit '+') =
      (escape (dropTag (items.map value))).count (unit '+')) : IsPlainlySpelled items := by
  cases items with
  | nil => exact ⟨by simp [upToTag], by simp⟩
  | cons first rest =>
    by_cases hfirst : first.value = unit '+'
    · exact plain_of_untagged_plus hfirst hwell hback hplus
    · refine ⟨plain_of_untagged_front hfirst hwell hback, fun hhead => ?_⟩
      obtain rfl := Option.some.inj hhead
      exact absurd rfl hfirst

/-! ### Local parts and their items -/

variable {localPart domain email : Text} {case : MailCase} {names : DomainNames}

theorem IsDotAtom.sign (h : IsDotAtom t) (hu : u ∈ t) :
    needsBackslash u = false ∧ isSurrogate u = false := by
  rcases h.2 u hu with rfl | hatom
  · decide
  · simp only [isAtomSign, Bool.and_eq_true, Bool.not_eq_true', decide_eq_true_eq] at hatom
    have hsubset : text "\"\\" ⊆ text "\"(),.:;<>@[\\]" := by decide
    exact ⟨decide_eq_false fun hmem => hatom.2 (hsubset hmem), hatom.1.1⟩

theorem IsDotAtom.ne_nil (h : IsDotAtom t) : t ≠ [] := by
  rintro rfl
  exact h.1 (by decide)

theorem unquoted_quotes (t : Text) : unquoted (unit '"' :: (t ++ [unit '"'])) = t := by
  have hlast : (unit '"' :: (t ++ [unit '"'])).getLast? = some (unit '"') := by
    rw [← List.cons_append, List.getLast?_concat]
  rw [unquoted, if_pos ⟨by simp, rfl, hlast⟩, List.tail_cons, List.dropLast_concat]

/-- The items of a local part of one of the two forms. -/
theorem localItems_spec (h : IsDotAtom localPart ∨ IsQuotedString localPart) :
    unquoted localPart = spell (localItems localPart) ∧
      (∀ item ∈ localItems localPart, item.IsWellFormed) ∧ localPart ≠ [] ∧
      ∀ u ∈ localPart, isSurrogate u = false := by
  rcases h with hatom | ⟨items, hitems, rfl⟩
  · have hquote : unquoted localPart = localPart := by
      refine if_neg fun ⟨_, hhead, _⟩ => ?_
      exact absurd (hatom.sign (List.mem_of_mem_head? hhead)).1 (by decide)
    have hback : unit '\\' ∉ localPart := fun hmem => absurd (hatom.sign hmem).1 (by decide)
    rw [localItems, hquote, quotedItems_eq_map hback, spell_map_sign]
    refine ⟨rfl, fun item hitem => ?_, hatom.ne_nil, fun u hu => (hatom.sign hu).2⟩
    obtain ⟨u, hu, rfl⟩ := List.mem_map.mp hitem
    refine ⟨(hatom.sign hu).2, fun v hv => ?_⟩
    obtain rfl := QuotedItem.sign.inj hv
    exact (hatom.sign hu).1
  · rw [localItems, unquoted_quotes, quotedItems_spell fun item hitem =>
      (hitems item hitem).ne_backslash]
    refine ⟨rfl, hitems, by simp, fun u hu => ?_⟩
    simp only [List.mem_cons, List.mem_append, List.not_mem_nil, or_false] at hu
    rcases hu with rfl | hu | rfl
    · decide
    · rcases mem_spell hu with rfl | hvalue
      · decide
      · obtain ⟨item, hitem, rfl⟩ := List.mem_map.mp hvalue
        exact (hitems item hitem).1
    · decide

/-! ### Keys and mailboxes -/

/-- A local part as the provider of the domain reads it. -/
def reduced (names : DomainNames) (domain : Text) (t : Text) : Text :=
  if asciiDomain names domain ∈ dotInsensitiveDomains then withoutDots t else t

/-- The domain that receives what is sent to a domain. -/
def receiving (names : DomainNames) (domain : Text) : Text :=
  if asciiDomain names domain ∈ dotInsensitiveDomains then text "gmail.com"
  else asciiDomain names domain

theorem at_not_mem_asciiDomain (h : unit '@' ∉ domain) : unit '@' ∉ asciiDomain names domain := by
  unfold asciiDomain
  split
  · exact h
  · exact names.no_at _ h

theorem at_not_mem_receiving (h : unit '@' ∉ domain) : unit '@' ∉ receiving names domain := by
  unfold receiving
  split
  · decide
  · exact at_not_mem_asciiDomain h

theorem reduced_escape (t : Text) :
    reduced names domain (escape t) = escape (reduced names domain t) := by
  unfold reduced
  split
  · exact withoutDots_escape t
  · rfl

theorem count_reduced (h : u ≠ unit '.') (t : Text) :
    (reduced names domain t).count u = t.count u := by
  unfold reduced
  split
  · exact List.count_filter (by simpa using h)
  · rfl

theorem canonicalEmailDestination_eq
    (h : normalizeEmail case email = localPart ++ unit '@' :: domain) (hne : localPart ≠ [])
    (hat : unit '@' ∉ domain) : canonicalEmailDestination case names email =
      reduced names domain (untagged (unquoted localPart)) ++
        unit '@' :: receiving names domain := by
  simp only [canonicalEmailDestination, h, cutLast_append hat, hne, if_false, reduced, receiving]
  split <;> rfl

theorem mailbox_eq (h : normalizeEmail case email = localPart ++ unit '@' :: domain)
    (hat : unit '@' ∉ domain) : mailbox case names email =
      some ⟨reduced names domain (dropTag ((localItems localPart).map value)),
        receiving names domain⟩ := by
  simp only [mailbox, h, cutLast_append hat, Option.map_some, reduced, receiving]
  split <;> rfl

theorem isPlainAddress_iff (h : normalizeEmail case email = localPart ++ unit '@' :: domain)
    (hat : unit '@' ∉ domain) :
    IsPlainAddress case email ↔ IsPlainlySpelled (localItems localPart) := by
  simp [IsPlainAddress, h, cutLast_append hat]

theorem IsDomain.at_not_mem (h : IsDomain domain) : unit '@' ∉ domain :=
  fun hmem => (h.2 _ hmem).1 rfl

/-- The key of a mailbox. -/
def Mailbox.key (m : Mailbox) : Text := escape m.content ++ unit '@' :: m.domain

theorem Mailbox.key_inj {m n : Mailbox} (hm : unit '@' ∉ m.domain) (hn : unit '@' ∉ n.domain)
    (h : m.key = n.key) : m = n := by
  obtain ⟨hcontent, hdomain⟩ := splitLast_inj hm hn h
  cases m
  cases n
  exact (Mailbox.mk.injEq ..).mpr ⟨escape_injective hcontent, hdomain⟩

/-- A plainly spelled address has the key of its mailbox. -/
theorem key_of_plain (names : DomainNames) (h : IsAddress (normalizeEmail case email))
    (hplain : IsPlainAddress case email) : ∃ m, mailbox case names email = some m ∧
      unit '@' ∉ m.domain ∧ canonicalEmailDestination case names email = m.key := by
  obtain ⟨localPart, domain, hsplit, hdomain, hform⟩ := h
  have hat := hdomain.at_not_mem
  obtain ⟨hspell, -, hne, -⟩ := localItems_spec hform
  have hitems := (isPlainAddress_iff hsplit hat).mp hplain
  refine ⟨_, mailbox_eq hsplit hat, at_not_mem_receiving hat, ?_⟩
  rw [canonicalEmailDestination_eq hsplit hne hat, hspell, untagged_of_plain hitems,
    reduced_escape, Mailbox.key]

/-! ### The plain spelling of an address -/

theorem dropTag_idem (t : Text) : dropTag (dropTag t) = dropTag t := by
  cases t with
  | nil => rfl
  | cons u t => simp [dropTag, List.takeWhile_takeWhile]

theorem mem_dropTag (h : u ∈ dropTag t) : u ∈ t := by
  cases t with
  | nil => exact h
  | cons v t =>
    exact List.mem_cons.mpr ((List.mem_cons.mp h).imp_right (List.takeWhile_subset _ ·))

theorem mem_of_mem_upToTag (h : item ∈ upToTag items) : item ∈ items := by
  cases items with
  | nil => exact h
  | cons first rest =>
    refine List.mem_cons.mpr ((List.mem_cons.mp h).imp_right fun hrest => ?_)
    exact (List.mem_append.mp hrest).elim (List.takeWhile_subset _ ·) fun hdrop =>
      List.dropWhile_subset _ (List.mem_of_mem_take hdrop)

/-- What is left of a content without its tag is plainly spelled item by item. -/
theorem plainlySpelled_dropTag (t : Text) : IsPlainlySpelled ((dropTag t).map escaped) := by
  constructor
  · intro item hitem
    obtain ⟨u, -, rfl⟩ := List.mem_map.mp (mem_of_mem_upToTag hitem)
    exact isPlain_escaped u
  · intro _ item hitem
    cases t with
    | nil => simp [dropTag] at hitem
    | cons u t =>
      simp only [dropTag, List.map_cons, List.tail_cons, List.mem_map] at hitem
      obtain ⟨v, hv, rfl⟩ := hitem
      rw [value_escaped]
      simpa using List.mem_takeWhile_imp hv

/-- A content between quotes. -/
def quoted (t : Text) : Text := unit '"' :: (escape t ++ [unit '"'])

theorem localItems_quoted (t : Text) : localItems (quoted t) = t.map escaped := by
  rw [localItems, quoted, unquoted_quotes, quotedItems_escape]

theorem isQuotedString_quoted (h : ∀ u ∈ t, isSurrogate u = false) : IsQuotedString (quoted t) := by
  refine ⟨t.map escaped, fun item hitem => ?_, rfl⟩
  obtain ⟨u, hu, rfl⟩ := List.mem_map.mp hitem
  exact isWellFormed_escaped (h u hu)

/-- Signs of a lowered local part stay as they are between quotes. -/
theorem normalizeEmail_quoted (hdomain : IsDomain domain)
    (hlocal : ∀ u ∈ localPart, isSurrogate u = false)
    (hlower : case.toLowerCase (localPart ++ unit '@' :: domain) = localPart ++ unit '@' :: domain)
    (hsubset : t ⊆ localPart) : normalizeEmail case (quoted t ++ unit '@' :: domain) =
      quoted t ++ unit '@' :: domain := by
  have hat : unit '@' ∈ caseBoundaries := by decide
  obtain ⟨hfixed, hdomainFixed⟩ :
      case.toLowerCase localPart = localPart ∧ case.toLowerCase domain = domain := by
    rw [case.boundary _ hat] at hlower
    have hlowered : unit '@' ∉ case.toLowerCase domain := fun hmem =>
      hdomain.at_not_mem (case.of_mem _ hat domain hmem)
    exact splitLast_inj hlowered hdomain.at_not_mem hlower
  have hunits := (case.fixed_iff localPart hlocal).mp hfixed
  have hquoted : ∀ u ∈ quoted t, u ∈ text "\"\\" ∨ u ∈ localPart := by
    intro u hu
    simp only [quoted, List.mem_cons, List.mem_append, List.not_mem_nil, or_false] at hu
    rcases hu with rfl | hu | rfl
    · exact .inl (by decide)
    · rcases mem_escape hu with rfl | hu
      · exact .inl (by decide)
      · exact .inr (hsubset hu)
    · exact .inl (by decide)
  have hquotes : ∀ u ∈ text "\"\\", isSurrogate u = false :=
    List.forall_iff_forall_mem.mp (by decide)
  have hsurrogate : ∀ u ∈ quoted t, isSurrogate u = false := fun u hu =>
    (hquoted u hu).elim (hquotes u) (hlocal u)
  have hquotedFixed : case.toLowerCase (quoted t) = quoted t :=
    (case.fixed_iff _ hsurrogate).mpr fun u hu => (hquoted u hu).elim (case.quotes u) (hunits u)
  have htrim : trim (quoted t ++ unit '@' :: domain) = quoted t ++ unit '@' :: domain := by
    refine trim_eq_self ?_ fun u hu => ?_
    · rintro u hu
      obtain rfl : unit '"' = u := Option.some.inj hu
      decide
    · rw [List.getLast?_append_of_ne_nil _ (by simp), List.getLast?_cons_of_ne_nil hdomain.1] at hu
      exact (hdomain.2 u (List.mem_of_mem_getLast? hu)).2
  rw [normalizeEmail, htrim, case.boundary _ hat, hquotedFixed, hdomainFixed]

/-- Every address has a plain spelling: its content without the tag between quotes, at the same
domain. -/
theorem exists_plain (names : DomainNames) (h : IsAddress (normalizeEmail case email)) :
    ∃ plain, IsAddress (normalizeEmail case plain) ∧ IsPlainAddress case plain ∧
      mailbox case names plain = mailbox case names email := by
  obtain ⟨localPart, domain, hsplit, hdomain, hform⟩ := h
  have hat := hdomain.at_not_mem
  obtain ⟨hspell, -, -, hsurrogate⟩ := localItems_spec hform
  set content := dropTag ((localItems localPart).map value) with hcontent
  have hsubset : content ⊆ localPart := by
    intro u hu
    have hvalue : u ∈ unquoted localPart := by
      rw [hspell]
      obtain ⟨item, hitem, rfl⟩ := List.mem_map.mp (mem_dropTag hu)
      refine List.mem_flatMap.mpr ⟨item, hitem, ?_⟩
      cases item <;> simp [raw]
    unfold unquoted at hvalue
    split at hvalue
    · exact List.mem_of_mem_tail (List.dropLast_subset _ hvalue)
    · exact hvalue
  have hlower : case.toLowerCase (localPart ++ unit '@' :: domain) =
      localPart ++ unit '@' :: domain := by
    rw [← hsplit]
    exact case.lowered _
  have hplain := normalizeEmail_quoted hdomain hsurrogate hlower hsubset
  refine ⟨quoted content ++ unit '@' :: domain, ?_, ?_, ?_⟩
  · rw [hplain]
    exact ⟨_, _, rfl, hdomain, .inr (isQuotedString_quoted fun u hu => hsurrogate u (hsubset hu))⟩
  · rw [isPlainAddress_iff hplain hat, localItems_quoted, hcontent]
    exact plainlySpelled_dropTag _
  · rw [mailbox_eq hplain hat, mailbox_eq hsplit hat, localItems_quoted, map_value_escaped,
      hcontent, dropTag_idem]

/-- An address with the key of its mailbox is plainly spelled. -/
theorem plain_of_key {m : Mailbox} (h : IsAddress (normalizeEmail case email))
    (hm : mailbox case names email = some m)
    (hkey : canonicalEmailDestination case names email = m.key) : IsPlainAddress case email := by
  obtain ⟨localPart, domain, hsplit, hdomain, hform⟩ := h
  have hat := hdomain.at_not_mem
  obtain ⟨hspell, hwell, hne, -⟩ := localItems_spec hform
  rw [mailbox_eq hsplit hat] at hm
  obtain rfl := Option.some.inj hm
  rw [canonicalEmailDestination_eq hsplit hne hat, Mailbox.key, ← reduced_escape, hspell] at hkey
  have hlocal := List.append_cancel_right hkey
  -- Dots aside, the two texts have the same signs.
  have hcount : ∀ u, u ≠ unit '.' →
      (untagged (spell (localItems localPart))).count u =
        (escape (dropTag ((localItems localPart).map value))).count u := by
    intro u hu
    rw [← count_reduced hu, hlocal, count_reduced hu]
  rw [isPlainAddress_iff hsplit hat]
  exact plain_of_untagged hwell (hcount _ (by decide)) (hcount _ (by decide))

/-- The keys of an address and of the plainly spelled ones agree exactly when the mailboxes do,
provided that the address is plainly spelled too. No other address has the key of its mailbox. -/
theorem sendKey_exact_iff (case : MailCase) (names : DomainNames) (email : Text)
    (h : IsAddress (normalizeEmail case email)) :
    (∀ other, IsAddress (normalizeEmail case other) → IsPlainAddress case other →
      (canonicalEmailDestination case names email = canonicalEmailDestination case names other ↔
        mailbox case names email = mailbox case names other)) ↔ IsPlainAddress case email := by
  constructor
  · intro hexact
    obtain ⟨plain, hplain, hspelled, hmailbox⟩ := exists_plain names h
    obtain ⟨m, hm, -, hkey⟩ := key_of_plain names hplain hspelled
    refine plain_of_key h (hmailbox.symm.trans hm) ?_
    rw [← hkey]
    exact (hexact plain hplain hspelled).mpr hmailbox.symm
  · intro hplain other hother hspelled
    obtain ⟨m, hm, hmat, hkey⟩ := key_of_plain names h hplain
    obtain ⟨n, hn, hnat, hkey'⟩ := key_of_plain names hother hspelled
    rw [hm, hn, hkey, hkey', Option.some_inj]
    exact ⟨Mailbox.key_inj hmat hnat, fun heq => heq ▸ rfl⟩

/-! ### A needless backslash -/

theorem asciiLower_asciiLower (u : CodeUnit) : asciiLower (asciiLower u) = asciiLower u := by
  by_cases hupper : isAsciiUpper u = true
  · have hsmall : isAsciiUpper (u + 0x20) = false := by
      simp only [isAsciiUpper, Bool.and_eq_true, decide_eq_true_eq, Bool.and_eq_false_iff,
        decide_eq_false_iff_not, UInt16.le_iff_toNat_le, UInt16.toNat_add] at hupper ⊢
      have hbounds : (unit 'A').toNat = 65 ∧ (unit 'Z').toNat = 90 := by decide
      rw [hbounds.1, hbounds.2] at hupper ⊢
      simp only [UInt16.reduceToNat]
      omega
    simp [asciiLower, hupper, hsmall]
  · simp [asciiLower, hupper]

/-- The mapping of the ASCII letters alone. -/
def asciiMailCase : MailCase where
  toLowerCase := asciiLowerCase.toLowerCase
  boundary := asciiLowerCase.boundary
  of_mem := asciiLowerCase.of_mem
  eq_nil_iff := asciiLowerCase.eq_nil_iff
  quotes := List.forall_iff_forall_mem.mp (by decide)
  lowered t := by simp [asciiLowerCase, asciiLower_asciiLower]
  fixed_iff t _ := by
    induction t with
    | nil => simp [asciiLowerCase]
    | cons u t ih => simp_all [asciiLowerCase]

/-- Domains of ASCII. -/
def asciiDomains : DomainNames := ⟨id, fun _ h => h⟩

/-- A tagged address. -/
theorem sendKey_exact_at :
    (∀ other, IsAddress (normalizeEmail asciiMailCase other) →
      IsPlainAddress asciiMailCase other →
      (canonicalEmailDestination asciiMailCase asciiDomains (text " V.ictim+News@Gmail.com") =
          canonicalEmailDestination asciiMailCase asciiDomains other ↔
        mailbox asciiMailCase asciiDomains (text " V.ictim+News@Gmail.com") =
          mailbox asciiMailCase asciiDomains other)) ↔
      IsPlainAddress asciiMailCase (text " V.ictim+News@Gmail.com") :=
  sendKey_exact_iff asciiMailCase asciiDomains (text " V.ictim+News@Gmail.com")
    ⟨text "v.ictim+news", text "gmail.com", by decide,
      ⟨by decide, List.forall_iff_forall_mem.mp (by decide)⟩,
      .inl ⟨by decide, List.forall_iff_forall_mem.mp (by decide)⟩⟩

/-- A needless backslash gives the mailbox of `ab@example.com` a second key. -/
theorem needlessBackslash_twoKeys :
    IsAddress (normalizeEmail asciiMailCase (text "\"a\\b\"@example.com")) ∧
      IsAddress (normalizeEmail asciiMailCase (text "ab@example.com")) ∧
      mailbox asciiMailCase asciiDomains (text "\"a\\b\"@example.com") =
        mailbox asciiMailCase asciiDomains (text "ab@example.com") ∧
      canonicalEmailDestination asciiMailCase asciiDomains (text "\"a\\b\"@example.com") ≠
        canonicalEmailDestination asciiMailCase asciiDomains (text "ab@example.com") := by
  have hdomain : IsDomain (text "example.com") :=
    ⟨by decide, List.forall_iff_forall_mem.mp (by decide)⟩
  refine ⟨⟨text "\"a\\b\"", _, by decide, hdomain, .inr ?_⟩,
    ⟨text "ab", _, by decide, hdomain, .inl ?_⟩, by decide, by decide⟩
  · refine ⟨[.sign (unit 'a'), .pair (unit 'b')], List.forall_mem_cons.mpr ⟨?_, ?_⟩, by decide⟩
    · exact isWellFormed_escaped (u := unit 'a') (by decide)
    · exact List.forall_mem_singleton.mpr ⟨by decide, nofun⟩
  · exact ⟨by decide, List.forall_iff_forall_mem.mp (by decide)⟩

/-- Two mailboxes share the budget of a lone backslash. -/
example : canonicalEmailDestination asciiMailCase asciiDomains (text "\"\\+a\"@example.com") =
    canonicalEmailDestination asciiMailCase asciiDomains (text "\"\\+b\"@example.com") ∧
    mailbox asciiMailCase asciiDomains (text "\"\\+a\"@example.com") ≠
      mailbox asciiMailCase asciiDomains (text "\"\\+b\"@example.com") := by
  decide

end NestApi.SendLimit
