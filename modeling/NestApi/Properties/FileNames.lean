import NestApi.Files.FileName

/-!
# Uploaded names are safe to store and to serve

Whatever name a client sends, the stored one has nothing in it that could do harm where it is
echoed, and the header carries it whole.
-/

namespace NestApi.Files

variable {unicode : Normalization} {originalName : Option Text} {extension name : Text}

/-- A name without separators, control characters and bidi overrides, that ends with the
extension behind its final dot and has not too much before it. -/
structure SafeFileName (extension name : Text) : Prop where
  separator : ∀ u ∈ name, isPathSeparator u = false
  control : ∀ u ∈ name, isControl u = false
  bidi : ∀ u ∈ name, isBidiOverride u = false
  base : ∃ base, cutLast (unit '.') name = some (base, extension) ∧
    (characters base).length ≤ maximumBaseNameLength

/-- A quoted string from behind its opening quote, and what follows the closing one. A backslash
takes the next unit as it is. -/
def readQuotedString : Text → Option (Text × Text)
  | [] => none
  | u :: t =>
    if u = unit '"' then some ([], t)
    else if u = unit '\\' then
      match t with
      | [] => none
      | v :: t => (readQuotedString t).map fun found => (v :: found.1, found.2)
    else (readQuotedString t).map fun found => (u :: found.1, found.2)

/-- A header of printable ASCII whose quoted name ends where the builder closed it, and whose
extended name is the stored one. -/
def SafeHeader (dispositionType : ContentDispositionType) (name header : Text) : Prop :=
  (∀ u ∈ header, isPrintableAscii u = true) ∧
    ∃ quoted fallback encoded,
      header = dispositionType.toText ++ text "; filename=\"" ++ quoted ∧
      readQuotedString quoted = some (fallback, text "; filename*=UTF-8''" ++ encoded) ∧
      decodeURIComponent encoded = some name

/-! ### The name -/

/-- A segment of a path has no separator, and is well-formed if the path is. -/
theorem segment_spec {t segment : Text} (h : WellFormed t)
    (hmem : segment ∈ t.splitOnP isPathSeparator) :
    WellFormed segment ∧ ∀ u ∈ segment, isPathSeparator u = false := by
  induction hlength : t.length using Nat.strong_induction_on generalizing t with
  | _ length ih =>
  by_cases hnone : ∀ u ∈ t, isPathSeparator u = false
  · rw [List.splitOnP_eq_singleton hnone, List.mem_singleton] at hmem
    exact hmem ▸ ⟨h, hnone⟩
  · -- The text is cut at its first separator.
    simp only [not_forall, Bool.not_eq_false] at hnone
    obtain ⟨w, hw, hsep⟩ := hnone
    obtain ⟨u, hfound⟩ := Option.isSome_iff_exists.mp
      (List.find?_isSome.mpr ⟨w, hw, hsep⟩)
    obtain ⟨hu, a, b, rfl, ha⟩ := List.find?_eq_some_iff_append.mp hfound
    have hunit : isSurrogate u = false := by
      have hall : ∀ v ∈ text "/\\", isSurrogate v = false :=
        List.forall_iff_forall_mem.mp (by decide)
      exact hall u (by simpa [isPathSeparator] using hu)
    have ha' : ∀ v ∈ a, isPathSeparator v = false := fun v hv => by simpa using ha v hv
    obtain ⟨hfirst, hrest⟩ := h.cut hunit
    rw [List.splitOnP_append_cons_of_forall_mem ha' u hu, List.mem_cons] at hmem
    rcases hmem with rfl | hmem
    · exact ⟨hfirst, ha'⟩
    · exact ih b.length (by simp at hlength; omega) hrest hmem rfl

theorem lastSegment_spec {t : Text} (h : WellFormed t) :
    WellFormed (lastSegment t) ∧ ∀ u ∈ lastSegment t, isPathSeparator u = false := by
  unfold lastSegment
  cases hlast : (t.splitOnP isPathSeparator).getLast? with
  | none => exact ⟨wellFormed_nil, by simp⟩
  | some segment => exact segment_spec h (List.mem_of_getLast? hlast)

theorem withoutExtension_spec {t : Text} (h : WellFormed t) :
    WellFormed (withoutExtension t) ∧ withoutExtension t ⊆ t := by
  unfold withoutExtension
  split
  · next front back hcut =>
    obtain ⟨rfl, -⟩ := cutLast_eq_some.mp hcut
    split
    · exact ⟨h, List.Subset.refl _⟩
    · exact ⟨(h.cut (by decide)).1, by simp⟩
  · exact ⟨h, List.Subset.refl _⟩

/-- The signs that no step may bring back. -/
def IsHarmless (u : CodeUnit) : Prop := isPathSeparator u = false ∧ isUnsafe u = false

instance : DecidablePred IsHarmless := fun _ => inferInstanceAs (Decidable (_ ∧ _))

theorem not_isUnsafe_of_isSurrogate {u : CodeUnit} (h : isSurrogate u = true) :
    isUnsafe u = false := by
  simp only [isUnsafe, isControl, isBidiOverride, isSurrogate, isHighSurrogate, isLowSurrogate,
    Bool.or_eq_true, Bool.and_eq_true, decide_eq_true_eq, Bool.or_eq_false_iff,
    Bool.and_eq_false_iff, decide_eq_false_iff_not, UInt16.le_iff_toNat_le] at h ⊢
  simp only [UInt16.reduceToNat] at h ⊢
  omega

/-- The base name, before the fixed word stands in for an empty one. -/
theorem baseName_spec (unicode : Normalization) (extension : Text)
    (horiginal : ∀ t ∈ originalName, WellFormed t) :
    ∃ baseName, (∀ u ∈ baseName, IsHarmless u) ∧ WellFormed baseName ∧
      (characters baseName).length ≤ maximumBaseNameLength ∧
      sanitizeFileName unicode originalName extension =
        (if baseName = [] then text "file" else baseName) ++ unit '.' :: extension := by
  have hgiven : WellFormed (originalName.getD []) := by
    cases originalName with
    | none => exact wellFormed_nil
    | some t => exact horiginal t rfl
  obtain ⟨hsegment, hseparator⟩ := lastSegment_spec hgiven
  -- What is cleaned has neither separators nor unsafe signs, and every later step only removes.
  set cleaned := trim ((unicode.toNFC (lastSegment (originalName.getD []))).filter
    fun u => !isUnsafe u) with hcleaned
  have hwell : WellFormed cleaned := by
    refine ((unicode.wellFormed _ hsegment).filter fun u hu => ?_).trim
    simp [not_isUnsafe_of_isSurrogate hu]
  have hharmless : ∀ u ∈ cleaned, IsHarmless u := by
    intro u hu
    obtain ⟨hmem, hsafe⟩ := List.mem_filter.mp (mem_trim hu)
    refine ⟨?_, by simpa using hsafe⟩
    by_contra hsep
    have hu' : u ∈ text "/\\" := by simpa [isPathSeparator] using hsep
    exact absurd (hseparator u (unicode.of_mem_separators u hu' _ hmem)) (by simpa using hsep)
  obtain ⟨hfront, hsubset⟩ := withoutExtension_spec hwell
  refine ⟨trim ((characters (withoutExtension cleaned)).take maximumBaseNameLength).flatten,
    fun u hu => hharmless u (hsubset (mem_take_characters (mem_trim hu))),
    (hfront.take _).trim, ?_, rfl⟩
  refine (length_characters_trim_le (hfront.take _)).trans ?_
  rw [characters_flatten fun c hc => hfront c (List.mem_of_mem_take hc)]
  exact List.length_take_le _ _

theorem safeFileName (unicode : Normalization)
    (horiginal : ∀ t ∈ originalName, WellFormed t) (hextension : ∀ u ∈ extension, IsHarmless u)
    (hdot : unit '.' ∉ extension) :
    SafeFileName extension (sanitizeFileName unicode originalName extension) ∧
      (WellFormed extension → WellFormed (sanitizeFileName unicode originalName extension)) := by
  obtain ⟨baseName, hharmless, hwell, hlength, heq⟩ :=
    baseName_spec unicode extension horiginal
  -- The word that stands in for an empty name is as safe as the name.
  obtain ⟨base, hbase, hsafe, hbaseWell, hbaseLength⟩ : ∃ base,
      (if baseName = [] then text "file" else baseName) = base ∧ (∀ u ∈ base, IsHarmless u) ∧
        WellFormed base ∧ (characters base).length ≤ maximumBaseNameLength := by
    refine ⟨_, rfl, ?_⟩
    split
    · exact ⟨List.forall_iff_forall_mem.mp (by decide), by decide, by decide⟩
    · exact ⟨hharmless, hwell, hlength⟩
  rw [hbase] at heq
  have hall : ∀ u ∈ base ++ unit '.' :: extension, IsHarmless u := by
    intro u hu
    rcases List.mem_append.mp hu with hu | hu
    · exact hsafe u hu
    rcases List.mem_cons.mp hu with rfl | hu
    · decide
    · exact hextension u hu
  have hcontrol : ∀ u, IsHarmless u → isControl u = false ∧ isBidiOverride u = false :=
    fun u hu => Bool.or_eq_false_iff.mp hu.2
  rw [heq]
  refine ⟨⟨fun u hu => (hall u hu).1, fun u hu => (hcontrol u (hall u hu)).1,
    fun u hu => (hcontrol u (hall u hu)).2, base, cutLast_append hdot, hbaseLength⟩, ?_⟩
  intro hextensionWell
  exact hbaseWell.append ((wellFormed_singleton (u := unit '.') (by decide)).append hextensionWell)

/-! ### The header -/

/-- Text without quotes and backslashes is read up to the closing quote. -/
theorem readQuotedString_append {t rest : Text} (h : ∀ u ∈ t, u ∉ text "\"\\") :
    readQuotedString (t ++ unit '"' :: rest) = some (t, rest) := by
  induction t with
  | nil =>
    unfold readQuotedString
    exact if_pos rfl
  | cons u t ih =>
    have hu : u ≠ unit '"' ∧ u ≠ unit '\\' := by
      have hnot : u ∉ [unit '"', unit '\\'] := h u List.mem_cons_self
      simpa using hnot
    have hrest := ih fun v hv => h v (List.mem_cons_of_mem _ hv)
    rw [List.cons_append]
    unfold readQuotedString
    rw [hrest, if_neg hu.1, if_neg hu.2]
    rfl

theorem asciiFallback_spec (name : Text) :
    ∀ u ∈ asciiFallback name, isPrintableAscii u = true ∧ u ∉ text "\"\\" := by
  intro u hu
  simp only [asciiFallback] at hu
  split at hu
  · have hall : ∀ u ∈ text "file", isPrintableAscii u = true ∧ u ∉ text "\"\\" :=
      List.forall_iff_forall_mem.mp (by decide)
    exact hall u hu
  · simp only [List.map_map, List.mem_map, Function.comp_apply] at hu
    obtain ⟨v, -, rfl⟩ := hu
    -- The first replacement makes the unit printable, and the second keeps it so.
    have hprintable : isPrintableAscii (if isPrintableAscii v then v else unit '_') = true := by
      split
      · assumption
      · decide
    generalize (if isPrintableAscii v then v else unit '_') = w at hprintable
    split
    · decide
    · next hsafe => exact ⟨hprintable, hsafe⟩

/-- An encoding that reads as the text and can stand in a header. -/
def IsExtendedValue (t encoded : Text) : Prop :=
  ReadsAs (encoded.flatMap escapeReserved) t ∧
    ∀ u ∈ encoded.flatMap escapeReserved, isPrintableAscii u = true

theorem isPrintableAscii_iff {u : CodeUnit} :
    isPrintableAscii u = true ↔ 0x20 ≤ u.toNat ∧ u.toNat ≤ 0x7E := by
  simp [isPrintableAscii, UInt16.le_iff_toNat_le]

theorem isPrintableAscii_of_isUnescaped {u : CodeUnit} (h : isUnescaped u = true) :
    isPrintableAscii u = true := by
  simp only [isUnescaped, Bool.or_eq_true, decide_eq_true_eq] at h
  rcases h with (h | h) | h
  · simp only [isAsciiLetter, isAsciiUpper, Bool.or_eq_true, Bool.and_eq_true, decide_eq_true_eq,
      UInt16.le_iff_toNat_le] at h
    have hunits : (unit 'A').toNat = 0x41 ∧ (unit 'Z').toNat = 0x5A ∧ (unit 'a').toNat = 0x61 ∧
      (unit 'z').toNat = 0x7A := by decide
    rw [isPrintableAscii_iff]
    omega
  · simp only [isDigit, Bool.and_eq_true, decide_eq_true_eq, UInt16.le_iff_toNat_le] at h
    have hunits : (unit '0').toNat = 0x30 ∧ (unit '9').toNat = 0x39 := by decide
    rw [isPrintableAscii_iff]
    omega
  · have hall : ∀ u ∈ text "-_.!~*'()", isPrintableAscii u = true :=
      List.forall_iff_forall_mem.mp (by decide)
    exact hall u h

theorem percentEscape_spec {byte : ℕ} (h : byte < 0x100) :
    (percentEscape byte).flatMap escapeReserved = percentEscape byte ∧
      ∀ u ∈ percentEscape byte, isPrintableAscii u = true := by
  have hdigit : ∀ n < 16, escapeReserved (hexDigit n) = [hexDigit n] ∧
      isPrintableAscii (hexDigit n) = true := by decide
  obtain ⟨hhigh, hhighPrintable⟩ := hdigit (byte / 16) (by omega)
  obtain ⟨hlow, hlowPrintable⟩ := hdigit (byte % 16) (by omega)
  have hsign : escapeReserved (unit '%') = [unit '%'] := by decide
  constructor
  · simp [percentEscape, hsign, hhigh, hlow]
  · have hpercent : isPrintableAscii (unit '%') = true := by decide
    simp [percentEscape, hpercent, hhighPrintable, hlowPrintable]

/-- A unit that the encoder leaves is kept, or escaped by hand. -/
theorem escapeReserved_spec {u : CodeUnit} (h : isUnescaped u = true) :
    ReadsAs (escapeReserved u) [u] ∧ ∀ v ∈ escapeReserved u, isPrintableAscii v = true := by
  unfold escapeReserved
  split
  · next hreserved =>
    have hall : ∀ u ∈ text "'()*!", u.toNat < 0x80 := List.forall_iff_forall_mem.mp (by decide)
    have hlt := hall u hreserved
    have hbytes : utf8Bytes u.toNat = [u.toNat] := by simp [utf8Bytes, hlt]
    have hunits : codeUnits u.toNat = [u] := by
      rw [codeUnits, if_pos (by omega)]
      simp
    have hreads := ReadsAs.of_scalar (n := u.toNat) (.inl (by omega))
    rw [hbytes, hunits, List.flatMap_singleton] at hreads
    exact ⟨hreads, (percentEscape_spec (by omega)).2⟩
  · refine ⟨ReadsAs.unit_of_ne (ne_percent_of_isUnescaped h), fun v hv => ?_⟩
    rw [List.mem_singleton] at hv
    exact hv ▸ isPrintableAscii_of_isUnescaped h

theorem IsExtendedValue.append {s t e f : Text} (hs : IsExtendedValue s e)
    (ht : IsExtendedValue t f) : IsExtendedValue (s ++ t) (e ++ f) := by
  rw [IsExtendedValue, List.flatMap_append]
  refine ⟨hs.1.append ht.1, fun u hu => ?_⟩
  rcases List.mem_append.mp hu with hu | hu
  · exact hs.2 u hu
  · exact ht.2 u hu

theorem isExtendedValue_nil : IsExtendedValue [] [] := ⟨ReadsAs.nil, by simp⟩

theorem isExtendedValue_of_unescaped {t : Text} (h : ∀ u ∈ t, isUnescaped u = true) :
    IsExtendedValue t t := by
  induction t with
  | nil => exact isExtendedValue_nil
  | cons u t ih =>
    have hfront : IsExtendedValue [u] [u] := by
      rw [IsExtendedValue, List.flatMap_singleton]
      exact escapeReserved_spec (h u List.mem_cons_self)
    exact hfront.append (ih fun v hv => h v (List.mem_cons_of_mem _ hv))

theorem isExtendedValue_of_scalar {n : ℕ} (h : IsScalar n) :
    IsExtendedValue (codeUnits n) ((utf8Bytes n).flatMap percentEscape) := by
  have hkept : ∀ bytes : List ℕ, (∀ byte ∈ bytes, byte < 0x100) →
      (bytes.flatMap percentEscape).flatMap escapeReserved = bytes.flatMap percentEscape := by
    intro bytes hbytes
    rw [List.flatMap_assoc]
    exact List.flatMap_congr fun byte hmem => (percentEscape_spec (hbytes byte hmem)).1
  rw [IsExtendedValue, hkept _ (utf8Bytes_lt h)]
  refine ⟨ReadsAs.of_scalar h, fun u hu => ?_⟩
  obtain ⟨byte, hbyte, hu⟩ := List.mem_flatMap.mp hu
  exact (percentEscape_spec (utf8Bytes_lt h byte hbyte)).2 u hu

theorem exists_isExtendedValue {t : Text} (h : WellFormed t) :
    ∃ encoded, encodeURIComponent t = some encoded ∧ IsExtendedValue t encoded := by
  refine exists_encodeURIComponent isExtendedValue_nil (fun c e s f hc hs => hc.append hs) ?_ h
  intro c hc
  rcases encodeCharacter_cases hc with ⟨hencode, hplain⟩ | ⟨n, hscalar, rfl, hencode⟩
  · exact ⟨c, hencode, isExtendedValue_of_unescaped hplain⟩
  · exact ⟨_, hencode, isExtendedValue_of_scalar hscalar⟩

theorem safeHeader (dispositionType : ContentDispositionType) (h : WellFormed name) :
    ∃ header, buildContentDisposition dispositionType name = some header ∧
      SafeHeader dispositionType name header := by
  obtain ⟨encoded, hencoded, hreads, hprintable⟩ := exists_isExtendedValue h
  refine ⟨_, by rw [buildContentDisposition, hencoded, Option.map_some], ?_, ?_⟩
  · have hfixed : ∀ u ∈ dispositionType.toText ++ text "; filename=\"" ++
        text "\"; filename*=UTF-8''", isPrintableAscii u = true := by
      cases dispositionType
      · exact List.forall_iff_forall_mem.mp (by decide)
      · exact List.forall_iff_forall_mem.mp (by decide)
    intro u hu
    simp only [List.mem_append] at hu hfixed
    rcases hu with (((hu | hu) | hu) | hu) | hu
    · exact hfixed u (.inl (.inl hu))
    · exact hfixed u (.inl (.inr hu))
    · exact (asciiFallback_spec name u hu).1
    · exact hfixed u (.inr hu)
    · exact hprintable u hu
  · refine ⟨asciiFallback name ++ unit '"' :: (text "; filename*=UTF-8''" ++
      encoded.flatMap escapeReserved), asciiFallback name, encoded.flatMap escapeReserved, ?_,
      readQuotedString_append fun u hu => (asciiFallback_spec name u hu).2,
      hreads.decodeURIComponent⟩
    have hclose : text "\"; filename*=UTF-8''" = unit '"' :: text "; filename*=UTF-8''" := by decide
    simp only [hclose, List.append_assoc, List.cons_append]

/-! ### An upload -/

/-- The extension of every accepted content is plain text. -/
theorem extension_spec {purpose : FilePurpose} {accepted : AcceptedContentType}
    (h : accepted ∈ acceptedTypes purpose) :
    (∀ u ∈ accepted.extension, IsHarmless u) ∧ unit '.' ∉ accepted.extension ∧
      WellFormed accepted.extension := by
  have hall : ∀ accepted ∈ [jpeg, png, webp, pdf, docx, xlsx, pptx],
      (accepted.extension.all fun u => decide (IsHarmless u)) = true ∧
        unit '.' ∉ accepted.extension ∧ WellFormed accepted.extension := by decide
  have hmem : accepted ∈ [jpeg, png, webp, pdf, docx, xlsx, pptx] := by
    cases purpose
    · have hsubset : [jpeg, png, webp] ⊆ [jpeg, png, webp, pdf, docx, xlsx, pptx] := by decide
      exact hsubset h
    · exact h
  obtain ⟨hharmless, hdot, hwell⟩ := hall accepted hmem
  exact ⟨fun u hu => by simpa using List.all_eq_true.mp hharmless u hu, hdot, hwell⟩

/-- Whatever name comes with the content of an upload, the stored name and its header are
safe. -/
theorem uploadedName_isSafe (unicode : Normalization) (originalName : Option Text)
    (purpose : FilePurpose) (accepted : AcceptedContentType)
    (horiginal : ∀ t ∈ originalName, WellFormed t)
    (haccepted : accepted ∈ acceptedTypes purpose) :
    SafeFileName accepted.extension (sanitizeFileName unicode originalName accepted.extension) ∧
      ∃ header, buildContentDisposition (dispositionOf accepted.kind)
          (sanitizeFileName unicode originalName accepted.extension) = some header ∧
        SafeHeader (dispositionOf accepted.kind)
          (sanitizeFileName unicode originalName accepted.extension) header := by
  obtain ⟨hharmless, hdot, hwell⟩ := extension_spec haccepted
  obtain ⟨hsafe, hname⟩ := safeFileName unicode horiginal hharmless hdot
  exact ⟨hsafe, safeHeader _ (hname hwell)⟩

/-- A name with a path in front, a quote, an override, and a sign beyond the basic plane. -/
theorem uploadedName_isSafe_at :
    SafeFileName (text "pdf")
        (sanitizeFileName asciiNormalization (some (text "..\\a\"\u202eb😀.exe")) (text "pdf")) ∧
      ∃ header, buildContentDisposition .attachment
          (sanitizeFileName asciiNormalization (some (text "..\\a\"\u202eb😀.exe")) (text "pdf")) =
            some header ∧
        SafeHeader .attachment
          (sanitizeFileName asciiNormalization (some (text "..\\a\"\u202eb😀.exe")) (text "pdf"))
          header :=
  uploadedName_isSafe asciiNormalization _ .document pdf
    (fun t ht => by
      obtain rfl := Option.mem_some_iff.mp ht
      decide)
    (by decide)

end NestApi.Files
