import NestApi.Common.UriEncoding
import NestApi.Files.Store

/-!
# The name of an uploaded file

The name that a client sends is reduced to a safe one, with the extension of the content that
was found in the file. The stored object carries it in a header, once in quotes and once
percent-encoded.
-/

namespace NestApi.Files

/-! ### Accepted content -/

inductive FileKind
  | image | document
deriving DecidableEq

/-- What a content type is stored as. -/
structure AcceptedContentType where
  contentType : Text
  kind : FileKind
  extension : Text
deriving DecidableEq

def jpeg : AcceptedContentType := ⟨text "image/jpeg", .image, text "jpg"⟩

def png : AcceptedContentType := ⟨text "image/png", .image, text "png"⟩

def webp : AcceptedContentType := ⟨text "image/webp", .image, text "webp"⟩

def pdf : AcceptedContentType := ⟨text "application/pdf", .document, text "pdf"⟩

def docx : AcceptedContentType :=
  ⟨text "application/vnd.openxmlformats-officedocument.wordprocessingml.document", .document,
    text "docx"⟩

def xlsx : AcceptedContentType :=
  ⟨text "application/vnd.openxmlformats-officedocument.spreadsheetml.sheet", .document,
    text "xlsx"⟩

def pptx : AcceptedContentType :=
  ⟨text "application/vnd.openxmlformats-officedocument.presentationml.presentation", .document,
    text "pptx"⟩

/-- What a purpose accepts. -/
def acceptedTypes : FilePurpose → List AcceptedContentType
  | .profileImage => [jpeg, png, webp]
  | .document => [jpeg, png, webp, pdf, docx, xlsx, pptx]

/-! ### The safe name -/

/-- `normalize('NFC')` follows the tables of Unicode. What is used of them: no half of a
surrogate pair is left alone, and no path separator comes into being. -/
structure Normalization where
  toNFC : Text → Text
  wellFormed : ∀ t, WellFormed t → WellFormed (toNFC t)
  of_mem_separators : ∀ u ∈ text "/\\", ∀ t, u ∈ toNFC t → u ∈ t

/-- Texts that are in normal form already, such as those of ASCII. -/
def asciiNormalization : Normalization where
  toNFC t := t
  wellFormed _ h := h
  of_mem_separators _ _ _ h := h

def maximumBaseNameLength : ℕ := 200

def isPathSeparator (u : CodeUnit) : Bool := u ∈ text "/\\"

/-- The category `Cc`. -/
def isControl (u : CodeUnit) : Bool := u ≤ 0x1F || (0x7F ≤ u && u ≤ 0x9F)

def isBidiOverride (u : CodeUnit) : Bool :=
  (0x202A ≤ u && u ≤ 0x202E) || (0x2066 ≤ u && u ≤ 0x2069)

/-- What `UNSAFE_CHARACTERS` matches. None of it is half of a surrogate pair, so that it is
removed unit by unit. -/
def isUnsafe (u : CodeUnit) : Bool := isControl u || isBidiOverride u

/-- `split(/[/\\]/).pop()`. -/
def lastSegment (t : Text) : Text := (t.splitOnP isPathSeparator).getLast?.getD []

/-- What stands before the last dot, unless that is nothing. -/
def withoutExtension (t : Text) : Text :=
  match cutLast (unit '.') t with
  | some (front, _) => if front = [] then t else front
  | none => t

def sanitizeFileName (unicode : Normalization) (originalName : Option Text) (extension : Text) :
    Text :=
  let cleaned :=
    trim ((unicode.toNFC (lastSegment (originalName.getD []))).filter fun u => !isUnsafe u)
  let baseName :=
    trim ((characters (withoutExtension cleaned)).take maximumBaseNameLength).flatten
  (if baseName = [] then text "file" else baseName) ++ unit '.' :: extension

/-! ### The header -/

inductive ContentDispositionType
  | inline | attachment
deriving DecidableEq

def ContentDispositionType.toText : ContentDispositionType → Text
  | .inline => text "inline"
  | .attachment => text "attachment"

/-- How an upload has its content shown. -/
def dispositionOf (kind : FileKind) : ContentDispositionType :=
  if kind = .image then .inline else .attachment

def isPrintableAscii (u : CodeUnit) : Bool := 0x20 ≤ u && u ≤ 0x7E

/-- The name for the quoted string. The first pattern has no flag `u`, so that each half of a
surrogate pair is replaced on its own. -/
def asciiFallback (fileName : Text) : Text :=
  let printable := fileName.map fun u => if isPrintableAscii u then u else unit '_'
  let fallback := printable.map fun u => if u ∈ text "\"\\" then unit '_' else u
  if fallback = [] then text "file" else fallback

/-- The signs that the encoder leaves and an extended parameter does not allow. -/
def escapeReserved (u : CodeUnit) : Text :=
  if u ∈ text "'()*!" then percentEscape u.toNat else [u]

/-- The header of a stored object. The encoder may throw. -/
def buildContentDisposition (dispositionType : ContentDispositionType) (fileName : Text) :
    Option Text :=
  (encodeURIComponent fileName).map fun encoded =>
    dispositionType.toText ++ text "; filename=\"" ++ asciiFallback fileName ++
      text "\"; filename*=UTF-8''" ++ encoded.flatMap escapeReserved

end NestApi.Files
