import Folio.Text.Utf8

/-!
# Document languages

A language tag has the shape `language[-Script][-REGION]`: two or three letters, then an
optional script of four letters, then an optional region of two letters or three digits.
Either `-` or `_` may stand between two subtags.

A language is kept as the bytes of its canonical tag, in a buffer that the longest tag fills
and that has zeros after a shorter one.  Reading a tag writes its subtags into the buffer one
after the other, so two tags name the same language exactly when the buffers and the sizes
are equal.
-/

namespace Folio

/-- Why a text is not a language tag. -/
inductive Language.TagError where
  | empty
  | tooLong
  | malformedSubtag
  deriving DecidableEq, Repr

/-- The longest tag that is read, in bytes of UTF-8. -/
def Language.maxTagSize : Nat := 12

/-- A language, by its canonical tag. -/
structure Language where
  /-- The bytes of the tag, and zeros after them. -/
  bytes : Vector UInt8 Language.maxTagSize
  /-- The number of bytes of the tag. -/
  size : UInt8
  /-- The number of bytes of its first subtag. -/
  primarySize : UInt8
  deriving DecidableEq, Repr

namespace Language

/-- The undetermined language. -/
def undetermined : Language where
  bytes := #v[117, 110, 100, 0, 0, 0, 0, 0, 0, 0, 0, 0]
  size := 3
  primarySize := 3

instance : Inhabited Language := ⟨undetermined⟩

/-- The text that the bytes of the tag encode, if they encode one. -/
def text? (language : Language) : Option String :=
  String.fromUTF8? (language.bytes.toList.take language.size.toNat).toByteArray

/-- The canonical tag. -/
def tag (language : Language) : String :=
  language.text?.getD "und"

/-- The first subtag of the canonical tag. -/
def primary (language : Language) : String :=
  String.ofList ((Utf8.take? language.primarySize.toNat language.tag.toList).getD [])

/-- The primary subtags that are written from right to left. -/
def rightToLeftSubtags : List String :=
  ["ar", "ckb", "dv", "fa", "he", "iw", "ps", "sd", "ug", "ur", "yi"]

/-- Whether paragraphs in this language run from right to left. -/
def isRightToLeft (language : Language) : Bool :=
  rightToLeftSubtags.contains language.primary

/-- The bidi level at which a paragraph of this language starts. -/
def baseLevel (language : Language) : Nat :=
  if language.isRightToLeft then 1 else 0

instance : ToString Language := ⟨tag⟩

/-- The tag as it is shown when a language value is inspected. -/
def inspect (language : Language) : String :=
  "Language(\"" ++ language.tag ++ "\")"

namespace TagError

/-- What a reader of the tag is told. -/
def message : TagError → String
  | empty => "language tag is empty"
  | tooLong => "language tag exceeds 12 bytes"
  | malformedSubtag => "language tag has a malformed subtag"

end TagError

/-! ## Subtags -/

/-- The characters that stand between two subtags. -/
def isSeparator (c : Char) : Bool :=
  c == '-' || c == '_'

/-- What a subtag tells about a language. -/
inductive SubtagKind where
  | primary
  | script
  | region
  deriving DecidableEq, Repr

namespace SubtagKind

/-- The kind of a subtag with as many subtags before it as `index` says. -/
def of? (index : Nat) (part : List Char) : Option SubtagKind :=
  match index, part.length with
  | 0, 2 | 0, 3 => if part.all Char.isAlpha then some primary else none
  | 1, 4 => if part.all Char.isAlpha then some script else none
  | 1, 2 | 2, 2 => if part.all Char.isAlpha then some region else none
  | 1, 3 | 2, 3 => if part.all Char.isDigit then some region else none
  | _, _ => none

/-- A subtag in the case of its kind: a language is small, a region large, a script titled. -/
def inCase : SubtagKind → List Char → List Char
  | primary, part => part.map Char.toLower
  | script, [] => []
  | script, c :: rest => c.toUpper :: rest.map Char.toLower
  | region, part => part.map Char.toUpper

end SubtagKind

/-! ## Reading a tag -/

/-- Write bytes into a buffer from a place on, if there is room for all of them. -/
def writeAt?
    (buffer : Vector UInt8 maxTagSize)
    (place : Nat) :
    List UInt8 → Option (Vector UInt8 maxTagSize)
  | [] => some buffer
  | byte :: rest =>
      if inRange : place < maxTagSize then
        writeAt? (buffer.set place byte) (place + 1) rest
      else
        none

/-- The language of which nothing has been read. -/
def blank : Language where
  bytes := .replicate maxTagSize 0
  size := 0
  primarySize := 0

/-- What the subtag after `index` others adds to a tag, with a hyphen between. -/
def spelled (index : Nat) (kind : SubtagKind) (part : List Char) : List Char :=
  (if index = 0 then [] else ['-']) ++ kind.inCase part

/-- Write a subtag behind the `index` subtags that have been written, if there is room for it. -/
def append?
    (language : Language)
    (index : Nat)
    (kind : SubtagKind)
    (part : List Char) :
    Option Language :=
  let start := language.size.toNat
  let letters := spelled index kind part
  (writeAt? language.bytes start (letters.map Char.toUInt8)).map fun bytes =>
    let size := (start + letters.length).toUInt8
    { bytes
      size
      primarySize := if index = 0 then size else language.primarySize }

/--
Read subtags after `index` others, the last of them of the kind `previous`.  There is no
outcome where a subtag would be written past the end of the buffer.
-/
def readSubtags?
    (index : Nat)
    (previous : Option SubtagKind)
    (language : Language) :
    List (List Char) → Option (Except TagError Language)
  | [] => some (.ok language)
  | part :: rest =>
      if part.isEmpty || !part.all Char.isAlphanum then
        some (.error .malformedSubtag)
      else
        match SubtagKind.of? index part with
        | none => some (.error .malformedSubtag)
        | some kind =>
            -- In the third place a region stands only behind a script.
            if index = 2 ∧ previous ≠ some .script then
              some (.error .malformedSubtag)
            else
              (language.append? index kind part).bind fun language =>
                readSubtags? (index + 1) (some kind) language rest

/--
Read a tag, if the buffer has room for what is read.  An empty text is reported before an
overlong one, and an overlong one before a malformed subtag.
-/
def read? (text : String) : Option (Except TagError Language) :=
  if text.isEmpty then
    some (.error .empty)
  else if maxTagSize < text.utf8ByteSize then
    some (.error .tooLong)
  else
    readSubtags? 0 none blank (text.toList.splitOnP isSeparator)

/-- Read a tag.  The buffer has room for every tag that is not overlong. -/
def parse (text : String) : Except TagError Language :=
  (read? text).getD (.error .tooLong)

end Language

end Folio
