import Folio.Bidi.Glyph
import Folio.Document.Entry
import Folio.Text.Offset

/-!
# Elements

What a paragraph is composed into: words with their places and levels, the spaces between
them, and the controls, images and markers that go with them.
-/

namespace Folio

/-- Elements that carry nothing but their kind. -/
inductive Marker where
  /-- A space at which a line may end. -/
  | space
  /-- A space at which no line ends. -/
  | noBreakSpace
  | beforeParagraph
  | afterParagraph
  | emptyLine
  /-- The bidi level rises by one. -/
  | startReversed
  /-- The bidi level falls by one. -/
  | endReversed
  deriving DecidableEq, Repr

/-- The highlighted part of a word, in bytes from its start. -/
structure MarkSpan where
  start : Nat
  length : Nat
  deriving DecidableEq, Repr

/-- A word, with its byte offset in the text of the paragraph. -/
structure Word where
  text : String
  offset : Nat
  level : Bidi.Level
  marks : List MarkSpan
  deriving DecidableEq, Repr, Inhabited

namespace Word

/-- The number of bytes. -/
def size (word : Word) : Nat :=
  word.text.utf8ByteSize

/-- The number of characters. -/
def length (word : Word) : Nat :=
  word.text.length

/-- The offset just after the word. -/
def finish (word : Word) : Nat :=
  word.offset + word.size

/-- Whether the word has no characters. -/
def isEmpty (word : Word) : Bool :=
  word.length == 0

/--
The part of a stretch of the paragraph that lies in the word, which reaches to the offset
`wordEnd`.  There is none if the stretch does not reach into the word.
-/
def clipTo? (word : Word) (wordEnd offset length : Nat) : Option MarkSpan :=
  let stop := Offset.add offset length
  if offset < wordEnd ∧ word.offset < stop then
    let start := max offset word.offset
    some
      { start := start - word.offset
        length := Offset.sub (min stop wordEnd) start }
  else
    none

/-- The part of a stretch of the paragraph that lies in the word, if it reaches into it. -/
def clip? (word : Word) (offset length : Nat) : Option MarkSpan :=
  word.clipTo? word.finish offset length

/-- Highlight what a stretch of the paragraph covers of the word. -/
def addMark (word : Word) (offset length : Nat) : Word :=
  { word with marks := word.marks ++ (word.clip? offset length).toList }

/--
Highlight what a stretch covers of a word that need not lie in any text.  Its end is added up
like that of the stretch.
-/
def addMarkAnywhere (word : Word) (offset length : Nat) : Word :=
  let wordEnd := Offset.add word.offset word.size
  { word with marks := word.marks ++ (word.clipTo? wordEnd offset length).toList }

end Word

/-- The start or the end of a styled span; the start of a link has a target. -/
structure Control where
  kind : TextKind
  isStart : Bool
  target : Option String
  deriving DecidableEq, Repr, Inhabited

/-- One element of a composed paragraph. -/
inductive Element where
  | word (word : Word)
  | control (control : Control)
  | image (id : String) (image : ImageData)
  | style (style : Style)
  | fixedSpace (width : UInt8)
  | marker (marker : Marker)
  deriving DecidableEq, Repr

namespace Element

/-- The word, if the element is one. -/
def word? : Element → Option Word
  | .word found => some found
  | _ => none

/-- The control, if the element is one. -/
def control? : Element → Option Control
  | .control found => some found
  | _ => none

end Element

end Folio
