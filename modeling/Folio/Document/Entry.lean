/-!
# Entries of a paragraph

A paragraph is a sequence of entries: runs of text, and the controls, spaces, images and
style changes that stand between them.
-/

namespace Folio

/-- The kind of a styled span. -/
structure TextKind where
  code : UInt8
  deriving DecidableEq, Repr, Inhabited

namespace TextKind

def regular : TextKind := ⟨0⟩
def title : TextKind := ⟨1⟩
def sectionTitle : TextKind := ⟨2⟩
def poemTitle : TextKind := ⟨3⟩
def subtitle : TextKind := ⟨4⟩
def annotation : TextKind := ⟨5⟩
def epigraph : TextKind := ⟨6⟩
def stanza : TextKind := ⟨7⟩
def verse : TextKind := ⟨8⟩
def preformatted : TextKind := ⟨9⟩
def image : TextKind := ⟨10⟩
def cite : TextKind := ⟨12⟩
def author : TextKind := ⟨13⟩
def date : TextKind := ⟨14⟩
def internalHyperlink : TextKind := ⟨15⟩
def footnote : TextKind := ⟨16⟩
def emphasis : TextKind := ⟨17⟩
def strong : TextKind := ⟨18⟩
def strikethrough : TextKind := ⟨19⟩
def computerCode : TextKind := ⟨21⟩
def externalHyperlink : TextKind := ⟨37⟩
def bookHyperlink : TextKind := ⟨38⟩

end TextKind

/-- How the lines of a paragraph are set. -/
inductive Alignment where
  | left
  | right
  | center
  | justify
  deriving DecidableEq, Repr

/-- Changes of style; what is absent is inherited. -/
structure Style where
  fontSizeStep : Option Int
  alignment : Option Alignment
  bold : Option Bool
  italic : Option Bool
  leftIndent : Option Int
  rightIndent : Option Int
  firstLineIndent : Option Int
  deriving DecidableEq, Repr, Inhabited

/-- An encoded image. -/
structure ImageData where
  mime : String
  bytes : List UInt8
  deriving DecidableEq, Repr, Inhabited

/-- One entry of a paragraph. -/
inductive Entry where
  | text (run : String)
  | style (style : Style)
  /-- A space as wide as a number of ordinary ones. -/
  | fixedSpace (width : UInt8)
  /-- The start or the end of a styled span. -/
  | control (kind : TextKind) (isStart : Bool)
  /-- The start of a span that leads to a target. -/
  | link (kind : TextKind) (target : String)
  | image (id : String)
  /-- The return to the bidi level at which the paragraph starts. -/
  | resetBidi
  deriving DecidableEq, Repr

/-- The text of an entry; entries of other kinds have none. -/
def Entry.run? : Entry → Option String
  | .text run => some run
  | _ => none

end Folio
