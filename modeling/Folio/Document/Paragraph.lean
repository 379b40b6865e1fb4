import Folio.Document.Entry

/-!
# Paragraphs

The logical paragraphs of a document, before they are composed.
-/

namespace Folio

/-- The part a paragraph plays in its document. -/
inductive ParagraphKind where
  | text
  /-- A node of an outline. -/
  | tree
  | emptyLine
  | beforeSkip
  | afterSkip
  | endOfSection
  /-- The end of a body of text, at which reading stops. -/
  | endOfText
  deriving DecidableEq, Repr, Inhabited

/-- The name of a kind in messages. -/
def ParagraphKind.name : ParagraphKind → String
  | text => "Text"
  | tree => "Tree"
  | emptyLine => "EmptyLine"
  | beforeSkip => "BeforeSkip"
  | afterSkip => "AfterSkip"
  | endOfSection => "EndOfSection"
  | endOfText => "EndOfText"

/-- A paragraph: its kind and its entries in order. -/
structure Paragraph where
  kind : ParagraphKind
  entries : List Entry
  deriving DecidableEq, Repr

namespace Paragraph

instance : Inhabited Paragraph := ⟨⟨.text, []⟩⟩

/-- The runs of text in order. -/
def runs (paragraph : Paragraph) : List String :=
  paragraph.entries.filterMap Entry.run?

/-- The runs of text as one, in which marks and words are placed. -/
def plainText (paragraph : Paragraph) : String :=
  String.join paragraph.runs

/-- The number of bytes of the text. -/
def textSize (paragraph : Paragraph) : Nat :=
  paragraph.runs.foldr (fun run following => run.utf8ByteSize + following) 0

end Paragraph

end Folio
