import Folio.Document.Outline
import Folio.Document.Search
import Folio.Table

/-!
# Documents

A document is a sequence of paragraphs with the images they show and the marks that are set
on them.  The paragraphs of a tree document are also the nodes of an outline.
-/

namespace Folio

/-- Paragraphs, images, marks and, in a tree document, an outline of the paragraphs. -/
structure Document where
  paragraphs : Array Paragraph
  images : Table String ImageData
  marks : Marks
  outline : Option Outline
  outline_size : ∀ tree, outline = some tree → tree.size = paragraphs.size
  deriving DecidableEq

namespace Document

/-- A document without an outline. -/
def plain (paragraphs : List Paragraph) : Document where
  paragraphs := paragraphs.toArray
  images := .empty
  marks := []
  outline := none
  outline_size := by simp

instance : Inhabited Document := ⟨plain []⟩

/-- The number of paragraphs. -/
def size (document : Document) : Nat :=
  document.paragraphs.size

/-- Whether there are no paragraphs. -/
def isEmpty (document : Document) : Bool :=
  document.size == 0

/-- Whether the paragraphs form an outline. -/
def isTree (document : Document) : Bool :=
  document.outline.isSome

/-- The paragraph at an index. -/
def paragraph? (document : Document) (index : Nat) : Option Paragraph :=
  document.paragraphs[index]?

/-- The kind of the paragraph at an index. -/
def kind? (document : Document) (index : Nat) : Option ParagraphKind :=
  (document.paragraph? index).map Paragraph.kind

/-! ## Images -/

/-- Register an image in place of any earlier one of the same name. -/
def addImage (document : Document) (id : String) (image : ImageData) : Document :=
  { document with images := document.images.insert id image }

/-- The image of a name; one without any bytes counts as missing. -/
def image? (document : Document) (id : String) : Option ImageData :=
  (document.images.get? id).filter fun image => !image.bytes.isEmpty

/-! ## Marks -/

/-- Replace the marks. -/
def setMarks (document : Document) (marks : List Mark) : Document :=
  { document with marks := Marks.ofList marks }

/-- Remove the marks. -/
def removeAllMarks (document : Document) : Document :=
  { document with marks := [] }

/-- Replace the marks by the occurrences of a pattern. -/
def search (document : Document) (mode : CaseMode) (pattern : String) : Document :=
  { document with marks := Search.marks mode pattern document.paragraphs.toList }

/-- The first mark. -/
def firstMark? (document : Document) : Option Mark :=
  document.marks.head?

/-- The last mark. -/
def lastMark? (document : Document) : Option Mark :=
  document.marks.getLast?

/-- The first mark after a position. -/
def nextMark? (document : Document) (position : Mark) : Option Mark :=
  Marks.next? document.marks position

/-- The last mark before a position. -/
def previousMark? (document : Document) (position : Mark) : Option Mark :=
  Marks.previous? document.marks position

/-! ## The outline

In a plain document every paragraph is at the top, closed, and the last of its siblings. -/

/-- The outline of a tree document; without one, the outline that has no nodes. -/
def links (document : Document) : Outline :=
  document.outline.getD .empty

/-- Change which nodes of the outline are open. -/
def mapOpen (change : Outline → Nat → Bool → Bool) (document : Document) : Document :=
  { document with
    outline := document.outline.map fun tree => tree.mapOpen (change tree)
    outline_size := by
      intro tree isOutline
      obtain ⟨unchanged, wasOutline, rfl⟩ := Option.map_eq_some_iff.1 isOutline
      rw [Outline.size_mapOpen]
      exact document.outline_size unchanged wasOutline }

/-- Open or close a paragraph. -/
def setOpen (document : Document) (index : Nat) (isOpen : Bool) : Document :=
  document.mapOpen fun _ => Outline.opening index isOpen

/-- Open a paragraph and all those above it. -/
def openTree (document : Document) (index : Nat) : Document :=
  document.mapOpen fun tree => tree.openingLineage index

/-- Open or close every paragraph. -/
def setAllOpen (document : Document) (isOpen : Bool) : Document :=
  document.mapOpen fun _ _ _ => isOpen

end Document

end Folio
