import Folio.Document.Basic

/-!
# Reading from paragraph to paragraph

The paragraph that is read after another, and the one before it.  A plain document is read in
order but never across the end of a body of text.  In a tree document the paragraphs hidden
in closed ones are passed over.
-/

namespace Folio.Document

/-- Whether the paragraph at an index ends a body of text. -/
def endsText (document : Document) (index : Nat) : Bool :=
  document.kind? index == some .endOfText

/-- Whether there is nothing to read before a paragraph. -/
def isFirst (document : Document) (index : Nat) : Bool :=
  index == 0 || document.endsText index || document.endsText (index - 1)

/-- Whether the body of text ends with a paragraph, or the document does. -/
def isLastInSequence (document : Document) (index : Nat) : Bool :=
  index + 1 == document.size || document.endsText (index + 1)

/-- Whether there is nothing to read after a paragraph. -/
def isLast (document : Document) (index : Nat) : Bool :=
  document.isLastInSequence index ||
    match document.outline with
    | some tree => tree.isLast index
    | none => false

/-- The paragraph read after another. -/
def next? (document : Document) (index : Nat) : Option Nat :=
  match document.outline with
  | some tree => tree.next? index
  | none => if document.isLast index then none else some (index + 1)

/-- The paragraph read before another. -/
def previous? (document : Document) (index : Nat) : Option Nat :=
  if document.isFirst index then
    none
  else
    match document.outline with
    | some tree => some (tree.previous index)
    | none => some (index - 1)

end Folio.Document
