import Folio.Text.Offset

/-!
# Marks

A mark highlights a stretch of a paragraph's text, such as a hit of a search or a selection.
The marks of a document are kept in increasing order, so those of one paragraph are
neighbours and the marks on the two sides of a position are found by walking to it.
-/

namespace Folio

/-- A stretch of the text of a paragraph, in bytes. -/
structure Mark where
  paragraph : Nat
  offset : Nat
  length : Nat
  deriving DecidableEq, Repr, Inhabited

namespace Mark

/-- The place just after the stretch. -/
def finish (mark : Mark) : Nat :=
  mark.offset + mark.length

/-- The place just after the stretch as an offset, which goes astray where there is none. -/
def finishOffset (mark : Mark) : Nat :=
  Offset.add mark.offset mark.length

/-- Marks are ordered by paragraph, then by offset, then by length. -/
def Before (left right : Mark) : Prop :=
  left.paragraph < right.paragraph ∨
    left.paragraph = right.paragraph ∧
      (left.offset < right.offset ∨
        left.offset = right.offset ∧ left.length < right.length)

instance : LT Mark := ⟨Before⟩

instance : DecidableLT Mark := fun left right =>
  inferInstanceAs (Decidable
    (left.paragraph < right.paragraph ∨
      left.paragraph = right.paragraph ∧
        (left.offset < right.offset ∨
          left.offset = right.offset ∧ left.length < right.length)))

instance : LE Mark := ⟨fun left right => ¬ right < left⟩

instance : DecidableLE Mark := fun left right =>
  inferInstanceAs (Decidable (¬ right < left))

end Mark

/-- Marks in increasing order. -/
abbrev Marks := List Mark

namespace Marks

/-- The marks in increasing order, repeated ones kept. -/
def ofList (marks : List Mark) : Marks :=
  marks.mergeSort fun left right => left ≤ right

/-- The marks of one paragraph. -/
def ofParagraph (marks : Marks) (paragraph : Nat) : Marks :=
  (marks.dropWhile fun mark => mark.paragraph < paragraph).takeWhile
    fun mark => mark.paragraph == paragraph

/-- The first mark after a position. -/
def next? (marks : Marks) (position : Mark) : Option Mark :=
  (marks.dropWhile fun mark => mark ≤ position).head?

/-- The last mark before a position. -/
def previous? (marks : Marks) (position : Mark) : Option Mark :=
  (marks.takeWhile fun mark => mark < position).getLast?

end Marks

end Folio
