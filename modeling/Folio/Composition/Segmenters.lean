import Folio.Composition.Paragraph

/-!
# Segmenters

A segmenter tells where lines may end in a text.  It is set up when text is first taken apart
in its language under its word break option, and kept for all text after that.
-/

namespace Folio

/-- The byte offsets of the line break opportunities of a text, in increasing order. -/
abbrev Segmenter := List Char → List Nat

/-- The segmenters that have been set up. -/
abbrev Segmenters := Table (Language × WordBreak) Segmenter

namespace Segmenters

/-- The segmenter that is kept, or else a new one, which is kept from then on. -/
def provide
    (segmenters : Segmenters)
    (language : Language)
    (option : WordBreak)
    (new : Segmenter) :
    Segmenter × Segmenters :=
  match segmenters.get? (language, option) with
  | some segmenter => (segmenter, segmenters)
  | none => (new, segmenters.insert (language, option) new)

end Segmenters

/-- Whether a segmenter is needed to compose a paragraph: only text is taken apart. -/
def Composition.takesApart (paragraph : Paragraph) : Bool :=
  showsText paragraph.kind && paragraph.runs.any fun run => !run.isEmpty

end Folio
