import Folio.Composition.Scan
import Folio.Document.Basic
import Folio.Element.Pool
import Folio.Language

/-!
# Composing a paragraph

The elements of a paragraph in the order of its entries.  Composition carries two things from
one entry to the next: the bidi level on which the last one ended and the offset of the next
run in the text of the paragraph.

Composition does not look at marks.  They are laid over the words afterwards, when the words
are acquired from a pool.
-/

namespace Folio

namespace Composition

/-- What is carried from one entry to the next. -/
structure Carry where
  level : Bidi.Level
  offset : Nat
  deriving DecidableEq, Repr

/-- Compose a run of text. -/
def composeRun
    (rules : TextRules)
    (base : Bidi.Level)
    (carry : Carry)
    (run : String) :
    List Element × Carry :=
  match analyze rules base carry.level run.toList with
  | [] => ([], carry)
  | first :: rest =>
      (levelShift carry.level first.level ++
          Scan.elements carry.offset first.level Scan.initial (first :: rest),
        { level := (rest.getLast?.getD first).level
          offset := carry.offset + run.utf8ByteSize })

/-- Compose an entry. -/
def composeEntry
    (rules : TextRules)
    (image? : String → Option ImageData)
    (base : Bidi.Level)
    (carry : Carry) :
    Entry → List Element × Carry
  | .text run => composeRun rules base carry run
  | .style style => ([.style style], carry)
  | .fixedSpace width => ([.fixedSpace width], carry)
  | .control kind isStart => ([.control ⟨kind, isStart, none⟩], carry)
  | .link kind target => ([.control ⟨kind, true, some target⟩], carry)
  | .image id => ((image? id).toList.map (.image id), carry)
  | .resetBidi => (levelShift carry.level base, { carry with level := base })

/-- Compose entries, and return to the base level after the last. -/
def composeEntries
    (rules : TextRules)
    (image? : String → Option ImageData)
    (base : Bidi.Level)
    (carry : Carry) :
    List Entry → List Element
  | [] => levelShift carry.level base
  | entry :: rest =>
      let (elements, next) := composeEntry rules image? base carry entry
      elements ++ composeEntries rules image? base next rest

/-- The controls among entries, in a paragraph that shows no text. -/
def controlOf? : Entry → Option Element
  | .control kind isStart => some (.control ⟨kind, isStart, none⟩)
  | .link kind target => some (.control ⟨kind, true, some target⟩)
  | _ => none

/-- The marker that a paragraph without text ends with. -/
def closingMarker? : ParagraphKind → Option Marker
  | .emptyLine => some .emptyLine
  | .beforeSkip => some .beforeParagraph
  | .afterSkip => some .afterParagraph
  | _ => none

/-- Whether paragraphs of a kind show their text. -/
def showsText (kind : ParagraphKind) : Bool :=
  kind == .text || kind == .tree

/-- The elements of a paragraph, before any marks. -/
def compose
    (rules : TextRules)
    (image? : String → Option ImageData)
    (language : Language)
    (paragraph : Paragraph) :
    List Element :=
  if showsText paragraph.kind then
    let base := language.baseLevel
    composeEntries rules image? base ⟨base, 0⟩ paragraph.entries
  else
    match closingMarker? paragraph.kind with
    | some marker => paragraph.entries.filterMap controlOf? ++ [.marker marker]
    | none => []

/-! ## Marks -/

/-- Lay marks over an element; only words show them. -/
def overlay (marks : Marks) : Element → Element
  | .word word => .word (marks.foldl (fun word mark => word.addMark mark.offset mark.length) word)
  | element => element

/-! ## Filling -/

/-- The elements of a paragraph of a document, before any marks. -/
def ofDocument
    (rules : TextRules)
    (document : Document)
    (language : Language)
    (index : Nat) :
    List Element :=
  match document.paragraph? index with
  | some paragraph => compose rules document.image? language paragraph
  | none => []

/-- The marked elements of a paragraph of a document, acquired from a pool. -/
def fill
    (rules : TextRules)
    (document : Document)
    (language : Language)
    (index : Nat)
    (pool : Pool) :
    List Element × Pool :=
  let (elements, pool) := pool.supplyAll (ofDocument rules document language index)
  (elements.map (overlay (Marks.ofParagraph document.marks index)), pool)

end Composition

end Folio
