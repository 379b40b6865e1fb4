import Folio.Session.Command
import Folio.Session.Reply

/-!
# Commands to a document

What a document tells about itself, and how its marks and open paragraphs are changed.
Paragraphs that have been built are not touched by this.
-/

namespace Folio.Session

/-- What is told about a node; outside of an outline every paragraph stands alone. -/
def nodeFacts (document : Document) (index : Nat) : NodeFacts where
  parent := document.links.parent? index
  children := document.links.children index
  nextSibling := document.links.nextSibling? index
  isLastChild := document.links.isLastChild index
  depth := document.links.depth index
  isOpen := document.links.isOpen index

/-- What is told about a paragraph of a document. -/
def sourceFacts (paragraph : Paragraph) : SourceFacts where
  kind := paragraph.kind
  entryCount := paragraph.entries.length
  textSize := paragraph.textSize
  text := paragraph.plainText

/-- Carry out a command to a document. -/
def runDocument (document : Document) : DocumentCommand → Document × Reply
  | .describe => (document, .document document.isTree document.size document.isEmpty)
  | .paragraph index =>
      (document, .ofOption (fun paragraph => .source (sourceFacts paragraph))
        (document.paragraph? index))
  | .paragraphKind index =>
      match document.kind? index with
      | some kind => (document, .kind kind)
      | none => (document, .outOfRange)
  | .image id => (document, .ofOption .image (document.image? id))
  | .node index => (document, .node (nodeFacts document index))
  | .isAncestorOf ancestor index =>
      (document, .flag (document.links.isAncestorOf ancestor index))
  | .setOpen index isOpen =>
      let document := document.setOpen index isOpen
      (document, .indices document.links.openNodes)
  | .openTree index =>
      let document := document.openTree index
      (document, .indices document.links.openNodes)
  | .setAllOpen isOpen =>
      let document := document.setAllOpen isOpen
      (document, .indices document.links.openNodes)
  | .setMarks marks =>
      let document := document.setMarks marks
      (document, .marks document.marks)
  | .removeAllMarks =>
      let document := document.removeAllMarks
      (document, .marks document.marks)
  | .marks => (document, .marks document.marks)
  | .search pattern mode =>
      let document := document.search mode pattern
      (document, .hits document.marks)
  | .firstAndLastMark => (document, .markPair document.firstMark? document.lastMark?)
  | .nextMark position => (document, .ofOption .mark (document.nextMark? position))
  | .previousMark position => (document, .ofOption .mark (document.previousMark? position))

end Folio.Session
