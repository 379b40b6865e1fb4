import Folio.Document.TreeBuilder

/-!
# Descriptions of documents

A document is described by its paragraphs, images, marks and open paragraphs, and built from
the description in this order.
-/

namespace Folio

/-- The paragraphs of a document: in a row, or each with the parent it is pushed under. -/
inductive DocumentBody where
  | plain (paragraphs : List Paragraph)
  | tree (pushes : List (Option Nat × Paragraph))
  deriving DecidableEq, Repr

/-- Which paragraphs are open at first. -/
inductive OpenParagraphs where
  | all
  | only (indices : List Nat)
  deriving DecidableEq, Repr

/-- The description of a document. -/
structure DocumentSource where
  body : DocumentBody
  images : List (String × ImageData)
  marks : List Mark
  openParagraphs : OpenParagraphs
  deriving DecidableEq, Repr

namespace DocumentSource

/-- The paragraphs alone, with the answers to the pushes of a tree document. -/
def buildBody : DocumentBody → Document × Option (List (Except PushRefusal Nat))
  | .plain paragraphs => (.plain paragraphs, none)
  | .tree pushes =>
      let (builder, answers) := TreeBuilder.empty.pushAll pushes
      (builder.build, some answers)

/-- Open paragraphs of a document. -/
def openIn (document : Document) : OpenParagraphs → Document
  | .all => document.setAllOpen true
  | .only indices => indices.foldl (fun document index => document.setOpen index true) document

/-- The document described, with the answers to the pushes of a tree document. -/
def build (source : DocumentSource) : Document × Option (List (Except PushRefusal Nat)) :=
  let (document, answers) := buildBody source.body
  let document := source.images.foldl (fun document (id, image) => document.addImage id image)
    document
  (openIn (document.setMarks source.marks) source.openParagraphs, answers)

end DocumentSource

end Folio
