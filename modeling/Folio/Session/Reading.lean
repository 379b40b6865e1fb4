import Folio.Session.Basic

/-!
# Reading a document once

The paragraphs of one document, built one after the other and let go again.
-/

namespace Folio.Session

/-- A built paragraph as it is shown. -/
structure Page where
  index : Nat
  kind : ParagraphKind
  textSize : Nat
  elements : List Element
  deriving DecidableEq, Repr

/-- A built paragraph with what its document tells about it. -/
def page? (workspace : Workspace) (id : ParagraphId) : Option Page := do
  let built ← workspace.paragraph? id
  let paragraph ← (workspace.document built.key.document).paragraph? built.key.index
  return {
    index := built.key.index
    kind := paragraph.kind
    textSize := paragraph.textSize
    elements := built.elements }

/-- Build the paragraphs with these indices of the first document, one after the other. -/
def readPages (session : Session) (language : Language) : List Nat → List (Option Page)
  | [] => []
  | index :: rest =>
      let (found, workspace) := session.workspace.cursor 0 language index
      found.bind (page? workspace) ::
        (sweep { session with workspace }).readPages language rest

/-- Build one paragraph of a document, or all of them in order. -/
def readDocument
    (config : Config)
    (document : Document)
    (language : Language)
    (index : Option Nat) :
    List (Option Page) :=
  let indices :=
    match index with
    | some index => [index]
    | none => List.range document.size
  (start config [document]).readPages language indices

end Folio.Session
