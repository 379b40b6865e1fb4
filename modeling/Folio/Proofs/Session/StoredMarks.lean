import Folio.Document.Source
import Folio.Proofs.Document.Occurrences
import Folio.Session.DocumentStep

/-!
# Which marks a document has

After any commands to a document its marks are those that were asked for last, be it by
setting them, by searching or by removing them, and they are in order.  Commands of other
kinds leave them alone, and no command changes a paragraph.
-/

namespace Folio

/-- A document has just these marks, in order. -/
structure Document.StoresMarks (document : Document) (requested : List Mark) : Prop where
  ordered : document.marks.IsOrdered
  perm : document.marks.Perm requested

theorem Document.storesMarks_of_eq
    {document : Document}
    {requested : List Mark}
    (same : document.marks = Marks.ofList requested) :
    document.StoresMarks requested where
  ordered := same ▸ Marks.isOrdered_ofList requested
  perm := same ▸ Marks.ofList_perm requested

/-! ## A new document -/

namespace DocumentSource

theorem marks_openIn (document : Document) (openParagraphs : OpenParagraphs) :
    (openIn document openParagraphs).marks = document.marks := by
  cases openParagraphs with
  | all => rfl
  | only indices =>
      simp only [openIn]
      induction indices generalizing document with
      | nil => rfl
      | cons index rest sameMarks => exact sameMarks (document.setOpen index true)

theorem marks_build (source : DocumentSource) :
    source.build.1.marks = Marks.ofList source.marks := by
  simp only [build, marks_openIn]
  rfl

end DocumentSource

/-! ## Commands -/

namespace Session

/-- The document after commands to it. -/
def afterCommands (document : Document) (commands : List DocumentCommand) : Document :=
  commands.foldl (fun document command => (runDocument document command).1) document

/-- The marks that are asked for after a command, if `marks` were asked for before. -/
def requestedMarks
    (paragraphs : List Paragraph)
    (marks : List Mark) :
    DocumentCommand → List Mark
  | .setMarks requested => requested
  | .removeAllMarks => []
  | .search pattern mode => Search.marks mode pattern paragraphs
  | _ => marks

theorem paragraphs_runDocument (document : Document) (command : DocumentCommand) :
    (runDocument document command).1.paragraphs = document.paragraphs := by
  cases command with
  | paragraphKind index =>
      simp only [runDocument]
      split <;> rfl
  | _ => rfl

theorem storesMarks_runDocument
    {document : Document}
    {requested : List Mark}
    (stores : document.StoresMarks requested)
    (command : DocumentCommand) :
    (runDocument document command).1.StoresMarks
      (requestedMarks document.paragraphs.toList requested command) := by
  cases command with
  | setMarks marks => exact Document.storesMarks_of_eq rfl
  | removeAllMarks => exact ⟨Marks.isOrdered_nil, .nil⟩
  | search pattern mode => exact ⟨Search.isOrdered_marks mode pattern _, .refl _⟩
  | paragraphKind index =>
      simp only [runDocument]
      split <;> exact stores
  | setOpen index isOpen => exact ⟨stores.ordered, stores.perm⟩
  | openTree index => exact ⟨stores.ordered, stores.perm⟩
  | setAllOpen isOpen => exact ⟨stores.ordered, stores.perm⟩
  | _ => exact stores

theorem storesMarks_afterCommands
    {document : Document}
    {requested : List Mark}
    (stores : document.StoresMarks requested)
    (commands : List DocumentCommand) :
    (afterCommands document commands).StoresMarks
      (commands.foldl (requestedMarks document.paragraphs.toList) requested) := by
  induction commands generalizing document requested with
  | nil => exact stores
  | cons command rest storesAfterRest =>
      have next := storesAfterRest (storesMarks_runDocument stores command)
      rw [paragraphs_runDocument] at next
      exact next

end Session

end Folio
