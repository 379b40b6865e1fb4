import Folio.Document.Source
import Folio.Proofs.Document.Preorder
import Folio.Proofs.Document.Visibility
import Folio.Session.DocumentStep

/-!
# Reading there and back

In a document that was built, reading on from a paragraph and back again leads to the
paragraph: in a plain document from every paragraph that does not end a text, and in a tree
document from every visible one.  Commands to a document leave this so.
-/

namespace Folio.Document

/-- If a document has an outline, it is well linked, and no paragraph ends a text. -/
structure IsNavigable (document : Document) : Prop where
  wellLinked : ∀ tree, document.outline = some tree → tree.WellLinked
  endsText_eq :
    ∀ tree, document.outline = some tree → ∀ index, document.endsText index = false

/-- Paragraphs from which the way on is also a way back. -/
def IsReversible (document : Document) (index : Nat) : Prop :=
  match document.outline with
  | some tree => tree.IsVisible index
  | none => document.endsText index = false

instance (document : Document) (index : Nat) : Decidable (document.IsReversible index) :=
  match isOutline : document.outline with
  | some tree =>
      decidable_of_iff (∀ above ∈ tree.ancestors index, tree.isOpen above = true)
        (by rw [IsReversible, isOutline]; rfl)
  | none => decidable_of_iff (document.endsText index = false) (by rw [IsReversible, isOutline])

theorem IsNavigable.previous?_of_next?
    {document : Document}
    (navigable : document.IsNavigable)
    {index next : Nat}
    (reversible : document.IsReversible index)
    (isNext : document.next? index = some next) :
    document.previous? next = some index := by
  unfold IsReversible at reversible
  unfold next? at isNext
  cases isOutline : document.outline with
  | none =>
      simp only [isOutline] at reversible isNext
      split at isNext
      · exact absurd isNext (by simp)
      · rename_i notLast
        obtain rfl := Option.some.inj isNext
        simp only [isLast, isLastInSequence, isOutline, Bool.or_false, Bool.or_eq_true, not_or,
          Bool.not_eq_true] at notLast
        simp [previous?, isFirst, isOutline, reversible, notLast.2]
  | some tree =>
      simp only [isOutline] at reversible isNext
      have linked := navigable.wellLinked tree isOutline
      have noEnd := navigable.endsText_eq tree isOutline
      obtain ⟨⟨after, -, -⟩, -⟩ := linked.isLeast_of_next?_eq_some isNext
      have back := (linked.previous_of_next? reversible isNext).2
      have notFirst : next ≠ 0 := by omega
      simp [previous?, isFirst, isOutline, noEnd, notFirst, back]

theorem IsNavigable.next?_lt_size
    {document : Document}
    (navigable : document.IsNavigable)
    {index next : Nat}
    (inRange : index < document.size)
    (isNext : document.next? index = some next) :
    next < document.size := by
  unfold next? at isNext
  cases isOutline : document.outline with
  | none =>
      simp only [isOutline] at isNext
      split at isNext
      · exact absurd isNext (by simp)
      · rename_i notLast
        obtain rfl := Option.some.inj isNext
        have notEnd : index + 1 ≠ document.size := by
          intro isEnd
          simp [isLast, isLastInSequence, isEnd] at notLast
        omega
  | some tree =>
      simp only [isOutline] at isNext
      have linked := navigable.wellLinked tree isOutline
      obtain ⟨⟨-, below, -⟩, -⟩ := linked.isLeast_of_next?_eq_some isNext
      exact Nat.lt_of_lt_of_eq below (document.outline_size tree isOutline)

/-! ## Documents that were built -/

theorem IsNavigable.congr
    {document other : Document}
    (navigable : document.IsNavigable)
    (sameParagraphs : other.paragraphs = document.paragraphs)
    (sameOutline : other.outline = document.outline) :
    other.IsNavigable where
  wellLinked tree isOutline := navigable.wellLinked tree (sameOutline ▸ isOutline)
  endsText_eq := by
    intro tree isOutline index
    have noEnd := navigable.endsText_eq tree (sameOutline ▸ isOutline) index
    rwa [endsText, kind?, paragraph?, sameParagraphs]

theorem IsNavigable.mapOpen
    {document : Document}
    (navigable : document.IsNavigable)
    (change : Outline → Nat → Bool → Bool) :
    (document.mapOpen change).IsNavigable where
  wellLinked := by
    intro tree isOutline
    obtain ⟨unchanged, wasOutline, rfl⟩ := Option.map_eq_some_iff.1 isOutline
    exact (navigable.wellLinked unchanged wasOutline).mapOpen _
  endsText_eq := by
    intro tree isOutline index
    obtain ⟨unchanged, wasOutline, -⟩ := Option.map_eq_some_iff.1 isOutline
    exact navigable.endsText_eq unchanged wasOutline index

theorem isNavigable_plain (paragraphs : List Paragraph) : (plain paragraphs).IsNavigable :=
  ⟨by simp [plain], by simp [plain]⟩

theorem isNavigable_build_pushAll (pushes : List (Option Nat × Paragraph)) :
    (TreeBuilder.empty.pushAll pushes).1.build.IsNavigable where
  wellLinked := by
    intro tree isOutline
    obtain rfl := Option.some.inj isOutline
    exact TreeBuilder.wellLinked_pushAll Outline.wellLinked_empty pushes
  endsText_eq := by
    intro tree _ index
    let builder := (TreeBuilder.empty.pushAll pushes).1
    have kinds : builder.build.kind? index = (builder.paragraphs[index]?).map Paragraph.kind := rfl
    cases found : builder.paragraphs[index]? with
    | none => rw [endsText, kinds, found]; rfl
    | some paragraph =>
        obtain ⟨inRange, -⟩ := Array.getElem?_eq_some_iff.1 found
        have isNode := TreeBuilder.kind_getD_pushAll pushes inRange
        rw [Array.getD_eq_getD_getElem?, found, Option.getD_some] at isNode
        rw [endsText, kinds, found, Option.map_some, isNode]
        rfl

theorem IsNavigable.addImages
    {document : Document}
    (navigable : document.IsNavigable)
    (images : List (String × ImageData)) :
    (images.foldl (fun document (id, image) => document.addImage id image)
      document).IsNavigable := by
  induction images generalizing document with
  | nil => exact navigable
  | cons image rest ofRest => exact ofRest (navigable.congr rfl rfl)

theorem IsNavigable.openIn
    {document : Document}
    (navigable : document.IsNavigable)
    (openParagraphs : OpenParagraphs) :
    (DocumentSource.openIn document openParagraphs).IsNavigable := by
  cases openParagraphs with
  | all => exact navigable.mapOpen _
  | only indices =>
      simp only [DocumentSource.openIn]
      induction indices generalizing document with
      | nil => exact navigable
      | cons index rest ofRest => exact ofRest (navigable.mapOpen _)

theorem isNavigable_build (source : DocumentSource) : source.build.1.IsNavigable := by
  have ofBody : (DocumentSource.buildBody source.body).1.IsNavigable := by
    cases source.body with
    | plain paragraphs => exact isNavigable_plain paragraphs
    | tree pushes => exact isNavigable_build_pushAll pushes
  have withMarks : (setMarks _ source.marks).IsNavigable :=
    (ofBody.addImages source.images).congr rfl rfl
  exact withMarks.openIn source.openParagraphs

theorem IsNavigable.runDocument
    {document : Document}
    (navigable : document.IsNavigable)
    (command : Session.DocumentCommand) :
    (Session.runDocument document command).1.IsNavigable := by
  cases command with
  | paragraphKind index =>
      simp only [Session.runDocument]
      split <;> exact navigable
  | setOpen index isOpen => exact navigable.mapOpen _
  | openTree index => exact navigable.mapOpen _
  | setAllOpen isOpen => exact navigable.mapOpen _
  | _ => exact navigable.congr rfl rfl

end Folio.Document
