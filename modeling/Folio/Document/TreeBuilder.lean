import Folio.Document.Basic

/-!
# Building tree documents

A tree document is built by pushing its paragraphs in preorder: each one comes at the top,
under the paragraph before it, or under one of those above that.  A push that would break
this order is refused and changes nothing.
-/

namespace Folio

/-- Why a paragraph is not added, with the index that it would have had. -/
inductive PushRefusal where
  | kindMismatch (index : Nat) (kind : ParagraphKind)
  | invalidParent (index parent : Nat)
  | notPreorder (index parent : Nat)
  deriving DecidableEq, Repr

namespace PushRefusal

/-- What the author of the document is told. -/
def message : PushRefusal → String
  | kindMismatch index kind =>
      s!"paragraph {index}: {kind.name} paragraphs are not allowed in tree models"
  | invalidParent index parent =>
      s!"paragraph {index}: parent {parent} does not exist"
  | notPreorder index parent =>
      s!"paragraph {index}: parent {parent} is closed to further children " ++
        "(paragraphs must be added in preorder)"

/-- The index that the refused paragraph would have had. -/
def index : PushRefusal → Nat
  | kindMismatch index _ => index
  | invalidParent index _ => index
  | notPreorder index _ => index

/-- The parent that was asked for, where it was the reason. -/
def parent? : PushRefusal → Option Nat
  | kindMismatch _ _ => none
  | invalidParent _ parent => some parent
  | notPreorder _ parent => some parent

end PushRefusal

/-- The paragraphs pushed so far, with their outline. -/
structure TreeBuilder where
  paragraphs : Array Paragraph
  outline : Outline
  outline_size : outline.size = paragraphs.size

namespace TreeBuilder

/-- Nothing pushed. -/
def empty : TreeBuilder where
  paragraphs := #[]
  outline := .empty
  outline_size := rfl

instance : Inhabited TreeBuilder := ⟨empty⟩

/-- The number of paragraphs pushed, which is the index of the next one. -/
def size (builder : TreeBuilder) : Nat :=
  builder.paragraphs.size

/-- Add a paragraph under an earlier one, or at the top. -/
def add
    (builder : TreeBuilder)
    (parent : Option Nat)
    (earlier : ∀ node, parent = some node → node < builder.outline.size)
    (paragraph : Paragraph) :
    TreeBuilder where
  paragraphs := builder.paragraphs.push paragraph
  outline := builder.outline.push parent earlier
  outline_size := by
    have sizeBefore := builder.outline_size
    simp [Outline.push, Outline.size, Outline.size_pushNodes] at sizeBefore ⊢
    exact sizeBefore

/-- Push a paragraph under a parent, or at the top. -/
def push
    (builder : TreeBuilder)
    (parent : Option Nat)
    (paragraph : Paragraph) :
    Except PushRefusal TreeBuilder :=
  if paragraph.kind ≠ .tree then
    .error (.kindMismatch builder.size paragraph.kind)
  else
    match parent with
    | none => .ok (builder.add none (by simp) paragraph)
    | some node =>
        if isEarlier : node < builder.outline.size then
          if builder.outline.rightmostPath.contains node then
            .ok (builder.add (some node) (by simpa using isEarlier) paragraph)
          else
            .error (.notPreorder builder.size node)
        else
          .error (.invalidParent builder.size node)

/--
Push paragraphs in order.  A refused one is left out; the answers tell the index or the reason
for each.
-/
def pushAll
    (builder : TreeBuilder) :
    List (Option Nat × Paragraph) → TreeBuilder × List (Except PushRefusal Nat)
  | [] => (builder, [])
  | (parent, paragraph) :: rest =>
      match builder.push parent paragraph with
      | .ok next =>
          let (last, answers) := next.pushAll rest
          (last, .ok builder.size :: answers)
      | .error refusal =>
          let (last, answers) := builder.pushAll rest
          (last, .error refusal :: answers)

/-- The document of the paragraphs pushed. -/
def build (builder : TreeBuilder) : Document where
  paragraphs := builder.paragraphs
  images := .empty
  marks := []
  outline := some builder.outline
  outline_size := by
    intro tree isOutline
    obtain rfl := Option.some.inj isOutline
    exact builder.outline_size

end TreeBuilder

end Folio
