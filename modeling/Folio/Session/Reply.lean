import Folio.Element.Pool
import Folio.Language
import Folio.Session.WordCursor

/-!
# Replies of a session

The answers to the commands of a session, one constructor for each kind of answer.
-/

namespace Folio.Session

/-- What is told about a built paragraph. -/
structure ParagraphFacts where
  index : Nat
  kind : ParagraphKind
  language : Language
  length : Nat
  isFirst : Bool
  isLast : Bool
  deriving DecidableEq, Repr

/-- What is told about a paragraph of a document. -/
structure SourceFacts where
  kind : ParagraphKind
  entryCount : Nat
  textSize : Nat
  text : String
  deriving DecidableEq, Repr

/-- What is told about a node of an outline. -/
structure NodeFacts where
  parent : Option Nat
  children : List Nat
  nextSibling : Option Nat
  isLastChild : Bool
  depth : Nat
  isOpen : Bool
  deriving DecidableEq, Repr

/-- What is told about a word cursor. -/
structure CursorFacts where
  isNull : Bool
  paragraphIndex : Option Nat
  elementIndex : Nat
  characterIndex : Nat
  element : Option Element
  isStartOfParagraph : Bool
  isEndOfParagraph : Bool
  isStartOfText : Bool
  isEndOfText : Bool
  position : Mark
  deriving DecidableEq, Repr

/-- The answer to a command. -/
inductive Reply where
  | nothing
  /-- A paragraph with its index, and the slots that already hold it. -/
  | found (index : Nat) (slots : List String)
  | flag (value : Bool)
  | count (value : Nat)
  | config (config : Config)
  /-- The entries dropped from a cache, those left, and whether none is left. -/
  | cleaned (dropped size : Nat) (isEmpty : Bool)
  | cleared (size : Nat) (isEmpty : Bool)
  | paragraph (facts : ParagraphFacts)
  | elements (elements : List Element)
  | element (element : Element)
  | indices (indices : List Nat)
  | document (isTree : Bool) (size : Nat) (isEmpty : Bool)
  | source (facts : SourceFacts)
  | kind (kind : ParagraphKind)
  | image (image : ImageData)
  | node (facts : NodeFacts)
  | marks (marks : List Mark)
  | hits (marks : List Mark)
  | markPair (first last : Option Mark)
  | mark (mark : Mark)
  | offset (value : Nat)
  | cursor (facts : CursorFacts)
  /-- A cursor after it has travelled, and whether it found where to go. -/
  | travelled (facts : CursorFacts) (found : Option Bool)
  | order (order : Ordering)
  | names (names : List String)
  /-- A slot or word cursor of the given name does not exist. -/
  | noSlot
  | badTag (error : Language.TagError)
  /-- An index at which there must be a paragraph is out of range. -/
  | outOfRange
  deriving Repr

/-- Whether the session ends with this answer. -/
def Reply.isFatal : Reply → Bool
  | outOfRange => true
  | _ => false

/-- An optional answer, where its absence is answered by nothing. -/
def Reply.ofOption {α : Type} (reply : α → Reply) : Option α → Reply
  | some value => reply value
  | none => .nothing

end Folio.Session
