import Folio.Session.Workspace

/-!
# Word cursors

A word cursor is a place inside a built paragraph: an element, or the end after the last
one, and in a word also a character.  Cursors are ordered by paragraph, element and
character, and the null cursor, which is in no paragraph, comes before all others.

Several cursors may be in one paragraph, and the paragraph may be changed under them.  A
cursor is put right only when it is moved.
-/

namespace Folio

/-- A place in a built paragraph, or none. -/
inductive WordCursor where
  | null
  | within (paragraph : ParagraphId) (element character : Nat)
  deriving DecidableEq, Repr, Inhabited

namespace WordCursor

/-- The start of a paragraph. -/
def start (id : ParagraphId) : WordCursor :=
  .within id 0 0

/-- The paragraph that the cursor is in, which it keeps alive. -/
def paragraph? : WordCursor → Option ParagraphId
  | null => none
  | within id _ _ => some id

/-- Whether the cursor is in no paragraph. -/
def isNull (cursor : WordCursor) : Bool :=
  cursor.paragraph?.isNone

/-- The index of the element that the cursor is on. -/
def elementIndex : WordCursor → Nat
  | null => 0
  | within _ element _ => element

/-- The index of the character in the word that the cursor is on. -/
def characterIndex : WordCursor → Nat
  | null => 0
  | within _ _ character => character

/-- The element that the cursor is on; at the end of the paragraph there is none. -/
def element? (workspace : Workspace) : WordCursor → Option Element
  | null => none
  | within id element _ => (workspace.elements id)[element]?

/-! ## Where the cursor is -/

/-- Whether the cursor is at the start of its paragraph. -/
def isStartOfParagraph (cursor : WordCursor) : Bool :=
  cursor.elementIndex == 0 && cursor.characterIndex == 0

/-- Whether the cursor is after the last element of its paragraph. -/
def isEndOfParagraph (workspace : Workspace) : WordCursor → Bool
  | null => false
  | within id element _ => element == workspace.length id

/-- Whether the cursor is where reading starts. -/
def isStartOfText (workspace : Workspace) (cursor : WordCursor) : Bool :=
  cursor.isStartOfParagraph && (cursor.paragraph?.map workspace.isFirst).getD false

/-- Whether the cursor is where reading ends. -/
def isEndOfText (workspace : Workspace) (cursor : WordCursor) : Bool :=
  cursor.isEndOfParagraph workspace && (cursor.paragraph?.map workspace.isLast).getD false

/-- The index of the cursor's paragraph in its document. -/
def paragraphIndex? (workspace : Workspace) (cursor : WordCursor) : Option Nat :=
  (cursor.paragraph?.bind workspace.paragraph?).map fun paragraph => paragraph.key.index

/-- The first word from an element on. -/
def firstWord? (elements : List Element) (element : Nat) : Option Word :=
  (elements.drop element).findSome? Element.word?

/--
A place to come back to: the start of the first word at or after the cursor, or else the start
of the paragraph with the next index.
-/
def position (workspace : Workspace) (cursor : WordCursor) : Mark :=
  match cursor.paragraph?.bind workspace.paragraph? with
  | none => ⟨0, 0, 0⟩
  | some paragraph =>
      match firstWord? paragraph.elements cursor.elementIndex with
      | some word => ⟨paragraph.key.index, word.offset, 0⟩
      | none => ⟨paragraph.key.index + 1, 0, 0⟩

/-! ## Order -/

/-- What cursors are ordered by. -/
def orderKey (workspace : Workspace) (cursor : WordCursor) : Option (Nat × Nat × Nat) :=
  (cursor.paragraphIndex? workspace).map fun index =>
    (index, cursor.elementIndex, cursor.characterIndex)

/-- The order of the keys of cursors that are in paragraphs. -/
def compareKeys (left right : Nat × Nat × Nat) : Ordering :=
  (compare left.1 right.1).then
    ((compare left.2.1 right.2.1).then (compare left.2.2 right.2.2))

/-- The order of two cursors. -/
def order (workspace : Workspace) (left right : WordCursor) : Ordering :=
  match left.orderKey workspace, right.orderKey workspace with
  | none, none => .eq
  | none, some _ => .lt
  | some _, none => .gt
  | some left, some right => compareKeys left right

/-! ## Moves inside a paragraph -/

/-- Move to the start of the next element, but not past the end of the paragraph. -/
def nextWord (workspace : Workspace) : WordCursor → WordCursor
  | null => null
  | within id element _ =>
      if element = workspace.length id then
        within id element 0
      else
        within id (element + 1) 0

/-- Move to the start of the previous element, but not past the start of the paragraph. -/
def previousWord : WordCursor → WordCursor
  | null => null
  | within id element _ => within id (element - 1) 0

/-- The character index that an element admits: one past its length at most, and only in a
word. -/
def fitCharacter (element? : Option Element) (character : Nat) : Nat :=
  match element?.bind Element.word? with
  | some word => if character ≤ word.length then character else 0
  | none => 0

/-- Move to a character of the word that the cursor is on. -/
def setCharacter (workspace : Workspace) (character : Nat) : WordCursor → WordCursor
  | null => null
  | within id element _ =>
      within id element (fitCharacter (workspace.elements id)[element]? character)

/-- Move to an element and a character in it; an element past the end means the end. -/
def moveTo (workspace : Workspace) (element character : Nat) : WordCursor → WordCursor
  | null => null
  | within id _ _ =>
      if workspace.length id < element then
        within id (workspace.length id) 0
      else
        setCharacter workspace character (within id element 0)

/-- Move to the first element of the paragraph. -/
def toParagraphStart : WordCursor → WordCursor
  | null => null
  | within id _ _ => within id 0 0

/-- Move past the last element of the paragraph. -/
def toParagraphEnd (workspace : Workspace) : WordCursor → WordCursor
  | null => null
  | within id _ _ => within id (workspace.length id) 0

/-! ## Moves to other paragraphs -/

/-- Go to the start of the paragraph that a step leads to, and tell whether there was one. -/
def follow
    (step : Workspace → ParagraphId → Option ParagraphId × Workspace)
    (workspace : Workspace)
    (cursor : WordCursor) :
    (WordCursor × Bool) × Workspace :=
  match cursor.paragraph? with
  | none => ((cursor, false), workspace)
  | some id =>
      match step workspace id with
      | (some found, workspace) => ((start found, true), workspace)
      | (none, workspace) => ((cursor, false), workspace)

/-- Move to the start of the next paragraph; at the end of the text stay where it is. -/
def nextParagraph : Workspace → WordCursor → (WordCursor × Bool) × Workspace :=
  follow Workspace.next

/-- Move to the start of the previous paragraph; at the start of the text stay where it is. -/
def previousParagraph : Workspace → WordCursor → (WordCursor × Bool) × Workspace :=
  follow Workspace.previous

/-- Move to the start of the paragraph of an index, unless it is the cursor's own index. -/
def moveToParagraph
    (index : Nat)
    (workspace : Workspace)
    (cursor : WordCursor) :
    WordCursor × Workspace :=
  match cursor.paragraph?.bind workspace.paragraph? with
  | none => (cursor, workspace)
  | some paragraph =>
      if paragraph.key.index = index then
        (cursor, workspace)
      else
        match workspace.cursor paragraph.key.document paragraph.key.language index with
        | (some found, workspace) => (start found, workspace)
        | (none, workspace) => (cursor, workspace)

/-- Build the cursor's paragraph anew and come back to the same place as far as it is there. -/
def rebuild (workspace : Workspace) (cursor : WordCursor) : WordCursor × Workspace :=
  match cursor.paragraph? with
  | none => (cursor, workspace)
  | some id =>
      let workspace := workspace.rebuild id
      (cursor.moveTo workspace cursor.elementIndex cursor.characterIndex, workspace)

end WordCursor

end Folio
