import Folio.Document.Mark
import Folio.Document.Search

/-!
# Commands of a session

What a reader asks for while documents are open.  Built paragraphs and word cursors are kept
under names; documents go by their numbers.  A language is given by its tag, and the absence
of a tag stands for the undetermined language.
-/

namespace Folio

namespace Session

/-- A paragraph of a document in a language. -/
structure Request where
  document : Nat
  index : Nat
  tag : Option String
  deriving DecidableEq, Repr

/-- Commands to the caches and the pool. -/
inductive CacheCommand where
  /-- Get the paragraph of a request and keep it in a slot. -/
  | cursor (slot : String) (request : Request)
  /-- Look a request up without building anything. -/
  | get (request : Request)
  | isEmpty
  | cleanup
  | clear
  | shrinkPool
  | config
  /-- Put the paragraph of a slot into the reader's own cache. -/
  | ownPut (slot : String) (request : Request)
  | ownGet (request : Request)
  | ownCleanup
  | ownClear
  deriving DecidableEq, Repr

/-- Commands to the built paragraphs in slots. -/
inductive ParagraphCommand where
  | drop (slot : String)
  | describe (slot : String)
  | elements (slot : String)
  | element (slot : String) (index : Nat)
  /-- Keep the next paragraph in a target slot. -/
  | next (slot target : String)
  /-- Keep the previous paragraph in a target slot. -/
  | previous (slot target : String)
  /-- Read on until there is nothing more to read, or `remaining` more paragraphs are read. -/
  | walk (slot : String) (isBackward : Bool) (remaining : Nat)
  | same (left right : String)
  | clear (slot : String)
  | fill (slot : String)
  | rebuild (slot : String)
  /-- Drop the elements without giving them back to the pool. -/
  | discard (slot : String)
  deriving DecidableEq, Repr

/-- Commands to a document. -/
inductive DocumentCommand where
  | describe
  | paragraph (index : Nat)
  /-- The kind of a paragraph that must exist. -/
  | paragraphKind (index : Nat)
  | image (id : String)
  | node (index : Nat)
  | isAncestorOf (ancestor index : Nat)
  | setOpen (index : Nat) (isOpen : Bool)
  | openTree (index : Nat)
  | setAllOpen (isOpen : Bool)
  | setMarks (marks : List Mark)
  | removeAllMarks
  | marks
  | search (pattern : String) (mode : CaseMode)
  | firstAndLastMark
  | nextMark (position : Mark)
  | previousMark (position : Mark)
  deriving DecidableEq, Repr

/-- Moves of a word cursor. -/
inductive Move where
  | stay
  | nextWord
  | previousWord
  | moveTo (element character : Nat)
  | setCharacter (character : Nat)
  | paragraphStart
  | paragraphEnd
  deriving DecidableEq, Repr

/-- Moves of a word cursor that may build a paragraph. -/
inductive Travel where
  | nextParagraph
  | previousParagraph
  | toParagraph (index : Nat)
  | rebuild
  deriving DecidableEq, Repr

/-- Commands to the word cursors. -/
inductive WordCommand where
  /-- A new cursor at the start of the paragraph in a slot. -/
  | new (name slot : String)
  | null (name : String)
  | clone (name copy : String)
  /-- Set a cursor to the start of the paragraph in a slot. -/
  | setParagraph (name slot : String)
  | move (name : String) (move : Move)
  | travel (name : String) (travel : Travel)
  | drop (name : String)
  | compare (left right : String)
  | sort
  /-- Keep the cursor's paragraph in a slot. -/
  | keep (name slot : String)
  deriving DecidableEq, Repr

end Session

/-- One step of a session. -/
inductive Session.Command where
  | cache (command : Session.CacheCommand)
  | paragraph (command : Session.ParagraphCommand)
  | document (number : Nat) (command : Session.DocumentCommand)
  /-- Whether two numbers mean the same document. -/
  | sameDocument (left right : Nat)
  /-- The offset after a mark. -/
  | markFinish (mark : Mark)
  | word (command : Session.WordCommand)
  deriving DecidableEq, Repr

end Folio
