import Folio.Session.Command
import Folio.Session.Reply

/-!
# Sessions

A session is a workspace together with everybody who holds its paragraphs: the named slots,
the named word cursors, and the last paragraph added to each of two caches, that of the
workspace and one of the reader's own.  After every step the paragraphs that nobody holds any
more are swept away.
-/

namespace Folio

/-- A workspace and the holders of its paragraphs. -/
structure Session where
  workspace : Workspace
  slots : Table String ParagraphId
  wordCursors : Table String WordCursor
  ownCache : Cache

namespace Session

/-- Nobody holds anything yet. -/
def ofWorkspace (workspace : Workspace) : Session where
  workspace := workspace
  slots := .empty
  wordCursors := .empty
  ownCache := .empty

/-- A session in which nothing has been done. -/
def start (config : Config) (documents : List Document) : Session :=
  ofWorkspace (.create config documents)

/-! ## Holders -/

/-- Whether a slot, a word cursor or a cache holds a paragraph. -/
def holds (session : Session) (id : ParagraphId) : Bool :=
  session.slots.entries.any (fun entry => entry.2 == id) ||
    session.wordCursors.entries.any (fun entry => entry.2.paragraph? == some id) ||
    session.workspace.cache.holds id || session.ownCache.holds id

/-- Remove the paragraphs that nobody holds, where `inHand` are held besides. -/
def sweepBut (session : Session) (inHand : List ParagraphId) : Session :=
  { session with
    workspace := session.workspace.sweep fun id => session.holds id || inHand.contains id }

/-- Remove the paragraphs that nobody holds. -/
def sweep (session : Session) : Session :=
  session.sweepBut []

/-- Names in increasing order. -/
def sortNames (names : List String) : List String :=
  names.mergeSort fun left right => left ≤ right

/-- The slots that hold a paragraph, in the order of their names. -/
def slotsOf (session : Session) (id : ParagraphId) : List String :=
  sortNames ((session.slots.filter fun _ held => held == id).keys)

/-! ## Answers -/

/-- The answer that shows a paragraph. -/
def foundReply (session : Session) (id : ParagraphId) : Reply :=
  match session.workspace.paragraph? id with
  | some paragraph => .found paragraph.key.index (session.slotsOf id)
  | none => .nothing

/-- The answer that shows a paragraph, if there is one. -/
def foundReply? (session : Session) : Option ParagraphId → Reply
  | some id => session.foundReply id
  | none => .nothing

/-- Answer with a paragraph that was found and then keep it in a slot. -/
def keepFound (session : Session) (slot : String) : Option ParagraphId → Session × Reply
  | some id =>
      ({ session with slots := session.slots.insert slot id }, session.foundReply id)
  | none => (session, .nothing)

/-! ## What a command names -/

/-- Go on with the paragraph in a slot. -/
def withSlot
    (session : Session)
    (slot : String)
    (proceed : ParagraphId → Session × Reply) :
    Session × Reply :=
  match session.slots.get? slot with
  | some id => proceed id
  | none => (session, .noSlot)

/-- Go on with a word cursor. -/
def withCursor
    (session : Session)
    (name : String)
    (proceed : WordCursor → Session × Reply) :
    Session × Reply :=
  match session.wordCursors.get? name with
  | some cursor => proceed cursor
  | none => (session, .noSlot)

end Session

end Folio
