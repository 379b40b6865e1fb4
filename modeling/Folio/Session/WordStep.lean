import Folio.Session.Basic

/-!
# Commands to the word cursors

The word cursors are made, moved and compared under their names.
-/

namespace Folio.Session

/-- What is told about a word cursor. -/
def cursorFacts (workspace : Workspace) (cursor : WordCursor) : CursorFacts where
  isNull := cursor.isNull
  paragraphIndex := cursor.paragraphIndex? workspace
  elementIndex := cursor.elementIndex
  characterIndex := cursor.characterIndex
  element := cursor.element? workspace
  isStartOfParagraph := cursor.isStartOfParagraph
  isEndOfParagraph := cursor.isEndOfParagraph workspace
  isStartOfText := cursor.isStartOfText workspace
  isEndOfText := cursor.isEndOfText workspace
  position := cursor.position workspace

/-- Give a name to a word cursor, and answer with what is told about it. -/
def setCursor (session : Session) (name : String) (cursor : WordCursor) : Session × Reply :=
  ({ session with wordCursors := session.wordCursors.insert name cursor },
    .cursor (cursorFacts session.workspace cursor))

/-- The cursor after a move. -/
def Move.apply (workspace : Workspace) (cursor : WordCursor) : Move → WordCursor
  | .stay => cursor
  | .nextWord => cursor.nextWord workspace
  | .previousWord => cursor.previousWord
  | .moveTo element character => cursor.moveTo workspace element character
  | .setCharacter character => cursor.setCharacter workspace character
  | .paragraphStart => cursor.toParagraphStart
  | .paragraphEnd => cursor.toParagraphEnd workspace

/-- The cursor after it has travelled, and whether it found where to go, where that is told. -/
def Travel.apply
    (workspace : Workspace)
    (cursor : WordCursor) :
    Travel → (WordCursor × Option Bool) × Workspace
  | .nextParagraph =>
      let ((cursor, found), workspace) := cursor.nextParagraph workspace
      ((cursor, some found), workspace)
  | .previousParagraph =>
      let ((cursor, found), workspace) := cursor.previousParagraph workspace
      ((cursor, some found), workspace)
  | .toParagraph index =>
      let (cursor, workspace) := cursor.moveToParagraph index workspace
      ((cursor, none), workspace)
  | .rebuild =>
      let (cursor, workspace) := cursor.rebuild workspace
      ((cursor, none), workspace)

/-- The names of the word cursors in the order of the cursors, and else of the names. -/
def sortedCursors (session : Session) : List String :=
  let byName := session.wordCursors.entries.mergeSort fun left right => left.1 ≤ right.1
  let byCursor := byName.mergeSort fun left right =>
    WordCursor.order session.workspace left.2 right.2 != .gt
  byCursor.map Prod.fst

/-- Carry out a command to the word cursors. -/
def runWord (session : Session) : WordCommand → Session × Reply
  | .new name slot =>
      session.withSlot slot fun id => session.setCursor name (.start id)
  | .null name => session.setCursor name .null
  | .clone name copy =>
      session.withCursor name fun cursor => session.setCursor copy cursor
  | .setParagraph name slot =>
      session.withCursor name fun _ =>
        session.withSlot slot fun id => session.setCursor name (.start id)
  | .move name move =>
      session.withCursor name fun cursor =>
        session.setCursor name (move.apply session.workspace cursor)
  | .travel name travel =>
      session.withCursor name fun cursor =>
        let ((cursor, found), workspace) := travel.apply session.workspace cursor
        ({ session with workspace, wordCursors := session.wordCursors.insert name cursor },
          .travelled (cursorFacts workspace cursor) found)
  | .drop name =>
      ({ session with wordCursors := session.wordCursors.erase name },
        .flag (session.wordCursors.contains name))
  | .compare left right =>
      session.withCursor left fun leftCursor =>
        session.withCursor right fun rightCursor =>
          (session, .order (WordCursor.order session.workspace leftCursor rightCursor))
  | .sort => (session, .names session.sortedCursors)
  | .keep name slot =>
      session.withCursor name fun cursor => session.keepFound slot cursor.paragraph?

end Folio.Session
