import Folio.Session.Basic

/-!
# Commands to the built paragraphs

The paragraphs in the slots are shown, changed, and read on from.
-/

namespace Folio.Session

/-- What is told about a built paragraph. -/
def paragraphFacts? (workspace : Workspace) (id : ParagraphId) : Option ParagraphFacts := do
  let paragraph ← workspace.paragraph? id
  let kind ← (workspace.document paragraph.key.document).kind? paragraph.key.index
  return {
    index := paragraph.key.index
    kind := kind
    language := paragraph.key.language
    length := paragraph.elements.length
    isFirst := workspace.isFirst id
    isLast := workspace.isLast id }

/--
Read on from a paragraph that is in hand, each paragraph taking the place of the one before it,
and list the indices.  At most as many paragraphs are read as `remaining` tells, besides the
first.
-/
def walk
    (step : Workspace → ParagraphId → Option ParagraphId × Workspace)
    (session : Session)
    (id : ParagraphId) :
    Nat → Session × List Nat
  | 0 => (session, ((session.workspace.paragraph? id).map (·.key.index)).toList)
  | remaining + 1 =>
      let index := ((session.workspace.paragraph? id).map (·.key.index)).toList
      match step session.workspace id with
      | (none, workspace) => ({ session with workspace }, index)
      | (some next, workspace) =>
          let (session, indices) :=
            walk step (sweepBut { session with workspace } [next]) next remaining
          (session, index ++ indices)

/-- Change the paragraph in a slot, and answer with the number of its elements. -/
def changeParagraph
    (session : Session)
    (slot : String)
    (change : Workspace → ParagraphId → Workspace) :
    Session × Reply :=
  session.withSlot slot fun id =>
    let workspace := change session.workspace id
    ({ session with workspace }, .count (workspace.length id))

/-- Carry out a command to the built paragraphs. -/
def runParagraph (session : Session) : ParagraphCommand → Session × Reply
  | .drop slot =>
      ({ session with slots := session.slots.erase slot }, .flag (session.slots.contains slot))
  | .describe slot =>
      session.withSlot slot fun id =>
        match paragraphFacts? session.workspace id with
        | some facts => (session, .paragraph facts)
        | none => (session, .nothing)
  | .elements slot =>
      session.withSlot slot fun id => (session, .elements (session.workspace.elements id))
  | .element slot index =>
      session.withSlot slot fun id =>
        match (session.workspace.elements id)[index]? with
        | some element => (session, .element element)
        | none => (session, .nothing)
  | .next slot target =>
      session.withSlot slot fun id =>
        let (found, workspace) := session.workspace.next id
        keepFound { session with workspace } target found
  | .previous slot target =>
      session.withSlot slot fun id =>
        let (found, workspace) := session.workspace.previous id
        keepFound { session with workspace } target found
  | .walk slot isBackward remaining =>
      session.withSlot slot fun id =>
        let step := if isBackward then Workspace.previous else Workspace.next
        let (session, indices) := session.walk step id remaining
        (session, .indices indices)
  | .same left right =>
      session.withSlot left fun leftId =>
        session.withSlot right fun rightId => (session, .flag (leftId == rightId))
  | .clear slot =>
      session.withSlot slot fun id =>
        ({ session with workspace := session.workspace.clear id }, .nothing)
  | .fill slot => session.changeParagraph slot Workspace.fill
  | .rebuild slot => session.changeParagraph slot Workspace.rebuild
  | .discard slot =>
      session.withSlot slot fun id =>
        ({ session with workspace := session.workspace.discard id }, .nothing)

end Folio.Session
