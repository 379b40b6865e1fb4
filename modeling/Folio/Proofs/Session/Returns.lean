import Folio.Proofs.Session.Confinement
import Folio.Proofs.Session.Legality

/-!
# Going to a paragraph and going there again

A word cursor goes to the start of the paragraph of an index, and stays where it is if that is
the index of its own paragraph.  While it is moved about in the paragraph, whatever else is done,
the paragraph keeps its identity and its key, so to go there again leaves the cursor where it is.

An index past the end of a document means the last paragraph, but it is not the index of that
paragraph.  A cursor that goes there again starts the last paragraph over.
-/

namespace Folio

namespace Workspace

section

variable {workspace : Workspace}

/-- An index past the end is answered like the last index. -/
theorem cursor_requested
    {document : Nat}
    (nonempty : (workspace.document document).size ≠ 0)
    (language : Language)
    (index : Nat) :
    workspace.cursor document language (workspace.requested document language index).index =
      workspace.cursor document language index := by
  rw [cursor_of_nonempty nonempty, cursor_of_nonempty nonempty]
  simp only [requested, Nat.min_assoc, Nat.min_self]

/-- Whoever asks for a paragraph of a document that has any finds the one that is meant. -/
theorem RemembersKeys.exists_of_request
    (remembers : workspace.RemembersKeys)
    {document : Nat}
    (nonempty : (workspace.document document).size ≠ 0)
    (language : Language)
    (index : Nat) :
    ∃ found later,
      workspace.cursor document language index = (some found, later) ∧
        later.HasKey found (workspace.requested document language index) := by
  have inRange :
      (workspace.requested document language index).index < (workspace.document document).size :=
    Nat.lt_of_le_of_lt (Nat.min_le_right ..) (by omega)
  obtain ⟨found, later, paragraph, isAnswer, -, isFound, isKey⟩ :=
    remembers.exists_of_cursor language inRange
  exact ⟨found, later, (cursor_requested nonempty language index).symm.trans isAnswer,
    paragraph, isFound, isKey⟩

end

end Workspace

/-! ## One journey -/

namespace WordCursor

variable
    {workspace : Workspace}
    {cursor : WordCursor}
    {id : ParagraphId}
    {key : ParagraphKey}
    (isWithin : cursor.paragraph? = some id)
    (hasKey : workspace.HasKey id key)

include isWithin hasKey

/-- A cursor stays where it is when it goes to the index of its own paragraph. -/
theorem moveToParagraph_own : cursor.moveToParagraph key.index workspace = (cursor, workspace) := by
  obtain ⟨paragraph, found, rfl⟩ := hasKey
  simp only [moveToParagraph, isWithin, Option.bind_some, found, if_true]

/-- A cursor that goes to another index goes to the start of the paragraph that answers it. -/
theorem moveToParagraph_other
    {index : Nat}
    (isOther : key.index ≠ index)
    {found : ParagraphId}
    {later : Workspace}
    (isAnswer : workspace.cursor key.document key.language index = (some found, later)) :
    cursor.moveToParagraph index workspace = (.start found, later) := by
  obtain ⟨paragraph, isParagraph, rfl⟩ := hasKey
  simp only [moveToParagraph, isWithin, Option.bind_some, isParagraph, if_neg isOther, isAnswer]

end WordCursor

namespace Session

open Workspace

/-- Whether a command moves the word cursor of a name inside its paragraph. -/
def Command.movesWithin : Command → String → Prop
  | .word (.move name _), other => other = name
  | .word (.travel name .rebuild), other => other = name
  | _, _ => False

/-- The word cursor of a name is in a paragraph that was built for a key. -/
structure IsAt (session : Session) (name : String) (id : ParagraphId) (key : ParagraphKey) :
    Prop where
  holdsAlive : session.HoldsAlive
  remembers : session.workspace.RemembersKeys
  exists_cursor :
    ∃ cursor, session.wordCursors.get? name = some cursor ∧ cursor.paragraph? = some id
  hasKey : session.workspace.HasKey id key

section

variable
    {session : Session}
    {name : String}
    {id : ParagraphId}
    {key : ParagraphKey}

theorem exists_perform_of_movesWithin
    {cursor : WordCursor}
    (found : session.wordCursors.get? name = some cursor)
    {command : Command}
    (movesWithin : command.movesWithin name) :
    ∃ moved, (session.perform command).1.wordCursors.get? name = some moved ∧
      moved.paragraph? = cursor.paragraph? := by
  cases command with
  | word command =>
      cases command with
      | move other move =>
          obtain rfl : name = other := movesWithin
          refine ⟨move.apply session.workspace cursor, ?_, paragraph?_move ..⟩
          simp only [perform, runWord, withCursor, found, setCursor, Table.get?_insert, if_true]
      | travel other travel =>
          cases travel with
          | rebuild =>
              obtain rfl : name = other := movesWithin
              refine ⟨(cursor.rebuild session.workspace).1, ?_, ?_⟩
              · simp only [perform, runWord, withCursor, found, Travel.apply, Table.get?_insert,
                  if_true]
              · cases cursor with
                | null => rfl
                | within id element character =>
                    exact paragraph?_moveTo (session.workspace.rebuild id) element character
                      (.within id element character)
          | _ => exact absurd movesWithin not_false
      | _ => exact absurd movesWithin not_false
  | _ => exact absurd movesWithin not_false

/-- What is held is alive and keeps its key, so a cursor is where a command has put it. -/
theorem IsAt.performed
    {later : Session}
    {mayClear : Prop}
    (isAt : session.IsAt name id key)
    (performs : Performs mayClear session later)
    {cursor : WordCursor}
    (found : later.wordCursors.get? name = some cursor)
    (isWithin : cursor.paragraph? = some id) :
    later.IsAt name id key := by
  have holdsAlive := performs.holdsAlive isAt.holdsAlive
  have isAlive := holdsAlive.wordCursors name cursor id found isWithin
  obtain ⟨operations, -, isAfter⟩ := performs.runsTo
  refine ⟨holdsAlive, ?_, ⟨cursor, found, isWithin⟩, ?_⟩
  · rw [isAfter]
    exact isAt.remembers.after operations
  · rw [isAfter] at isAlive ⊢
    exact isAt.hasKey.after isAt.remembers isAlive

theorem IsAt.sweep (isAt : session.IsAt name id key) : session.sweep.IsAt name id key := by
  obtain ⟨cursor, found, isWithin⟩ := isAt.exists_cursor
  have sweeps : Performs False session session.sweep := .sweepBut []
  exact isAt.performed sweeps found isWithin

/-- A cursor stays in its paragraph as long as it is only moved there. -/
theorem IsAt.step
    (isAt : session.IsAt name id key)
    {command : Command}
    (staysWithin : command.places name → command.movesWithin name) :
    (session.step command).1.IsAt name id key := by
  obtain ⟨cursor, found, isWithin⟩ := isAt.exists_cursor
  have performs := performs_perform session command
  by_cases isPlaced : command.places name
  · obtain ⟨moved, isMoved, sameParagraph⟩ :=
      exists_perform_of_movesWithin found (staysWithin isPlaced)
    exact (isAt.performed performs isMoved (sameParagraph.trans isWithin)).sweep
  · have stays := (get?_wordCursors_perform isPlaced).trans found
    exact (isAt.performed performs stays isWithin).sweep

theorem IsAt.after
    (isAt : session.IsAt name id key)
    {commands : List Command}
    (stayWithin : ∀ command ∈ commands, command.places name → command.movesWithin name) :
    (session.after commands).IsAt name id key := by
  induction commands generalizing session with
  | nil => exact isAt
  | cons command rest ofRest =>
      exact ofRest (isAt.step (stayWithin command List.mem_cons_self)) fun other member =>
        stayWithin other (List.mem_cons_of_mem command member)

/-! ## Journeys in a session -/

/-- A cursor that goes to the index of its own paragraph stays where it is. -/
theorem IsAt.goTo_own
    (isAt : session.IsAt name id key) :
    (session.step (.word (.travel name (.toParagraph key.index)))).1.wordCursors.get? name =
      session.wordCursors.get? name := by
  obtain ⟨cursor, found, isWithin⟩ := isAt.exists_cursor
  have stays := WordCursor.moveToParagraph_own isWithin isAt.hasKey
  change
    (session.perform (.word (.travel name (.toParagraph key.index)))).1.wordCursors.get? name = _
  simp only [perform, runWord, withCursor, found, Travel.apply, stays, Table.get?_insert, if_true]

theorem IsAt.size_ne_zero (isAt : session.IsAt name id key) :
    (session.workspace.document key.document).size ≠ 0 := by
  obtain ⟨paragraph, found, rfl⟩ := isAt.hasKey
  exact Nat.ne_of_gt (Nat.zero_lt_of_lt (isAt.remembers.keysInRange id paragraph found))

/-- A cursor that goes to another index comes to the start of the paragraph that is meant. -/
theorem IsAt.goTo_other
    (isAt : session.IsAt name id key)
    {index : Nat}
    (isOther : key.index ≠ index) :
    let later := (session.step (.word (.travel name (.toParagraph index)))).1
    ∃ found,
      (session.workspace.cursor key.document key.language index).1 = some found ∧
        later.wordCursors.get? name = some (.start found) ∧
        later.IsAt name found
          (session.workspace.requested key.document key.language index) := by
  intro later
  obtain ⟨cursor, isCursor, isWithin⟩ := isAt.exists_cursor
  obtain ⟨found, workspace, isAnswer, hasKey⟩ :=
    isAt.remembers.exists_of_request isAt.size_ne_zero key.language index
  have goes := WordCursor.moveToParagraph_other isWithin isAt.hasKey isOther isAnswer
  let goTo : Command := .word (.travel name (.toParagraph index))
  have performed :
      (session.perform goTo).1 =
        { session with
          workspace
          wordCursors := session.wordCursors.insert name (.start found) } := by
    simp only [goTo, perform, runWord, withCursor, isCursor, Travel.apply, goes]
  have isThere : (session.perform goTo).1.wordCursors.get? name = some (.start found) := by
    rw [performed, Table.get?_insert, if_pos rfl]
  have performs := performs_perform session goTo
  obtain ⟨operations, -, isAfter⟩ := performs.runsTo
  have isAtFound :
      (session.perform goTo).1.IsAt name found
        (session.workspace.requested key.document key.language index) := by
    refine ⟨performs.holdsAlive isAt.holdsAlive, ?_, ⟨_, isThere, rfl⟩, ?_⟩
    · rw [isAfter]
      exact isAt.remembers.after operations
    · rw [performed]
      exact hasKey
  exact ⟨found, congrArg Prod.fst isAnswer, isThere, isAtFound.sweep⟩

/-- After it has gone to an index, a cursor is in the paragraph that is meant. -/
theorem IsAt.exists_goTo
    (isAt : session.IsAt name id key)
    (index : Nat) :
    ∃ found,
      (session.step (.word (.travel name (.toParagraph index)))).1.IsAt name found
        (session.workspace.requested key.document key.language index) := by
  by_cases isOwn : key.index = index
  · subst isOwn
    obtain ⟨cursor, found, isWithin⟩ := isAt.exists_cursor
    obtain ⟨paragraph, isAlive, rfl⟩ := isAt.hasKey
    have inRange := isAt.remembers.keysInRange id paragraph isAlive
    rw [requested_of_lt inRange]
    have stays := isAt.goTo_own.trans found
    exact ⟨id, isAt.performed (performs_step session _) stays isWithin⟩
  · obtain ⟨found, -, -, isAtFound⟩ := isAt.goTo_other isOwn
    exact ⟨found, isAtFound⟩

end

/-! ## Runs -/

/-- In a run, a cursor that is in a paragraph is in one that is alive. -/
theorem exists_isAt_after
    (rules : Language → WordBreak → TextRules)
    (config : Config)
    (documents : List Document)
    (commands : List Command)
    {name : String}
    {cursor : WordCursor}
    (found :
      ((ofWorkspace (createWith rules config documents)).after commands).wordCursors.get? name =
        some cursor)
    (notNull : cursor.isNull = false) :
    ∃ id key,
      ((ofWorkspace (createWith rules config documents)).after commands).IsAt name id key := by
  have performs := performs_after (ofWorkspace (createWith rules config documents)) commands
  have holdsAlive := performs.holdsAlive (holdsAlive_ofWorkspace rfl)
  obtain ⟨operations, -, isAfter⟩ := performs.runsTo
  cases cursor with
  | null => exact absurd notNull (by decide)
  | within id element character =>
      have isAlive := holdsAlive.wordCursors name _ id found rfl
      obtain ⟨paragraph, isFound⟩ := isAlive_iff.1 isAlive
      refine ⟨id, paragraph.key, holdsAlive, ?_, ⟨_, found, rfl⟩, ⟨paragraph, isFound, rfl⟩⟩
      rw [isAfter]
      exact (remembersKeys_createWith rules config documents).after operations

/--
A word cursor goes to an index and is moved about there, while anything else is done.  It is then
in the paragraph that is meant by the index.  If it goes there again, it stays where it is if the
document has a paragraph of that index, and otherwise it comes to the start of the paragraph that
the index past the end is answered with.
-/
theorem returning_keeps_place_within_range
    (rules : Language → WordBreak → TextRules)
    (config : Config)
    (documents : List Document)
    (commands more : List Command)
    (name : String)
    (cursor : WordCursor)
    (index : Nat) :
    let goTo : Command := .word (.travel name (.toParagraph index))
    let before := (ofWorkspace (createWith rules config documents)).after commands
    let there := before.after (goTo :: more)
    let again := (there.step goTo).1
    before.wordCursors.get? name = some cursor ∧ cursor.isNull = false ∧
        (∀ command ∈ more, command.places name → command.movesWithin name) →
      ∃ key id element character,
        let size := (before.workspace.document key.document).size
        (∃ own, cursor.paragraph? = some own ∧ before.workspace.HasKey own key) ∧
          there.wordCursors.get? name = some (.within id element character) ∧
          there.workspace.HasKey id
            (before.workspace.requested key.document key.language index) ∧
          (index < size →
            again.wordCursors.get? name = some (.within id element character)) ∧
          (size ≤ index →
            ∃ found,
              (there.workspace.cursor key.document key.language index).1 = some found ∧
                again.wordCursors.get? name = some (.start found)) := by
  rintro goTo before there again ⟨isCursor, notNull, stayWithin⟩
  obtain ⟨own, key, isAt⟩ := exists_isAt_after rules config documents commands isCursor notNull
  obtain ⟨id, isAtIndex⟩ := isAt.exists_goTo index
  have isThere : there.IsAt name id _ := isAtIndex.after stayWithin
  obtain ⟨ownCursor, isOwn, isWithin⟩ := isAt.exists_cursor
  obtain rfl : ownCursor = cursor := Option.some.inj (isOwn.symm.trans isCursor)
  have nonempty : (before.workspace.document key.document).size ≠ 0 := isAt.size_ne_zero
  obtain ⟨last, isLast, lastWithin⟩ := isThere.exists_cursor
  cases last with
  | null => exact absurd lastWithin (by simp [WordCursor.paragraph?])
  | within other element character =>
      obtain rfl : other = id := Option.some.inj lastWithin
      refine ⟨key, other, element, character, ⟨own, isWithin, isAt.hasKey⟩, isLast,
        isThere.hasKey, fun inRange => ?_, fun pastEnd => ?_⟩
      · rw [requested_of_lt inRange] at isThere
        exact isThere.goTo_own.trans isLast
      · have isPast : (before.workspace.document key.document).size ≤ index := pastEnd
        have notIndex :
            (before.workspace.requested key.document key.language index).index ≠ index :=
          Nat.ne_of_lt (Nat.lt_of_le_of_lt (Nat.min_le_right ..) (by omega))
        obtain ⟨found, isAnswer, atStart, -⟩ := isThere.goTo_other notIndex
        exact ⟨found, isAnswer, atStart⟩

/-- A cursor is moved on in the second paragraph, and comes back to where it was. -/
theorem returning_keeps_place_in_second_paragraph :
    let documents : List Document :=
      [.plain [⟨.text, [.text "a"]⟩, ⟨.text, [.text "b", .fixedSpace 1, .text "c"]⟩]]
    let commands : List Command :=
      [.cache (.cursor "page" ⟨0, 0, none⟩), .word (.new "place" "page")]
    let more : List Command :=
      [.word (.move "place" (.moveTo 2 1)), .document 0 (.setMarks [⟨1, 0, 1⟩]),
        .word (.travel "place" .rebuild)]
    let goTo : Command := .word (.travel "place" (.toParagraph 1))
    let before :=
      (ofWorkspace (createWith (fun _ option => .standard option) default documents)).after
        commands
    let there := before.after (goTo :: more)
    (before.wordCursors.get? "place" = some (.within 0 0 0) ∧
        (WordCursor.within 0 0 0).isNull = false ∧
        ∀ command ∈ more, command.places "place" → command.movesWithin "place") ∧
      there.wordCursors.get? "place" = some (.within 1 2 1) ∧
      (there.step goTo).1.wordCursors.get? "place" = some (.within 1 2 1) := by
  intro documents commands more goTo before there
  have isMoved :
      before.wordCursors.get? "place" = some (.within 0 0 0) ∧
        (WordCursor.within 0 0 0).isNull = false ∧
        ∀ command ∈ more, command.places "place" → command.movesWithin "place" := by
    refine ⟨by decide +kernel, rfl, ?_⟩
    simp [more, Command.places, Command.movesWithin]
  have isThere : there.wordCursors.get? "place" = some (.within 1 2 1) := by decide +kernel
  obtain ⟨key, id, element, character, ⟨own, isOwn, paragraph, found, rfl⟩, isPlace, -,
      comesBack, -⟩ :=
    returning_keeps_place_within_range (fun _ option => .standard option) default documents
      commands more "place" (.within 0 0 0) 1 isMoved
  obtain rfl : 0 = own := Option.some.inj isOwn
  have isDocument : paragraph.key.document = 0 := by
    have isKey : (before.workspace.paragraph? 0).map (·.key.document) = some 0 := by
      decide +kernel
    rw [found] at isKey
    exact Option.some.inj isKey
  have inRange : 1 < (before.workspace.document paragraph.key.document).size := by
    rw [isDocument]
    decide +kernel
  have samePlace := isPlace.symm.trans isThere
  have returned := comesBack inRange
  rw [samePlace] at returned
  refine ⟨isMoved, isThere, ?_⟩
  simp only [there, before, goTo]
  exact returned

/--
A cursor at the end of the only paragraph goes to the index past it, which is the one that its
position names and which is answered with this paragraph, and is at its start again.
-/
theorem returning_past_end_loses_place :
    let documents : List Document := [.plain [⟨.text, [.text "a", .fixedSpace 1]⟩]]
    let commands : List Command :=
      [.cache (.cursor "page" ⟨0, 0, none⟩), .word (.new "place" "page")]
    let goTo : Command := .word (.travel "place" (.toParagraph 1))
    let before :=
      (ofWorkspace (createWith (fun _ option => .standard option) default documents)).after
        commands
    let there := before.after [goTo, .word (.move "place" .paragraphEnd)]
    there.wordCursors.get? "place" = some (.within 0 2 0) ∧
      ((WordCursor.within 0 2 0).position there.workspace).paragraph = 1 ∧
      (there.workspace.cursor 0 .undetermined 1).1 = some 0 ∧
      (there.step goTo).1.wordCursors.get? "place" = some (.within 0 0 0) ∧
      (there.step goTo).1.wordCursors.get? "place" ≠ there.wordCursors.get? "place" := by
  intro documents commands goTo before there
  refine ⟨?_, ?_, ?_, ?_, ?_⟩ <;> decide +kernel

end Session

end Folio
