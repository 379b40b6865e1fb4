import Folio.Proofs.Composition.Segmentation
import Folio.Proofs.Session.Positions

/-!
# Legal word cursors

As long as nobody clears, fills or discards a paragraph by hand, every paragraph holds the
elements of one fill, so that all word cursors in it fit whoever moves, builds anew or marks in
between.  A cursor that fits is at an element of its paragraph or at the end of it, and past the
first character only in a word that has as many.  And a cursor that is in a paragraph stays in
some paragraph for as long as it is the same cursor.
-/

namespace Folio

/-! ## Legal places -/

/-- A cursor is at a place of a paragraph that is alive, or, if it is null, at none. -/
structure WordCursor.IsLegal (workspace : Workspace) (cursor : WordCursor) : Prop where
  of_null :
    cursor.isNull = true → cursor.elementIndex = 0 ∧ cursor.characterIndex = 0
  of_within :
    ∀ id,
      cursor.paragraph? = some id →
        ∃ paragraph,
          workspace.paragraph? id = some paragraph ∧
            cursor.elementIndex ≤ paragraph.elements.length ∧
            (cursor.characterIndex = 0 ∨
              ∃ word,
                paragraph.elements[cursor.elementIndex]? = some (.word word) ∧
                  cursor.characterIndex ≤ word.length)

namespace WordCursor

/-- An index that an element admits is 0, or is within a word. -/
theorem eq_zero_or_exists_of_fitCharacter
    {element? : Option Element}
    {character : Nat}
    (fits : fitCharacter element? character = character) :
    character = 0 ∨ ∃ word, element? = some (.word word) ∧ character ≤ word.length := by
  cases isWord : element?.bind Element.word? with
  | none =>
      rw [fitCharacter, isWord] at fits
      exact Or.inl fits.symm
  | some word =>
      obtain ⟨element, found, isWordOf⟩ := Option.bind_eq_some_iff.1 isWord
      rw [Element.word?_eq_some_iff] at isWordOf
      subst isWordOf
      rw [fitCharacter, isWord] at fits
      by_cases within : character ≤ word.length
      · exact Or.inr ⟨word, found, within⟩
      · simp only [if_neg within] at fits
        exact Or.inl fits.symm

theorem Fits.isLegal
    {workspace : Workspace}
    {cursor : WordCursor}
    (fits : cursor.Fits workspace)
    (isAlive : ∀ id, cursor.paragraph? = some id → workspace.isAlive id = true) :
    cursor.IsLegal workspace where
  of_null := by
    intro isNull
    cases cursor with
    | null => exact ⟨rfl, rfl⟩
    | within id element character => exact absurd isNull Bool.false_ne_true
  of_within := by
    intro id isWithin
    obtain ⟨paragraph, found⟩ := Workspace.isAlive_iff.1 (isAlive id isWithin)
    have elements := Workspace.elements_of_paragraph? found
    cases cursor with
    | null => exact absurd isWithin (by simp [paragraph?])
    | within other element character =>
        obtain rfl := Option.some.inj isWithin
        obtain ⟨inRange, admits⟩ := fits
        rw [Workspace.length, elements] at inRange
        rw [elements] at admits
        exact ⟨paragraph, found, inRange, eq_zero_or_exists_of_fitCharacter admits⟩

end WordCursor

namespace Session

open Workspace

/-! ## Runs in which nothing is changed by hand -/

/-- Whether a command changes the elements of a paragraph other than by building it anew. -/
def Command.changesByHand : Command → Bool
  | .paragraph (.clear _) => true
  | .paragraph (.fill _) => true
  | .paragraph (.discard _) => true
  | _ => false

theorem not_handles_of_changesByHand
    (session : Session)
    {command : Command}
    (notByHand : command.changesByHand = false)
    (id : ParagraphId) :
    ¬ session.handles command id := by
  intro isHandled
  cases command with
  | paragraph command => cases command <;> simp_all [Command.changesByHand, handles]
  | _ => exact isHandled

theorem leavesAlone_of_changesByHand
    (session : Session)
    {commands : List Command}
    (notByHand : ∀ command ∈ commands, command.changesByHand = false)
    (id : ParagraphId) :
    LeavesAlone id session commands := by
  induction commands generalizing session with
  | nil => exact True.intro
  | cons command rest ofRest =>
      constructor
      · exact not_handles_of_changesByHand session (notByHand command List.mem_cons_self) id
      · exact ofRest _ fun other member => notByHand other (List.mem_cons_of_mem command member)

/-- What is settled about every paragraph makes a cursor legal, wherever it is. -/
theorem isLegal_of_settled
    {rules : Language → WordBreak → TextRules}
    {option : WordBreak}
    {session : Session}
    (settled : ∀ id, Settled rules option id session)
    {name : String}
    {cursor : WordCursor}
    (found : session.wordCursors.get? name = some cursor) :
    cursor.IsLegal session.workspace := by
  have isAlive (id : ParagraphId) (isWithin : cursor.paragraph? = some id) :
      session.workspace.isAlive id = true :=
    (settled id).holdsAlive.wordCursors name cursor id found isWithin
  cases cursor with
  | null => exact WordCursor.Fits.isLegal True.intro isAlive
  | within id element character =>
      exact ((settled id).fits name _ found rfl).isLegal isAlive

/-! ## Cursors that are in a paragraph -/

/-- Whether a command makes the word cursor of a name a new one, or drops it. -/
def Command.replaces : Command → String → Prop
  | .word (.new name _), other => other = name
  | .word (.null name), other => other = name
  | .word (.clone _ copy), other => other = copy
  | .word (.drop name), other => other = name
  | _, _ => False

/-- The word cursor of a name is in a paragraph. -/
def IsInParagraph (session : Session) (name : String) : Prop :=
  ∃ cursor, session.wordCursors.get? name = some cursor ∧ cursor.isNull = false

theorem isInParagraph_insert
    (session : Session)
    (name : String)
    {cursor : WordCursor}
    (notNull : cursor.isNull = false)
    (workspace : Workspace) :
    IsInParagraph
      { session with
        workspace
        wordCursors := session.wordCursors.insert name cursor }
      name :=
  ⟨cursor, by rw [Table.get?_insert, if_pos rfl], notNull⟩

theorem isNull_of_paragraph?_eq
    {cursor other : WordCursor}
    (notNull : cursor.isNull = false)
    (same : other.paragraph? = cursor.paragraph?) :
    other.isNull = false := by
  rw [WordCursor.isNull, same]
  exact notNull

/-- A cursor that travels goes to the start of a paragraph, or stays in its own. -/
theorem isNull_travel
    (workspace : Workspace)
    {cursor : WordCursor}
    (notNull : cursor.isNull = false)
    (travel : Travel) :
    (travel.apply workspace cursor).1.1.isNull = false := by
  have found (answer : Option ParagraphId) :
      ((answer.map WordCursor.start).getD cursor).isNull = false := by
    cases answer with
    | none => exact notNull
    | some id => rfl
  apply travel_induction (motive := fun answer => answer.1.isNull = false)
  · exact notNull
  · exact fun _ _ => found _
  · exact fun _ _ _ => found _
  · exact fun id => isNull_of_paragraph?_eq notNull (paragraph?_moveTo _ _ _ cursor)

theorem IsInParagraph.perform
    {session : Session}
    {name : String}
    (isIn : session.IsInParagraph name)
    {command : Command}
    (notReplaced : ¬ command.replaces name) :
    (session.perform command).1.IsInParagraph name := by
  obtain ⟨cursor, found, notNull⟩ := isIn
  -- Of the commands that place the cursor, those that do not replace it start from where it is.
  by_cases isPlaced : command.places name
  · have unchanged : session.IsInParagraph name := ⟨cursor, found, notNull⟩
    cases command with
    | word command =>
        cases command with
        | setParagraph other slot =>
            obtain rfl := isPlaced
            apply withCursor_induction (motive := fun later => later.IsInParagraph name) unchanged
            intro _ _
            apply withSlot_induction (motive := fun later => later.IsInParagraph name) unchanged
            intro id _
            exact isInParagraph_insert session name rfl session.workspace
        | move other move =>
            obtain rfl := isPlaced
            simp only [Session.perform, runWord, withCursor, found]
            have moved := isNull_of_paragraph?_eq notNull (paragraph?_move session.workspace _ move)
            exact isInParagraph_insert session name moved session.workspace
        | travel other travel =>
            obtain rfl := isPlaced
            simp only [Session.perform, runWord, withCursor, found]
            have travelled := isNull_travel session.workspace notNull travel
            exact isInParagraph_insert session name travelled _
        | _ => exact absurd isPlaced notReplaced
    | _ => exact absurd isPlaced id
  · exact ⟨cursor, (get?_wordCursors_perform isPlaced).trans found, notNull⟩

theorem IsInParagraph.after
    {session : Session}
    {name : String}
    (isIn : session.IsInParagraph name)
    {commands : List Command}
    (notReplaced : ∀ command ∈ commands, ¬ command.replaces name) :
    (session.after commands).IsInParagraph name := by
  induction commands generalizing session with
  | nil => exact isIn
  | cons command rest ofRest =>
      have stepped : (session.step command).1.IsInParagraph name :=
        isIn.perform (notReplaced command List.mem_cons_self)
      exact ofRest stepped fun other member =>
        notReplaced other (List.mem_cons_of_mem command member)

/-! ## Runs -/

/--
After every run of commands in which nobody clears, fills or discards a paragraph by hand, every
word cursor is legal.  A cursor that is in a paragraph is so after every further run, unless it
is replaced by a new one or dropped.
-/
theorem word_cursors_stay_legal
    (rules : Language → WordBreak → TextRules)
    (config : Config)
    (documents : List Document)
    (commands : List Command) :
    let session := (ofWorkspace (createWith rules config documents)).after commands
    (∀ command ∈ commands, command.changesByHand = false) →
      (∀ name cursor,
          session.wordCursors.get? name = some cursor → cursor.IsLegal session.workspace) ∧
        ∀ name cursor more,
          session.wordCursors.get? name = some cursor ∧ cursor.isNull = false ∧
              (∀ command ∈ more, ¬ command.replaces name) →
            ∃ later,
              (session.after more).wordCursors.get? name = some later ∧
                later.isNull = false := by
  intro session notByHand
  constructor
  · intro name cursor found
    have settled (id : ParagraphId) : Settled rules config.wordBreak id session :=
      (settled_ofWorkspace rules config documents id).after
        (leavesAlone_of_changesByHand _ notByHand id)
    exact isLegal_of_settled settled found
  · rintro name cursor more ⟨found, notNull, notReplaced⟩
    have isIn : session.IsInParagraph name := ⟨cursor, found, notNull⟩
    exact isIn.after notReplaced

/-- Two cursors in one paragraph that one of them builds anew after it has been marked. -/
theorem word_cursors_stay_legal_in_one_paragraph :
    let documents : List Document := [.plain [⟨.text, [.text "a", .fixedSpace 1]⟩]]
    let commands : List Command :=
      [.cache (.cursor "page" ⟨0, 7, none⟩), .word (.new "left" "page"),
        .word (.move "left" (.moveTo 0 1)), .word (.clone "left" "right"),
        .word (.move "right" (.moveTo 9 9)), .document 0 (.setMarks [⟨0, 1, 5⟩]),
        .word (.travel "right" .rebuild), .word (.null "none"), .cache .cleanup]
    let session :=
      (ofWorkspace (createWith (fun _ option => .standard option) default documents)).after
        commands
    (∀ command ∈ commands, command.changesByHand = false) ∧
      session.wordCursors.get? "left" = some (.within 0 0 1) ∧
      session.wordCursors.get? "right" = some (.within 0 2 0) ∧
      (WordCursor.within 0 0 1).IsLegal session.workspace ∧
      (WordCursor.within 0 2 0).IsLegal session.workspace ∧
      ∃ later,
        (session.after [.word (.travel "left" .nextParagraph)]).wordCursors.get? "left" =
            some later ∧
          later.isNull = false := by
  intro documents commands session
  have notByHand : ∀ command ∈ commands, command.changesByHand = false := by decide
  have left : session.wordCursors.get? "left" = some (.within 0 0 1) := by decide +kernel
  have right : session.wordCursors.get? "right" = some (.within 0 2 0) := by decide +kernel
  obtain ⟨legal, stays⟩ :=
    word_cursors_stay_legal (fun _ option => .standard option) default documents commands
      notByHand
  refine ⟨notByHand, left, right, legal _ _ left, legal _ _ right, stays _ _ _ ⟨left, rfl, ?_⟩⟩
  simp [Command.replaces]

end Session

end Folio
