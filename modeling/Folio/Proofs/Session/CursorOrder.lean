import Folio.Proofs.Session.Ends
import Folio.Proofs.Session.Legality

/-!
# Moves go up and down in the order of cursors

Cursors are ordered by paragraph, element and character.  A move forward leads to a greater
cursor and a move back to a smaller one, if they lead anywhere.  Inside a paragraph this is so
because the elements are counted; between paragraphs because the indices that reading goes
through rise, and who is asked for is a paragraph of the index that reading has come to.
-/

namespace Folio

namespace WordCursor

/-! ## The order -/

theorem compareKeys_eq_lt_iff (left right : Nat × Nat × Nat) :
    compareKeys left right = .lt ↔
      left.1 < right.1 ∨
        left.1 = right.1 ∧
          (left.2.1 < right.2.1 ∨ left.2.1 = right.2.1 ∧ left.2.2 < right.2.2) := by
  simp only [compareKeys, Ordering.then_eq_lt, Nat.compare_eq_lt, Nat.compare_eq_eq]

/-- Cursors in paragraphs that are alive are ordered as their places are. -/
theorem order_within_eq_lt_iff
    {workspace : Workspace}
    {left right : ParagraphId}
    {leftParagraph rightParagraph : BuiltParagraph}
    (leftFound : workspace.paragraph? left = some leftParagraph)
    (rightFound : workspace.paragraph? right = some rightParagraph)
    (leftElement leftCharacter rightElement rightCharacter : Nat) :
    (within left leftElement leftCharacter).order workspace
        (within right rightElement rightCharacter) = .lt ↔
      leftParagraph.key.index < rightParagraph.key.index ∨
        leftParagraph.key.index = rightParagraph.key.index ∧
          (leftElement < rightElement ∨
            leftElement = rightElement ∧ leftCharacter < rightCharacter) := by
  simp only [order, orderKey, paragraphIndex?, paragraph?, Option.bind_some, leftFound,
    rightFound, Option.map_some, compareKeys_eq_lt_iff, elementIndex, characterIndex]

/-! ## Moves inside a paragraph -/

section

variable
    {workspace : Workspace}
    {id : ParagraphId}
    {paragraph : BuiltParagraph}
    (found : workspace.paragraph? id = some paragraph)
    {element character : Nat}

include found

theorem order_nextWord_of_not_end
    (notEnd : (within id element character).isEndOfParagraph workspace = false) :
    (within id element character).order workspace
      ((within id element character).nextWord workspace) = .lt := by
  have differs : element ≠ workspace.length id := by
    simpa [isEndOfParagraph] using notEnd
  rw [nextWord, if_neg differs, order_within_eq_lt_iff found found]
  exact Or.inr ⟨rfl, Or.inl (Nat.lt_succ_self element)⟩

theorem order_previousWord_of_not_start
    (notStart : (within id element character).isStartOfParagraph = false) :
    (within id element character).previousWord.order workspace
      (within id element character) = .lt := by
  have differs : element = 0 → character ≠ 0 := by
    simpa [isStartOfParagraph, elementIndex, characterIndex] using notStart
  rw [previousWord, order_within_eq_lt_iff found found]
  omega

omit found in
/-- A legal cursor at the end of its paragraph is in no word, so the next one is where it is. -/
theorem IsLegal.nextWord_of_end
    (legal : (within id element character).IsLegal workspace)
    (isEnd : (within id element character).isEndOfParagraph workspace = true) :
    (within id element character).nextWord workspace = within id element character := by
  have atEnd : element = workspace.length id := by
    simpa [isEndOfParagraph] using isEnd
  obtain ⟨paragraph, found, -, atStart | ⟨word, isWord, -⟩⟩ := legal.of_within id rfl
  · obtain rfl : character = 0 := atStart
    rw [nextWord, if_pos atEnd]
  · have pastEnd : paragraph.elements.length ≤ element := by
      rw [atEnd, Workspace.length, Workspace.elements_of_paragraph? found]
    rw [elementIndex, List.getElem?_eq_none pastEnd] at isWord
    exact absurd isWord (by simp)

omit found in
theorem previousWord_of_start
    (isStart : (within id element character).isStartOfParagraph = true) :
    (within id element character).previousWord = within id element character := by
  obtain ⟨rfl, rfl⟩ : element = 0 ∧ character = 0 := by
    simpa [isStartOfParagraph, elementIndex, characterIndex] using isStart
  rfl

end

/-! ## Moves to other paragraphs -/

section

variable
    {step : Workspace → ParagraphId → Option ParagraphId × Workspace}
    {workspace later : Workspace}
    {id : ParagraphId}
    {element character : Nat}
    {moved : WordCursor}

/-- A cursor that finds no paragraph stays where it is. -/
theorem eq_of_follow_eq_false
    (stayed : (within id element character).follow step workspace = ((moved, false), later)) :
    moved = within id element character := by
  simp only [follow, paragraph?] at stayed
  split at stayed
  · simp at stayed
  · simp only [Prod.mk.injEq, and_true] at stayed
    exact stayed.1.symm

/-- A cursor that finds a paragraph goes to the start of it. -/
theorem exists_of_follow_eq_true
    (found : (within id element character).follow step workspace = ((moved, true), later)) :
    ∃ other, step workspace id = (some other, later) ∧ moved = start other := by
  simp only [follow, paragraph?] at found
  split at found
  · rename_i other stepped isStep
    simp only [Prod.mk.injEq, and_true] at found
    obtain ⟨rfl, rfl⟩ := found
    exact ⟨other, isStep, rfl⟩
  · simp at found

end

end WordCursor

namespace Workspace

/-- Going from a paragraph to another leaves it alive under its key. -/
theorem RemembersKeys.exists_of_alive_moveFrom
    {workspace : Workspace}
    (remembers : workspace.RemembersKeys)
    {id : ParagraphId}
    {paragraph : BuiltParagraph}
    (found : workspace.paragraph? id = some paragraph)
    (target : Document → Nat → Option Nat) :
    ∃ same,
      (workspace.moveFrom id target).2.paragraph? id = some same ∧
        same.key = paragraph.key := by
  have isAlive :=
    (finds_moveFrom workspace id target).keeps.isAlive id (isAlive_iff.2 ⟨paragraph, found⟩)
  have follows : Follows workspace (workspace.moveFrom id target).2 :=
    (changes_moveFrom workspace id target).induction Follows.change (.refl workspace)
  obtain ⟨same, isSame⟩ := isAlive_iff.1 isAlive
  obtain ⟨old, wasFound, sameKey⟩ :=
    follows.wasAlive id same (remembers.alive_lt id paragraph found) isSame
  obtain rfl : old = paragraph := Option.some.inj (wasFound.symm.trans found)
  exact ⟨same, isSame, sameKey.symm⟩

/-- A cursor that finds a paragraph is at its start, and both paragraphs can be compared. -/
theorem RemembersKeys.exists_of_follow
    {workspace later : Workspace}
    (remembers : workspace.RemembersKeys)
    {id : ParagraphId}
    {paragraph : BuiltParagraph}
    (found : workspace.paragraph? id = some paragraph)
    (target : Document → Nat → Option Nat)
    (inRange :
      ∀ index,
        target (workspace.document paragraph.key.document) paragraph.key.index = some index →
          index < (workspace.document paragraph.key.document).size)
    {element character : Nat}
    {moved : WordCursor}
    (isMove :
      (WordCursor.within id element character).follow
          (fun workspace id => workspace.moveFrom id target) workspace =
        ((moved, true), later)) :
    ∃ other same following,
      moved = .start other ∧
        later.paragraph? id = some same ∧
        same.key = paragraph.key ∧
        later.paragraph? other = some following ∧
        target (workspace.document paragraph.key.document) paragraph.key.index =
          some following.key.index := by
  obtain ⟨other, isStep, rfl⟩ := WordCursor.exists_of_follow_eq_true isMove
  obtain ⟨following, isAlive, -, -, isTarget⟩ :=
    (remembers.moveFrom_follows_target found inRange).2 other later isStep
  obtain ⟨same, isSame, sameKey⟩ := remembers.exists_of_alive_moveFrom found target
  rw [isStep] at isSame
  exact ⟨other, same, following, rfl, isSame, sameKey, isAlive, isTarget⟩

/--
In every state of a workspace the moves of a legal word cursor go up and down in the order of
cursors.  To the next word leads to a greater cursor, but from the end of a paragraph nowhere;
to the previous word leads to a smaller one, but from the start nowhere.  Of the moves to another
paragraph, one that finds it leads to its start, which is greater after the next paragraph and
smaller after the previous one, and one that finds none leaves the cursor as it was.
-/
theorem word_moves_follow_cursor_order
    (rules : Language → WordBreak → TextRules)
    (config : Config)
    (sources : List DocumentSource)
    (operations : List Operation)
    (cursor : WordCursor)
    (notNull : cursor.isNull = false) :
    let workspace :=
      (createWith rules config (sources.map fun source => source.build.1)).after operations
    cursor.IsLegal workspace →
      (if cursor.isEndOfParagraph workspace then
        cursor.nextWord workspace = cursor
      else
        cursor.order workspace (cursor.nextWord workspace) = .lt) ∧
      (if cursor.isStartOfParagraph then
        cursor.previousWord = cursor
      else
        cursor.previousWord.order workspace cursor = .lt) ∧
      (∀ moved later,
        cursor.nextParagraph workspace = ((moved, true), later) →
          cursor.order later moved = .lt ∧
            ∃ id, moved = .start id ∧ later.isAlive id = true) ∧
      (∀ moved later,
        cursor.previousParagraph workspace = ((moved, true), later) →
          moved.order later cursor = .lt ∧
            ∃ id, moved = .start id ∧ later.isAlive id = true) ∧
      ∀ moved later,
        cursor.nextParagraph workspace = ((moved, false), later) ∨
            cursor.previousParagraph workspace = ((moved, false), later) →
          moved = cursor := by
  intro workspace legal
  have remembers : workspace.RemembersKeys :=
    (remembersKeys_createWith rules config _).after operations
  cases cursor with
  | null => exact absurd notNull (by simp [WordCursor.isNull, WordCursor.paragraph?])
  | within id element character =>
      obtain ⟨paragraph, found, -, -⟩ := legal.of_within id rfl
      let document := workspace.document paragraph.key.document
      have navigable : document.IsNavigable :=
        isNavigable_after_createWith rules config sources operations paragraph.key.document
      have inRange : paragraph.key.index < document.size :=
        remembers.keysInRange id paragraph found
      refine ⟨?_, ?_, ?_, ?_, ?_⟩
      · split
        · rename_i isEnd
          exact legal.nextWord_of_end isEnd
        · rename_i notEnd
          exact WordCursor.order_nextWord_of_not_end found (Bool.eq_false_iff.2 notEnd)
      · split
        · rename_i isStart
          exact WordCursor.previousWord_of_start isStart
        · rename_i notStart
          exact WordCursor.order_previousWord_of_not_start found (Bool.eq_false_iff.2 notStart)
      · intro moved later isMove
        obtain ⟨other, same, following, rfl, isSame, sameKey, isAlive, isTarget⟩ :=
          remembers.exists_of_follow found Document.next?
            (fun _ => navigable.next?_lt_size inRange) isMove
        have rises : same.key.index < following.key.index :=
          sameKey ▸ navigable.lt_of_next? isTarget
        exact ⟨(WordCursor.order_within_eq_lt_iff isSame isAlive ..).2 (Or.inl rises), other, rfl,
          isAlive_iff.2 ⟨following, isAlive⟩⟩
      · intro moved later isMove
        obtain ⟨other, same, preceding, rfl, isSame, sameKey, isAlive, isTarget⟩ :=
          remembers.exists_of_follow found Document.previous?
            (fun _ isTarget => (navigable.lt_of_previous? isTarget).trans inRange) isMove
        have falls : preceding.key.index < same.key.index :=
          sameKey ▸ navigable.lt_of_previous? isTarget
        exact ⟨(WordCursor.order_within_eq_lt_iff isAlive isSame ..).2 (Or.inl falls), other, rfl,
          isAlive_iff.2 ⟨preceding, isAlive⟩⟩
      · rintro moved later (stayed | stayed)
        · exact WordCursor.eq_of_follow_eq_false stayed
        · exact WordCursor.eq_of_follow_eq_false stayed

/-- From the end of a word of a closed node, past the node that it hides. -/
theorem word_moves_follow_cursor_order_past_closed :
    let sources : List DocumentSource :=
      [⟨.tree [(none, ⟨.tree, [.text "a"]⟩), (some 0, ⟨.tree, []⟩), (none, ⟨.tree, []⟩)], [], [],
        .only []⟩]
    let workspace :=
      (create default (sources.map fun source => source.build.1)).after [.cursor 0 .undetermined 0]
    let cursor := WordCursor.within 0 0 1
    (cursor.isNull = false ∧ cursor.IsLegal workspace) ∧
      cursor.order workspace (cursor.nextWord workspace) = .lt ∧
      cursor.previousWord.order workspace cursor = .lt ∧
      (cursor.nextParagraph workspace).1 = (.start 1, true) ∧
      cursor.order (cursor.nextParagraph workspace).2 (.start 1) = .lt := by
  intro sources workspace cursor
  have legal : cursor.IsLegal workspace :=
    WordCursor.Fits.isLegal ⟨by decide +kernel, by decide +kernel⟩ fun id isIn => by
      obtain rfl : 0 = id := Option.some.inj isIn
      decide +kernel
  have isMove : (cursor.nextParagraph workspace).1 = (.start 1, true) := by decide +kernel
  have isMovePair :
      cursor.nextParagraph workspace = ((.start 1, true), (cursor.nextParagraph workspace).2) := by
    rw [← isMove]
  obtain ⟨next, previous, nextParagraph, -, -⟩ :=
    word_moves_follow_cursor_order (fun _ option => .standard option) default sources
      [.cursor 0 .undetermined 0] cursor rfl legal
  rw [if_neg (by decide +kernel)] at next previous
  exact ⟨⟨rfl, legal⟩, next, previous, isMove, (nextParagraph _ _ isMovePair).1⟩

end Workspace

end Folio
