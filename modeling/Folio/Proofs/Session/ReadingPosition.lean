import Folio.Proofs.Composition.TextTiling
import Folio.Proofs.Document.MarkOrder
import Folio.Proofs.Session.Positions

/-!
# Reading positions

A reading position is kept as a mark: where the first word at or after a cursor starts, or where
the next paragraph starts.  The words of a fill stand in the order of their offsets.  So a later
cursor has no smaller position, and the offset of a position tells one word of its paragraph.
Coming back to that word leaves the position as it was.
-/

namespace Folio

/-! ## Words in the order of their offsets -/

/-- Each word has a greater offset than the words before it. -/
def WordsIncrease (elements : List Element) : Prop :=
  (elements.filterMap Element.word?).Pairwise fun earlier later => earlier.offset < later.offset

/-- A place in a list of elements holds a word of an offset. -/
def HasWordAt (elements : List Element) (offset place : Nat) : Prop :=
  ∃ word, elements[place]? = some (.word word) ∧ word.offset = offset

namespace WordsIncrease

variable
    {elements : List Element}
    (increase : WordsIncrease elements)

include increase

theorem offset_lt
    {left right leftOffset rightOffset : Nat}
    (isBefore : left < right)
    (isLeft : HasWordAt elements leftOffset left)
    (isRight : HasWordAt elements rightOffset right) :
    leftOffset < rightOffset := by
  obtain ⟨leftWord, leftFound, rfl⟩ := isLeft
  obtain ⟨rightWord, rightFound, rfl⟩ := isRight
  obtain ⟨leftInRange, leftFound⟩ := List.getElem?_eq_some_iff.1 leftFound
  obtain ⟨rightInRange, rightFound⟩ := List.getElem?_eq_some_iff.1 rightFound
  have ordered :=
    List.pairwise_iff_getElem.1 (List.pairwise_filterMap.1 increase) left right leftInRange
      rightInRange isBefore
  exact ordered leftWord (by rw [leftFound]; rfl) rightWord (by rw [rightFound]; rfl)

theorem offset_le
    {left right leftOffset rightOffset : Nat}
    (isBefore : left ≤ right)
    (isLeft : HasWordAt elements leftOffset left)
    (isRight : HasWordAt elements rightOffset right) :
    leftOffset ≤ rightOffset := by
  rcases Nat.eq_or_lt_of_le isBefore with rfl | isBefore
  · obtain ⟨leftWord, leftFound, rfl⟩ := isLeft
    obtain ⟨rightWord, rightFound, rfl⟩ := isRight
    cases leftFound.symm.trans rightFound
    exact Nat.le_refl _
  · exact Nat.le_of_lt (increase.offset_lt isBefore isLeft isRight)

/-- The offset of a word tells its place. -/
theorem place_eq
    {offset left right : Nat}
    (isLeft : HasWordAt elements offset left)
    (isRight : HasWordAt elements offset right) :
    left = right := by
  rcases Nat.lt_trichotomy left right with isBefore | same | isAfter
  · exact absurd (increase.offset_lt isBefore isLeft isRight) (Nat.lt_irrefl _)
  · exact same
  · exact absurd (increase.offset_lt isAfter isRight isLeft) (Nat.lt_irrefl _)

end WordsIncrease

/-- Only text has words, and there they stand in order. -/
theorem Composition.wordsIncrease_fill
    (rules : TextRules)
    (document : Document)
    (language : Language)
    (index : Nat)
    (pool : Pool) :
    WordsIncrease (fill rules document language index pool).1 := by
  rw [WordsIncrease]
  cases isWords : (fill rules document language index pool).1.filterMap Element.word? with
  | nil => exact .nil
  | cons word rest =>
      have member : word ∈ (fill rules document language index pool).1.filterMap Element.word? :=
        isWords ▸ List.mem_cons_self
      obtain ⟨paragraph, found, hasText⟩ :=
        exists_paragraph_of_mem_fill (mem_filterMap_word?_iff.1 member)
      have tiled := runsTiled_fill rules language pool found hasText
      rw [← isWords, ← filterMap_word?_filter_isTextual]
      exact tiled.pairwise_offset

namespace WordCursor

/-! ## The first word from an element on -/

theorem exists_place_of_firstWord?
    {elements : List Element}
    {element : Nat}
    {word : Word}
    (isFirst : firstWord? elements element = some word) :
    ∃ place,
      element ≤ place ∧ HasWordAt elements word.offset place ∧
        ∀ other offset, element ≤ other → HasWordAt elements offset other → place ≤ other := by
  obtain ⟨front, found, behind, split, isWord, noWord⟩ := List.findSome?_eq_some_iff.1 isFirst
  obtain rfl := Element.word?_eq_some_iff.1 isWord
  have elementAt (more : Nat) :
      elements[element + more]? = (front ++ .word word :: behind)[more]? := by
    rw [← split, List.getElem?_drop]
  refine ⟨element + front.length, Nat.le_add_right _ _, ⟨word, ?_, rfl⟩, ?_⟩
  · rw [elementAt, List.getElem?_append_right (Nat.le_refl _), Nat.sub_self]
    rfl
  · rintro other offset isFrom ⟨otherWord, otherFound, -⟩
    obtain ⟨more, rfl⟩ := Nat.exists_eq_add_of_le isFrom
    by_contra isBefore
    have inFront : more < front.length := by omega
    rw [elementAt, List.getElem?_append_left inFront] at otherFound
    have noWordThere := noWord _ (List.mem_of_getElem? otherFound)
    exact absurd noWordThere (by simp [Element.word?])

theorem not_hasWordAt_of_firstWord?
    {elements : List Element}
    {element : Nat}
    (noWord : firstWord? elements element = none)
    {place : Nat}
    (isFrom : element ≤ place)
    (offset : Nat) :
    ¬ HasWordAt elements offset place := by
  rintro ⟨word, found, -⟩
  obtain ⟨more, rfl⟩ := Nat.exists_eq_add_of_le isFrom
  rw [← List.getElem?_drop] at found
  have noWordThere := List.findSome?_eq_none_iff.1 noWord _ (List.mem_of_getElem? found)
  exact absurd noWordThere (by simp [Element.word?])

/-- A word is the first one from its own place on. -/
theorem offset_firstWord?_of_hasWordAt
    {elements : List Element}
    {offset place : Nat}
    (hasWord : HasWordAt elements offset place) :
    (firstWord? elements place).map Word.offset = some offset := by
  obtain ⟨word, found, rfl⟩ := hasWord
  obtain ⟨inRange, found⟩ := List.getElem?_eq_some_iff.1 found
  rw [firstWord?, List.drop_eq_getElem_cons inRange, found]
  rfl

/-! ## The position of an element -/

/-- The position of the cursors that are on an element of a paragraph. -/
def positionOf (index : Nat) (elements : List Element) (element : Nat) : Mark :=
  match (firstWord? elements element).map Word.offset with
  | some offset => ⟨index, offset, 0⟩
  | none => ⟨index + 1, 0, 0⟩

theorem position_eq_positionOf
    {workspace : Workspace}
    {cursor : WordCursor}
    {paragraph : BuiltParagraph}
    (found : cursor.paragraph?.bind workspace.paragraph? = some paragraph) :
    cursor.position workspace =
      positionOf paragraph.key.index paragraph.elements cursor.elementIndex := by
  simp only [position, found, positionOf]
  cases firstWord? paragraph.elements cursor.elementIndex <;> rfl

theorem positionOf_congr
    {left right : List Element}
    (same : left.map Element.unmarked = right.map Element.unmarked)
    (index element : Nat) :
    positionOf index left element = positionOf index right element := by
  rw [positionOf, positionOf, offset_firstWord?_congr same]

/-- The position of an element is in its paragraph, or the start of the next one. -/
theorem positionOf_cases (index : Nat) (elements : List Element) (element : Nat) :
    (∃ word,
        firstWord? elements element = some word ∧
          positionOf index elements element = ⟨index, word.offset, 0⟩) ∨
      firstWord? elements element = none ∧
        positionOf index elements element = ⟨index + 1, 0, 0⟩ := by
  cases isFirst : firstWord? elements element with
  | some word => exact Or.inl ⟨word, rfl, by rw [positionOf, isFirst]; rfl⟩
  | none => exact Or.inr ⟨rfl, by rw [positionOf, isFirst]; rfl⟩

/-- An element of an earlier paragraph has no greater position. -/
theorem positionOf_le_of_lt
    {left right : Nat}
    (isBefore : left < right)
    (leftElements rightElements : List Element)
    (leftElement rightElement : Nat) :
    positionOf left leftElements leftElement ≤ positionOf right rightElements rightElement := by
  rw [Mark.le_iff]
  obtain ⟨_, -, isLeft⟩ | ⟨-, isLeft⟩ := positionOf_cases left leftElements leftElement <;>
    obtain ⟨_, -, isRight⟩ | ⟨-, isRight⟩ := positionOf_cases right rightElements rightElement <;>
    rw [isLeft, isRight] <;> dsimp only <;> omega

/-- An element before another one of the same paragraph has no greater position. -/
theorem positionOf_le_of_le
    {elements : List Element}
    (increase : WordsIncrease elements)
    {left right : Nat}
    (isBefore : left ≤ right)
    (index : Nat) :
    positionOf index elements left ≤ positionOf index elements right := by
  obtain ⟨leftWord, leftFirst, isLeft⟩ | ⟨noLeft, isLeft⟩ := positionOf_cases index elements left
  · obtain ⟨rightWord, rightFirst, isRight⟩ | ⟨-, isRight⟩ := positionOf_cases index elements right
    · obtain ⟨leftPlace, -, isLeftWord, isLeast⟩ := exists_place_of_firstWord? leftFirst
      obtain ⟨rightPlace, isFrom, isRightWord, -⟩ := exists_place_of_firstWord? rightFirst
      have ordered := isLeast rightPlace _ (isBefore.trans isFrom) isRightWord
      have offsets := increase.offset_le ordered isLeftWord isRightWord
      rw [isLeft, isRight, Mark.le_iff]
      exact Or.inr ⟨rfl, (Nat.lt_or_eq_of_le offsets).imp_right fun same => ⟨same, Nat.le_refl _⟩⟩
    · rw [isLeft, isRight, Mark.le_iff]
      exact Or.inl (Nat.lt_succ_self index)
  · obtain ⟨rightWord, rightFirst, -⟩ | ⟨-, isRight⟩ := positionOf_cases index elements right
    · obtain ⟨rightPlace, isFrom, isRightWord, -⟩ := exists_place_of_firstWord? rightFirst
      exact absurd isRightWord (not_hasWordAt_of_firstWord? noLeft (isBefore.trans isFrom) _)
    · rw [isLeft, isRight, Mark.le_iff]
      exact Or.inr ⟨rfl, Or.inr ⟨rfl, Nat.le_refl _⟩⟩

/-! ## Cursors in order -/

/-- Of two cursors in paragraphs the paragraphs are in order, and in one paragraph the elements. -/
theorem le_of_isLE_order
    {workspace : Workspace}
    {left right : WordCursor}
    {leftParagraph rightParagraph : BuiltParagraph}
    (leftFound : left.paragraph?.bind workspace.paragraph? = some leftParagraph)
    (rightFound : right.paragraph?.bind workspace.paragraph? = some rightParagraph)
    (ordered : (left.order workspace right).isLE = true) :
    leftParagraph.key.index < rightParagraph.key.index ∨
      leftParagraph.key.index = rightParagraph.key.index ∧
        left.elementIndex ≤ right.elementIndex := by
  simp only [order, orderKey, paragraphIndex?, leftFound, rightFound, Option.map_some,
    compareKeys] at ordered
  rcases Nat.lt_trichotomy leftParagraph.key.index rightParagraph.key.index with
    isBefore | same | isAfter
  · exact Or.inl isBefore
  · refine Or.inr ⟨same, ?_⟩
    by_contra isAfter
    rw [Nat.compare_eq_eq.2 same, Nat.compare_eq_gt.2 (Nat.lt_of_not_le isAfter)] at ordered
    exact absurd ordered Bool.false_ne_true
  · rw [Nat.compare_eq_gt.2 isAfter] at ordered
    exact absurd ordered Bool.false_ne_true

/-- The position of a cursor that is in no paragraph is the least of all. -/
theorem position_le_of_null
    {workspace : Workspace}
    {cursor : WordCursor}
    (isNowhere : cursor.paragraph?.bind workspace.paragraph? = none)
    (mark : Mark) :
    cursor.position workspace ≤ mark := by
  simp only [position, isNowhere, Mark.le_iff]
  omega

/-- Moving to a word of the paragraph leads to it, and its start is the position there. -/
theorem moveTo_of_hasWordAt
    {workspace : Workspace}
    {cursor : WordCursor}
    {id : ParagraphId}
    {paragraph : BuiltParagraph}
    (isIn : cursor.paragraph? = some id)
    (found : workspace.paragraph? id = some paragraph)
    {offset place : Nat}
    (hasWord : HasWordAt paragraph.elements offset place)
    (character : Nat) :
    (cursor.moveTo workspace place character).paragraph? = some id ∧
      (cursor.moveTo workspace place character).elementIndex = place ∧
      (cursor.moveTo workspace place character).position workspace =
        ⟨paragraph.key.index, offset, 0⟩ := by
  have inRange : place < workspace.length id := by
    obtain ⟨word, isWord, -⟩ := hasWord
    rw [Workspace.length, Workspace.elements_of_paragraph? found]
    exact (List.getElem?_eq_some_iff.1 isWord).1
  obtain ⟨fitted, isMove⟩ :
      ∃ fitted, cursor.moveTo workspace place character = within id place fitted := by
    cases cursor with
    | null => exact absurd isIn (by simp [WordCursor.paragraph?])
    | within other oldElement oldCharacter =>
        obtain rfl : other = id := Option.some.inj isIn
        rw [moveTo, if_neg (Nat.not_lt_of_gt inRange), setCharacter]
        exact ⟨_, rfl⟩
  have bound : (within id place fitted).paragraph?.bind workspace.paragraph? = some paragraph :=
    found
  rw [isMove]
  refine ⟨rfl, rfl, ?_⟩
  rw [position_eq_positionOf bound, positionOf, elementIndex,
    offset_firstWord?_of_hasWordAt hasWord]

/-! ## Positions in order, and the way back -/

section

variable {workspace : Workspace}

/-- Cursors in order have positions in order, if paragraphs of one index are alike. -/
theorem position_le_of_isLE_order
    {left right : WordCursor}
    (alike :
      ∀ leftParagraph rightParagraph,
        left.paragraph?.bind workspace.paragraph? = some leftParagraph →
          right.paragraph?.bind workspace.paragraph? = some rightParagraph →
            leftParagraph.key.index = rightParagraph.key.index →
              WordsIncrease rightParagraph.elements ∧
                leftParagraph.elements.map Element.unmarked =
                  rightParagraph.elements.map Element.unmarked)
    (ordered : (left.order workspace right).isLE = true) :
    left.position workspace ≤ right.position workspace := by
  cases leftFound : left.paragraph?.bind workspace.paragraph? with
  | none => exact position_le_of_null leftFound _
  | some leftParagraph =>
      cases rightFound : right.paragraph?.bind workspace.paragraph? with
      | none => simp [order, orderKey, paragraphIndex?, leftFound, rightFound] at ordered
      | some rightParagraph =>
          rw [position_eq_positionOf leftFound, position_eq_positionOf rightFound]
          rcases le_of_isLE_order leftFound rightFound ordered with
            isBefore | ⟨sameIndex, isBefore⟩
          · exact positionOf_le_of_lt isBefore _ _ _ _
          · obtain ⟨increase, same⟩ := alike _ _ leftFound rightFound sameIndex
            rw [positionOf_congr same, sameIndex]
            exact positionOf_le_of_le increase isBefore _

/-- A position in the cursor's paragraph tells one word, and the word leads back to it. -/
theorem existsUnique_place_of_position
    {cursor : WordCursor}
    {id : ParagraphId}
    {paragraph : BuiltParagraph}
    (isIn : cursor.paragraph? = some id)
    (found : workspace.paragraph? id = some paragraph)
    (increase : WordsIncrease paragraph.elements)
    (isOwn : (cursor.position workspace).paragraph = paragraph.key.index) :
    (∃! place, HasWordAt paragraph.elements (cursor.position workspace).offset place) ∧
      ∀ place,
        HasWordAt paragraph.elements (cursor.position workspace).offset place →
          cursor.elementIndex ≤ place ∧
            ∀ character,
              (cursor.moveTo workspace place character).paragraph? = some id ∧
                (cursor.moveTo workspace place character).elementIndex = place ∧
                (cursor.moveTo workspace place character).position workspace =
                  cursor.position workspace := by
  have bound : cursor.paragraph?.bind workspace.paragraph? = some paragraph := by
    rw [isIn, Option.bind_some, found]
  rw [position_eq_positionOf bound] at isOwn ⊢
  obtain ⟨word, isFirst, isHere⟩ | ⟨-, isNext⟩ :=
    positionOf_cases paragraph.key.index paragraph.elements cursor.elementIndex
  · rw [isHere]
    obtain ⟨first, isFrom, isWord, -⟩ := exists_place_of_firstWord? isFirst
    refine ⟨⟨first, isWord, fun other isOther => increase.place_eq isOther isWord⟩, ?_⟩
    intro place isPlace
    obtain rfl := increase.place_eq isPlace isWord
    exact ⟨isFrom, moveTo_of_hasWordAt isIn found isWord⟩
  · rw [isNext] at isOwn
    exact absurd isOwn (Nat.succ_ne_self _)

end

end WordCursor

namespace Workspace

/--
If a cursor is in a paragraph that is alive, it is one of a document in a language, with the
elements that were built for it at one time of a run.
-/
def IsInFilled
    (start : Workspace)
    (operations : List Operation)
    (number : Nat)
    (language : Language)
    (cursor : WordCursor) :
    Prop :=
  ∀ id paragraph,
    cursor.paragraph? = some id →
      (start.after operations).paragraph? id = some paragraph →
        paragraph.key = ⟨number, paragraph.key.index, language⟩ ∧
          ∃ early late,
            operations = early ++ late ∧
              paragraph.elements = ((start.after early).compose paragraph.key).1

/-- Paragraphs of one key are alike but for marks, and their words stand in order. -/
theorem IsInFilled.alike
    {rules : Language → WordBreak → TextRules}
    {config : Config}
    {documents : List Document}
    {operations : List Operation}
    {number : Nat}
    {language : Language}
    {cursor : WordCursor}
    {id : ParagraphId}
    {paragraph : BuiltParagraph}
    (isFilled : IsInFilled (createWith rules config documents) operations number language cursor)
    (isIn : cursor.paragraph? = some id)
    (found :
      ((createWith rules config documents).after operations).paragraph? id = some paragraph) :
    WordsIncrease paragraph.elements ∧
      paragraph.elements.map Element.unmarked =
        (createWith rules config documents).bare ⟨number, paragraph.key.index, language⟩ := by
  obtain ⟨isKey, early, -, -, isFill⟩ := isFilled id paragraph isIn found
  have isSetUp := (isSetUp_createWith rules config documents).after early
  refine ⟨isFill ▸ Composition.wordsIncrease_fill .., ?_⟩
  rw [isFill, isSetUp.map_unmarked_compose, bare_after, ← isKey]

/--
The position of a later cursor is not smaller.  A position that is in the cursor's own paragraph
is at one word there and no other, at or after the cursor, and a cursor that is moved to that
word has the same position.
-/
theorem reading_positions_rise_and_lead_back
    (rules : Language → WordBreak → TextRules)
    (config : Config)
    (documents : List Document)
    (operations : List Operation)
    (number : Nat)
    (language : Language) :
    let start := createWith rules config documents
    let workspace := start.after operations
    (∀ left right,
      IsInFilled start operations number language left →
        IsInFilled start operations number language right →
          (left.order workspace right).isLE = true →
            left.position workspace ≤ right.position workspace) ∧
      ∀ cursor id paragraph,
        IsInFilled start operations number language cursor →
          cursor.paragraph? = some id →
            workspace.paragraph? id = some paragraph →
              let position := cursor.position workspace
              position.paragraph = paragraph.key.index →
                (∃! place, HasWordAt paragraph.elements position.offset place) ∧
                  ∀ place,
                    HasWordAt paragraph.elements position.offset place →
                      cursor.elementIndex ≤ place ∧
                        ∀ character,
                          let back := cursor.moveTo workspace place character
                          back.paragraph? = some id ∧
                            back.elementIndex = place ∧
                            back.position workspace = position := by
  intro start workspace
  constructor
  · intro left right leftFilled rightFilled
    apply WordCursor.position_le_of_isLE_order
    intro leftParagraph rightParagraph leftFound rightFound sameIndex
    obtain ⟨leftId, isInLeft, isLeft⟩ := Option.bind_eq_some_iff.1 leftFound
    obtain ⟨rightId, isInRight, isRight⟩ := Option.bind_eq_some_iff.1 rightFound
    obtain ⟨-, leftBare⟩ := leftFilled.alike isInLeft isLeft
    obtain ⟨increase, rightBare⟩ := rightFilled.alike isInRight isRight
    exact ⟨increase, by rw [leftBare, rightBare, sameIndex]⟩
  · intro cursor id paragraph isFilled isIn found position isOwn
    have increase := (isFilled.alike isIn found).1
    exact WordCursor.existsUnique_place_of_position isIn found increase isOwn

/-- From before the space that a paragraph starts with, to a paragraph without words. -/
theorem reading_positions_rise_and_lead_back_over_space :
    let rules : Language → WordBreak → TextRules := fun _ _ =>
      ⟨fun _ => [], fun base text => List.replicate text.length base, fun _ _ => by simp⟩
    let documents := [Document.plain
      [⟨.text, [.text " one", .text "two"]⟩, ⟨.text, [.fixedSpace 1]⟩]]
    let start := createWith rules default documents
    let operations : List Operation := [.cursor 0 .undetermined 0, .cursor 0 .undetermined 1]
    let workspace := start.after operations
    let left := WordCursor.within 0 0 0
    let right := WordCursor.within 1 0 0
    (IsInFilled start operations 0 .undetermined left ∧
        IsInFilled start operations 0 .undetermined right ∧
        (left.order workspace right).isLE = true) ∧
      left.position workspace ≤ right.position workspace ∧
      left.position workspace = ⟨0, 1, 0⟩ ∧
      (left.moveTo workspace 1 0).position workspace = ⟨0, 1, 0⟩ := by
  intro rules documents start operations workspace left right
  have leftFound :
      workspace.paragraph? 0 =
        some ⟨⟨0, 0, .undetermined⟩,
          ((start.after []).compose ⟨0, 0, .undetermined⟩).1⟩ := by
    decide +kernel
  have rightFound :
      workspace.paragraph? 1 =
        some ⟨⟨0, 1, .undetermined⟩,
          ((start.after []).compose ⟨0, 1, .undetermined⟩).1⟩ := by
    decide +kernel
  have leftFilled : IsInFilled start operations 0 .undetermined left := by
    rintro id paragraph ⟨⟩ found
    obtain rfl := Option.some.inj (leftFound.symm.trans found)
    exact ⟨rfl, [], operations, rfl, by dsimp only⟩
  have rightFilled : IsInFilled start operations 0 .undetermined right := by
    rintro id paragraph ⟨⟩ found
    obtain rfl := Option.some.inj (rightFound.symm.trans found)
    exact ⟨rfl, [], operations, rfl, by dsimp only⟩
  have ordered : (left.order workspace right).isLE = true := by decide +kernel
  have isPosition : left.position workspace = ⟨0, 1, 0⟩ := by decide +kernel
  have hasWord :
      HasWordAt ((start.after []).compose ⟨0, 0, .undetermined⟩).1
        (left.position workspace).offset 1 :=
    ⟨⟨"one", 1, 0, []⟩, by decide +kernel, by rw [isPosition]⟩
  obtain ⟨rise, leadBack⟩ :=
    reading_positions_rise_and_lead_back rules default documents operations 0 .undetermined
  have moved := (leadBack left 0 _ leftFilled rfl leftFound (by rw [isPosition])).2 1 hasWord
  refine ⟨⟨leftFilled, rightFilled, ordered⟩, rise left right leftFilled rightFilled ordered,
    isPosition, ?_⟩
  exact (moved.2 0).2.2.trans isPosition

end Workspace

end Folio
