import Folio.Proofs.Session.Holders

/-!
# Stepping through a paragraph

A word cursor that steps from element to element comes to the end of its paragraph, one step for
each element that is left, and stays there.  The end is the place right after the last element,
and no other.  So a cursor that stands further on, because the paragraph was cleared under it by
somebody else, is not at the end, and every further step leads it further away.
-/

namespace Folio

/-! ## Steps inside a paragraph -/

namespace WordCursor

/-- The element on which a cursor comes to stand after so many steps in a paragraph. -/
def elementAfter (length element count : Nat) : Nat :=
  if element ≤ length then min (element + count) length else element + count

theorem elementAfter_zero (length element : Nat) : elementAfter length element 0 = element := by
  simp only [elementAfter]
  split <;> omega

/-- One step first, and then the others. -/
theorem elementAfter_succ (length element count : Nat) :
    elementAfter length element (count + 1) =
      elementAfter length (if element = length then element else element + 1) count := by
  by_cases atEnd : element = length
  · rw [if_pos atEnd]
    simp only [elementAfter]
    split <;> omega
  · rw [if_neg atEnd]
    simp only [elementAfter]
    split <;> split <;> omega

theorem elementAfter_eq_length_iff (length element count : Nat) :
    elementAfter length element count = length ↔
      element ≤ length ∧ length ≤ element + count := by
  simp only [elementAfter]
  split <;> omega

theorem nextWord_within
    (workspace : Workspace)
    (id : ParagraphId)
    (element character : Nat) :
    (within id element character).nextWord workspace =
      within id (if element = workspace.length id then element else element + 1) 0 := by
  simp only [nextWord]
  split <;> rfl

theorem isEndOfParagraph_within
    (workspace : Workspace)
    (id : ParagraphId)
    (element character : Nat) :
    (within id element character).isEndOfParagraph workspace = true ↔
      element = workspace.length id :=
  beq_iff_eq

end WordCursor

namespace Workspace

/-- A paragraph that is held keeps its elements when others are swept away. -/
theorem length_sweep
    (workspace : Workspace)
    {isHeld : ParagraphId → Bool}
    {id : ParagraphId}
    (held : isHeld id = true) :
    (workspace.sweep isHeld).length id = workspace.length id := by
  have stays : (workspace.sweep isHeld).paragraph? id = workspace.paragraph? id := by
    rw [paragraph?_sweep, held]
    cases workspace.paragraph? id <;> rfl
  rw [Workspace.length, Workspace.length, elements, elements, stays]

end Workspace

namespace Session

open Workspace

/-- The command that lets a word cursor step to the next element. -/
def stepOn (name : String) : Command :=
  .word (.move name .nextWord)

section

variable
    {session : Session}
    {name : String}
    {id : ParagraphId}
    {element character : Nat}

/-- A step moves the cursor and leaves the paragraph as it is. -/
theorem step_stepOn
    (found : session.wordCursors.get? name = some (.within id element character)) :
    let later := (session.step (stepOn name)).1
    later.wordCursors.get? name =
        some
          (.within id (if element = session.workspace.length id then element else element + 1)
            0) ∧
      later.workspace.length id = session.workspace.length id := by
  intro later
  let cursor : WordCursor :=
    .within id (if element = session.workspace.length id then element else element + 1) 0
  let performed := (session.perform (stepOn name)).1
  have isPerformed :
      performed =
        { session with wordCursors := session.wordCursors.insert name cursor } := by
    simp only [performed, cursor, stepOn, perform, runWord, withCursor, found, setCursor,
      Move.apply, WordCursor.nextWord_within]
  have isPlaced : performed.wordCursors.get? name = some cursor := by
    rw [isPerformed, Table.get?_insert, if_pos rfl]
  have held : performed.holds id = true :=
    (holds_iff id).2 (Or.inr (Or.inl ⟨name, cursor, isPlaced, rfl⟩))
  have sameLength : performed.workspace.length id = session.workspace.length id := by
    rw [isPerformed]
  refine ⟨isPlaced, Eq.trans ?_ sameLength⟩
  exact performed.workspace.length_sweep ((Bool.or_eq_true ..).mpr (Or.inl held))

/-- Where a cursor has come to after any number of steps. -/
theorem after_stepOn
    (found : session.wordCursors.get? name = some (.within id element character))
    (count : Nat) :
    let later := session.after (List.replicate count (stepOn name))
    later.wordCursors.get? name =
        some
          (.within id (WordCursor.elementAfter (session.workspace.length id) element count)
            (if count = 0 then character else 0)) ∧
      later.workspace.length id = session.workspace.length id := by
  induction count generalizing session element character with
  | zero =>
      rw [WordCursor.elementAfter_zero]
      exact ⟨found, rfl⟩
  | succ count ofCount =>
      obtain ⟨isNext, sameLength⟩ := step_stepOn found
      obtain ⟨isLater, laterLength⟩ := ofCount isNext
      rw [sameLength, ite_self] at isLater
      rw [WordCursor.elementAfter_succ, if_neg (Nat.succ_ne_zero count)]
      exact ⟨isLater, laterLength.trans sameLength⟩

end

/--
Wherever a word cursor is in its paragraph, whoever has changed the paragraph before, it steps to
the start of the next element as long as it is not at the end.  If it stands on an element or at
the end, it never steps past the end, and it is at the end as soon as it has stepped over the
elements that were left.  If it stands past the end, no number of steps leads it there.
-/
theorem stepping_ends_from_within
    (rules : Language → WordBreak → TextRules)
    (config : Config)
    (documents : List Document)
    (commands : List Command)
    (name : String)
    (id : ParagraphId)
    (element character : Nat) :
    let session := (ofWorkspace (createWith rules config documents)).after commands
    let length := session.workspace.length id
    session.wordCursors.get? name = some (.within id element character) →
      ∀ count,
        let later := session.after (List.replicate count (stepOn name))
        ∃ place offset,
          later.wordCursors.get? name = some (.within id place offset) ∧
            later.workspace.length id = length ∧
            (count ≠ 0 → offset = 0) ∧
            (element ≤ length → place = min (element + count) length) ∧
            (length < element → place = element + count) ∧
            ((WordCursor.within id place offset).isEndOfParagraph later.workspace = true ↔
              element ≤ length ∧ length ≤ element + count) := by
  intro session length found count later
  obtain ⟨isPlace, sameLength⟩ := after_stepOn found count
  refine ⟨_, _, isPlace, sameLength, fun moved => if_neg moved, fun isIn => if_pos isIn,
    fun isPast => if_neg (Nat.not_le.2 isPast), ?_⟩
  rw [WordCursor.isEndOfParagraph_within, sameLength]
  exact WordCursor.elementAfter_eq_length_iff length element count

/-- A cursor that comes to the end, on a page that somebody else has shortened before. -/
theorem stepping_ends_on_shortened_page :
    let commands : List Command :=
      [.cache (.cursor "page" ⟨0, 0, none⟩), .paragraph (.fill "page"), .word (.new "place" "page"),
        .word (.move "place" .nextWord), .paragraph (.clear "page"), .paragraph (.fill "page")]
    let session :=
      (ofWorkspace
          (createWith (fun _ option => .standard option) default
            [.plain [⟨.text, [.text "a", .fixedSpace 1]⟩]])).after commands
    let later := session.after (List.replicate 3 (stepOn "place"))
    session.wordCursors.get? "place" = some (.within 0 1 0) ∧
      session.workspace.length 0 = 2 ∧
      ∃ offset,
        later.wordCursors.get? "place" = some (.within 0 2 offset) ∧
          (WordCursor.within 0 2 offset).isEndOfParagraph later.workspace = true := by
  intro commands session later
  have found : session.wordCursors.get? "place" = some (.within 0 1 0) := by decide +kernel
  have length_eq : session.workspace.length 0 = 2 := by decide +kernel
  obtain ⟨place, offset, isPlace, -, -, within, -, isEnd⟩ :=
    stepping_ends_from_within (fun _ option => .standard option) default
      [.plain [⟨.text, [.text "a", .fixedSpace 1]⟩]] commands "place" 0 1 0 found 3
  have isPlaceTwo : place = 2 := (within (by rw [length_eq]; decide)).trans (by rw [length_eq]; rfl)
  subst isPlaceTwo
  refine ⟨found, length_eq, offset, isPlace, isEnd.2 ?_⟩
  rw [length_eq]
  decide

/--
A page is cleared under a cursor at its end.  The cursor steps past the end, and is never at the
end again, however often it steps.
-/
theorem stepping_past_cleared_page_never_ends :
    let commands : List Command :=
      [.cache (.cursor "page" ⟨0, 0, none⟩), .word (.new "place" "page"),
        .word (.move "place" .paragraphEnd), .paragraph (.clear "page")]
    let session :=
      (ofWorkspace
          (createWith (fun _ option => .standard option) default
            [.plain [⟨.text, [.text "a", .fixedSpace 1]⟩]])).after commands
    session.wordCursors.get? "place" = some (.within 0 2 0) ∧
      (session.step (stepOn "place")).1.wordCursors.get? "place" = some (.within 0 3 0) ∧
      (session.step (stepOn "place")).1.workspace.length 0 = 0 ∧
      ∀ count,
        let later := session.after (List.replicate count (stepOn "place"))
        later.wordCursors.get? "place" = some (.within 0 (2 + count) 0) ∧
          (WordCursor.within 0 (2 + count) 0).isEndOfParagraph later.workspace = false := by
  intro commands session
  have found : session.wordCursors.get? "place" = some (.within 0 2 0) := by decide +kernel
  have length_eq : session.workspace.length 0 = 0 := by decide +kernel
  refine ⟨found, by decide +kernel, by decide +kernel, fun count => ?_⟩
  obtain ⟨isPlace, sameLength⟩ := after_stepOn found count
  rw [length_eq, WordCursor.elementAfter, if_neg (by decide), ite_self] at isPlace
  refine ⟨isPlace, Bool.eq_false_iff.2 fun isEnd => ?_⟩
  rw [WordCursor.isEndOfParagraph_within, sameLength, length_eq] at isEnd
  omega

end Session

end Folio
