import Folio.Proofs.Session.Effects

/-!
# Word cursors keep their places

A word cursor fits if its element is in its paragraph, or the end of it, and admits its
character.  Every move leads to a place that fits.  Whether a cursor fits, and the position it
stands for, depend on the elements of its paragraph only up to marks, and those stay the same
as long as nobody clears or fills the paragraph by hand.  So a cursor never has to be put right
when its paragraph is built anew.
-/

namespace Folio

namespace WordCursor

/-! ## Elements without their marks -/

/-- The character index that an element admits does not depend on its marks. -/
theorem fitCharacter_map_unmarked (element? : Option Element) (character : Nat) :
    fitCharacter (element?.map Element.unmarked) character = fitCharacter element? character := by
  cases element? with
  | none => rfl
  | some element => cases element <;> rfl

theorem fitCharacter_congr
    {left right : List Element}
    (same : left.map Element.unmarked = right.map Element.unmarked)
    (element character : Nat) :
    fitCharacter left[element]? character = fitCharacter right[element]? character := by
  rw [← fitCharacter_map_unmarked left[element]?, ← List.getElem?_map, same, List.getElem?_map,
    fitCharacter_map_unmarked]

theorem fitCharacter_zero (element? : Option Element) : fitCharacter element? 0 = 0 := by
  unfold fitCharacter
  split
  · exact if_pos (Nat.zero_le _)
  · rfl

/-- An index that was made to fit does fit. -/
theorem fitCharacter_idem (element? : Option Element) (character : Nat) :
    fitCharacter element? (fitCharacter element? character) =
      fitCharacter element? character := by
  cases isWord : element?.bind Element.word? with
  | none => simp only [fitCharacter, isWord]
  | some word =>
      by_cases fits : character ≤ word.length
      · simp only [fitCharacter, isWord, if_pos fits]
      · simp only [fitCharacter, isWord, if_neg fits, if_pos (Nat.zero_le _)]

/-- The offset of the first word does not depend on marks. -/
theorem offset_firstWord?_congr
    {left right : List Element}
    (same : left.map Element.unmarked = right.map Element.unmarked)
    (element : Nat) :
    (firstWord? left element).map Word.offset = (firstWord? right element).map Word.offset := by
  have ofUnmarked :
      ∀ elements : List Element,
        (firstWord? elements element).map Word.offset =
          ((elements.map Element.unmarked).drop element).findSome? fun element =>
            element.word?.map Word.offset := by
    intro elements
    rw [firstWord?, List.map_findSome?, ← List.map_drop, List.findSome?_map]
    congr 1
    funext element
    cases element <;> rfl
  rw [ofUnmarked, ofUnmarked, same]

/-! ## Fitting places -/

/-- The cursor is on an element of its paragraph that admits its character, or at the end. -/
def Fits (workspace : Workspace) : WordCursor → Prop
  | null => True
  | within id element character =>
      element ≤ workspace.length id ∧
        fitCharacter (workspace.elements id)[element]? character = character

section

variable
    {workspace later : Workspace}
    {cursor : WordCursor}
    {id : ParagraphId}
    {element character : Nat}

theorem fits_start_of_element
    (inRange : element ≤ workspace.length id) :
    (within id element 0).Fits workspace :=
  ⟨inRange, fitCharacter_zero _⟩

theorem fits_start (workspace : Workspace) (id : ParagraphId) : (start id).Fits workspace :=
  fits_start_of_element (Nat.zero_le _)

/-- Moving to any element and character leads to a place that fits. -/
theorem fits_moveTo (workspace : Workspace) (cursor : WordCursor) (element character : Nat) :
    (cursor.moveTo workspace element character).Fits workspace := by
  cases cursor with
  | null => exact True.intro
  | within id oldElement oldCharacter =>
      rw [moveTo]
      split
      · exact fits_start_of_element (Nat.le_refl _)
      · rename_i notPast
        exact ⟨Nat.not_lt.1 notPast, fitCharacter_idem _ _⟩

theorem Fits.move
    (fits : cursor.Fits workspace)
    (move : Session.Move) :
    (move.apply workspace cursor).Fits workspace := by
  cases cursor with
  | null => cases move <;> exact True.intro
  | within id element character =>
      cases move with
      | stay => exact fits
      | nextWord =>
          simp only [Session.Move.apply, nextWord]
          split
          · exact fits_start_of_element fits.1
          · rename_i notEnd
            exact fits_start_of_element (Nat.succ_le_of_lt (Nat.lt_of_le_of_ne fits.1 notEnd))
      | previousWord =>
          exact fits_start_of_element (Nat.le_trans (Nat.sub_le element 1) fits.1)
      | moveTo newElement newCharacter =>
          exact fits_moveTo workspace (within id element character) newElement newCharacter
      | setCharacter character => exact ⟨fits.1, fitCharacter_idem _ _⟩
      | paragraphStart => exact fits_start workspace id
      | paragraphEnd => exact fits_start_of_element (Nat.le_refl _)

theorem Fits.congr
    (fits : (within id element character).Fits workspace)
    (agrees : Workspace.AgreesOn id workspace later) :
    (within id element character).Fits later := by
  constructor
  · rw [agrees.length_eq]
    exact fits.1
  · rw [fitCharacter_congr agrees.elements]
    exact fits.2

/-- A cursor that fits is not moved by moving to its own place. -/
theorem Fits.moveTo_eq
    (fits : (within id element character).Fits workspace) :
    (within id element character).moveTo workspace element character =
      within id element character := by
  rw [moveTo, if_neg (Nat.not_lt.2 fits.1), setCharacter, fits.2]

end

end WordCursor

namespace Session

open Workspace

/-! ## Runs that leave a paragraph alone -/

/-- Nobody clears, fills or discards a paragraph by hand. -/
def LeavesAlone (id : ParagraphId) : Session → List Command → Prop
  | _, [] => True
  | session, command :: rest =>
      ¬ session.handles command id ∧ LeavesAlone id (session.step command).1 rest

/-- A paragraph holds the elements of one fill, and every word cursor in it fits. -/
structure Settled
    (rules : Language → WordBreak → TextRules)
    (option : WordBreak)
    (id : ParagraphId)
    (session : Session) :
    Prop where
  isSetUp : session.workspace.IsSetUp rules option
  remembers : session.workspace.RemembersKeys
  holdsAlive : session.HoldsAlive
  holdsOneFill : session.workspace.HoldsOneFill id
  fits :
    ∀ name cursor, session.wordCursors.get? name = some cursor →
      cursor.paragraph? = some id → cursor.Fits session.workspace

theorem settled_ofWorkspace
    (rules : Language → WordBreak → TextRules)
    (config : Config)
    (documents : List Document)
    (id : ParagraphId) :
    Settled rules config.wordBreak id (ofWorkspace (createWith rules config documents)) where
  isSetUp := isSetUp_createWith rules config documents
  remembers := remembersKeys_createWith rules config documents
  holdsAlive := holdsAlive_ofWorkspace rfl
  holdsOneFill := by simp [HoldsOneFill, ofWorkspace, createWith, Workspace.paragraph?]
  fits := by simp [ofWorkspace]

section

variable
    {rules : Language → WordBreak → TextRules}
    {option : WordBreak}
    {id : ParagraphId}
    {session later : Session}

theorem Settled.agreesOn
    (settled : Settled rules option id session)
    {mayClear : Prop}
    (performs : Performs mayClear session later)
    (wasAlive : session.workspace.isAlive id = true)
    (isAlive : later.workspace.isAlive id = true)
    (holdsOneFill : later.workspace.HoldsOneFill id) :
    AgreesOn id session.workspace later.workspace := by
  obtain ⟨operations, -, isAfter⟩ := performs.runsTo
  exact agreesOn_of_after ⟨operations, isAfter⟩ settled.remembers wasAlive settled.holdsOneFill
    isAlive holdsOneFill

/-- Steps that do not handle the paragraph, and place word cursors as commands do, keep it so. -/
theorem Settled.settles
    (settled : Settled rules option id session)
    {mayClear : Prop}
    (performs : Performs mayClear session later)
    {handled : ParagraphId → Prop}
    (notHandled : ¬ handled id)
    (settles : Settles handled session later) :
    Settled rules option id later := by
  have holdsAlive := performs.holdsAlive settled.holdsAlive
  have remembers : later.workspace.RemembersKeys := by
    obtain ⟨operations, -, isAfter⟩ := performs.runsTo
    rw [isAfter]
    exact settled.remembers.after operations
  obtain ⟨isSetUp, holdsOneFill⟩ :=
    settles.turns.holdsOneFill settled.isSetUp notHandled settled.holdsOneFill
  refine ⟨isSetUp, remembers, holdsAlive, holdsOneFill, ?_⟩
  intro name cursor found isWithin
  have isAlive := holdsAlive.wordCursors name cursor id found isWithin
  have isPlace := settles.places name cursor found
  generalize isLater : later.workspace = laterWorkspace at isPlace isAlive
  cases isPlace with
  | null => exact True.intro
  | start _ other => exact WordCursor.fits_start _ other
  | @stays _ oldName cursor wasFound =>
      have fits := settled.fits oldName cursor wasFound isWithin
      have wasAlive := settled.holdsAlive.wordCursors oldName cursor id wasFound isWithin
      have agrees := settled.agreesOn performs wasAlive (isLater ▸ isAlive) holdsOneFill
      cases cursor with
      | null => exact True.intro
      | within other element character =>
          obtain rfl := Option.some.inj isWithin
          exact isLater ▸ fits.congr agrees
  | @moves oldName old wasFound move =>
      rw [paragraph?_move] at isWithin
      exact (settled.fits oldName old wasFound isWithin).move move
  | comesBack _ old element character => exact WordCursor.fits_moveTo _ old element character

theorem Settled.step
    (settled : Settled rules option id session)
    {command : Command}
    (notHandled : ¬ session.handles command id) :
    Settled rules option id (session.step command).1 := by
  have performed : Settled rules option id (session.perform command).1 :=
    settled.settles (performs_perform session command) notHandled
      (settles_perform session command)
  let before := (session.perform command).1
  have sweeps : Performs False before before.sweep := .sweepBut []
  have takes : TakesTurns (fun _ => False) before before.sweep := .sweepBut before []
  exact performed.settles sweeps not_false takes.settles

theorem Settled.after
    (settled : Settled rules option id session)
    {commands : List Command}
    (leavesAlone : LeavesAlone id session commands) :
    Settled rules option id (session.after commands) := by
  induction commands generalizing session with
  | nil => exact settled
  | cons command rest ofRest => exact ofRest (settled.step leavesAlone.1) leavesAlone.2

/-! ## Building anew -/

/-- Building a paragraph anew leaves all but its marks, and moves no word cursor in it. -/
theorem Settled.rebuild
    (settled : Settled rules option id session)
    {name : String}
    {element character : Nat}
    (found : session.wordCursors.get? name = some (.within id element character)) :
    AgreesOn id session.workspace (session.workspace.rebuild id) ∧
      (WordCursor.within id element character).rebuild session.workspace =
        (.within id element character, session.workspace.rebuild id) := by
  have isAlive := settled.holdsAlive.wordCursors name _ id found rfl
  have turn : Turn (fun _ => False) session.workspace (session.workspace.rebuild id) :=
    .rebuild id
  have agrees : AgreesOn id session.workspace (session.workspace.rebuild id) :=
    agreesOn_of_after turn.exists_after settled.remembers isAlive settled.holdsOneFill
      ((keeps_rebuild session.workspace id).isAlive id isAlive)
      (turn.holdsOneFill settled.isSetUp not_false settled.holdsOneFill)
  have fits := (settled.fits name _ found rfl).congr agrees
  exact ⟨agrees, congrArg (·, session.workspace.rebuild id) fits.moveTo_eq⟩

end

end Session

end Folio
