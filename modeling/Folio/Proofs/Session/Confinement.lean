import Folio.Proofs.Document.Bodies
import Folio.Proofs.Session.Ends

/-!
# Reading inside a body

Whoever reads a plain document from a paragraph that ends no text, forward and back in any
order, stays in the body of that paragraph, whatever else is done meanwhile, for nothing that is
done changes the paragraphs of a document.  Every paragraph of the body is some steps away in
one direction, and inside the body a step and the step back cancel.
-/

namespace Folio

namespace Document

variable {document : Document}

/-- Without an outline there is none to change. -/
theorem outline_runDocument_of_plain
    (isPlain : document.outline = none)
    (command : Session.DocumentCommand) :
    (Session.runDocument document command).1.outline = none := by
  cases command with
  | paragraphKind index =>
      simp only [Session.runDocument]
      split <;> exact isPlain
  | setOpen index isOpen => exact congrArg (Option.map _) isPlain
  | openTree index => exact congrArg (Option.map _) isPlain
  | setAllOpen isOpen => exact congrArg (Option.map _) isPlain
  | _ => exact isPlain

theorem IsBody.runDocument
    {first last : Nat}
    (body : document.IsBody first last)
    (command : Session.DocumentCommand) :
    (Session.runDocument document command).1.IsBody first last :=
  body.congr (Session.paragraphs_runDocument document command)
    (outline_runDocument_of_plain body.isPlain command)

end Document

namespace Workspace

/-! ## Ways through a document -/

/-- A paragraph is alive and was built for a key. -/
def HasKey (workspace : Workspace) (id : ParagraphId) (key : ParagraphKey) : Prop :=
  ∃ paragraph, workspace.paragraph? id = some paragraph ∧ paragraph.key = key

/-- A paragraph that is still alive after a run has the key that it was built for. -/
theorem HasKey.after
    {workspace : Workspace}
    {id : ParagraphId}
    {key : ParagraphKey}
    (hasKey : workspace.HasKey id key)
    (remembers : workspace.RemembersKeys)
    {operations : List Operation}
    (isAlive : (workspace.after operations).isAlive id = true) :
    (workspace.after operations).HasKey id key := by
  obtain ⟨paragraph, found, isKey⟩ := hasKey
  obtain ⟨later, foundLater, sameKey⟩ := remembers.exists_of_isAlive_after found isAlive
  exact ⟨later, foundLater, sameKey.trans isKey⟩

/--
From a paragraph on by steps forward and back in any order.  Between the steps anything may be
done that leaves the paragraph in hand alive.
-/
inductive Wanders
    (start : Workspace)
    (first : ParagraphId) :
    Workspace → ParagraphId → Prop where
  | stay : Wanders start first start first
  | meanwhile
      {workspace : Workspace}
      {id : ParagraphId}
      (wanders : Wanders start first workspace id)
      (operations : List Operation)
      (isAlive : (workspace.after operations).isAlive id = true) :
      Wanders start first (workspace.after operations) id
  | next
      {workspace later : Workspace}
      {id other : ParagraphId}
      (wanders : Wanders start first workspace id)
      (isNext : workspace.next id = (some other, later)) :
      Wanders start first later other
  | previous
      {workspace later : Workspace}
      {id other : ParagraphId}
      (wanders : Wanders start first workspace id)
      (isPrevious : workspace.previous id = (some other, later)) :
      Wanders start first later other

/-- So many steps in a row, if there are as many. -/
def stepTimes
    (step : Workspace → ParagraphId → Option ParagraphId × Workspace)
    (workspace : Workspace)
    (id : ParagraphId) :
    Nat → Option ParagraphId × Workspace
  | 0 => (some id, workspace)
  | count + 1 =>
      match step workspace id with
      | (none, later) => (none, later)
      | (some other, later) => stepTimes step later other count

/-! ## Bodies in a workspace -/

theorem Change.isBody
    {before later : Workspace}
    (change : Change before later)
    {number first last : Nat}
    (body : (before.document number).IsBody first last) :
    (later.document number).IsBody first last := by
  cases change with
  | command document command =>
      rw [document_setDocument]
      split
      · rename_i isChanged
        rw [isChanged.1] at body
        exact body.runDocument command
      · exact body
  | _ => exact body

/-- A paragraph of a body is in hand. -/
structure IsInBody
    (workspace : Workspace)
    (number : Nat)
    (language : Language)
    (first last : Nat)
    (id : ParagraphId)
    (index : Nat) :
    Prop where
  remembersKeys : workspace.RemembersKeys
  body : (workspace.document number).IsBody first last
  hasKey : workspace.HasKey id ⟨number, index, language⟩
  isFrom : first ≤ index
  isUpTo : index ≤ last

theorem isBody_after
    {workspace : Workspace}
    {number first last : Nat}
    (body : (workspace.document number).IsBody first last)
    (operations : List Operation) :
    ((workspace.after operations).document number).IsBody first last := by
  let HasBody (later : Workspace) : Prop := (later.document number).IsBody first last
  have ofChange : ∀ {before later}, Change before later → HasBody before → HasBody later :=
    fun change body => change.isBody body
  exact after_induction ofChange (fun _ body => body) body operations fun _ _ body => body

namespace IsInBody

variable
    {workspace : Workspace}
    {number first last index : Nat}
    {language : Language}
    {id : ParagraphId}
    (isIn : workspace.IsInBody number language first last id index)

include isIn

theorem after
    {operations : List Operation}
    (isAlive : (workspace.after operations).isAlive id = true) :
    (workspace.after operations).IsInBody number language first last id index where
  remembersKeys := isIn.remembersKeys.after operations
  body := isBody_after isIn.body operations
  hasKey := isIn.hasKey.after isIn.remembersKeys isAlive
  isFrom := isIn.isFrom
  isUpTo := isIn.isUpTo

section

variable {target : Document → Nat → Option Nat}

/-- A step to another paragraph of the body can be taken. -/
theorem exists_of_moveFrom
    {next : Nat}
    (isTarget : target (workspace.document number) index = some next)
    (isFrom : first ≤ next)
    (isUpTo : next ≤ last) :
    ∃ other later,
      workspace.moveFrom id target = (some other, later) ∧
        later.IsInBody number language first last other next := by
  obtain ⟨⟨key, elements⟩, found, rfl⟩ := isIn.hasKey
  have inRange : next < (workspace.document number).size :=
    Nat.lt_of_le_of_lt isUpTo isIn.body.inRange
  obtain ⟨other, later, following, isMove, sameDocuments, isAlive, hasKey⟩ :=
    isIn.remembersKeys.exists_of_moveFrom found isTarget inRange
  have changes := changes_moveFrom workspace id target
  rw [isMove] at changes
  have sameDocument : later.document number = workspace.document number := by
    rw [document, sameDocuments, document]
  refine ⟨other, later, isMove, ?_⟩
  exact {
    remembersKeys := changes.remembersKeys isIn.remembersKeys
    body := sameDocument ▸ isIn.body
    hasKey := ⟨following, isAlive, hasKey⟩
    isFrom := isFrom
    isUpTo := isUpTo }

/-- A step that is taken was one to another paragraph of the body. -/
theorem moveFrom
    (staysInside :
      ∀ next, target (workspace.document number) index = some next → first ≤ next ∧ next ≤ last)
    {other : ParagraphId}
    {later : Workspace}
    (isMove : workspace.moveFrom id target = (some other, later)) :
    ∃ next,
      target (workspace.document number) index = some next ∧
        later.IsInBody number language first last other next := by
  cases isTarget : target (workspace.document number) index with
  | none =>
      obtain ⟨⟨key, elements⟩, found, rfl⟩ := isIn.hasKey
      rw [moveFrom_of_end found isTarget] at isMove
      exact absurd (congrArg Prod.fst isMove) (by simp)
  | some next =>
      obtain ⟨isFrom, isUpTo⟩ := staysInside next isTarget
      obtain ⟨_, _, isMoveToo, isInLater⟩ := isIn.exists_of_moveFrom isTarget isFrom isUpTo
      cases isMoveToo.symm.trans isMove
      exact ⟨next, rfl, isInLater⟩

/-- Steps in a row along places of the body. -/
theorem exists_stepTimes
    (place : Nat → Nat)
    (isPlace : place 0 = index)
    {count : Nat}
    (leads :
      ∀ document : Document, document.IsBody first last →
        ∀ taken < count, target document (place taken) = some (place (taken + 1)))
    (inside : ∀ taken ≤ count, first ≤ place taken ∧ place taken ≤ last) :
    ∃ other later,
      workspace.stepTimes (fun workspace id => workspace.moveFrom id target) id count =
          (some other, later) ∧
        later.IsInBody number language first last other (place count) := by
  induction count generalizing workspace id index place with
  | zero => exact ⟨id, workspace, rfl, isPlace ▸ isIn⟩
  | succ count ofCount =>
      have isTarget := leads _ isIn.body 0 (Nat.succ_pos count)
      obtain ⟨isFrom, isUpTo⟩ := inside 1 (Nat.succ_le_succ (Nat.zero_le count))
      obtain ⟨other, later, isMove, isInLater⟩ :=
        isIn.exists_of_moveFrom (isPlace ▸ isTarget) isFrom isUpTo
      obtain ⟨final, latest, isRest, isInLatest⟩ :=
        ofCount isInLater (fun taken => place (taken + 1)) rfl
          (fun document body taken isLess => leads document body (taken + 1) (by omega))
          fun taken isLess => inside (taken + 1) (by omega)
      refine ⟨final, latest, ?_, isInLatest⟩
      rw [stepTimes, isMove]
      exact isRest

end

/-- A step inside the body, whatever is done after it, and the step that undoes it. -/
theorem exists_back
    {target back : Document → Nat → Option Nat}
    (staysInside :
      ∀ next, target (workspace.document number) index = some next → first ≤ next ∧ next ≤ last)
    (undone :
      ∀ later : Document, later.IsBody first last →
        ∀ next, target (workspace.document number) index = some next →
          back later next = some index)
    {other : ParagraphId}
    {later : Workspace}
    (isMove : workspace.moveFrom id target = (some other, later))
    {between : List Operation}
    (isAlive : (later.after between).isAlive other = true) :
    ∃ returned latest,
      (later.after between).moveFrom other back = (some returned, latest) ∧
        latest.HasKey returned ⟨number, index, language⟩ := by
  obtain ⟨next, isTarget, isInLater⟩ := isIn.moveFrom staysInside isMove
  have isInBetween := isInLater.after isAlive
  have leadsBack := undone _ isInBetween.body next isTarget
  obtain ⟨returned, latest, isBack, isInLatest⟩ :=
    isInBetween.exists_of_moveFrom leadsBack isIn.isFrom isIn.isUpTo
  exact ⟨returned, latest, isBack, isInLatest.hasKey⟩

/-- Nobody wanders out of a body. -/
theorem wanders
    {later : Workspace}
    {other : ParagraphId}
    (wanders : workspace.Wanders id later other) :
    ∃ place, later.IsInBody number language first last other place := by
  induction wanders with
  | stay => exact ⟨index, isIn⟩
  | meanwhile _ operations isAlive ofBefore =>
      obtain ⟨place, isInBefore⟩ := ofBefore
      exact ⟨place, isInBefore.after isAlive⟩
  | next _ isNext ofBefore =>
      obtain ⟨place, isInBefore⟩ := ofBefore
      obtain ⟨next, -, isInLater⟩ :=
        isInBefore.moveFrom
          (fun _ => isInBefore.body.within_of_next? isInBefore.isFrom isInBefore.isUpTo)
          isNext
      exact ⟨next, isInLater⟩
  | previous _ isPrevious ofBefore =>
      obtain ⟨place, isInBefore⟩ := ofBefore
      obtain ⟨before, -, isInLater⟩ :=
        isInBefore.moveFrom
          (fun _ => isInBefore.body.within_of_previous? isInBefore.isFrom isInBefore.isUpTo)
          isPrevious
      exact ⟨before, isInLater⟩

/-- Every paragraph of a body is some steps away from any other, forward or back. -/
theorem exists_steps_to
    {place : Nat}
    (isFrom : first ≤ place)
    (isUpTo : place ≤ last) :
    ∃ other later,
      (if index ≤ place then
          workspace.stepTimes Workspace.next id (place - index)
        else
          workspace.stepTimes Workspace.previous id (index - place)) =
        (some other, later) ∧
        later.HasKey other ⟨number, place, language⟩ := by
  have startFrom := isIn.isFrom
  have startUpTo := isIn.isUpTo
  split
  · rename_i ahead
    have leads (document : Document) (body : document.IsBody first last) (taken : Nat)
        (isLess : taken < place - index) :
        document.next? (index + taken) = some (index + (taken + 1)) :=
      (body.next?_eq_some_iff (by omega) (by omega)).2 ⟨rfl, by omega⟩
    obtain ⟨other, later, isSteps, isInLater⟩ :=
      isIn.exists_stepTimes (index + ·) rfl leads fun taken isLess => by omega
    refine ⟨other, later, isSteps, ?_⟩
    simpa only [Nat.add_sub_cancel' ahead] using isInLater.hasKey
  · rename_i behind
    have leads (document : Document) (body : document.IsBody first last) (taken : Nat)
        (isLess : taken < index - place) :
        document.previous? (index - taken) = some (index - (taken + 1)) :=
      (body.previous?_eq_some_iff (by omega) (by omega)).2 ⟨by omega, by omega⟩
    obtain ⟨other, later, isSteps, isInLater⟩ :=
      isIn.exists_stepTimes (index - ·) rfl leads fun taken isLess => by omega
    refine ⟨other, later, isSteps, ?_⟩
    simpa only [Nat.sub_sub_self (Nat.le_of_not_le behind)] using isInLater.hasKey

end IsInBody

/--
Reading in a plain document, in every state of a workspace.  A paragraph that ends no text is in
one of the stretches between the ends of texts.  By steps forward and back in any order one comes
from it to paragraphs of that stretch only, whatever is done between the steps, and to each of
them by steps in one direction; a step forward and one back cancel, in either order.  And from
no paragraph a step leads to the end of a text.
-/
theorem plain_reading_stays_in_its_body
    (rules : Language → WordBreak → TextRules)
    (config : Config)
    (documents : List Document)
    (operations : List Operation)
    (number : Nat) :
    let workspace := (createWith rules config documents).after operations
    let document := workspace.document number
    document.outline = none →
      (∀ start language index,
          workspace.HasKey start ⟨number, index, language⟩ → document.endsText index = false →
            ∃ first last,
              document.IsBody first last ∧ first ≤ index ∧ index ≤ last ∧
                (∀ later other,
                  workspace.Wanders start later other →
                    ∃ place,
                      later.HasKey other ⟨number, place, language⟩ ∧
                        first ≤ place ∧ place ≤ last) ∧
                (∀ place, first ≤ place → place ≤ last →
                  ∃ other later,
                    (if index ≤ place then
                        workspace.stepTimes Workspace.next start (place - index)
                      else
                        workspace.stepTimes Workspace.previous start (index - place)) =
                      (some other, later) ∧
                      later.HasKey other ⟨number, place, language⟩) ∧
                (∀ other later between,
                  workspace.next start = (some other, later) →
                    (later.after between).isAlive other = true →
                      ∃ returned latest,
                        (later.after between).previous other = (some returned, latest) ∧
                          latest.HasKey returned ⟨number, index, language⟩) ∧
                ∀ other later between,
                  workspace.previous start = (some other, later) →
                    (later.after between).isAlive other = true →
                      ∃ returned latest,
                        (later.after between).next other = (some returned, latest) ∧
                          latest.HasKey returned ⟨number, index, language⟩) ∧
        ∀ start language index other later,
          workspace.HasKey start ⟨number, index, language⟩ →
            workspace.next start = (some other, later) ∨
                workspace.previous start = (some other, later) →
              ∃ place,
                later.HasKey other ⟨number, place, language⟩ ∧
                  document.endsText place = false := by
  intro workspace document isPlain
  have remembers : workspace.RemembersKeys :=
    (remembersKeys_createWith rules config documents).after operations
  constructor
  · rintro start language index hasKey notEnd
    obtain ⟨paragraph, found, isKey⟩ := hasKey
    have inRange : index < document.size := by
      have keyInRange := remembers.keysInRange start paragraph found
      rwa [isKey] at keyInRange
    obtain ⟨first, last, body, isFrom, isUpTo⟩ :=
      Document.exists_isBody isPlain inRange notEnd
    have isIn : workspace.IsInBody number language first last start index :=
      ⟨remembers, body, ⟨paragraph, found, isKey⟩, isFrom, isUpTo⟩
    refine ⟨first, last, body, isFrom, isUpTo, ?_, ?_, ?_, ?_⟩
    · intro later other wanders
      obtain ⟨place, isInLater⟩ := isIn.wanders wanders
      exact ⟨place, isInLater.hasKey, isInLater.isFrom, isInLater.isUpTo⟩
    · exact fun place => isIn.exists_steps_to
    · intro other later between isNext isAlive
      apply isIn.exists_back _ _ isNext isAlive
      · exact fun _ => body.within_of_next? isFrom isUpTo
      · exact fun _ laterBody _ isTarget =>
          body.previous?_of_next? isFrom isUpTo isTarget laterBody
    · intro other later between isPrevious isAlive
      apply isIn.exists_back _ _ isPrevious isAlive
      · exact fun _ => body.within_of_previous? isFrom isUpTo
      · exact fun _ laterBody _ isTarget =>
          body.next?_of_previous? isFrom isUpTo isTarget laterBody
  · rintro start language index other later ⟨⟨key, elements⟩, found, rfl⟩ isStep
    have navigable := Document.isNavigable_of_plain isPlain
    have inRange : index < document.size := remembers.keysInRange start _ found
    rcases isStep with isNext | isPrevious
    · obtain ⟨-, leads⟩ :=
        remembers.moveFrom_follows_target found fun _ => navigable.next?_lt_size inRange
      obtain ⟨⟨key, elements⟩, isAlive, rfl, rfl, isTarget⟩ := leads other later isNext
      exact ⟨key.index, ⟨_, isAlive, rfl⟩, Document.endsText_of_next? isPlain isTarget⟩
    · obtain ⟨-, leads⟩ :=
        remembers.moveFrom_follows_target found fun _ isTarget =>
          (navigable.lt_of_previous? isTarget).trans inRange
      obtain ⟨⟨key, elements⟩, isAlive, rfl, rfl, isTarget⟩ := leads other later isPrevious
      exact ⟨key.index, ⟨_, isAlive, rfl⟩, Document.endsText_of_previous? isPlain isTarget⟩

/-- Two paragraphs between ends of texts, one of them next to another and at the edge. -/
theorem plain_reading_stays_between_ends :
    let documents := [Document.plain
      [⟨.text, []⟩, ⟨.endOfText, []⟩, ⟨.text, []⟩, ⟨.text, []⟩, ⟨.endOfText, []⟩,
        ⟨.endOfText, []⟩]]
    let workspace := (create default documents).after [.cursor 0 .undetermined 3]
    ((workspace.document 0).outline = none ∧
        workspace.HasKey 0 ⟨0, 3, .undetermined⟩ ∧
        (workspace.document 0).endsText 3 = false) ∧
      ∀ later other,
        workspace.Wanders 0 later other →
          ∃ place, later.HasKey other ⟨0, place, .undetermined⟩ ∧ 2 ≤ place ∧ place ≤ 3 := by
  intro documents workspace
  have isPlain : (workspace.document 0).outline = none := by decide +kernel
  have hasKey : workspace.HasKey 0 ⟨0, 3, .undetermined⟩ :=
    ⟨⟨⟨0, 3, .undetermined⟩, []⟩, by decide +kernel, rfl⟩
  have notEnd : (workspace.document 0).endsText 3 = false := by decide +kernel
  have endsBefore : (workspace.document 0).endsText 1 = true := by decide +kernel
  have endsAfter : (workspace.document 0).endsText 4 = true := by decide +kernel
  obtain ⟨first, last, body, isFrom, isUpTo, wanders, -⟩ :=
    (plain_reading_stays_in_its_body (fun _ option => .standard option) default documents
      [.cursor 0 .undetermined 3] 0 isPlain).1 0 .undetermined 3 hasKey notEnd
  have firstAfter : 2 ≤ first := by
    by_contra outside
    have noEnd := body.notEnd 1 (by omega) (by omega)
    exact absurd (endsBefore.symm.trans noEnd) (by simp)
  have lastBefore : last ≤ 3 := by
    by_contra outside
    have noEnd := body.notEnd 4 (by omega) (by omega)
    exact absurd (endsAfter.symm.trans noEnd) (by simp)
  refine ⟨⟨isPlain, hasKey, notEnd⟩, fun later other way => ?_⟩
  obtain ⟨place, isAt, placeFrom, placeUpTo⟩ := wanders later other way
  exact ⟨place, isAt, firstAfter.trans placeFrom, placeUpTo.trans lastBefore⟩

end Workspace

end Folio
