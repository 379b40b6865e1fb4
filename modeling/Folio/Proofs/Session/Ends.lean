import Folio.Proofs.Document.ReadingOrder
import Folio.Proofs.Session.Keys

/-!
# Where reading ends

A built paragraph tells whether anything is read before or after it, and a step from it leads
somewhere or nowhere.  The document answers both, and every paragraph that is alive is in its
document, so the two agree in every state of a workspace.
-/

namespace Folio.Workspace

/-- A step that never leaves the document, taken from a built paragraph. -/
theorem RemembersKeys.moveFrom_follows_target
    {workspace : Workspace}
    (remembers : workspace.RemembersKeys)
    {id : ParagraphId}
    {paragraph : BuiltParagraph}
    (found : workspace.paragraph? id = some paragraph)
    {target : Document → Nat → Option Nat}
    (inRange :
      ∀ index,
        target (workspace.document paragraph.key.document) paragraph.key.index = some index →
          index < (workspace.document paragraph.key.document).size) :
    ((workspace.moveFrom id target).1 = none ↔
        target (workspace.document paragraph.key.document) paragraph.key.index = none) ∧
      ∀ other later,
        workspace.moveFrom id target = (some other, later) →
          ∃ following,
            later.paragraph? other = some following ∧
              following.key.document = paragraph.key.document ∧
              following.key.language = paragraph.key.language ∧
              target (workspace.document paragraph.key.document) paragraph.key.index =
                some following.key.index := by
  cases isTarget :
      target (workspace.document paragraph.key.document) paragraph.key.index with
  | none => simp [moveFrom_of_end found isTarget]
  | some index =>
      obtain ⟨other, later, following, isMove, -, isAlive, hasKey⟩ :=
        remembers.exists_of_moveFrom found isTarget (inRange index isTarget)
      rw [isMove]
      refine ⟨by simp, ?_⟩
      rintro _ _ ⟨rfl, rfl⟩
      exact ⟨following, isAlive, by rw [hasKey], by rw [hasKey], by rw [hasKey]⟩

/--
In every state of a workspace every paragraph of every document can be asked for, and of those
that are alive the last ones are those from which no step leads on, and the first ones those
from which no step leads back.  A step that leads on leads to a greater index of the same
document in the same language, and one that leads back to a smaller index.
-/
theorem reading_ends_where_no_step_leads
    (rules : Language → WordBreak → TextRules)
    (config : Config)
    (sources : List DocumentSource)
    (operations : List Operation) :
    let workspace :=
      (createWith rules config (sources.map fun source => source.build.1)).after operations
    (∀ number language index,
        index < (workspace.document number).size →
          ∃ id later paragraph,
            workspace.cursor number language index = (some id, later) ∧
              later.paragraph? id = some paragraph ∧
              paragraph.key = ⟨number, index, language⟩) ∧
      ∀ id paragraph,
        workspace.paragraph? id = some paragraph →
          (workspace.isLast id = true ↔ (workspace.next id).1 = none) ∧
            (workspace.isFirst id = true ↔ (workspace.previous id).1 = none) ∧
            (∀ other later,
              workspace.next id = (some other, later) →
                ∃ following,
                  later.paragraph? other = some following ∧
                    following.key.document = paragraph.key.document ∧
                    following.key.language = paragraph.key.language ∧
                    paragraph.key.index < following.key.index) ∧
            ∀ other later,
              workspace.previous id = (some other, later) →
                ∃ preceding,
                  later.paragraph? other = some preceding ∧
                    preceding.key.document = paragraph.key.document ∧
                    preceding.key.language = paragraph.key.language ∧
                    preceding.key.index < paragraph.key.index := by
  intro workspace
  have remembers : workspace.RemembersKeys :=
    (remembersKeys_createWith rules config _).after operations
  constructor
  · intro number language index inRange
    obtain ⟨id, later, paragraph, isCursor, -, isAlive, hasKey⟩ :=
      remembers.exists_of_cursor language inRange
    exact ⟨id, later, paragraph, isCursor, isAlive, hasKey⟩
  · intro id paragraph found
    let document := workspace.document paragraph.key.document
    have navigable : document.IsNavigable :=
      isNavigable_after_createWith rules config sources operations paragraph.key.document
    have inRange : paragraph.key.index < document.size :=
      remembers.keysInRange id paragraph found
    obtain ⟨nextStops, nextLeads⟩ :=
      remembers.moveFrom_follows_target found fun _ => navigable.next?_lt_size inRange
    obtain ⟨previousStops, previousLeads⟩ :=
      remembers.moveFrom_follows_target found fun _ isPrevious =>
        (navigable.lt_of_previous? isPrevious).trans inRange
    refine ⟨?_, ?_, ?_, ?_⟩
    · rw [isLast, found]
      exact (navigable.isLast_iff _).trans nextStops.symm
    · rw [isFirst, found]
      exact (document.isFirst_iff _).trans previousStops.symm
    · intro other later isNext
      obtain ⟨following, isAlive, sameDocument, sameLanguage, isTarget⟩ :=
        nextLeads other later isNext
      exact ⟨following, isAlive, sameDocument, sameLanguage, navigable.lt_of_next? isTarget⟩
    · intro other later isPrevious
      obtain ⟨preceding, isAlive, sameDocument, sameLanguage, isTarget⟩ :=
        previousLeads other later isPrevious
      exact ⟨preceding, isAlive, sameDocument, sameLanguage,
        navigable.lt_of_previous? isTarget⟩

/-- A node that a closed one hides is not the last, and the end of a text is a first one. -/
theorem reading_ends_where_no_step_leads_from_hidden :
    let sources : List DocumentSource :=
      [⟨.tree [(none, ⟨.tree, []⟩), (some 0, ⟨.tree, []⟩), (none, ⟨.tree, []⟩)], [], [],
          .only []⟩,
        ⟨.plain [⟨.text, []⟩, ⟨.endOfText, []⟩, ⟨.text, []⟩], [], [], .only []⟩]
    let workspace :=
      (create default (sources.map fun source => source.build.1)).after
        [.cursor 0 .undetermined 1, .cursor 1 .undetermined 1]
    (workspace.paragraph? 0 = some ⟨⟨0, 1, .undetermined⟩, []⟩ ∧
        workspace.paragraph? 1 = some ⟨⟨1, 1, .undetermined⟩, []⟩) ∧
      workspace.isLast 0 = false ∧
      (workspace.next 0).1 ≠ none ∧
      workspace.isFirst 1 = true ∧
      (workspace.previous 1).1 = none := by
  intro sources workspace
  have hidden : workspace.paragraph? 0 = some ⟨⟨0, 1, .undetermined⟩, []⟩ := by
    decide +kernel
  have ending : workspace.paragraph? 1 = some ⟨⟨1, 1, .undetermined⟩, []⟩ := by
    decide +kernel
  have notLast : workspace.isLast 0 = false := by decide +kernel
  have isFirst : workspace.isFirst 1 = true := by decide +kernel
  obtain ⟨-, agree⟩ :=
    reading_ends_where_no_step_leads (fun _ option => .standard option) default sources
      [.cursor 0 .undetermined 1, .cursor 1 .undetermined 1]
  refine ⟨⟨hidden, ending⟩, notLast, ?_, isFirst, ?_⟩
  · intro leadsNowhere
    have isLast := (agree 0 _ hidden).1.2 leadsNowhere
    exact absurd (notLast.symm.trans isLast) Bool.false_ne_true
  · exact (agree 1 _ ending).2.1.1 isFirst

end Folio.Workspace
