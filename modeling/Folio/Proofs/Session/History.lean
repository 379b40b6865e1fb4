import Folio.Proofs.Composition.Filling
import Folio.Proofs.Session.Operations

/-!
# Fills do not show what was done before

The elements that a fill builds are told by the rules, the document, the language and the
index.  Nothing that a workspace keeps from one fill to the next shows in them: segmenters are
kept as they were set up, and the pool writes every field of what it hands out again.
-/

namespace Folio

/-! ## Segmenters -/

namespace Segmenters

/-- Every segmenter that is kept is the one that the rules give. -/
def AreOf (segmenters : Segmenters) (rules : Language → WordBreak → TextRules) : Prop :=
  ∀ language option segmenter,
    segmenters.get? (language, option) = some segmenter →
      segmenter = (rules language option).breaks

variable
    {segmenters : Segmenters}
    {rules : Language → WordBreak → TextRules}

theorem AreOf.provide
    (areOf : segmenters.AreOf rules)
    (language : Language)
    (option : WordBreak) :
    (segmenters.provide language option (rules language option).breaks).1 =
        (rules language option).breaks ∧
      (segmenters.provide language option (rules language option).breaks).2.AreOf rules := by
  unfold Segmenters.provide
  split
  · rename_i segmenter kept
    exact ⟨areOf language option segmenter kept, areOf⟩
  · refine ⟨rfl, ?_⟩
    intro otherLanguage otherOption segmenter kept
    rw [Table.get?_insert] at kept
    split at kept
    · rename_i same
      obtain ⟨rfl, rfl⟩ := Prod.mk.inj same
      exact (Option.some.inj kept).symm
    · exact areOf otherLanguage otherOption segmenter kept

end Segmenters

/-! ## The same contents -/

/-- Two documents differ at most in which paragraphs are open. -/
structure Document.SameContents (left right : Document) : Prop where
  paragraphs : left.paragraphs = right.paragraphs
  images : left.images = right.images
  marks : left.marks = right.marks

namespace Composition

/-- What a fill builds of a paragraph, in every workspace. -/
def shown
    (rules : TextRules)
    (document : Document)
    (language : Language)
    (index : Nat) :
    List Element :=
  (ofDocument rules document language index).map
    (marked (Marks.ofParagraph document.marks index))

theorem shown_congr
    {left right : Document}
    (same : left.SameContents right)
    (rules : TextRules)
    (language : Language)
    (index : Nat) :
    shown rules left language index = shown rules right language index := by
  have sameImages : left.image? = right.image? := by
    funext id
    rw [Document.image?, Document.image?, same.images]
  simp only [shown, ofDocument, Document.paragraph?, same.paragraphs, sameImages, same.marks]

end Composition

namespace Workspace

/-! ## What a workspace is set up with -/

/-- A workspace has these rules and this option, and has set up no other segmenters. -/
structure IsSetUp
    (workspace : Workspace)
    (rules : Language → WordBreak → TextRules)
    (option : WordBreak) :
    Prop where
  rules_eq : workspace.rules = rules
  wordBreak_eq : workspace.config.wordBreak = option
  areOf : workspace.segmenters.AreOf rules
  keysInRange : workspace.KeysInRange

section

variable
    {workspace : Workspace}
    {rules : Language → WordBreak → TextRules}
    {option : WordBreak}

theorem isSetUp_createWith
    (rules : Language → WordBreak → TextRules)
    (config : Config)
    (documents : List Document) :
    (createWith rules config documents).IsSetUp rules config.wordBreak where
  rules_eq := rfl
  wordBreak_eq := rfl
  areOf := by
    intro language option segmenter kept
    simp [createWith] at kept
  keysInRange := by
    intro id paragraph found
    simp [createWith, paragraph?] at found

theorem IsSetUp.rulesFor
    (isSetUp : workspace.IsSetUp rules option)
    (key : ParagraphKey) :
    (workspace.rulesFor key).1 = rules key.language option ∧
      (workspace.rulesFor key).2.AreOf rules := by
  have provided := isSetUp.areOf.provide key.language option
  simp only [Workspace.rulesFor, isSetUp.rules_eq, isSetUp.wordBreak_eq]
  split
  · exact ⟨by rw [provided.1], provided.2⟩
  · exact ⟨rfl, isSetUp.areOf⟩

theorem Change.isSetUp
    {before later : Workspace}
    (change : Change before later)
    (isSetUp : before.IsSetUp rules option) :
    later.IsSetUp rules option := by
  have keysInRange := change.keysInRange isSetUp.keysInRange
  cases change with
  | setUp key =>
      exact ⟨isSetUp.rules_eq, isSetUp.wordBreak_eq, (isSetUp.rulesFor key).2, keysInRange⟩
  | _ => exact ⟨isSetUp.rules_eq, isSetUp.wordBreak_eq, isSetUp.areOf, keysInRange⟩

theorem IsSetUp.after
    (isSetUp : workspace.IsSetUp rules option)
    (operations : List Operation) :
    (workspace.after operations).IsSetUp rules option := by
  refine after_induction Change.isSetUp ?_ isSetUp operations ?_
  · intro before isHeld isSetUp
    exact ⟨isSetUp.rules_eq, isSetUp.wordBreak_eq, isSetUp.areOf,
      isSetUp.keysInRange.sweep isHeld⟩
  · intro _ before isSetUp
    exact ⟨isSetUp.rules_eq, isSetUp.wordBreak_eq, isSetUp.areOf, isSetUp.keysInRange⟩

/-! ## What is built -/

theorem IsSetUp.fst_compose
    (isSetUp : workspace.IsSetUp rules option)
    (key : ParagraphKey) :
    (workspace.compose key).1 =
      Composition.shown (rules key.language option) (workspace.document key.document)
        key.language key.index := by
  simp only [compose, (isSetUp.rulesFor key).1, Composition.fst_fill, Composition.shown]

theorem IsSetUp.elements_fill
    (isSetUp : workspace.IsSetUp rules option)
    {id : ParagraphId}
    {paragraph : BuiltParagraph}
    (isAlive : workspace.paragraph? id = some paragraph) :
    (workspace.fill id).elements id =
      paragraph.elements ++
        Composition.shown (rules paragraph.key.language option)
          (workspace.document paragraph.key.document) paragraph.key.language
          paragraph.key.index := by
  rw [elements_of_paragraph? (paragraph?_fill isAlive), isSetUp.fst_compose]

theorem IsSetUp.elements_rebuild
    (isSetUp : workspace.IsSetUp rules option)
    {id : ParagraphId}
    {paragraph : BuiltParagraph}
    (isAlive : workspace.paragraph? id = some paragraph) :
    (workspace.rebuild id).elements id =
      Composition.shown (rules paragraph.key.language option)
        (workspace.document paragraph.key.document) paragraph.key.language
        paragraph.key.index := by
  have clearedIsSetUp : (workspace.clear id).IsSetUp rules option :=
    isSetUp.after [.clear id]
  have sameDocuments : (workspace.clear id).documents = workspace.documents := by
    rw [clear, isAlive]
    rfl
  rw [rebuild, clearedIsSetUp.elements_fill (paragraph?_clear isAlive), List.nil_append,
    document, sameDocuments]
  rfl

/-- A paragraph that is asked for while it is not alive has just been filled. -/
theorem IsSetUp.elements_cursor
    (isSetUp : workspace.IsSetUp rules option)
    {document : Nat}
    {language : Language}
    {index : Nat}
    (inRange : index < (workspace.document document).size) :
    ∃ id later,
      workspace.cursor document language index = (some id, later) ∧
        (workspace.isAlive id = false →
          later.elements id =
            Composition.shown (rules language option) (workspace.document document) language
              index) := by
  cases size : (workspace.document document).size with
  | zero => omega
  | succ last =>
      have least : min index last = index := by omega
      simp only [cursor, size, least]
      split
      · rename_i id found
        refine ⟨id, workspace, rfl, fun notAlive => ?_⟩
        have isAlive := (Option.filter_eq_some_iff.1 found).2
        exact absurd isAlive (by simp [notAlive])
      · refine ⟨workspace.fresh, _, rfl, fun _ => ?_⟩
        have built := paragraph?_build workspace { document, index, language } workspace.fresh
        rw [if_pos rfl] at built
        rw [elements_of_paragraph? built, isSetUp.fst_compose]

end

/-! ## Two workspaces -/

theorem Reached.isSetUp
    {workspace : Workspace}
    {rules : Language → WordBreak → TextRules}
    {option : WordBreak}
    (reached : workspace.Reached rules option) :
    workspace.IsSetUp rules option := by
  obtain ⟨config, documents, operations, rfl, rfl⟩ := reached
  exact (isSetUp_createWith rules config documents).after operations

/--
In any two workspaces with one word break option, whatever was done in them, the fills of a
paragraph in a language append the same elements, if its document has the same contents in
both.  Building it anew leaves these elements alone, and so does asking for it in a third
workspace in which it is not alive, such as one in which nothing has been done.
-/
theorem fills_do_not_show_history
    (rules : Language → WordBreak → TextRules)
    (option : WordBreak)
    {left right : Workspace}
    (leftReached : left.Reached rules option)
    (rightReached : right.Reached rules option)
    {leftId rightId : ParagraphId}
    {leftParagraph rightParagraph : BuiltParagraph}
    (leftAlive : left.paragraph? leftId = some leftParagraph)
    (rightAlive : right.paragraph? rightId = some rightParagraph)
    (sameLanguage : leftParagraph.key.language = rightParagraph.key.language)
    (sameIndex : leftParagraph.key.index = rightParagraph.key.index)
    (sameContents :
      (left.document leftParagraph.key.document).SameContents
        (right.document rightParagraph.key.document)) :
    ∃ built,
      (left.fill leftId).elements leftId = leftParagraph.elements ++ built ∧
        (right.fill rightId).elements rightId = rightParagraph.elements ++ built ∧
        (left.rebuild leftId).elements leftId = built ∧
        (right.rebuild rightId).elements rightId = built ∧
        ∀ (other : Workspace) (number : Nat),
          other.Reached rules option →
            (other.document number).SameContents
                (left.document leftParagraph.key.document) →
              ∃ id later,
                other.cursor number leftParagraph.key.language leftParagraph.key.index =
                    (some id, later) ∧
                  (other.isAlive id = false → later.elements id = built) := by
  have leftSetUp := leftReached.isSetUp
  have rightSetUp := rightReached.isSetUp
  have sameShown := Composition.shown_congr sameContents
    (rules leftParagraph.key.language option) leftParagraph.key.language
    leftParagraph.key.index
  refine ⟨_, leftSetUp.elements_fill leftAlive, ?_, leftSetUp.elements_rebuild leftAlive, ?_, ?_⟩
  · rw [rightSetUp.elements_fill rightAlive, sameShown, sameLanguage, sameIndex]
  · rw [rightSetUp.elements_rebuild rightAlive, sameShown, sameLanguage, sameIndex]
  · intro other number otherReached otherSame
    have inRange : leftParagraph.key.index < (other.document number).size := by
      rw [Document.size, otherSame.paragraphs]
      exact leftSetUp.keysInRange leftId leftParagraph leftAlive
    obtain ⟨id, later, found, built⟩ := otherReached.isSetUp.elements_cursor inRange
    exact ⟨id, later, found, fun notAlive =>
      (built notAlive).trans (Composition.shown_congr otherSame _ _ _)⟩

/-- A word that was marked before is used again where no marks are set. -/
theorem fills_do_not_show_history_of_marks :
    let document : Document := .plain [⟨.text, [.text "a"]⟩]
    let left :=
      (create ⟨.normal, 4⟩ [document]).after
        [.command 0 (.setMarks [⟨0, 0, 1⟩]), .cursor 0 .undetermined 0, .clear 0,
          .command 0 .removeAllMarks]
    let right := (create ⟨.normal, 0⟩ [document]).after [.cursor 0 .undetermined 0]
    left.pool.freeWords.length = 1 ∧
      left.elements 0 = [] ∧
      right.elements 0 = [.word ⟨"a", 0, 0, []⟩] ∧
      (left.fill 0).elements 0 = (right.rebuild 0).elements 0 := by
  intro document left right
  let rules : Language → WordBreak → TextRules := fun _ option => .standard option
  have leftReached : left.Reached rules .normal := ⟨_, _, _, rfl, rfl⟩
  have rightReached : right.Reached rules .normal := ⟨_, _, _, rfl, rfl⟩
  have leftAlive : left.paragraph? 0 = some ⟨⟨0, 0, .undetermined⟩, []⟩ := by
    decide +kernel
  have rightAlive :
      right.paragraph? 0 = some ⟨⟨0, 0, .undetermined⟩, [.word ⟨"a", 0, 0, []⟩]⟩ := by
    decide +kernel
  have sameDocument : left.document 0 = right.document 0 := by decide +kernel
  obtain ⟨built, filled, -, -, rebuilt, -⟩ :=
    fills_do_not_show_history rules .normal leftReached rightReached leftAlive rightAlive rfl rfl
      (sameDocument ▸ ⟨rfl, rfl, rfl⟩)
  refine ⟨by decide +kernel, elements_of_paragraph? leftAlive,
    elements_of_paragraph? rightAlive, ?_⟩
  rw [filled, rebuilt, List.nil_append]

end Workspace

end Folio
