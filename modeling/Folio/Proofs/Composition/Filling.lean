import Folio.Composition.Paragraph

/-!
# What a fill leaves of composition

A fill acquires the composed elements from a pool and lays marks over them.  What the pool has
kept of earlier elements never shows: words come out of it without marks, and otherwise as
they were composed.  Marks change nothing of a word but its spans.
-/

namespace Folio

/-- An element as it comes out of a pool. -/
def Element.unmarked : Element → Element
  | .word found => .word { found with marks := [] }
  | element => element

namespace Pool

@[simp]
theorem fst_supply (pool : Pool) (element : Element) :
    (pool.supply element).1 = element.unmarked := by
  cases element with
  | word word =>
      simp only [supply, acquireWord]
      split <;> rfl
  | control control =>
      simp only [supply, acquireControl]
      split <;> rfl
  | image id image => rfl
  | style style => rfl
  | fixedSpace width => rfl
  | marker marker => rfl

/-- The elements that a pool supplies do not depend on the pool. -/
@[simp]
theorem fst_supplyAll (pool : Pool) (elements : List Element) :
    (pool.supplyAll elements).1 = elements.map Element.unmarked := by
  induction elements generalizing pool with
  | nil => rfl
  | cons element rest supplyRest => simp [supplyAll, supplyRest]

end Pool

namespace Composition

/-- The spans that marks give to a word. -/
def spansOf (marks : Marks) (word : Word) : List MarkSpan :=
  marks.filterMap fun mark => word.clip? mark.offset mark.length

/-- An element as a fill with these marks leaves it. -/
def marked (marks : Marks) : Element → Element
  | .word word => .word { word with marks := spansOf marks word }
  | element => element

theorem exists_word_of_marked
    {marks : Marks}
    {element : Element}
    {word : Word}
    (shown : marked marks element = .word word) :
    ∃ bare, element = .word bare ∧ word = { bare with marks := spansOf marks bare } := by
  cases element with
  | word bare => exact ⟨bare, rfl, (Element.word.inj shown).symm⟩
  | control control => cases shown
  | image id image => cases shown
  | style style => cases shown
  | fixedSpace width => cases shown
  | marker marker => cases shown

theorem foldl_addMark (marks : Marks) (word : Word) :
    marks.foldl (fun word mark => word.addMark mark.offset mark.length) word =
      { word with marks := word.marks ++ spansOf marks word } := by
  induction marks generalizing word with
  | nil => simp [spansOf]
  | cons mark rest spansOfRest =>
      have sameSpans :
          spansOf rest (word.addMark mark.offset mark.length) = spansOf rest word := rfl
      rw [List.foldl_cons, spansOfRest, sameSpans]
      cases clipped : word.clip? mark.offset mark.length <;>
        simp [Word.addMark, spansOf, clipped]

theorem overlay_unmarked (marks : Marks) (element : Element) :
    overlay marks element.unmarked = marked marks element := by
  cases element with
  | word word =>
      have sameSpans : spansOf marks { word with marks := [] } = spansOf marks word := rfl
      simp only [Element.unmarked, overlay, foldl_addMark, sameSpans, List.nil_append, marked]
  | control control => rfl
  | image id image => rfl
  | style style => rfl
  | fixedSpace width => rfl
  | marker marker => rfl

theorem ofDocument_eq
    (rules : TextRules)
    (language : Language)
    {document : Document}
    {index : Nat}
    {paragraph : Paragraph}
    (found : document.paragraph? index = some paragraph)
    (hasText : paragraph.kind = .text ∨ paragraph.kind = .tree) :
    ofDocument rules document language index =
      composeEntries rules document.image? language.baseLevel ⟨language.baseLevel, 0⟩
        paragraph.entries := by
  have shown : showsText paragraph.kind = true := by
    rcases hasText with isText | isNode
    · simp [showsText, isText]
    · simp [showsText, isNode]
  simp [ofDocument, found, compose, shown]

/-- A fill shows what is composed, whatever pool it draws from, with the paragraph's marks. -/
theorem fst_fill
    (rules : TextRules)
    (document : Document)
    (language : Language)
    (index : Nat)
    (pool : Pool) :
    (fill rules document language index pool).1 =
      (ofDocument rules document language index).map
        (marked (Marks.ofParagraph document.marks index)) := by
  simp [fill, Function.comp_def, overlay_unmarked]

/-- Only paragraphs that show their text have words. -/
theorem hasText_of_mem_compose
    {rules : TextRules}
    {image? : String → Option ImageData}
    {language : Language}
    {paragraph : Paragraph}
    {word : Word}
    (member : .word word ∈ compose rules image? language paragraph) :
    paragraph.kind = .text ∨ paragraph.kind = .tree := by
  unfold compose at member
  split at member
  · rename_i shown
    simpa [showsText] using shown
  · split at member
    · rcases List.mem_append.1 member with isControl | isMarker
      · rcases List.mem_filterMap.1 isControl with ⟨entry, -, shown⟩
        cases entry <;> simp [controlOf?] at shown
      · simp at isMarker
    · exact absurd member List.not_mem_nil

theorem exists_paragraph_of_mem_fill
    {rules : TextRules}
    {document : Document}
    {language : Language}
    {index : Nat}
    {pool : Pool}
    {word : Word}
    (member : .word word ∈ (fill rules document language index pool).1) :
    ∃ paragraph,
      document.paragraph? index = some paragraph ∧
        (paragraph.kind = .text ∨ paragraph.kind = .tree) := by
  rw [fst_fill] at member
  rcases List.mem_map.1 member with ⟨element, isComposed, shown⟩
  rcases exists_word_of_marked shown with ⟨bare, rfl, -⟩
  unfold ofDocument at isComposed
  cases found : document.paragraph? index with
  | none => simp [found] at isComposed
  | some paragraph =>
      rw [found] at isComposed
      exact ⟨paragraph, rfl, hasText_of_mem_compose isComposed⟩

end Composition

end Folio
