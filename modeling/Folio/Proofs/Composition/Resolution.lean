import Folio.Composition.Segmenters
import Folio.Proofs.Bidi.BaseDirection
import Folio.Proofs.Composition.Analysis

/-!
# Runs that need no resolution

A run is resolved only if one of its characters can leave an even base level.  Here stands what
composition would be if every run were resolved: the same composition, with the analysis of runs
as a parameter, taken at an analysis that asks no question before it resolves.  Resolution leaves
a text on the base level if nothing in it leaves that level, so the two analyses agree on all
runs, and composition with them agrees on all paragraphs.
-/

namespace Folio

/-- The Unicode levels, with the line breaks of a segmenter. -/
def TextRules.ofSegmenter (segmenter : Segmenter) : TextRules where
  breaks := segmenter
  levels := Bidi.levels
  length_levels := Bidi.length_levels

theorem TextRules.ofSegmenter_opportunities (option : WordBreak) :
    TextRules.ofSegmenter (LineBreak.opportunities option) = .standard option :=
  rfl

/-! ## Analysis that always resolves -/

/-- The levels of a run whose text between the blanks at its ends is resolved in any case. -/
def Analysis.resolvedLevels
    (rules : TextRules)
    (base latest : Bidi.Level)
    (text : List Char) :
    List Bidi.Level :=
  let inner := rules.levels base (core text)
  List.replicate (leadingBlanks text).length latest ++ inner ++
    List.replicate (trailingBlanks text).length (inner.getLast?.getD latest)

/-- What is known about the characters of a run that is resolved in any case. -/
def analyzeResolved
    (rules : TextRules)
    (base latest : Bidi.Level)
    (text : List Char) :
    List AnalyzedChar :=
  let places := Utf8.places text
  let boundaries := Analysis.boundaries (rules.breaks text) places
  let levels := Analysis.resolvedLevels rules base latest text
  (places.zip (boundaries.zip levels)).map fun ((offset, char), boundary, level) =>
    { offset, char, boundary, level }

section

variable (segmenter : Segmenter)

theorem Analysis.coreLevels_eq_levels (base : Bidi.Level) (text : List Char) :
    coreLevels (.ofSegmenter segmenter) base text = Bidi.levels base text := by
  unfold coreLevels
  split
  · rfl
  · rename_i isPlain
    exact (Bidi.levels_eq_replicate_of_needsResolution_eq_false
      (Bool.eq_false_iff.2 isPlain)).symm

/-- Whether a run is looked at before it is resolved makes no difference. -/
theorem analyze_eq_analyzeResolved :
    analyze (.ofSegmenter segmenter) = analyzeResolved (.ofSegmenter segmenter) := by
  funext base latest text
  have sameLevels :
      Analysis.levels (.ofSegmenter segmenter) base latest text =
        Analysis.resolvedLevels (.ofSegmenter segmenter) base latest text := by
    rw [Analysis.levels, Analysis.coreLevels_eq_levels]
    rfl
  rw [analyze_eq, sameLevels, analyzeResolved]

end

/-! ## Composition through an analysis -/

/-- An analysis of runs, given the base level and the level on which the text before ended. -/
abbrev RunAnalysis := Bidi.Level → Bidi.Level → List Char → List AnalyzedChar

namespace Composition

section

variable
    (analysis : RunAnalysis)
    (image? : String → Option ImageData)

/-- Compose a run of text through an analysis. -/
def composeRunThrough (base : Bidi.Level) (carry : Carry) (run : String) :
    List Element × Carry :=
  match analysis base carry.level run.toList with
  | [] => ([], carry)
  | first :: rest =>
      (levelShift carry.level first.level ++
          Scan.elements carry.offset first.level Scan.initial (first :: rest),
        { level := (rest.getLast?.getD first).level
          offset := carry.offset + run.utf8ByteSize })

/-- Compose an entry, its text through an analysis. -/
def composeEntryThrough (base : Bidi.Level) (carry : Carry) : Entry → List Element × Carry
  | .text run => composeRunThrough analysis base carry run
  | .style style => ([.style style], carry)
  | .fixedSpace width => ([.fixedSpace width], carry)
  | .control kind isStart => ([.control ⟨kind, isStart, none⟩], carry)
  | .link kind target => ([.control ⟨kind, true, some target⟩], carry)
  | .image id => ((image? id).toList.map (.image id), carry)
  | .resetBidi => (levelShift carry.level base, { carry with level := base })

/-- Compose entries, their text through an analysis. -/
def composeEntriesThrough (base : Bidi.Level) (carry : Carry) : List Entry → List Element
  | [] => levelShift carry.level base
  | entry :: rest =>
      let (elements, next) := composeEntryThrough analysis image? base carry entry
      elements ++ composeEntriesThrough base next rest

/-- The elements of a paragraph whose text is composed through an analysis. -/
def composeThrough (language : Language) (paragraph : Paragraph) : List Element :=
  if showsText paragraph.kind then
    let base := language.baseLevel
    composeEntriesThrough analysis image? base ⟨base, 0⟩ paragraph.entries
  else
    match closingMarker? paragraph.kind with
    | some marker => paragraph.entries.filterMap controlOf? ++ [.marker marker]
    | none => []

end

/-- The marked elements of a paragraph whose text is composed through an analysis. -/
def fillThrough
    (analysis : RunAnalysis)
    (document : Document)
    (language : Language)
    (index : Nat)
    (pool : Pool) :
    List Element × Pool :=
  let composed :=
    match document.paragraph? index with
    | some paragraph => composeThrough analysis document.image? language paragraph
    | none => []
  let (elements, pool) := pool.supplyAll composed
  (elements.map (overlay (Marks.ofParagraph document.marks index)), pool)

/-! ### Composition under rules -/

section

variable
    (rules : TextRules)
    (image? : String → Option ImageData)

theorem composeEntryThrough_analyze (base : Bidi.Level) (carry : Carry) (entry : Entry) :
    composeEntryThrough (analyze rules) image? base carry entry =
      composeEntry rules image? base carry entry := by
  cases entry <;> rfl

theorem composeEntriesThrough_analyze (base : Bidi.Level) (carry : Carry) (entries : List Entry) :
    composeEntriesThrough (analyze rules) image? base carry entries =
      composeEntries rules image? base carry entries := by
  induction entries generalizing carry with
  | nil => rfl
  | cons entry rest ofRest =>
      simp only [composeEntriesThrough, composeEntries, composeEntryThrough_analyze, ofRest]

theorem composeThrough_analyze (language : Language) (paragraph : Paragraph) :
    composeThrough (analyze rules) image? language paragraph =
      compose rules image? language paragraph := by
  simp only [composeThrough, composeEntriesThrough_analyze]
  rfl

end

/-- Filling under rules is filling through the analysis under these rules. -/
theorem fillThrough_analyze (rules : TextRules) :
    fillThrough (analyze rules) = fill rules := by
  funext document language index pool
  simp only [fillThrough, composeThrough_analyze]
  rfl

/--
Text that needs no resolution is on the base level throughout when it is resolved.  So every run
has the same characters, levels, elements and end whether or not it is looked at before, and
every fill of a paragraph the same elements and the same pool.
-/
theorem runs_may_be_resolved_in_any_case (segmenter : Segmenter) :
    let rules := TextRules.ofSegmenter segmenter
    (∀ base text,
      Analysis.needsResolution base text = false →
        Bidi.levels base text = List.replicate text.length base) ∧
      (∀ base latest text,
        analyze rules base latest text = analyzeResolved rules base latest text) ∧
      (∀ base carry run,
        composeRun rules base carry run =
          composeRunThrough (analyzeResolved rules) base carry run) ∧
      ∀ document language index pool,
        fill rules document language index pool =
          fillThrough (analyzeResolved rules) document language index pool := by
  intro rules
  have sameAnalysis : analyze rules = analyzeResolved rules := analyze_eq_analyzeResolved segmenter
  refine ⟨?_, ?_, ?_, ?_⟩
  · intro base text isPlain
    exact Bidi.levels_eq_replicate_of_needsResolution_eq_false isPlain
  · intro base latest text
    rw [sameAnalysis]
  · intro base carry run
    rw [← sameAnalysis]
    rfl
  · intro document language index pool
    rw [← sameAnalysis, fillThrough_analyze]

end Composition

end Folio
