import Mathlib.Data.List.SplitBy
import Folio.Bidi.Resolve

/-!
# Where levels come from

Every level of a text is the base level or was resolved in some sequence of one of its
paragraphs, and the characters of a sequence are characters that were kept.  What holds of the
base level and of all that sequences resolve therefore holds of all levels.
-/

namespace Folio.Bidi

/-! ## Sequences -/

theorem mem_of_mem_runsOf
    {base before : Level}
    {stretches : List (List Cell)}
    {run : LevelRun}
    (member : run ∈ runsOf base before stretches) :
    run.cells ∈ stretches := by
  induction stretches generalizing before with
  | nil => exact absurd member List.not_mem_nil
  | cons stretch rest memberOfRest =>
      rcases List.mem_cons.1 member with rfl | later
      · exact List.mem_cons_self
      · exact List.mem_cons_of_mem _ (memberOfRest later)

/-- The cells of a level run are among those that are kept. -/
theorem mem_of_mem_levelRuns
    {base : Level}
    {kept : List Cell}
    {run : LevelRun}
    (isRun : run ∈ levelRuns base kept)
    {cell : Cell}
    (member : cell ∈ run.cells) :
    cell ∈ kept := by
  rw [← List.flatten_splitBy (fun left right : Cell => left.level == right.level) kept]
  exact List.mem_flatten_of_mem (mem_of_mem_runsOf isRun) member

/-- Connecting runs makes no runs of its own. -/
theorem forall_mem_connectRuns
    {holds : LevelRun → Prop}
    {waiting : List (List LevelRun)}
    {runs : List LevelRun}
    (ofWaiting : ∀ connected ∈ waiting, ∀ run ∈ connected, holds run)
    (ofRuns : ∀ run ∈ runs, holds run) :
    ∀ connected ∈ connectRuns waiting runs, ∀ run ∈ connected, holds run := by
  induction runs generalizing waiting with
  | nil => exact ofWaiting
  | cons run rest ofRest =>
      rcases List.forall_mem_cons.1 ofRuns with ⟨ofRun, ofLater⟩
      have parts :
          ∀ taken : List LevelRun × List (List LevelRun),
            (∀ run ∈ taken.1, holds run) →
            (∀ connected ∈ taken.2, ∀ run ∈ connected, holds run) →
            ∀ connected ∈
              (if run.opensIsolate then connectRuns (taken.1 :: taken.2) rest
                else taken.1 :: connectRuns taken.2 rest),
              ∀ run ∈ connected, holds run := by
        intro taken ofTaken ofOuter
        split
        · exact ofRest (List.forall_mem_cons.2 ⟨ofTaken, ofOuter⟩) ofLater
        · exact List.forall_mem_cons.2 ⟨ofTaken, ofRest ofOuter ofLater⟩
      unfold connectRuns
      refine parts _ ?_ ?_
      · split
        · rename_i inner outer
          have ofInner := (List.forall_mem_cons.1 ofWaiting).1
          exact List.forall_mem_append.2 ⟨ofInner, by simpa using ofRun⟩
        · simpa using ofRun
      · split
        · exact (List.forall_mem_cons.1 ofWaiting).2
        · exact ofWaiting

/-- The characters of a sequence are among those that are kept. -/
theorem mem_of_mem_runSequences
    {base : Level}
    {kept : List Cell}
    {sequence : RunSequence}
    (isSequence : sequence ∈ runSequences base kept)
    {cell : Cell}
    (member : cell ∈ sequence.cells) :
    cell ∈ kept := by
  rcases List.mem_map.1 isSequence with ⟨connected, isConnected, rfl⟩
  have keptRuns : ∀ run ∈ connected, ∀ cell ∈ run.cells, cell ∈ kept :=
    forall_mem_connectRuns (by simp) (fun _ isRun _ inRun => mem_of_mem_levelRuns isRun inRun)
      connected isConnected
  rcases List.mem_flatten.1 member with ⟨cells, isRun, inRun⟩
  rcases List.mem_map.1 isRun with ⟨run, inConnected, rfl⟩
  exact keptRuns run inConnected cell inRun

/-! ## Texts -/

theorem eq_or_mem_of_mem_fillGaps
    {previous level : Level}
    {levels : List (Option Level)}
    (member : level ∈ fillGaps previous levels) :
    level = previous ∨ some level ∈ levels := by
  induction levels generalizing previous with
  | nil => exact absurd member List.not_mem_nil
  | cons level? rest ofRest =>
      cases level? with
      | none =>
          rcases List.mem_cons.1 member with same | later
          · exact Or.inl same
          · exact (ofRest later).imp_right (List.mem_cons_of_mem none)
      | some found =>
          rcases List.mem_cons.1 member with rfl | later
          · exact Or.inr List.mem_cons_self
          · rcases ofRest later with rfl | inRest
            · exact Or.inr List.mem_cons_self
            · exact Or.inr (List.mem_cons_of_mem _ inRest)

theorem mem_or_exists_of_mem_placeLevels
    {places : Array (Option Level)}
    {levels : List (Nat × Level)}
    {level : Level}
    (member : some level ∈ placeLevels places levels) :
    some level ∈ places ∨ ∃ entry ∈ levels, entry.2 = level := by
  induction levels generalizing places with
  | nil => exact Or.inl member
  | cons entry rest ofRest =>
      rcases ofRest member with here | ⟨later, inRest, isLevel⟩
      · rcases Array.mem_or_eq_of_mem_setIfInBounds here with old | new
        · exact Or.inl old
        · exact Or.inr ⟨entry, List.mem_cons_self, (Option.some.inj new).symm⟩
      · exact Or.inr ⟨later, List.mem_cons_of_mem entry inRest, isLevel⟩

theorem eq_or_exists_of_mem_bodyLevels
    {base : Level}
    {body : List Glyph}
    {level : Level}
    (member : level ∈ bodyLevels base body) :
    level = base ∨
      ∃ sequence ∈ runSequences base ((cells base body).filter Cell.isKept),
        ∃ entry ∈ sequence.resolvedLevels, entry.2 = level := by
  rcases eq_or_mem_of_mem_fillGaps member with isBase | isPlace
  · exact Or.inl isBase
  · rcases mem_or_exists_of_mem_placeLevels (Array.mem_toList_iff.1 isPlace) with
      isGap | ⟨entry, isEntry, isLevel⟩
    · simp at isGap
    · rcases List.mem_flatMap.1 isEntry with ⟨sequence, isSequence, inSequence⟩
      exact Or.inr ⟨sequence, isSequence, entry, inSequence, isLevel⟩

/-- A level of a text is the base level or that of a character of one of its paragraphs. -/
theorem eq_or_exists_of_mem_levelsFrom
    {base : Level}
    {body rest : List Glyph}
    {level : Level}
    (member : level ∈ levelsFrom base body rest) :
    level = base ∨ ∃ paragraph, paragraph ⊆ body ++ rest ∧ level ∈ bodyLevels base paragraph := by
  induction rest generalizing body with
  | nil =>
      exact Or.inr ⟨body.reverse, fun glyph inBody => by simpa using inBody, member⟩
  | cons glyph rest ofRest =>
      simp only [levelsFrom] at member
      split at member
      · rcases List.mem_append.1 member with inBody | later
        · exact Or.inr ⟨body.reverse,
            fun other inParagraph => List.mem_append_left _ (List.mem_reverse.1 inParagraph),
            inBody⟩
        · rcases List.mem_cons.1 later with isBase | inRest
          · exact Or.inl isBase
          · rcases ofRest inRest with isBase | ⟨paragraph, inText, inParagraph⟩
            · exact Or.inl isBase
            · refine Or.inr ⟨paragraph, fun other isThere => ?_, inParagraph⟩
              exact List.mem_append_right _ (List.mem_cons_of_mem glyph (inText isThere))
      · rcases ofRest member with isBase | ⟨paragraph, inText, inParagraph⟩
        · exact Or.inl isBase
        · refine Or.inr ⟨paragraph, fun other isThere => ?_, inParagraph⟩
          have isSomewhere := inText isThere
          simp only [List.cons_append, List.mem_cons, List.mem_append] at isSomewhere ⊢
          tauto

end Folio.Bidi
