import Folio.Proofs.Bidi.Origin

/-!
# The base level is the lowest

Resolution puts no character of a text below the base level.  Embeddings and isolates only
ever open on levels above what they stand in, the characters of a sequence share the level of
its first, and the class of a character can only raise it.
-/

namespace Folio.Bidi

/-! ## Explicit levels -/

theorem le_nextOdd (level : Level) : level ≤ nextOdd level := by
  unfold nextOdd
  split
  · exact Nat.le_add_right level 2
  · exact Nat.le_add_right level 1

theorem le_nextEven (level : Level) : level ≤ nextEven level := by
  unfold nextEven
  split
  · exact Nat.le_add_right level 1
  · exact Nat.le_add_right level 2

namespace Surroundings

/-- Nothing that is open at a place is below a level. -/
structure StaysAbove (floor : Level) (here : Surroundings) : Prop where
  le_base : floor ≤ here.base
  le_frames : ∀ frame ∈ here.frames, floor ≤ frame.level

variable
    {floor : Level}
    {here : Surroundings}

theorem staysAbove_start (base : Level) : (start base).StaysAbove base where
  le_base := Nat.le_refl base
  le_frames := by
    intro frame member
    exact absurd member List.not_mem_nil

theorem StaysAbove.le_level (above : here.StaysAbove floor) : floor ≤ here.level := by
  unfold level
  cases opened : here.frames with
  | nil => exact above.le_base
  | cons frame outer => exact above.le_frames frame (opened ▸ List.mem_cons_self)

/-- A frame that opens on a level above the floor keeps the place above it. -/
theorem StaysAbove.push
    (above : here.StaysAbove floor)
    {frame : Frame}
    (higher : floor ≤ frame.level) :
    ∀ opened ∈ frame :: here.frames, floor ≤ opened.level := by
  intro opened member
  rcases List.mem_cons.1 member with rfl | outer
  · exact higher
  · exact above.le_frames opened outer

theorem StaysAbove.openEmbedding
    (above : here.StaysAbove floor)
    {level : Level}
    (higher : floor ≤ level)
    (override : Option BidiClass) :
    (here.openEmbedding level override).StaysAbove floor := by
  unfold Surroundings.openEmbedding
  split
  · exact ⟨above.le_base, above.push higher⟩
  · split
    · exact ⟨above.le_base, above.le_frames⟩
    · exact above

theorem StaysAbove.openIsolate
    (above : here.StaysAbove floor)
    {level : Level}
    (higher : floor ≤ level) :
    (here.openIsolate level).StaysAbove floor := by
  unfold Surroundings.openIsolate
  split
  · exact ⟨above.le_base, above.push higher⟩
  · exact ⟨above.le_base, above.le_frames⟩

theorem StaysAbove.closeIsolate (above : here.StaysAbove floor) :
    here.closeIsolate.StaysAbove floor := by
  unfold Surroundings.closeIsolate
  split
  · exact ⟨above.le_base, above.le_frames⟩
  · split
    · exact above
    · constructor
      · exact above.le_base
      · intro frame member
        have inside := List.mem_of_mem_tail member
        exact above.le_frames frame ((List.dropWhile_sublist _).subset inside)

theorem StaysAbove.closeEmbedding (above : here.StaysAbove floor) :
    here.closeEmbedding.StaysAbove floor := by
  unfold Surroundings.closeEmbedding
  split
  · exact above
  · split
    · exact ⟨above.le_base, above.le_frames⟩
    · split
      · rename_i opened
        constructor
        · exact above.le_base
        · intro frame member
          exact above.le_frames frame (opened ▸ List.mem_cons_of_mem _ member)
      · exact above

theorem StaysAbove.after
    (above : here.StaysAbove floor)
    (cls : BidiClass)
    (following : List Glyph) :
    (here.after cls following).StaysAbove floor := by
  have odd : floor ≤ nextOdd here.level := Nat.le_trans above.le_level (le_nextOdd _)
  have even : floor ≤ nextEven here.level := Nat.le_trans above.le_level (le_nextEven _)
  unfold Surroundings.after
  split
  · exact above.openEmbedding odd none
  · exact above.openEmbedding even none
  · exact above.openEmbedding odd _
  · exact above.openEmbedding even _
  · exact above.openIsolate odd
  · exact above.openIsolate even
  · split
    · exact above.openIsolate odd
    · exact above.openIsolate even
  · exact above.closeIsolate
  · exact above.closeEmbedding
  · exact above

end Surroundings

theorem le_level_of_mem_cellsFrom
    {floor : Level}
    {index : Nat}
    {here : Surroundings}
    {glyphs : List Glyph}
    (above : here.StaysAbove floor)
    {cell : Cell}
    (member : cell ∈ cellsFrom index here glyphs) :
    floor ≤ cell.level := by
  induction glyphs generalizing index here with
  | nil => exact absurd member List.not_mem_nil
  | cons glyph rest floorOfRest =>
      have aboveNext := above.after glyph.cls rest
      rcases List.mem_cons.1 member with rfl | later
      · dsimp only
        split
        · exact aboveNext.le_level
        · exact above.le_level
      · exact floorOfRest aboveNext later

theorem le_level_of_mem_cells
    {base : Level}
    {glyphs : List Glyph}
    {cell : Cell}
    (member : cell ∈ cells base glyphs) :
    base ≤ cell.level :=
  le_level_of_mem_cellsFrom (Surroundings.staysAbove_start base) member

/-! ## Sequences -/

theorem le_levelOf
    {base : Level}
    {cells : List Cell}
    (above : ∀ cell ∈ cells, base ≤ cell.level) :
    base ≤ levelOf base cells := by
  cases cells with
  | nil => exact Nat.le_refl base
  | cons cell rest => exact above cell List.mem_cons_self

theorem le_level_of_mem_runSequences
    {base : Level}
    {kept : List Cell}
    (above : ∀ cell ∈ kept, base ≤ cell.level)
    {sequence : RunSequence}
    (member : sequence ∈ runSequences base kept) :
    base ≤ sequence.level := by
  rcases List.mem_map.1 member with ⟨connected, isConnected, rfl⟩
  have aboveRuns :
      ∀ run ∈ connected, ∀ cell ∈ run.cells, base ≤ cell.level :=
    forall_mem_connectRuns (by simp)
      (fun run isRun cell inRun => above cell (mem_of_mem_levelRuns isRun inRun))
      connected isConnected
  cases connected with
  | nil => exact Nat.le_refl base
  | cons run rest => exact le_levelOf (aboveRuns run List.mem_cons_self)

theorem le_implicitLevel (level : Level) (cls : BidiClass) : level ≤ implicitLevel level cls := by
  unfold implicitLevel
  split <;> split <;> first | exact Nat.le_add_right level _ | exact Nat.le_refl level

theorem RunSequence.le_resolvedLevels
    {sequence : RunSequence}
    {entry : Nat × Level}
    (member : entry ∈ sequence.resolvedLevels) :
    sequence.level ≤ entry.2 := by
  simp only [resolvedLevels, ← List.map_uncurry_zip_eq_zipWith] at member
  rcases List.mem_map.1 member with ⟨⟨cell, cls⟩, -, rfl⟩
  exact le_implicitLevel sequence.level cls

/-! ## Texts -/

theorem le_of_mem_bodyLevels
    {base : Level}
    {body : List Glyph}
    {level : Level}
    (member : level ∈ bodyLevels base body) :
    base ≤ level := by
  rcases eq_or_exists_of_mem_bodyLevels member with
    isBase | ⟨sequence, isSequence, entry, inSequence, rfl⟩
  · exact Nat.le_of_eq isBase.symm
  · have aboveKept :
        ∀ cell ∈ (cells base body).filter Cell.isKept, base ≤ cell.level :=
      fun cell kept => le_level_of_mem_cells (List.mem_of_mem_filter kept)
    exact Nat.le_trans (le_level_of_mem_runSequences aboveKept isSequence)
      (RunSequence.le_resolvedLevels inSequence)

/-- No character of a text is below its base level. -/
theorem le_of_mem_levels
    {base : Level}
    {text : List Char}
    {level : Level}
    (member : level ∈ levels base text) :
    base ≤ level := by
  rcases eq_or_exists_of_mem_levelsFrom member with isBase | ⟨paragraph, -, inParagraph⟩
  · exact Nat.le_of_eq isBase.symm
  · exact le_of_mem_bodyLevels inParagraph

end Folio.Bidi
