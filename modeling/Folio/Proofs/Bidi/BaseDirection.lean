import Folio.Composition.Analysis
import Folio.Proofs.Bidi.Origin

/-!
# Text in the base direction

Text from left to right, with numbers, marks, blanks and stray closings of embeddings and
isolates, is on the base level throughout, if that is even.  Nothing opens in such text, so its
characters are all on one level with left-to-right text on both sides.  The rules for weak types
then turn every number into left-to-right text, because no other letters come before it, and so
neither brackets nor neutrals ever meet another direction.
-/

namespace Folio.Bidi

open Analysis (leavesBase)

/-- Classes that by themselves put no text on another level than an even base level. -/
def StaysOnBase (cls : BidiClass) : Prop :=
  leavesBase cls = false

instance (cls : BidiClass) : Decidable (StaysOnBase cls) :=
  inferInstanceAs (Decidable (_ = _))

/-! ## Weak types -/

theorem eq_leftToRight_of_isStrong
    {cls : BidiClass}
    (stays : StaysOnBase cls)
    (strong : cls.isStrong = true) :
    cls = .leftToRight := by
  cases cls <;> first | rfl | exact absurd strong (by decide) | exact absurd stays (by decide)

theorem staysOnBase_resolveMarks
    {previous : BidiClass}
    {classes : List BidiClass}
    (staysBefore : StaysOnBase previous)
    (stay : ∀ cls ∈ classes, StaysOnBase cls) :
    ∀ cls ∈ resolveMarks previous classes, StaysOnBase cls := by
  fun_induction resolveMarks previous classes with
  | case1 previous => exact stay
  | case2 previous rest resolved ofRest =>
      have staysHere : StaysOnBase resolved := by
        unfold resolved
        split
        · rfl
        · exact staysBefore
      exact List.forall_mem_cons.2 ⟨staysHere, ofRest staysHere (List.forall_mem_cons.1 stay).2⟩
  | case3 previous cls rest notMark ofRest =>
      rcases List.forall_mem_cons.1 stay with ⟨staysHere, stayLater⟩
      exact List.forall_mem_cons.2 ⟨staysHere, ofRest staysHere stayLater⟩

/-- Without Arabic letters before them, numbers stay as they are. -/
theorem resolveNumbers_eq_self
    {strong : BidiClass}
    {classes : List BidiClass}
    (staysBefore : StaysOnBase strong)
    (stay : ∀ cls ∈ classes, StaysOnBase cls) :
    resolveNumbers strong classes = classes := by
  fun_induction resolveNumbers strong classes with
  | case1 strong => rfl
  | case2 strong cls rest isStrong ofRest =>
      rcases List.forall_mem_cons.1 stay with ⟨staysHere, stayLater⟩
      rw [ofRest staysHere stayLater]
  | case3 strong cls rest notStrong isArabic ofRest =>
      obtain ⟨-, rfl⟩ := isArabic
      exact absurd staysBefore (by decide)
  | case4 strong cls rest notStrong notArabic ofRest =>
      rw [ofRest staysBefore (List.forall_mem_cons.1 stay).2]

theorem resolveArabicLetters_eq_self
    {classes : List BidiClass}
    (stay : ∀ cls ∈ classes, StaysOnBase cls) :
    resolveArabicLetters classes = classes := by
  have noArabic : ∀ cls ∈ classes, (if cls = .arabicLetter then .rightToLeft else cls) = cls := by
    intro cls member
    refine if_neg ?_
    rintro rfl
    exact absurd (stay _ member) (by decide)
  exact (List.map_congr_left noArabic).trans (List.map_id' classes)

theorem staysOnBase_betweenNumbers
    (before : BidiClass)
    {separator after : BidiClass}
    (staysHere : StaysOnBase separator)
    (staysAfter : StaysOnBase after) :
    StaysOnBase (betweenNumbers before separator after) := by
  unfold betweenNumbers
  split
  · rfl
  · rfl
  · exact absurd staysAfter (by decide)
  · exact staysHere

theorem staysOnBase_resolveSeparators
    {previous : BidiClass}
    {classes : List BidiClass}
    (stay : ∀ cls ∈ classes, StaysOnBase cls) :
    ∀ cls ∈ resolveSeparators previous classes, StaysOnBase cls := by
  fun_induction resolveSeparators previous classes with
  | case1 previous => exact stay
  | case2 previous cls => exact stay
  | case3 previous cls next rest resolved ofRest =>
      rcases List.forall_mem_cons.1 stay with ⟨staysHere, stayLater⟩
      have staysNext := (List.forall_mem_cons.1 stayLater).1
      exact List.forall_mem_cons.2
        ⟨staysOnBase_betweenNumbers previous staysHere staysNext, ofRest stayLater⟩

theorem staysOnBase_resolveTerminators
    {joined : Bool}
    {classes : List BidiClass}
    (stay : ∀ cls ∈ classes, StaysOnBase cls) :
    ∀ cls ∈ resolveTerminators joined classes, StaysOnBase cls := by
  fun_induction resolveTerminators joined classes with
  | case1 joined => exact stay
  | case2 joined rest following belongs ofRest =>
      exact List.forall_mem_cons.2 ⟨rfl, ofRest (List.forall_mem_cons.1 stay).2⟩
  | case3 joined rest following belongsNot ofRest =>
      exact List.forall_mem_cons.2 ⟨rfl, ofRest (List.forall_mem_cons.1 stay).2⟩
  | case4 joined cls rest isOther ofRest =>
      rcases List.forall_mem_cons.1 stay with ⟨staysHere, stayLater⟩
      exact List.forall_mem_cons.2 ⟨staysHere, ofRest stayLater⟩

theorem staysOnBase_neutralizeSeparators
    {classes : List BidiClass}
    (stay : ∀ cls ∈ classes, StaysOnBase cls) :
    ∀ cls ∈ neutralizeSeparators classes, StaysOnBase cls := by
  intro cls member
  rcases List.mem_map.1 member with ⟨before, wasThere, rfl⟩
  split
  · rfl
  · rfl
  · rfl
  · exact stay before wasThere

/-- Classes that are read from left to right, or have no direction of their own. -/
def RunsForward (cls : BidiClass) : Prop :=
  strongDirection? cls ≠ some .rightToLeft

instance (cls : BidiClass) : Decidable (RunsForward cls) :=
  inferInstanceAs (Decidable (_ ≠ _))

/-- What stays on the base level runs forward, once it is no number. -/
theorem runsForward_of_staysOnBase
    {cls : BidiClass}
    (stays : StaysOnBase cls)
    (noNumber : cls ≠ .europeanNumber) :
    RunsForward cls := by
  cases cls <;>
    first
      | decide
      | exact absurd rfl noNumber
      | exact absurd stays (by decide)

/-- After left-to-right letters all numbers are read as the letters are. -/
theorem runsForward_absorbNumbers
    {classes : List BidiClass}
    (stay : ∀ cls ∈ classes, StaysOnBase cls) :
    ∀ cls ∈ absorbNumbers .leftToRight classes, RunsForward cls := by
  induction classes with
  | nil => exact fun cls member => absurd member List.not_mem_nil
  | cons cls rest ofRest =>
      rcases List.forall_mem_cons.1 stay with ⟨staysHere, stayLater⟩
      unfold absorbNumbers
      split
      · rename_i isStrong
        obtain rfl := eq_leftToRight_of_isStrong staysHere isStrong
        exact List.forall_mem_cons.2 ⟨by decide, ofRest stayLater⟩
      · split
        · exact List.forall_mem_cons.2 ⟨by decide, ofRest stayLater⟩
        · rename_i noNumber
          have notEuropean : cls ≠ .europeanNumber := fun isNumber => noNumber ⟨isNumber, rfl⟩
          exact List.forall_mem_cons.2
            ⟨runsForward_of_staysOnBase staysHere notEuropean, ofRest stayLater⟩

theorem runsForward_resolveWeak
    {classes : List BidiClass}
    (stay : ∀ cls ∈ classes, StaysOnBase cls) :
    ∀ cls ∈ resolveWeak .leftToRight classes, RunsForward cls := by
  have staysBefore : StaysOnBase .leftToRight := rfl
  have marked := staysOnBase_resolveMarks staysBefore stay
  simp only [resolveWeak, resolveNumbers_eq_self staysBefore marked,
    resolveArabicLetters_eq_self marked]
  exact runsForward_absorbNumbers
    (staysOnBase_neutralizeSeparators
      (staysOnBase_resolveTerminators (staysOnBase_resolveSeparators marked)))

/-! ## Brackets -/

theorem mem_setBracket
    {cells : List Cell}
    {index : Nat}
    {cls other : BidiClass}
    {classes : Array BidiClass}
    (member : other ∈ setBracket cells index cls classes) :
    other ∈ classes ∨ other = cls := by
  unfold setBracket at member
  generalize List.range (marksAfter cells index + 1) = offsets at member
  induction offsets generalizing classes with
  | nil => exact Or.inl member
  | cons offset rest ofRest =>
      rcases ofRest member with before | isNew
      · exact Array.mem_or_eq_of_mem_setIfInBounds before
      · exact Or.inr isNew

/-- Text that runs forward gives no pair of brackets the other direction. -/
theorem pairDirection?_eq_leftToRight
    {sequence : RunSequence}
    (isForward : directionOf sequence.level = .leftToRight)
    {classes : Array BidiClass}
    (forward : ∀ cls ∈ classes, RunsForward cls)
    {pair : BracketPair}
    {direction : BidiClass}
    (isDirection : pairDirection? sequence classes pair = some direction) :
    direction = .leftToRight := by
  simp only [pairDirection?, isForward] at isDirection
  split at isDirection
  · exact (Option.some.inj isDirection).symm
  · split at isDirection
    · rename_i isBackward
      rcases List.mem_filterMap.1 (List.contains_iff_mem.1 isBackward) with ⟨cls, inside, isStrong⟩
      rw [Array.toList_extract, List.extract_eq_take_drop] at inside
      have isThere := List.mem_of_mem_drop (List.mem_of_mem_take inside)
      exact absurd isStrong (forward cls (Array.mem_toList_iff.1 isThere))
    · exact absurd isDirection (by simp)

theorem runsForward_resolvePair
    {sequence : RunSequence}
    (isForward : directionOf sequence.level = .leftToRight)
    (cells : List Cell)
    {classes : Array BidiClass}
    (forward : ∀ cls ∈ classes, RunsForward cls)
    (pair : BracketPair) :
    ∀ cls ∈ resolvePair sequence cells classes pair, RunsForward cls := by
  intro cls member
  unfold resolvePair at member
  split at member
  · rename_i direction isDirection
    obtain rfl := pairDirection?_eq_leftToRight isForward forward isDirection
    rcases mem_setBracket member with afterOpening | rfl
    · rcases mem_setBracket afterOpening with before | rfl
      · exact forward cls before
      · decide
    · decide
  · exact forward cls member

theorem runsForward_resolveBrackets
    {sequence : RunSequence}
    (isForward : directionOf sequence.level = .leftToRight)
    {classes : List BidiClass}
    (forward : ∀ cls ∈ classes, RunsForward cls) :
    ∀ cls ∈ resolveBrackets sequence classes, RunsForward cls := by
  unfold resolveBrackets
  generalize bracketPairs sequence classes = pairs
  have forwardAtStart : ∀ cls ∈ classes.toArray, RunsForward cls := by simpa using forward
  generalize classes.toArray = start at forwardAtStart
  simp only [Array.mem_toList_iff]
  induction pairs generalizing start with
  | nil => exact forwardAtStart
  | cons pair rest ofRest =>
      exact ofRest _ (runsForward_resolvePair isForward sequence.cells forwardAtStart pair)

/-! ## Neutral types -/

/-- The direction of the last letters before a place stays left to right. -/
theorem strongDirection?_getD_eq
    {cls : BidiClass}
    (forward : RunsForward cls) :
    (strongDirection? cls).getD .leftToRight = .leftToRight := by
  cases cls <;> first | rfl | exact absurd forward (by decide)

theorem runsForward_resolveNeutrals
    {finish : BidiClass}
    {resolved? : Option BidiClass}
    {classes : List BidiClass}
    (ofResolved : ∀ resolved ∈ resolved?, resolved = .leftToRight)
    (forward : ∀ cls ∈ classes, RunsForward cls) :
    ∀ cls ∈ resolveNeutrals .leftToRight finish .leftToRight resolved? classes,
      RunsForward cls := by
  induction classes generalizing resolved? with
  | nil => exact forward
  | cons cls rest ofRest =>
      rcases List.forall_mem_cons.1 forward with ⟨forwardHere, forwardLater⟩
      simp only [resolveNeutrals, ite_self]
      split
      · have isForward : resolved?.getD .leftToRight = .leftToRight := by
          cases resolved? with
          | none => rfl
          | some resolved => exact ofResolved resolved rfl
        rw [isForward]
        refine List.forall_mem_cons.2 ⟨by decide, ofRest ?_ forwardLater⟩
        rintro resolved ⟨⟩
        rfl
      · rw [strongDirection?_getD_eq forwardHere]
        exact List.forall_mem_cons.2 ⟨forwardHere, ofRest (by simp) forwardLater⟩

/-! ## Explicit levels -/

/-- Stray closings close nothing. -/
theorem Surroundings.after_start
    (base : Level)
    {cls : BidiClass}
    (stays : StaysOnBase cls)
    (following : List Glyph) :
    (start base).after cls following = start base := by
  cases cls <;> first | rfl | exact absurd stays (by decide)

theorem level_and_class_of_mem_cellsFrom
    {base : Level}
    {index : Nat}
    {glyphs : List Glyph}
    (stay : ∀ glyph ∈ glyphs, StaysOnBase glyph.cls)
    {cell : Cell}
    (member : cell ∈ cellsFrom index (.start base) glyphs) :
    cell.level = base ∧ StaysOnBase cell.cls := by
  induction glyphs generalizing index with
  | nil => exact absurd member List.not_mem_nil
  | cons glyph rest ofRest =>
      rcases List.forall_mem_cons.1 stay with ⟨staysHere, stayLater⟩
      simp only [cellsFrom, Surroundings.after_start base staysHere, ite_self] at member
      rcases List.mem_cons.1 member with rfl | later
      · exact ⟨rfl, staysHere⟩
      · exact ofRest stayLater later

/-! ## Sequences -/

theorem levelOf_eq_base
    {base : Level}
    {cells : List Cell}
    (onBase : ∀ cell ∈ cells, cell.level = base) :
    levelOf base cells = base := by
  cases cells with
  | nil => rfl
  | cons cell rest => exact onBase cell List.mem_cons_self

theorem levels_around_of_mem_runsOf
    {base before : Level}
    {stretches : List (List Cell)}
    (beforeOnBase : before = base)
    (onBase : ∀ stretch ∈ stretches, ∀ cell ∈ stretch, cell.level = base)
    {run : LevelRun}
    (member : run ∈ runsOf base before stretches) :
    run.levelBefore = base ∧ run.levelAfter = base := by
  induction stretches generalizing before with
  | nil => exact absurd member List.not_mem_nil
  | cons stretch rest ofRest =>
      rcases List.forall_mem_cons.1 onBase with ⟨onBaseHere, onBaseLater⟩
      rcases List.mem_cons.1 member with rfl | later
      · refine ⟨beforeOnBase, levelOf_eq_base fun cell inNext => ?_⟩
        cases rest with
        | nil => exact absurd inNext List.not_mem_nil
        | cons next rest =>
            exact onBaseLater next List.mem_cons_self cell (by simpa using inNext)
      · exact ofRest (levelOf_eq_base onBaseHere) onBaseLater later

theorem levels_around_of_mem_levelRuns
    {base : Level}
    {kept : List Cell}
    (onBase : ∀ cell ∈ kept, cell.level = base)
    {run : LevelRun}
    (isRun : run ∈ levelRuns base kept) :
    run.levelBefore = base ∧ run.levelAfter = base := by
  refine levels_around_of_mem_runsOf rfl (fun stretch isStretch cell member => onBase cell ?_) isRun
  rw [← List.flatten_splitBy (fun left right : Cell => left.level == right.level) kept]
  exact List.mem_flatten_of_mem isStretch member

/-- Where all text is on the base level, so are the two sides of every sequence. -/
theorem sides_of_mem_runSequences
    {base : Level}
    {kept : List Cell}
    (onBase : ∀ cell ∈ kept, cell.level = base)
    {sequence : RunSequence}
    (isSequence : sequence ∈ runSequences base kept) :
    sequence.level = base ∧
      sequence.startClass = directionOf base ∧ sequence.endClass = directionOf base := by
  rcases List.mem_map.1 isSequence with ⟨connected, isConnected, rfl⟩
  have ofRuns :
      ∀ run ∈ connected,
        run.levelBefore = base ∧ run.levelAfter = base ∧
          ∀ cell ∈ run.cells, cell.level = base := by
    refine forall_mem_connectRuns (by simp) (fun run isRun => ?_) connected isConnected
    have around := levels_around_of_mem_levelRuns onBase isRun
    exact ⟨around.1, around.2, fun cell inRun => onBase cell (mem_of_mem_levelRuns isRun inRun)⟩
  have isBase : (RunSequence.ofRuns base connected).level = base := by
    cases connected with
    | nil => rfl
    | cons run rest => exact levelOf_eq_base (ofRuns run List.mem_cons_self).2.2
  have beforeIsBase : (connected.head?.map LevelRun.levelBefore).getD base = base := by
    cases connected with
    | nil => rfl
    | cons run rest => exact (ofRuns run List.mem_cons_self).1
  have afterIsBase : levelAfter base connected = base := by
    unfold levelAfter
    split
    · rename_i run isLast
      split
      · rfl
      · exact (ofRuns run (List.mem_of_getLast? isLast)).2.1
    · rfl
  refine ⟨isBase, ?_, ?_⟩
  · change directionOf (max (RunSequence.ofRuns base connected).level _) = _
    rw [isBase, beforeIsBase, Nat.max_self]
  · change directionOf (max (RunSequence.ofRuns base connected).level _) = _
    rw [isBase, afterIsBase, Nat.max_self]

/-! ## Levels -/

theorem implicitLevel_eq_self
    {level : Level}
    (isForward : isRightToLeft level = false)
    {cls : BidiClass}
    (forward : RunsForward cls) :
    implicitLevel level cls = level := by
  unfold implicitLevel
  rw [if_neg (Bool.eq_false_iff.1 isForward)]
  cases cls <;> first | rfl | exact absurd forward (by decide)

section

variable
    {base : Level}
    (isForward : isRightToLeft base = false)

include isForward

/-- A sequence of text in the base direction resolves to the base level. -/
theorem eq_base_of_mem_resolvedLevels
    {kept : List Cell}
    (onBase : ∀ cell ∈ kept, cell.level = base ∧ StaysOnBase cell.cls)
    {sequence : RunSequence}
    (isSequence : sequence ∈ runSequences base kept)
    {entry : Nat × Level}
    (member : entry ∈ sequence.resolvedLevels) :
    entry.2 = base := by
  have isDirection : directionOf base = .leftToRight := by
    rw [directionOf, isForward]
    rfl
  have sides := sides_of_mem_runSequences (fun cell isKept => (onBase cell isKept).1) isSequence
  have stay : ∀ cls ∈ sequence.cells.map Cell.cls, StaysOnBase cls := by
    intro cls inSequence
    rcases List.mem_map.1 inSequence with ⟨cell, isCell, rfl⟩
    exact (onBase cell (mem_of_mem_runSequences isSequence isCell)).2
  have forward : ∀ cls ∈ sequence.resolvedClasses, RunsForward cls := by
    have sameDirection : directionOf sequence.level = .leftToRight := by
      rw [sides.1, isDirection]
    unfold RunSequence.resolvedClasses
    rw [sameDirection, sides.2.1, isDirection]
    exact runsForward_resolveNeutrals (by simp)
      (runsForward_resolveBrackets sameDirection (runsForward_resolveWeak stay))
  simp only [RunSequence.resolvedLevels, ← List.map_uncurry_zip_eq_zipWith] at member
  rcases List.mem_map.1 member with ⟨⟨cell, cls⟩, inZip, rfl⟩
  rw [Function.uncurry_apply_pair, sides.1]
  exact implicitLevel_eq_self isForward (forward cls (List.of_mem_zip inZip).2)

theorem eq_base_of_mem_bodyLevels
    {body : List Glyph}
    (stay : ∀ glyph ∈ body, StaysOnBase glyph.cls)
    {level : Level}
    (member : level ∈ bodyLevels base body) :
    level = base := by
  rcases eq_or_exists_of_mem_bodyLevels member with
    isBase | ⟨sequence, isSequence, entry, inSequence, rfl⟩
  · exact isBase
  · exact eq_base_of_mem_resolvedLevels isForward
      (fun cell kept => level_and_class_of_mem_cellsFrom stay (List.mem_of_mem_filter kept))
      isSequence inSequence

/-- Text in which nothing leaves an even base level is on that level throughout. -/
theorem levels_eq_replicate
    {text : List Char}
    (stay : ∀ c ∈ text, StaysOnBase (BidiClass.ofChar c)) :
    levels base text = List.replicate text.length base := by
  refine List.eq_replicate_iff.2 ⟨length_levels base text, fun level member => ?_⟩
  rcases eq_or_exists_of_mem_levelsFrom member with isBase | ⟨paragraph, inText, inParagraph⟩
  · exact isBase
  · refine eq_base_of_mem_bodyLevels isForward (fun glyph isGlyph => ?_) inParagraph
    rcases List.mem_map.1 (inText isGlyph) with ⟨c, inside, rfl⟩
    exact stay c inside

end

/-- Where a text needs no resolution, resolution puts all of it on the base level. -/
theorem levels_eq_replicate_of_needsResolution_eq_false
    {base : Level}
    {text : List Char}
    (isPlain : Analysis.needsResolution base text = false) :
    levels base text = List.replicate text.length base := by
  rw [Analysis.needsResolution, Bool.or_eq_false_iff, List.any_eq_false] at isPlain
  rcases isPlain with ⟨isForward, stay⟩
  exact levels_eq_replicate isForward fun c inside => Bool.eq_false_iff.2 (stay c inside)

end Folio.Bidi
