import Folio.Proofs.Composition.EdgeBlanks

/-!
# A run, character by character

What analysis answers for each character of a run.  The pass over the breaks goes along the run
only once: after each break, all characters before the place it has come to stand before every
break that is left.  So it opens the boundaries at the reported offsets and no others, whichever
offsets there are besides: the two ends of the run, or the inside of a character.

The levels come in three parts, and the run ends on the level of its last character.
-/

namespace Folio

namespace Analysis

/-- The boundary before a character of a run, where lines may end at these offsets. -/
def boundaryAt (breaks : List Nat) (text : List Char) : Nat → Boundary
  | 0 => .closed
  | place + 1 =>
      if Utf8.size (text.take (place + 1)) ∈ breaks then
        (text[place]?.map openBoundary).getD .closed
      else
        .closed

/-! ## Where a break leads -/

section

variable
    {places : Array (Nat × Char)}
    {position place distance other offset : Nat}
    {c : Char}

theorem lt_of_lt_seek
    (after : place ≤ other)
    (before : other < seek places position place distance)
    (isThere : places[other]? = some (offset, c)) :
    offset < position := by
  induction distance generalizing place with
  | zero => exact absurd before (Nat.not_lt.2 after)
  | succ distance beforeNext =>
      unfold seek at before
      split at before
      · rename_i latest _ isLatest
        split at before
        · rename_i isBefore
          rcases Nat.eq_or_lt_of_le after with rfl | later
          · rw [isLatest] at isThere
            obtain ⟨rfl, rfl⟩ := Prod.mk.inj (Option.some.inj isThere)
            exact isBefore
          · exact beforeNext later before
        · exact absurd before (Nat.not_lt.2 after)
      · exact absurd before (Nat.not_lt.2 after)

theorem le_of_seek
    (reaches : places.size ≤ place + distance)
    (isThere : places[seek places position place distance]? = some (offset, c)) :
    position ≤ offset := by
  induction distance generalizing place with
  | zero =>
      have inRange := (Array.getElem?_eq_some_iff.1 isThere).1
      exact absurd inRange (Nat.not_lt.2 reaches)
  | succ distance leNext =>
      unfold seek at isThere
      split at isThere
      · rename_i latest _ isLatest
        split at isThere
        · exact leNext (by omega) isThere
        · rename_i notBefore
          rw [isLatest] at isThere
          obtain ⟨rfl, rfl⟩ := Prod.mk.inj (Option.some.inj isThere)
          exact Nat.not_lt.1 notBefore
      · rename_i isNone
        rw [isNone] at isThere
        exact absurd isThere (by simp)

end

/-! ## What the pass has marked -/

/--
What holds of a scan of a run that has passed some breaks, before others: the boundaries are
those of the breaks behind it, and the characters it has gone past stand before all breaks ahead.
-/
structure Passed (text : List Char) (behind ahead : List Nat) (scan : BreakScan) : Prop where
  fits : scan.Fits text.length
  boundary_eq : ∀ place, place < text.length →
    scan.boundaries[place]? = some (boundaryAt behind text place)
  before_ahead : ∀ place, place < scan.place → ∀ position ∈ ahead,
    Utf8.size (text.take place) < position

section

variable
    {text : List Char}
    {behind ahead : List Nat}
    {position place : Nat}
    {scan next : BreakScan}

theorem passed_initial (text : List Char) (ahead : List Nat) :
    Passed text [] ahead (.initial text.length) where
  fits := BreakScan.fits_initial text.length
  boundary_eq := by
    intro place inRange
    cases place <;> simp [BreakScan.initial, boundaryAt, inRange]
  before_ahead := fun place before => absurd before (Nat.not_lt_zero place)

/-- A break has to do with no character but the one that it stands before. -/
theorem boundaryAt_append_of_ne
    (elsewhere : place ≠ 0 → Utf8.size (text.take place) ≠ position) :
    boundaryAt (behind ++ [position]) text place = boundaryAt behind text place := by
  cases place with
  | zero => rfl
  | succ place =>
      have notHere := elsewhere (Nat.succ_ne_zero place)
      simp [boundaryAt, notHere]

theorem getElem?_toArray_places (text : List Char) (place : Nat) :
    (Utf8.places text).toArray[place]? =
      text[place]?.map fun c => (Utf8.size (text.take place), c) := by
  rw [List.getElem?_toArray, Utf8.getElem?_places]

theorem size_take_lt_size (inRange : place < text.length) :
    Utf8.size (text.take place) < Utf8.size text := by
  simpa using Utf8.size_take_lt inRange (Nat.le_refl text.length)

/-- A break leads past the characters that stand before it, and past no other. -/
theorem Passed.lt_iff_lt_found
    (passed : Passed text behind (position :: ahead) scan)
    (inRange : place < text.length) :
    Utf8.size (text.take place) < position ↔
      place < scan.found (Utf8.places text).toArray position := by
  have offsetOf {place : Nat} (inRange : place < text.length) :
      (Utf8.places text).toArray[place]? =
        some (Utf8.size (text.take place), text[place]) := by
    rw [getElem?_toArray_places, List.getElem?_eq_getElem inRange, Option.map_some]
  constructor
  · intro isBefore
    by_contra notPassed
    have foundLe := Nat.not_lt.1 notPassed
    have foundInRange := Nat.lt_of_le_of_lt foundLe inRange
    have reaches :
        (Utf8.places text).toArray.size ≤
          scan.place + ((Utf8.places text).toArray.size - scan.place) := by omega
    have notBefore := le_of_seek reaches (offsetOf foundInRange)
    rcases Nat.eq_or_lt_of_le foundLe with isFound | later
    · rw [isFound] at notBefore
      omega
    · have increases := Utf8.size_take_lt later (Nat.le_of_lt inRange)
      omega
  · intro isPassed
    by_cases already : place < scan.place
    · exact passed.before_ahead place already position List.mem_cons_self
    · exact lt_of_lt_seek (Nat.not_lt.1 already) isPassed (offsetOf inRange)

theorem Passed.eq_found
    (passed : Passed text behind (position :: ahead) scan)
    (inRange : place < text.length)
    (isHere : Utf8.size (text.take place) = position) :
    place = scan.found (Utf8.places text).toArray position := by
  have notPassed : ¬place < scan.found (Utf8.places text).toArray position := by
    rw [← passed.lt_iff_lt_found inRange]
    omega
  rcases Nat.eq_or_lt_of_le (Nat.not_lt.1 notPassed) with isFound | later
  · exact isFound.symm
  · have foundInRange := Nat.lt_trans later inRange
    have notBefore := (passed.lt_iff_lt_found foundInRange).not.2 (Nat.lt_irrefl _)
    have increases := Utf8.size_take_lt later (Nat.le_of_lt inRange)
    omega

theorem boundaryAt_append_self
    {c previous : Char}
    {offset : Nat}
    (notFirst : place ≠ 0)
    (here : (Utf8.places text).toArray[place]? = some (position, c))
    (before : (Utf8.places text).toArray[place - 1]? = some (offset, previous)) :
    boundaryAt (behind ++ [position]) text place = openBoundary previous := by
  obtain ⟨place, rfl⟩ := Nat.exists_eq_succ_of_ne_zero notFirst
  rw [getElem?_toArray_places] at here before
  obtain ⟨_, _, isHere⟩ := Option.map_eq_some_iff.1 here
  obtain ⟨_, isPrevious, isBefore⟩ := Option.map_eq_some_iff.1 before
  obtain ⟨rfl, -⟩ := Prod.mk.inj isHere
  obtain ⟨-, rfl⟩ := Prod.mk.inj isBefore
  rw [Nat.succ_sub_one] at isPrevious
  simp [boundaryAt, isPrevious]

/-- One break more is passed. -/
theorem Passed.of_marks
    (passed : Passed text behind (position :: ahead) scan)
    (inOrder : (position :: ahead).Pairwise (· ≤ ·))
    (marks : Marks (Utf8.size text) (Utf8.places text).toArray position scan next) :
    Passed text (behind ++ [position]) ahead next := by
  have sameCount : (Utf8.places text).toArray.size = text.length := by simp [Utf8.places]
  have nextFits : next.Fits text.length := sameCount ▸ marks.fits (sameCount ▸ passed.fits)
  cases marks with
  | unused atEnd =>
      refine ⟨nextFits, fun place inRange => ?_, fun place before other isAhead => ?_⟩
      · rw [passed.boundary_eq place inRange, boundaryAt_append_of_ne]
        intro notFirst isHere
        have notAtEnd := size_take_lt_size inRange
        have notAtStart :=
          Utf8.size_take_lt (Nat.pos_of_ne_zero notFirst) (Nat.le_of_lt inRange)
        omega
      · exact passed.before_ahead place before other (List.mem_cons_of_mem _ isAhead)
  | @reached opened inside opens =>
      refine ⟨nextFits, fun place inRange => ?_, fun place before other isAhead => ?_⟩
      · by_cases isHere : place ≠ 0 ∧ Utf8.size (text.take place) = position
        · have isFound := passed.eq_found inRange isHere.2
          cases opens with
          | stray notHere =>
              have character := getElem?_toArray_places text place
              rw [List.getElem?_eq_getElem inRange, Option.map_some, isHere.2] at character
              rw [← isFound] at notHere
              exact absurd (notHere _ character) isHere.1
          | marked notFirst here before =>
              rw [← isFound] at here before ⊢
              rw [boundaryAt_append_self isHere.1 here before]
              exact Array.getElem?_setIfInBounds_self_of_lt (passed.fits.size_eq ▸ inRange)
        · have elsewhere : place ≠ 0 → Utf8.size (text.take place) ≠ position := by
            intro notFirst isPosition
            exact isHere ⟨notFirst, isPosition⟩
          rw [boundaryAt_append_of_ne elsewhere, ← passed.boundary_eq place inRange]
          cases opens with
          | stray => rfl
          | marked notFirst here before =>
              apply Array.getElem?_setIfInBounds_ne
              rintro rfl
              rw [getElem?_toArray_places] at here
              obtain ⟨_, _, isThere⟩ := Option.map_eq_some_iff.1 here
              exact elsewhere notFirst (congrArg Prod.fst isThere)
      · have inRange : place < text.length := Nat.lt_of_lt_of_le before nextFits.place_le
        have isBefore := (passed.lt_iff_lt_found inRange).2 before
        have inFront := List.rel_of_pairwise_cons inOrder isAhead
        omega

end

/-- After its last break the pass has found the boundaries of the run. -/
theorem Passed.foldlM
    {text : List Char}
    {behind ahead : List Nat}
    {scan : BreakScan}
    (passed : Passed text behind ahead scan)
    (inOrder : ahead.Pairwise (· ≤ ·)) :
    ∃ last, ahead.foldlM (markBreak? (Utf8.size text) (Utf8.places text).toArray) scan = some last ∧
      Passed text (behind ++ ahead) [] last := by
  induction ahead generalizing behind scan with
  | nil => exact ⟨scan, rfl, by rwa [List.append_nil]⟩
  | cons position ahead ofAhead =>
      have sameCount : (Utf8.places text).toArray.size = text.length := by simp [Utf8.places]
      obtain ⟨next, stepped, marks⟩ :=
        exists_markBreak? (sameCount ▸ passed.fits) (Utf8.size text) position
      obtain ⟨last, ran, atEnd⟩ := ofAhead (passed.of_marks inOrder marks) inOrder.of_cons
      rw [List.append_assoc] at atEnd
      refine ⟨last, ?_, atEnd⟩
      rw [List.foldlM_cons, stepped]
      exact ran

theorem getElem?_boundaries
    {breaks : List Nat}
    {text : List Char}
    {place : Nat}
    (inOrder : breaks.Pairwise (· ≤ ·))
    (inRange : place < text.length) :
    (boundaries breaks (Utf8.places text))[place]? = some (boundaryAt breaks text place) := by
  obtain ⟨last, ran, atEnd⟩ := (passed_initial text breaks).foldlM inOrder
  have sameCount : (Utf8.places text).toArray.size = text.length := by simp [Utf8.places]
  have sameSize : Utf8.size ((Utf8.places text).map Prod.snd) = Utf8.size text := by
    simp [Utf8.places]
  have found : boundaries? breaks (Utf8.places text) = some last.boundaries.toList := by
    simp only [boundaries?, sameCount, sameSize, ran, Option.map_some]
  rw [boundaries, found, Option.getD_some, Array.getElem?_toList]
  exact atEnd.boundary_eq place inRange

end Analysis

open Analysis

section

variable
    (rules : TextRules)
    (base latest : Bidi.Level)
    (text : List Char)

/-- The character at a place of a run comes out of analysis at its offset, with its boundary. -/
theorem exists_getElem?_analyze
    {text : List Char}
    {place : Nat}
    {c : Char}
    (inOrder : (rules.breaks text).Pairwise (· ≤ ·))
    (isHere : text[place]? = some c) :
    ∃ entry, (analyze rules base latest text)[place]? = some entry ∧
      entry.char = c ∧
      entry.offset = Utf8.size (text.take place) ∧
      entry.boundary = boundaryAt (rules.breaks text) text place := by
  have inRange : place < text.length := (List.getElem?_eq_some_iff.1 isHere).1
  have isPlace : (Utf8.places text)[place]? = some (Utf8.size (text.take place), c) := by
    rw [Utf8.getElem?_places, isHere, Option.map_some]
  have isBoundary := getElem?_boundaries inOrder inRange
  have hasLevel : place < (levels rules base latest text).length := by simpa using inRange
  have isLevel := List.getElem?_eq_getElem hasLevel
  simp only [analyze_eq, List.getElem?_map, List.zip, List.getElem?_zipWith, isPlace, isBoundary,
    isLevel, Option.map_some]
  exact ⟨_, rfl, rfl, rfl, rfl⟩

/--
Analysis answers for each character of a run, and none of its lookups and slices fails.  A
character comes with its offset.  A line may end before it if its offset is reported and it is
not the first character, and must end there if the character before it ends lines.  Blanks at the
start stay on the level on which the text before ended.  What lies between the blanks at the two
ends is on the levels that the rules give it, or stays on the base level if it need not be
resolved.  Blanks at the end are on the last of these levels, and the run ends on the level of
its last character.
-/
theorem analysis_answers_for_each_character
    (inOrder : (rules.breaks text).Pairwise (· ≤ ·)) :
    ∃ chars finish,
      analyze? rules base latest text = some (chars, finish) ∧
      analyze rules base latest text = chars ∧
      chars.length = text.length ∧
      (∀ place c, text[place]? = some c →
        ∃ entry, chars[place]? = some entry ∧
          entry.char = c ∧
          entry.offset = Utf8.size (text.take place) ∧
          (place = 0 ∨ entry.offset ∉ rules.breaks text → entry.boundary = .closed) ∧
          ∀ previous, place ≠ 0 → entry.offset ∈ rules.breaks text →
            text[place - 1]? = some previous →
            entry.boundary = if endsLine previous then .mandatory else .optional) ∧
      (∃ front inner back, Trims text front inner back ∧
        ∃ resolved,
          (needsResolution base inner = true → resolved = rules.levels base inner) ∧
          (needsResolution base inner = false → resolved = List.replicate inner.length base) ∧
          chars.map AnalyzedChar.level =
            List.replicate front.length latest ++ resolved ++
              List.replicate back.length (lastLevel latest resolved)) ∧
      finish = lastLevel latest (chars.map AnalyzedChar.level) ∧
      ∀ offset,
        (Composition.composeRun rules base ⟨latest, offset⟩ (String.ofList text)).2.level =
          finish := by
  refine ⟨_, _, analyze?_eq rules base latest text, rfl, ?_, ?_, ?_, ?_, ?_⟩
  · rw [← List.length_map (f := AnalyzedChar.char), map_char_analyze]
  · intro place c isHere
    obtain ⟨entry, isEntry, isChar, isOffset, isBoundary⟩ :=
      exists_getElem?_analyze rules base latest inOrder isHere
    refine ⟨entry, isEntry, isChar, isOffset, ?_, ?_⟩
    · intro notOpen
      rw [isBoundary]
      cases place with
      | zero => rfl
      | succ place =>
          rw [isOffset] at notOpen
          exact if_neg (notOpen.resolve_left (Nat.succ_ne_zero place))
    · intro previous notFirst isReported isPrevious
      obtain ⟨place, rfl⟩ := Nat.exists_eq_succ_of_ne_zero notFirst
      rw [Nat.succ_sub_one] at isPrevious
      rw [isOffset] at isReported
      simp [isBoundary, boundaryAt, isReported, isPrevious, openBoundary]
  · refine ⟨_, _, _, trims text, coreLevels rules base (core text), ?_, ?_, ?_⟩
    · exact fun isNeeded => if_pos isNeeded
    · intro isPlain
      exact if_neg (Bool.not_eq_true _ ▸ isPlain)
    · exact map_level_analyze rules base latest text
  · rw [map_level_analyze]
  · intro offset
    rw [Composition.level_composeRun, String.toList_ofList]

/-- Offsets at the two ends of a run and inside a character are passed over. -/
theorem analysis_answers_beside_stray_breaks :
    let rules : TextRules :=
      { breaks := fun _ => [0, 2, 3, 4, 6, 7, 9, 20]
        levels := fun base text => text.map fun c => if c = 'א' then base else base + 1
        length_levels := fun _ _ => List.length_map .. }
    let text := " é\nאb ".toList
    (rules.breaks text).Pairwise (· ≤ ·) ∧
      (analyze? rules 1 0 text).map (fun found =>
          (found.1.map fun c => (c.offset, c.boundary, c.level), found.2)) =
        some
          ([(0, .closed, 0), (1, .closed, 2), (3, .optional, 2), (4, .mandatory, 1),
            (6, .optional, 2), (7, .optional, 2)], 2) ∧
      ∃ chars finish,
        analyze? rules 1 0 text = some (chars, finish) ∧ chars.length = text.length ∧
          finish = lastLevel 0 (chars.map AnalyzedChar.level) := by
  intro rules text
  have inOrder : (rules.breaks text).Pairwise (· ≤ ·) := by decide
  obtain ⟨chars, finish, found, -, sameLength, -, -, isFinish, -⟩ :=
    analysis_answers_for_each_character rules 1 0 text inOrder
  exact ⟨inOrder, by decide +kernel, chars, finish, found, sameLength, isFinish⟩

end

end Folio
