import Mathlib.Data.List.Forall2
import Folio.Proofs.Composition.TextTiling

/-!
# Where a run is cut

A run is read in one pass, but where it is cut can be told from neighbours alone.  Between two
letters it is cut exactly where they part: where a line may end and no hyphen stands before, or
where the level changes.  A gap, which is spacing with no more of it on either side, is never
cut, and shows as one space.

The boundaries and levels of the characters may be any at all.
-/

namespace Folio

/-! ## The stretches of a tiling -/

/-- The stretches that the elements of a tiling show, in their order. -/
theorem Tiling.exists_stretches
    {α : Type}
    {shows : List α → List α → List α → Element → Prop}
    {before rest : List α}
    {elements : List Element}
    (tiling : Tiling shows before rest elements) :
    ∃ stretches : List (List α),
      stretches.flatten = rest ∧
        List.Forall₂ (fun stretch element => ∃ before after, shows before stretch after element)
          stretches elements ∧
        ∀ front stretch back,
          stretches = front ++ stretch :: back →
            ∃ element,
              elements[front.length]? = some element ∧
                shows (before ++ front.flatten) stretch back.flatten element := by
  induction tiling with
  | done before => exact ⟨[], rfl, .nil, by simp⟩
  | @next before inside after element elements shown tail stretchesOfTail =>
      obtain ⟨stretches, joined, shownByEach, shownAt⟩ := stretchesOfTail
      refine ⟨inside :: stretches, by simp [joined], .cons ⟨before, after, shown⟩ shownByEach, ?_⟩
      intro front stretch back split
      cases front with
      | nil =>
          obtain ⟨rfl, rfl⟩ := List.cons.inj split
          exact ⟨element, rfl, by simpa [joined] using shown⟩
      | cons first front =>
          obtain ⟨rfl, splitRest⟩ := List.cons.inj split
          simpa using shownAt front stretch back splitRest

namespace Scan

/-! ## The rule -/

/-- The words and spaces of a run at `shift`, where `level` is the level in front of it. -/
def textual (shift : Nat) (level : Bidi.Level) (run : List AnalyzedChar) : List Element :=
  (elements shift level initial run).filter Element.isTextual

/-- An element stands for a stretch: a word for letters on its level, a space for spacing. -/
inductive StandsFor : List AnalyzedChar → Element → Prop where
  | word
      {stretch : List AnalyzedChar}
      {found : Word}
      (nonempty : stretch ≠ [])
      (letters : ∀ c ∈ stretch, isSpacing c.char = false ∧ c.level = found.level)
      (text : found.text.toList = stretch.map AnalyzedChar.char) :
      StandsFor stretch (.word found)
  | space
      {stretch : List AnalyzedChar}
      {marker : Marker}
      (isSpace : marker = .space ∨ marker = .noBreakSpace)
      (nonempty : stretch ≠ [])
      (spacing : ∀ c ∈ stretch, isSpacing c.char = true) :
      StandsFor stretch (.marker marker)

/-- One stretch ends with the last of these characters. -/
def CutsAfter (stretches : List (List AnalyzedChar)) (left : List AnalyzedChar) : Prop :=
  ∃ front back, stretches = front ++ back ∧ front.flatten = left

/-- Spacing that cannot be extended on either side. -/
structure IsGap (before gap after : List AnalyzedChar) : Prop where
  nonempty : gap ≠ []
  spacing : ∀ c ∈ gap, isSpacing c.char = true
  opens : ∀ last ∈ before.getLast?, isSpacing last.char = false
  closes : ∀ next ∈ after.head?, isSpacing next.char = false

/--
A line may end at a gap: it has an ordinary blank, and either the run ends with it, or a line
may end before the character after it and no hyphen stands before it.
-/
def EndsLine (before gap after : List AnalyzedChar) : Prop :=
  (∃ c ∈ gap, isBlank c.char = true) ∧
    (after = [] ∨
      (∃ next ∈ after.head?, next.boundary ≠ .closed) ∧
        ∀ last ∈ before.getLast?, last.char ≠ '-')

/-- The elements of a run stand for stretches that are cut by the rule. -/
structure CutByRule
    (run : List AnalyzedChar)
    (elements : List Element)
    (stretches : List (List AnalyzedChar)) :
    Prop where
  flatten_eq : stretches.flatten = run
  standFor : List.Forall₂ StandsFor stretches elements
  cutsAfter_iff :
    ∀ front left right back,
      run = front ++ left :: right :: back →
        isSpacing left.char = false →
          isSpacing right.char = false →
            (CutsAfter stretches (front ++ [left]) ↔
              (right.boundary ≠ .closed ∧ left.char ≠ '-') ∨ left.level ≠ right.level)
  gap_shown :
    ∀ before gap after,
      run = before ++ gap ++ after →
        IsGap before gap after →
          ∃ front back,
            stretches = front ++ gap :: back ∧
              front.flatten = before ∧
              (EndsLine before gap after →
                elements[front.length]? = some (.marker .space)) ∧
              (¬ EndsLine before gap after →
                elements[front.length]? = some (.marker .noBreakSpace))

/-! ## What is shown follows the rule -/

section

variable
    {shift : Nat}
    {before inside after : List AnalyzedChar}
    {element : Element}

theorem Shows.standsFor (shown : Shows shift before inside after element) :
    StandsFor inside element := by
  cases shown with
  | word level nonempty letters whole parted => exact .word nonempty letters (by simp)
  | space nonempty spacing opens closes =>
      exact .space (Composition.spaceFor_eq before inside after) nonempty spacing

theorem Shows.ne_nil (shown : Shows shift before inside after element) : inside ≠ [] := by
  cases shown with
  | word level nonempty letters whole parted => exact nonempty
  | space nonempty spacing opens closes => exact nonempty

/-- A stretch with a letter in it is a word: it is whole, and it ends where letters part. -/
theorem Shows.whole_and_parted
    (shown : Shows shift before inside after element)
    {c : AnalyzedChar}
    (member : c ∈ inside)
    (isLetter : isSpacing c.char = false) :
    (inside.IsChain fun left right => ¬ Parts left right) ∧
      ∀ last ∈ inside.getLast?, ∀ next ∈ after.head?,
        isSpacing next.char = true ∨ Parts last next := by
  cases shown with
  | word level nonempty letters whole parted => exact ⟨whole, parted⟩
  | space nonempty spacing opens closes =>
      exact absurd ((spacing c member).symm.trans isLetter) (by simp)

/-- A stretch with spacing in it is a gap, and shows as the space for it. -/
theorem Shows.isGap
    (shown : Shows shift before inside after element)
    {c : AnalyzedChar}
    (member : c ∈ inside)
    (isSpace : isSpacing c.char = true) :
    IsGap before inside after ∧ element = .marker (spaceFor before inside after) := by
  cases shown with
  | word level nonempty letters whole parted =>
      exact absurd ((letters c member).1.symm.trans isSpace) (by simp)
  | space nonempty spacing opens closes => exact ⟨⟨nonempty, spacing, opens, closes⟩, rfl⟩

end

theorem spaceFor_eq_space_iff (before gap after : List AnalyzedChar) :
    spaceFor before gap after = .space ↔ EndsLine before gap after := by
  cases after with
  | nil => simp [spaceFor, spaceAtEnd, EndsLine]
  | cons next rest =>
      cases isLast : before.getLast? <;>
        simp [spaceFor, spaceBefore, EndsLine, holdsLine, isLast, ← and_assoc]

/-- The characters of a gap are those up to the first that is no spacing. -/
theorem IsGap.takeWhile_append
    {before gap after : List AnalyzedChar}
    (isGap : IsGap before gap after) :
    (gap ++ after).takeWhile (fun c => isSpacing c.char) = gap := by
  rw [List.takeWhile_append_of_pos isGap.spacing]
  cases after with
  | nil => simp
  | cons next rest => simp [isGap.closes next rfl]

/-! ## Places in a run -/

theorem CutsAfter.exists_rest
    {stretches : List (List AnalyzedChar)}
    {left right : List AnalyzedChar}
    (cuts : CutsAfter stretches left)
    (joined : stretches.flatten = left ++ right) :
    ∃ front back, stretches = front ++ back ∧ front.flatten = left ∧ back.flatten = right := by
  obtain ⟨front, back, split, upTo⟩ := cuts
  refine ⟨front, back, split, upTo, ?_⟩
  rw [split, List.flatten_append, upTo] at joined
  exact List.append_cancel_left joined

/-- At any place of a run one stretch ends, or else the place is inside of one. -/
theorem cutsAfter_or_inside
    {stretches : List (List AnalyzedChar)}
    {left right : List AnalyzedChar}
    (joined : stretches.flatten = left ++ right) :
    CutsAfter stretches left ∨
      ∃ front first last next others back,
        stretches = front ++ (first ++ last :: next :: others) :: back ∧
          left = front.flatten ++ first ++ [last] ∧
          right = next :: others ++ back.flatten := by
  rcases List.flatten_eq_append_iff.1 joined with
    ⟨front, back, split, upTo, -⟩ | ⟨front, first, next, others, back, split, upTo, from_⟩
  · exact Or.inl ⟨front, back, split, upTo.symm⟩
  · cases isLast : first.getLast? with
    | none =>
        obtain rfl := List.getLast?_eq_none_iff.1 isLast
        exact Or.inl ⟨front, _, split, by simp [upTo]⟩
    | some last =>
        obtain ⟨first, rfl⟩ := List.getLast?_eq_some_iff.1 isLast
        exact Or.inr ⟨front, first, last, next, others, back, by simpa using split,
          by simp [upTo], from_⟩

section

variable
    {shift : Nat}
    {run : List AnalyzedChar}
    {elements : List Element}
    {stretches : List (List AnalyzedChar)}
    (joined : stretches.flatten = run)
    (shownAt :
      ∀ front stretch back,
        stretches = front ++ stretch :: back →
          ∃ element,
            elements[front.length]? = some element ∧
              Shows shift front.flatten stretch back.flatten element)

include joined shownAt

theorem cutsAfter_iff_parts
    {front back : List AnalyzedChar}
    {left right : AnalyzedChar}
    (split : run = front ++ left :: right :: back)
    (leftIsLetter : isSpacing left.char = false)
    (rightIsLetter : isSpacing right.char = false) :
    CutsAfter stretches (front ++ [left]) ↔ Parts left right := by
  have joinedHere : stretches.flatten = (front ++ [left]) ++ right :: back := by
    simp [joined, split]
  constructor
  · intro cuts
    obtain ⟨earlier, later, parts, upToLeft, fromRight⟩ := cuts.exists_rest joinedHere
    -- The last of the earlier stretches is not empty, so it ends with `left`.
    rcases List.eq_nil_or_concat earlier with rfl | ⟨earlier, stretch, rfl⟩
    · simp at upToLeft
    · rw [List.concat_eq_append] at parts upToLeft
      obtain ⟨element, -, shown⟩ := shownAt earlier stretch later (by simp [parts])
      have isLast : stretch.getLast? = some left := by
        have ends := congrArg List.getLast? upToLeft
        rw [List.flatten_concat, List.getLast?_append_of_ne_nil _ shown.ne_nil] at ends
        simpa using ends
      have letters := shown.whole_and_parted (List.mem_of_getLast? isLast) leftIsLetter
      have parted := letters.2 left isLast right (by simp [fromRight])
      exact parted.resolve_left (by simp [rightIsLetter])
  · intro parts
    rcases cutsAfter_or_inside joinedHere with
      cuts | ⟨earlier, first, last, next, others, later, inStretch, upToLeft, fromRight⟩
    · exact cuts
    · -- Inside of a stretch `left` and `right` would be neighbours that do not part.
      obtain ⟨rfl, -⟩ := List.cons.inj fromRight
      obtain rfl : left = last := by
        simpa using congrArg List.getLast? upToLeft
      obtain ⟨element, -, shown⟩ := shownAt earlier _ later inStretch
      have whole := (shown.whole_and_parted (c := left) (by simp) leftIsLetter).1
      have together := (List.isChain_cons_cons.1 (List.isChain_append.1 whole).2.1).1
      exact absurd parts together

theorem exists_gap_stretch
    {before gap after : List AnalyzedChar}
    (split : run = before ++ gap ++ after)
    (isGap : IsGap before gap after) :
    ∃ front back,
      stretches = front ++ gap :: back ∧
        front.flatten = before ∧
        elements[front.length]? = some (.marker (spaceFor before gap after)) := by
  obtain ⟨first, others, rfl⟩ := List.exists_cons_of_ne_nil isGap.nonempty
  have firstIsSpacing := isGap.spacing first List.mem_cons_self
  have joinedHere : stretches.flatten = before ++ (first :: others ++ after) := by
    rw [joined, split, List.append_assoc]
  rcases cutsAfter_or_inside joinedHere with
    cuts | ⟨earlier, front, last, next, rest, later, inStretch, upToGap, fromGap⟩
  · obtain ⟨front, later, parts, upToGap, fromGap⟩ := cuts.exists_rest joinedHere
    cases later with
    | nil => simp at fromGap
    | cons stretch back =>
        obtain ⟨element, found, shown⟩ := shownAt front stretch back parts
        obtain ⟨head, rest, rfl⟩ := List.exists_cons_of_ne_nil shown.ne_nil
        obtain ⟨rfl, -⟩ := List.cons.inj fromGap
        obtain ⟨stretchIsGap, rfl⟩ := shown.isGap List.mem_cons_self firstIsSpacing
        have same : head :: rest = head :: others := by
          rw [← stretchIsGap.takeWhile_append, ← isGap.takeWhile_append, ← fromGap,
            List.flatten_cons]
        rw [same] at parts found fromGap
        have sameAfter : back.flatten = after := List.append_cancel_left fromGap
        exact ⟨front, back, parts, upToGap, by rw [found, upToGap, sameAfter]⟩
  · -- A stretch with the gap in its midst would have both a letter and spacing in it.
    obtain ⟨rfl, -⟩ := List.cons.inj fromGap
    have lastIsLetter := isGap.opens last (by simp [upToGap])
    obtain ⟨element, -, shown⟩ := shownAt earlier _ later inStretch
    obtain ⟨stretchIsGap, -⟩ := shown.isGap (c := first) (by simp) firstIsSpacing
    have lastIsSpacing := stretchIsGap.spacing last (by simp)
    exact absurd (lastIsSpacing.symm.trans lastIsLetter) (by simp)

end

/-- The words and spaces of a run are cut by the rule, if its characters are in their places. -/
theorem exists_cutByRule
    {shift : Nat}
    {run : List AnalyzedChar}
    {elements : List Element}
    (tiling : Tiling (Shows shift) [] run elements) :
    ∃ stretches, CutByRule run elements stretches := by
  obtain ⟨stretches, joined, shownByEach, shownAt⟩ := tiling.exists_stretches
  simp only [List.nil_append] at shownAt
  refine ⟨stretches, joined, ?_, ?_, ?_⟩
  · refine shownByEach.imp ?_
    rintro stretch element ⟨before, after, shown⟩
    exact shown.standsFor
  · intro front left right back split leftIsLetter rightIsLetter
    exact cutsAfter_iff_parts joined shownAt split leftIsLetter rightIsLetter
  · intro before gap after split isGap
    obtain ⟨front, back, parts, upToGap, found⟩ := exists_gap_stretch joined shownAt split isGap
    refine ⟨front, back, parts, upToGap, fun ends => ?_, fun never => ?_⟩
    · rw [found, (spaceFor_eq_space_iff before gap after).2 ends]
    · have isOther :=
        (Composition.spaceFor_eq before gap after).resolve_left
          (mt (spaceFor_eq_space_iff before gap after).1 never)
      rw [found, isOther]

/-! ## Every run -/

/-- The characters of a text, with a boundary and a level for each offset. -/
def annotate
    (boundary : Nat → Boundary)
    (level : Nat → Bidi.Level)
    (text : List Char) :
    List AnalyzedChar :=
  (Utf8.places text).map fun (offset, char) =>
    { offset, char, boundary := boundary offset, level := level offset }

/--
Whatever the boundaries and levels of its characters are, a run is cut where neighbouring
letters part and around its gaps, and nowhere else.  So is every run of a paragraph.
-/
theorem runs_cut_where_neighbours_part :
    (∀ shift start boundary level text,
        ∃ stretches,
          CutByRule (annotate boundary level text)
            (textual shift start (annotate boundary level text)) stretches) ∧
      ∀ rules base carry (run : String),
        ∃ stretches,
          CutByRule (analyze rules base carry.level run.toList)
            ((Composition.composeRun rules base carry run).1.filter Element.isTextual)
            stretches := by
  constructor
  · intro shift start boundary level text
    have sameText : (annotate boundary level text).map AnalyzedChar.char = text := by
      simp [annotate, Utf8.places, Function.comp_def]
    have places :
        (annotate boundary level text).map (fun c => (c.offset, c.char)) =
          Utf8.placesFrom 0 text := by
      simp [annotate, Utf8.places, Function.comp_def]
    apply exists_cutByRule
    apply tiling_elements shift (annotate boundary level text) (.nothing rfl rfl)
    rw [sameText]
    exact places
  · intro rules base carry run
    exact exists_cutByRule (Composition.tiling_composeRun rules base carry run)

/-- Gaps after a hyphen, after a letter and at the end, and letters parted by their levels. -/
example :
    textual 0 0
        (annotate
          (fun offset => if offset = 5 ∨ offset = 9 then .optional else .closed)
          (fun offset => if offset < 10 then 0 else 1)
          "a-\u00a0 b\u00a0 cd- ".toList) =
      [.word ⟨"a-", 0, 0, []⟩, .marker .noBreakSpace, .word ⟨"b", 5, 0, []⟩, .marker .space,
        .word ⟨"c", 9, 0, []⟩, .word ⟨"d-", 10, 1, []⟩, .marker .space] := by
  decide +kernel

end Scan

end Folio
