import Mathlib.Data.List.TakeWhile
import Folio.Proofs.Composition.Entries

/-!
# What the carried level can change

A run is analyzed on the level on which the text before it ended.  That level stays on the blanks
at the ends of the run and on no other character, and the scan reads the level of spacing only
to put in level markers.  So all other elements of a run are the same wherever it stands, but
for the offsets of its words, which move with the run.
-/

namespace Folio

/-! ## Elements apart from level markers -/

/-- Whether an element raises or lowers the level. -/
def Element.isLevelMarker : Element → Bool
  | .marker .startReversed => true
  | .marker .endReversed => true
  | _ => false

/-- The elements that neither raise nor lower the level. -/
def withoutLevels (elements : List Element) : List Element :=
  elements.filter fun element => !element.isLevelMarker

@[simp]
theorem withoutLevels_nil : withoutLevels [] = [] := rfl

@[simp]
theorem withoutLevels_append (first later : List Element) :
    withoutLevels (first ++ later) = withoutLevels first ++ withoutLevels later :=
  List.filter_append ..

theorem isLevelMarker_of_mem_levelShift
    {start finish : Bidi.Level}
    {element : Element}
    (member : element ∈ levelShift start finish) :
    element.isLevelMarker = true := by
  rcases List.mem_append.1 member with falls | rises
  · rw [List.eq_of_mem_replicate falls]
    rfl
  · rw [List.eq_of_mem_replicate rises]
    rfl

@[simp]
theorem withoutLevels_levelShift (start finish : Bidi.Level) :
    withoutLevels (levelShift start finish) = [] := by
  rw [withoutLevels, List.filter_eq_nil_iff]
  intro element member
  simp [isLevelMarker_of_mem_levelShift member]

/-- Changes that make no other element of a level marker, and none of another element. -/
theorem withoutLevels_map
    {change : Element → Element}
    (keeps : ∀ element, (change element).isLevelMarker = element.isLevelMarker)
    (elements : List Element) :
    withoutLevels (elements.map change) = (withoutLevels elements).map change := by
  have sameFilter :
      (fun element => !element.isLevelMarker) ∘ change = fun element => !element.isLevelMarker :=
    funext fun element => congrArg not (keeps element)
  rw [withoutLevels, List.filter_map, sameFilter, withoutLevels]

theorem map_levelShift
    {change : Element → Element}
    (keeps : ∀ marker, change (.marker marker) = .marker marker)
    (start finish : Bidi.Level) :
    (levelShift start finish).map change = levelShift start finish := by
  rw [levelShift, List.map_append, List.map_replicate, List.map_replicate, keeps, keeps]

/-! ## Elements further on in the text -/

/-- A word so many bytes further on in the text. -/
def Word.shiftBy (offset : Nat) (word : Word) : Word :=
  { word with offset := word.offset + offset }

/-- An element so many bytes further on in the text; only words know where they are. -/
def Element.shiftBy (offset : Nat) : Element → Element
  | .word found => .word (found.shiftBy offset)
  | element => element

theorem isLevelMarker_shiftBy (offset : Nat) (element : Element) :
    (element.shiftBy offset).isLevelMarker = element.isLevelMarker := by
  cases element <;> rfl

namespace Scan

/-! ## A run further on in the text -/

theorem flushWord_shiftBy
    (shift : Nat)
    (level : Bidi.Level)
    (start : Nat)
    (letters : List Char) :
    flushWord shift level start letters =
      (flushWord 0 level start letters).map (Element.shiftBy shift) := by
  cases letters with
  | nil => rfl
  | cons letter rest =>
      simp [flushWord, Element.shiftBy, Word.shiftBy, Nat.add_comm]

theorem step_shiftBy
    (shift : Nat)
    (level : Bidi.Level)
    (pending : Pending)
    (c : AnalyzedChar) :
    step shift level pending c =
      ((step 0 level pending c).1.map (Element.shiftBy shift), (step 0 level pending c).2) := by
  cases pending with
  | word start letters =>
      simp only [step, flushWord_shiftBy shift]
      split
      · rfl
      · split <;> rfl
  | gap hasBlank before =>
      simp only [step]
      split <;> rfl

theorem elements_shiftBy
    (shift : Nat)
    (level : Bidi.Level)
    (pending : Pending)
    (run : List AnalyzedChar) :
    elements shift level pending run =
      (elements 0 level pending run).map (Element.shiftBy shift) := by
  induction run generalizing level pending with
  | nil =>
      cases pending with
      | word start letters => exact flushWord_shiftBy shift level start letters
      | gap hasBlank before => rfl
  | cons c rest ofRest =>
      have unmoved (start finish : Bidi.Level) :
          (levelShift start finish).map (Element.shiftBy shift) = levelShift start finish :=
        map_levelShift (fun _ => rfl) start finish
      simp only [elements, step_shiftBy shift, List.map_append, unmoved, ← ofRest]

/-! ## The level of spacing -/

/-- What the scan needs to know of a character, level markers aside. -/
def essence (c : AnalyzedChar) : Nat × Char × Boundary × Option Bidi.Level :=
  (c.offset, c.char, c.boundary, if isSpacing c.char then none else some c.level)

/-- The level matters only if a word has been begun. -/
def AgreeOn (pending : Pending) (left right : Bidi.Level) : Prop :=
  ∀ start letters, pending = .word start letters → letters ≠ [] → left = right

theorem flushWord_congr
    (shift : Nat)
    {left right : Bidi.Level}
    {start : Nat}
    {letters : List Char}
    (agree : AgreeOn (.word start letters) left right) :
    flushWord shift left start letters = flushWord shift right start letters := by
  cases letters with
  | nil => rfl
  | cons letter letters => rw [agree start (letter :: letters) rfl (List.cons_ne_nil _ _)]

/-- Characters that the scan cannot tell apart are read alike. -/
theorem step_congr
    (shift : Nat)
    {left right : Bidi.Level}
    {pending : Pending}
    (agree : AgreeOn pending left right)
    {c d : AnalyzedChar}
    (same : essence c = essence d) :
    step shift left pending c = step shift right pending d ∧
      AgreeOn (step shift left pending c).2 c.level d.level := by
  obtain ⟨offset, char, boundary, level⟩ := c
  obtain ⟨_, _, _, otherLevel⟩ := d
  simp only [essence, Prod.mk.injEq] at same
  obtain ⟨rfl, rfl, rfl, sameLevel⟩ := same
  cases spacing : isSpacing char with
  | true =>
      -- Spacing ends a word, and no word is begun after it.
      cases pending with
      | word start letters =>
          simp only [step, spacing, if_true, flushWord_congr shift agree]
          exact ⟨trivial, fun _ _ isWord => absurd isWord (by simp)⟩
      | gap hasBlank before =>
          simp only [step, spacing, if_true]
          exact ⟨trivial, fun _ _ isWord => absurd isWord (by simp)⟩
  | false =>
      simp only [spacing, Bool.false_eq_true, if_false, Option.some.injEq] at sameLevel
      refine ⟨?_, fun _ _ _ _ => sameLevel⟩
      subst sameLevel
      cases pending with
      | word start letters =>
          cases letters with
          | nil => rfl
          | cons letter letters => rw [agree start (letter :: letters) rfl (List.cons_ne_nil _ _)]
      | gap hasBlank before => rfl

/-- The levels of spacing show in level markers only. -/
theorem withoutLevels_elements_congr
    (shift : Nat)
    {left right : Bidi.Level}
    {pending : Pending}
    (agree : AgreeOn pending left right)
    {run other : List AnalyzedChar}
    (same : run.map essence = other.map essence) :
    withoutLevels (elements shift left pending run) =
      withoutLevels (elements shift right pending other) := by
  induction run generalizing left right pending other with
  | nil =>
      obtain rfl := List.map_eq_nil_iff.1 same.symm
      cases pending with
      | word start letters => exact congrArg withoutLevels (flushWord_congr shift agree)
      | gap hasBlank before => rfl
  | cons c rest ofRest =>
      cases other with
      | nil => exact absurd same (by simp)
      | cons d rest' =>
          obtain ⟨sameHere, sameRest⟩ := List.cons.inj same
          obtain ⟨sameStep, agreeNext⟩ := step_congr shift agree sameHere
          rw [elements, elements, ← sameStep]
          simp only [withoutLevels_append, withoutLevels_levelShift]
          rw [ofRest agreeNext sameRest]

end Scan

/-! ## Runs on other levels -/

namespace Analysis

/-- The level on which a run begins stays on blanks. -/
theorem getElem?_levels_eq
    (rules : TextRules)
    (base latest other : Bidi.Level)
    {text : List Char}
    {place : Nat}
    {c : Char}
    (found : text[place]? = some c)
    (notBlank : isBlank c = false) :
    (levels rules base latest text)[place]? = (levels rules base other text)[place]? := by
  have notIn {blanks : List Char} (areBlank : ∀ c ∈ blanks, isBlank c = true) (place : Nat) :
      blanks[place]? ≠ some c := by
    intro isHere
    exact absurd (areBlank c (List.mem_of_getElem? isHere)) (by simp [notBlank])
  have leading : ∀ c ∈ leadingBlanks text, isBlank c = true := fun _ => List.mem_takeWhile_imp
  have trailing : ∀ c ∈ trailingBlanks text, isBlank c = true := by
    intro c member
    exact List.mem_takeWhile_imp (List.mem_reverse.1 member)
  rw [← leadingBlanks_append_core_append_trailingBlanks text] at found
  by_cases beforeEnd : place < (leadingBlanks text ++ core text).length
  · rw [List.getElem?_append_left beforeEnd] at found
    by_cases beforeCore : place < (leadingBlanks text).length
    · rw [List.getElem?_append_left beforeCore] at found
      exact absurd found (notIn leading place)
    · rw [List.length_append] at beforeEnd
      have inCore (latest : Bidi.Level) :
          (levels rules base latest text)[place]? =
            (coreLevels rules base (core text))[place - (leadingBlanks text).length]? := by
        rw [levels, List.getElem?_append_left (by simpa using beforeEnd),
          List.getElem?_append_right (by simpa using beforeCore), List.length_replicate]
      rw [inCore, inCore]
  · rw [List.getElem?_append_right (Nat.le_of_not_lt beforeEnd)] at found
    exact absurd found (notIn trailing _)

end Analysis

open Analysis in
/-- The scan cannot tell on which level a run was begun. -/
theorem map_essence_analyze
    (rules : TextRules)
    (base latest other : Bidi.Level)
    (text : List Char) :
    (analyze rules base latest text).map Scan.essence =
      (analyze rules base other text).map Scan.essence := by
  apply List.ext_getElem?
  intro place
  simp only [analyze_eq, List.map_map, List.getElem?_map, List.zip, List.getElem?_zipWith]
  cases isPlace : (Utf8.places text)[place]? with
  | none => rfl
  | some cell =>
      obtain ⟨offset, c⟩ := cell
      have found : text[place]? = some c := by
        rw [← Utf8.map_snd_placesFrom 0 text, List.getElem?_map, ← Utf8.places, isPlace]
        rfl
      have inRange : place < text.length := (List.getElem?_eq_some_iff.1 found).1
      have answered (latest : Bidi.Level) :
          ∃ level, (levels rules base latest text)[place]? = some level :=
        ⟨_, List.getElem?_eq_getElem (by simpa using inRange)⟩
      obtain ⟨level, isLevel⟩ := answered latest
      obtain ⟨otherLevel, isOther⟩ := answered other
      cases spacing : isSpacing c with
      | true =>
          rw [isLevel, isOther]
          cases (boundaries (rules.breaks text) (Utf8.places text))[place]? with
          | none => rfl
          | some boundary => simp [Scan.essence, spacing]
      | false =>
          have notBlank : isBlank c = false := by
            simp only [isSpacing, Bool.or_eq_false_iff] at spacing
            exact spacing.1
          rw [getElem?_levels_eq rules base latest other found notBlank]

namespace Composition

/-! ## Entries on other levels -/

section

variable
    (rules : TextRules)
    (base : Bidi.Level)

/-- Any level will do to scan a run on, level markers aside. -/
theorem withoutLevels_composeRun_eq (carry : Carry) (run : String) :
    withoutLevels (composeRun rules base carry run).1 =
      (withoutLevels
        (Scan.elements 0 base Scan.initial (analyze rules base base run.toList))).map
          (Element.shiftBy carry.offset) := by
  have noWord (left right : Bidi.Level) : Scan.AgreeOn Scan.initial left right := by
    intro start letters isWord nonempty
    exact absurd (Pending.word.inj isWord).2.symm nonempty
  have scanned :
      withoutLevels (composeRun rules base carry run).1 =
        withoutLevels
          (Scan.elements carry.offset base Scan.initial
            (analyze rules base carry.level run.toList)) := by
    cases analyzed : analyze rules base carry.level run.toList with
    | nil =>
        simp only [composeRun, analyzed]
        rfl
    | cons first rest =>
        simp only [composeRun, analyzed, withoutLevels_append, withoutLevels_levelShift,
          List.nil_append]
        exact Scan.withoutLevels_elements_congr carry.offset (noWord first.level base) rfl
  rw [scanned, Scan.withoutLevels_elements_congr carry.offset (noWord base base)
    (map_essence_analyze rules base carry.level base run.toList), Scan.elements_shiftBy,
    withoutLevels_map (isLevelMarker_shiftBy _)]

variable
    (image? : String → Option ImageData)

/-- What an entry leaves, level markers aside, only moves with the text before it. -/
theorem withoutLevels_composeEntry (carry : Carry) (entry : Entry) :
    withoutLevels (composeEntry rules image? base carry entry).1 =
      (withoutLevels (composeEntry rules image? base ⟨base, 0⟩ entry).1).map
        (Element.shiftBy carry.offset) := by
  cases entry with
  | text run =>
      have alone := withoutLevels_composeRun_eq rules base ⟨base, 0⟩ run
      have unmoved : Element.shiftBy 0 = id := by
        funext element
        cases element <;> rfl
      rw [unmoved, List.map_id] at alone
      simp only [composeEntry]
      rw [alone, withoutLevels_composeRun_eq]
  | style style => rfl
  | fixedSpace width => rfl
  | control kind isStart => rfl
  | link kind target => rfl
  | image id =>
      simp only [composeEntry]
      cases image? id <;> rfl
  | resetBidi => simp [composeEntry]

/-- The number of bytes of the text of entries. -/
def textSize (entries : List Entry) : Nat :=
  (Paragraph.mk .text entries).textSize

theorem textSize_cons (entry : Entry) (rest : List Entry) :
    textSize (entry :: rest) = textSize [entry] + textSize rest := by
  cases entry with
  | text run => rfl
  | _ => exact (Nat.zero_add _).symm

theorem offset_composeEntry_eq (carry : Carry) (entry : Entry) :
    (composeEntry rules image? base carry entry).2.offset = carry.offset + textSize [entry] := by
  cases entry with
  | text run => exact offset_composeRun rules base carry run
  | _ => rfl

/-- Level markers aside, entries leave what each leaves alone, moved by the text before it. -/
theorem withoutLevels_composeEntries (carry : Carry) (entries : List Entry) :
    withoutLevels (composeEntries rules image? base carry entries) =
      (entries.mapIdx fun place entry =>
        (withoutLevels (composeEntry rules image? base ⟨base, 0⟩ entry).1).map
          (Element.shiftBy (carry.offset + textSize (entries.take place)))).flatten := by
  induction entries generalizing carry with
  | nil => exact withoutLevels_levelShift ..
  | cons entry rest ofRest =>
      have sizeBefore (place : Nat) :
          textSize ((entry :: rest).take (place + 1)) =
            textSize [entry] + textSize (rest.take place) :=
        textSize_cons entry (rest.take place)
      rw [composeEntries_cons, withoutLevels_append, withoutLevels_composeEntry, ofRest,
        offset_composeEntry_eq, List.mapIdx_cons, List.flatten_cons]
      simp only [sizeBefore, Nat.add_assoc]
      rfl

/-- Returns to the base level put in and take out level markers only. -/
theorem withoutLevels_composeEntries_of_resets
    {carry other : Carry}
    (sameOffset : carry.offset = other.offset)
    (entries : List Entry) :
    withoutLevels
        (composeEntries rules image? base carry (entries.filter (· ≠ .resetBidi))) =
      withoutLevels (composeEntries rules image? base other entries) := by
  induction entries generalizing carry other with
  | nil => simp [composeEntries]
  | cons entry rest ofRest =>
      rw [composeEntries_cons, withoutLevels_append]
      by_cases isReset : entry = .resetBidi
      · subst isReset
        have unmoved : (composeEntry rules image? base other .resetBidi).2.offset = other.offset :=
          rfl
        have nothing : withoutLevels (composeEntry rules image? base other .resetBidi).1 = [] :=
          withoutLevels_levelShift ..
        rw [List.filter_cons_of_neg (by simp), nothing, List.nil_append]
        exact ofRest (sameOffset.trans unmoved.symm)
      · rw [List.filter_cons_of_pos (by simpa using isReset), composeEntries_cons,
          withoutLevels_append, withoutLevels_composeEntry, withoutLevels_composeEntry _ _ _ other,
          sameOffset]
        congr 1
        apply ofRest
        rw [offset_composeEntry_eq, offset_composeEntry_eq, sameOffset]

end

end Composition

end Folio
