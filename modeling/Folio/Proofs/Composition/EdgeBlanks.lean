import Folio.Proofs.Composition.Independence
import Folio.Proofs.Composition.Nesting

/-!
# Blanks at the edges of entries

The level markers of a run are those that lead from level to level along its characters,
beginning with the level on which the text before it ended.  Blanks put in front of a run stand
on that level, and blanks put behind it on the level that its text has come to.  Neither makes
the way longer or lets it end elsewhere, and what is between keeps its levels.  So blanks may be
put at the edges of any entries, and entries of blanks anywhere: the markers stay, and all other
characters keep their levels.
-/

namespace Folio

/-! ## The way along levels -/

/-- The elements that raise or lower the level. -/
def levelMarkers (elements : List Element) : List Element :=
  elements.filter Element.isLevelMarker

@[simp]
theorem levelMarkers_append (first later : List Element) :
    levelMarkers (first ++ later) = levelMarkers first ++ levelMarkers later :=
  List.filter_append ..

@[simp]
theorem levelMarkers_levelShift (start finish : Bidi.Level) :
    levelMarkers (levelShift start finish) = levelShift start finish :=
  List.filter_eq_self.2 fun _ => isLevelMarker_of_mem_levelShift

/-- The markers that lead from level to level. -/
def levelPath (start : Bidi.Level) : List Bidi.Level → List Element
  | [] => []
  | level :: rest => levelShift start level ++ levelPath level rest

theorem levelPath_append (start : Bidi.Level) (first later : List Bidi.Level) :
    levelPath start (first ++ later) =
      levelPath start first ++ levelPath (lastLevel start first) later := by
  induction first generalizing start with
  | nil => rfl
  | cons level rest ofRest =>
      rw [List.cons_append, levelPath, ofRest, levelPath, lastLevel_cons, List.append_assoc]

@[simp]
theorem levelShift_self (level : Bidi.Level) : levelShift level level = [] := by
  simp [levelShift]

/-- To stay on a level takes no markers. -/
@[simp]
theorem levelPath_replicate (start : Bidi.Level) (count : Nat) :
    levelPath start (List.replicate count start) = [] := by
  induction count with
  | zero => rfl
  | succ count ofCount =>
      rw [List.replicate_succ, levelPath, ofCount, levelShift_self, List.nil_append]

/-- To stay where the way begins, and where it ends, takes no markers. -/
theorem levelPath_of_stays (start : Bidi.Level) (before after : Nat) (levels : List Bidi.Level) :
    levelPath start
        (List.replicate before start ++ levels ++
          List.replicate after (lastLevel start levels)) =
      levelPath start levels := by
  rw [levelPath_append, levelPath_append, lastLevel_append, lastLevel_replicate,
    levelPath_replicate, levelPath_replicate, List.nil_append, List.append_nil]

/-! ### What markers come to -/

theorem balance_levelShift (start finish : Bidi.Level) :
    (start : Int) + balance (levelShift start finish) = finish := by
  have leads := (leads_levelShift (Nat.zero_le start) (Nat.zero_le finish)).finish_eq
  exact leads.symm

theorem balance_levelPath (start : Bidi.Level) (levels : List Bidi.Level) :
    (start : Int) + balance (levelPath start levels) = lastLevel start levels := by
  induction levels generalizing start with
  | nil => exact Int.add_zero _
  | cons level rest ofRest =>
      rw [levelPath, balance_append, ← Int.add_assoc, balance_levelShift, ofRest, lastLevel_cons]

/-- Only level markers count. -/
theorem balance_levelMarkers (elements : List Element) :
    balance (levelMarkers elements) = balance elements := by
  rw [balance, levelMarkers, List.count_filter rfl, List.count_filter rfl, balance]

/-! ## The markers of a run -/

namespace Scan

theorem levelMarkers_flushWord
    (shift : Nat)
    (level : Bidi.Level)
    (start : Nat)
    (letters : List Char) :
    levelMarkers (flushWord shift level start letters) = [] := by
  unfold flushWord
  split <;> rfl

/-- What the scan puts out of a run are words and spaces. -/
theorem levelMarkers_step
    (shift : Nat)
    (level : Bidi.Level)
    (pending : Pending)
    (c : AnalyzedChar) :
    levelMarkers (step shift level pending c).1 = [] := by
  unfold step
  split
  · cases pending with
    | word start letters => exact levelMarkers_flushWord shift level start letters
    | gap hasBlank before => rfl
  · cases pending with
    | word start letters =>
        dsimp only
        split
        · exact levelMarkers_flushWord shift level start letters
        · rfl
    | gap hasBlank before =>
        dsimp only
        unfold spaceBefore
        split <;> rfl

theorem levelMarkers_finish (shift : Nat) (level : Bidi.Level) (pending : Pending) :
    levelMarkers (finish shift level pending) = [] := by
  cases pending with
  | word start letters => exact levelMarkers_flushWord shift level start letters
  | gap hasBlank before => cases hasBlank <;> rfl

theorem levelMarkers_elements
    (shift : Nat)
    (level : Bidi.Level)
    (pending : Pending)
    (run : List AnalyzedChar) :
    levelMarkers (elements shift level pending run) =
      levelPath level (run.map AnalyzedChar.level) := by
  induction run generalizing level pending with
  | nil => exact levelMarkers_finish shift level pending
  | cons c rest ofRest =>
      simp only [elements, levelMarkers_append, levelMarkers_step, levelMarkers_levelShift,
        List.nil_append, ofRest, List.map_cons, levelPath]

end Scan

namespace Composition

section

variable
    (rules : TextRules)
    (base : Bidi.Level)
    (carry : Carry)
    (run : String)

theorem levelMarkers_composeRun :
    levelMarkers (composeRun rules base carry run).1 =
      levelPath carry.level (Analysis.levels rules base carry.level run.toList) := by
  rw [← map_level_analyze]
  cases analyzed : analyze rules base carry.level run.toList with
  | nil =>
      simp only [composeRun, analyzed]
      rfl
  | cons first rest =>
      simp only [composeRun, analyzed, levelMarkers_append, levelMarkers_levelShift,
        Scan.levelMarkers_elements, List.map_cons, levelPath, levelShift_self, List.nil_append]

theorem level_composeRun :
    (composeRun rules base carry run).2.level =
      lastLevel carry.level (Analysis.levels rules base carry.level run.toList) := by
  rw [← map_level_analyze]
  cases analyzed : analyze rules base carry.level run.toList with
  | nil =>
      simp only [composeRun, analyzed]
      rfl
  | cons first rest =>
      simp only [composeRun, analyzed, List.map_cons, lastLevel_cons]
      rw [lastLevel, List.getLast?_map]
      cases rest.getLast? <;> rfl

end

end Composition

/-! ## Blanks around a run -/

namespace Analysis

section

variable
    (rules : TextRules)
    (base latest : Bidi.Level)

/-- Blanks before a run stand on the level on which the text before ended. -/
theorem levels_blanks_append
    {front : List Char}
    (areBlank : ∀ c ∈ front, isBlank c = true)
    (text : List Char) :
    levels rules base latest (front ++ text) =
      List.replicate front.length latest ++ levels rules base latest text := by
  have sameRest : (front ++ text).dropWhile isBlank = text.dropWhile isBlank :=
    List.dropWhile_append_of_pos areBlank
  have moreInFront : leadingBlanks (front ++ text) = front ++ leadingBlanks text :=
    List.takeWhile_append_of_pos areBlank
  have sameCore : core (front ++ text) = core text := by rw [core, sameRest, core]
  have sameEnd : trailingBlanks (front ++ text) = trailingBlanks text := by
    rw [trailingBlanks, sameRest, trailingBlanks]
  simp only [levels, sameCore, sameEnd, moreInFront, List.length_append,
    List.replicate_append_replicate.symm, List.append_assoc]

/-- A run of blanks stays where the text before it ended. -/
theorem levels_of_blanks
    {blanks : List Char}
    (areBlank : ∀ c ∈ blanks, isBlank c = true) :
    levels rules base latest blanks = List.replicate blanks.length latest := by
  have noText := levels_blanks_append rules base latest areBlank []
  rwa [List.append_nil, List.eq_nil_of_length_eq_zero (length_levels rules base latest []),
    List.append_nil] at noText

/-- Blanks behind a run stand on the level on which its text ends. -/
theorem levels_append_blanks
    {behind : List Char}
    (areBlank : ∀ c ∈ behind, isBlank c = true)
    (text : List Char) :
    levels rules base latest (text ++ behind) =
      levels rules base latest text ++
        List.replicate behind.length (lastLevel latest (levels rules base latest text)) := by
  by_cases allBlank : ∀ c ∈ text, isBlank c = true
  · -- Without other characters the blanks behind are further blanks in front.
    rw [levels_blanks_append rules base latest allBlank,
      levels_of_blanks rules base latest allBlank, levels_of_blanks rules base latest areBlank,
      lastLevel_replicate]
  · have someText : text.dropWhile isBlank ≠ [] := by
      rwa [ne_eq, List.dropWhile_eq_nil_iff]
    have nonempty : (text.dropWhile isBlank).isEmpty = false := by simpa using someText
    have restThenBehind :
        (text ++ behind).dropWhile isBlank = text.dropWhile isBlank ++ behind := by
      rw [List.dropWhile_append, nonempty]
      rfl
    have sameFront : leadingBlanks (text ++ behind) = leadingBlanks text := by
      apply List.append_cancel_right
      calc
        _ = text ++ behind := List.takeWhile_append_dropWhile
        _ = leadingBlanks text ++ text.dropWhile isBlank ++ behind := by
            rw [leadingBlanks, List.takeWhile_append_dropWhile]
        _ = leadingBlanks text ++ (text ++ behind).dropWhile isBlank := by
            rw [restThenBehind, List.append_assoc]
    have reversed : ∀ c ∈ behind.reverse, isBlank c = true :=
      fun c member => areBlank c (List.mem_reverse.1 member)
    have sameCore : core (text ++ behind) = core text := by
      rw [core, restThenBehind, List.reverse_append, List.dropWhile_append_of_pos reversed, core]
    have moreAtEnd : trailingBlanks (text ++ behind) = trailingBlanks text ++ behind := by
      rw [trailingBlanks, restThenBehind, List.reverse_append,
        List.takeWhile_append_of_pos reversed, List.reverse_append, List.reverse_reverse,
        trailingBlanks]
    rw [lastLevel_levels]
    simp only [levels, sameCore, sameFront, moreAtEnd, List.length_append,
      List.replicate_append_replicate.symm, List.append_assoc]
    rfl

/-- Blanks around a run stand on the levels on which it begins and ends. -/
theorem levels_of_blanks_around
    {front behind : List Char}
    (frontIsBlank : ∀ c ∈ front, isBlank c = true)
    (behindIsBlank : ∀ c ∈ behind, isBlank c = true)
    (text : List Char) :
    levels rules base latest (front ++ text ++ behind) =
      List.replicate front.length latest ++ levels rules base latest text ++
        List.replicate behind.length (lastLevel latest (levels rules base latest text)) := by
  rw [List.append_assoc, levels_blanks_append rules base latest frontIsBlank,
    levels_append_blanks rules base latest behindIsBlank, List.append_assoc]

end

end Analysis

/-- A character with its level, wherever it stands and whatever breaks before it. -/
def AnalyzedChar.leveled (c : AnalyzedChar) : Char × Bidi.Level :=
  (c.char, c.level)

theorem map_leveled_analyze
    (rules : TextRules)
    (base latest : Bidi.Level)
    (text : List Char) :
    (analyze rules base latest text).map AnalyzedChar.leveled =
      text.zip (Analysis.levels rules base latest text) := by
  calc
    _ = ((analyze rules base latest text).map AnalyzedChar.char).zip
          ((analyze rules base latest text).map AnalyzedChar.level) := List.zip_map'.symm
    _ = _ := by rw [map_char_analyze, map_level_analyze]

/-! ## Padded entries -/

/-- A text of ordinary blanks. -/
structure Blanks where
  text : String
  areBlank : ∀ c ∈ text.toList, isBlank c = true

/-- What stands in a padded paragraph for an entry, or for none. -/
inductive Padding where
  /-- An entry that is left as it is. -/
  | kept (entry : Entry)
  /-- A run with blanks put before and behind it. -/
  | around (front : Blanks) (run : String) (behind : Blanks)
  /-- A run of blanks that is put in. -/
  | added (blanks : Blanks)

namespace Padding

/-- The entries before the padding. -/
def original : Padding → List Entry
  | .kept entry => [entry]
  | .around _ run _ => [.text run]
  | .added _ => []

/-- The entries with the padding. -/
def padded : Padding → List Entry
  | .kept entry => [entry]
  | .around front run behind => [.text (front.text ++ run ++ behind.text)]
  | .added blanks => [.text blanks.text]

/-- For each character of the padded entries whether it is none of the padding. -/
def isOriginal : Padding → List Bool
  | .kept entry => List.replicate (entry.run?.getD "").length true
  | .around front run behind =>
      List.replicate front.text.length false ++ List.replicate run.length true ++
        List.replicate behind.text.length false
  | .added blanks => List.replicate blanks.text.length false

end Padding

/-- The items that are marked to be kept. -/
def keepMarked {α : Type} (marks : List Bool) (items : List α) : List α :=
  ((marks.zip items).filter Prod.fst).map Prod.snd

section

variable
    {α : Type}

theorem keepMarked_append
    {marks : List Bool}
    {items : List α}
    (sameLength : marks.length = items.length)
    (laterMarks : List Bool)
    (laterItems : List α) :
    keepMarked (marks ++ laterMarks) (items ++ laterItems) =
      keepMarked marks items ++ keepMarked laterMarks laterItems := by
  rw [keepMarked, List.zip_append sameLength, List.filter_append, List.map_append]
  rfl

theorem keepMarked_replicate_true
    {count : Nat}
    {items : List α}
    (sameLength : count = items.length) :
    keepMarked (List.replicate count true) items = items := by
  subst sameLength
  induction items with
  | nil => rfl
  | cons item rest ofRest => exact congrArg (List.cons item) ofRest

@[simp]
theorem keepMarked_replicate_false (count : Nat) (items : List α) :
    keepMarked (List.replicate count false) items = [] := by
  rw [keepMarked, List.map_eq_nil_iff, List.filter_eq_nil_iff]
  rintro ⟨mark, item⟩ member
  have isFalse := List.eq_of_mem_replicate (List.of_mem_zip member).1
  simp [isFalse]

end

/-! ## Padding keeps levels -/

namespace Composition

section

variable
    (rules : TextRules)
    (base : Bidi.Level)
    (image? : String → Option ImageData)

theorem analyzeEntries_append (carry : Carry) (first later : List Entry) :
    analyzeEntries rules base image? carry (first ++ later) =
      analyzeEntries rules base image? carry first ++
        analyzeEntries rules base image? (passEntries rules base image? carry first).2 later := by
  induction first generalizing carry with
  | nil => rfl
  | cons entry rest ofRest =>
      rw [List.cons_append, analyzeEntries, ofRest, ← List.append_assoc]
      rfl

/-- The characters of entries with their levels. -/
def leveledChars (carry : Carry) (entries : List Entry) : List (Char × Bidi.Level) :=
  (analyzeEntries rules base image? carry entries).map AnalyzedChar.leveled

theorem leveledChars_append (carry : Carry) (first later : List Entry) :
    leveledChars rules base image? carry (first ++ later) =
      leveledChars rules base image? carry first ++
        leveledChars rules base image? (passEntries rules base image? carry first).2 later := by
  rw [leveledChars, analyzeEntries_append, List.map_append]
  rfl

/-- The characters of a run on the levels that it has after text that ended on a level. -/
theorem leveledChars_text (carry : Carry) (run : String) :
    leveledChars rules base image? carry [.text run] =
      run.toList.zip (Analysis.levels rules base carry.level run.toList) := by
  rw [leveledChars, analyzeEntries, analyzeEntries, List.append_nil, analyzeEntry,
    map_leveled_analyze]

theorem length_leveledChars_text (carry : Carry) (run : String) :
    (leveledChars rules base image? carry [.text run]).length = run.length := by
  rw [leveledChars_text, List.length_zip, Analysis.length_levels, Nat.min_self,
    String.length_toList]

theorem passEntries_singleton (carry : Carry) (entry : Entry) :
    passEntries rules base image? carry [entry] = composeEntry rules image? base carry entry := by
  simp [passEntries]

/--
Entries and padded entries that have the same level markers and end on the same level, and whose
characters, the padding aside, are on the same levels.
-/
structure KeepLevels
    (carry other : Carry)
    (entries padded : List Entry)
    (isOriginal : List Bool) : Prop where
  markers :
    levelMarkers (passEntries rules base image? carry entries).1 =
      levelMarkers (passEntries rules base image? other padded).1
  finish :
    (passEntries rules base image? carry entries).2.level =
      (passEntries rules base image? other padded).2.level
  length :
    isOriginal.length = (leveledChars rules base image? other padded).length
  levels :
    keepMarked isOriginal (leveledChars rules base image? other padded) =
      leveledChars rules base image? carry entries

variable
    {rules base image?}
    {carry other : Carry}

theorem KeepLevels.append
    {first later firstPadded laterPadded : List Entry}
    {isOriginalFirst isOriginalLater : List Bool}
    (ofFirst : KeepLevels rules base image? carry other first firstPadded isOriginalFirst)
    (ofLater :
      KeepLevels rules base image? (passEntries rules base image? carry first).2
        (passEntries rules base image? other firstPadded).2 later laterPadded isOriginalLater) :
    KeepLevels rules base image? carry other (first ++ later) (firstPadded ++ laterPadded)
      (isOriginalFirst ++ isOriginalLater) where
  markers := by
    rw [passEntries_append, passEntries_append, levelMarkers_append, levelMarkers_append,
      ofFirst.markers, ofLater.markers]
  finish := by
    rw [passEntries_append, passEntries_append]
    exact ofLater.finish
  length := by
    rw [leveledChars_append, List.length_append, List.length_append, ofFirst.length,
      ofLater.length]
  levels := by
    rw [leveledChars_append, leveledChars_append, keepMarked_append ofFirst.length,
      ofFirst.levels, ofLater.levels]

/-- Blanks around a run change neither its markers nor its end nor the levels of its text. -/
theorem keepLevels_around
    (sameLevel : carry.level = other.level)
    (front behind : Blanks)
    (run : String) :
    KeepLevels rules base image? carry other [.text run]
      [.text (front.text ++ run ++ behind.text)]
      (Padding.around front run behind).isOriginal := by
  have paddedLevels :=
    Analysis.levels_of_blanks_around rules base other.level front.areBlank behind.areBlank
      run.toList
  have isText :
      (front.text ++ run ++ behind.text).toList =
        front.text.toList ++ run.toList ++ behind.text.toList := by
    simp
  refine ⟨?_, ?_, ?_, ?_⟩
  · simp only [passEntries_singleton, composeEntry, levelMarkers_composeRun, isText, paddedLevels,
      sameLevel, levelPath_of_stays]
  · simp only [passEntries_singleton, composeEntry, level_composeRun, isText, paddedLevels,
      sameLevel, lastLevel_of_stays]
  · simp [length_leveledChars_text, Padding.isOriginal, Nat.add_assoc]
  · rw [leveledChars_text, leveledChars_text, isText, paddedLevels, sameLevel,
      List.zip_append (by simp), List.zip_append (by simp), Padding.isOriginal,
      keepMarked_append (by simp [String.length_toList]),
      keepMarked_append (by simp [String.length_toList]), keepMarked_replicate_false,
      keepMarked_replicate_false, List.nil_append, List.append_nil]
    exact keepMarked_replicate_true (by simp [String.length_toList])

theorem keepLevels_added
    (sameLevel : carry.level = other.level)
    (blanks : Blanks) :
    KeepLevels rules base image? carry other [] [.text blanks.text]
      (Padding.added blanks).isOriginal := by
  have onLatest := Analysis.levels_of_blanks rules base other.level blanks.areBlank
  refine ⟨?_, ?_, ?_, ?_⟩
  · rw [passEntries_singleton, composeEntry, levelMarkers_composeRun, onLatest,
      levelPath_replicate]
    rfl
  · rw [passEntries_singleton, composeEntry, level_composeRun, onLatest, lastLevel_replicate]
    exact sameLevel
  · simp [length_leveledChars_text, Padding.isOriginal]
  · exact keepMarked_replicate_false ..

theorem keepLevels_kept
    (sameLevel : carry.level = other.level)
    (entry : Entry) :
    KeepLevels rules base image? carry other [entry] [entry] (Padding.kept entry).isOriginal := by
  cases entry with
  | text run =>
      refine ⟨?_, ?_, ?_, ?_⟩
      · simp only [passEntries_singleton, composeEntry, levelMarkers_composeRun, sameLevel]
      · simp only [passEntries_singleton, composeEntry, level_composeRun, sameLevel]
      · simp [length_leveledChars_text, Padding.isOriginal, Entry.run?]
      · rw [leveledChars_text, leveledChars_text, sameLevel]
        exact keepMarked_replicate_true (by simp [Entry.run?, String.length_toList])
  | resetBidi =>
      refine ⟨?_, rfl, rfl, rfl⟩
      simp only [passEntries_singleton, composeEntry, sameLevel]
  | style style => exact ⟨rfl, sameLevel, rfl, rfl⟩
  | fixedSpace width => exact ⟨rfl, sameLevel, rfl, rfl⟩
  | control kind isStart => exact ⟨rfl, sameLevel, rfl, rfl⟩
  | link kind target => exact ⟨rfl, sameLevel, rfl, rfl⟩
  | image id => exact ⟨rfl, sameLevel, rfl, rfl⟩

/-- Padding of any kind keeps levels. -/
theorem keepLevels_padding
    (sameLevel : carry.level = other.level)
    (padding : Padding) :
    KeepLevels rules base image? carry other padding.original padding.padded
      padding.isOriginal := by
  cases padding with
  | kept entry => exact keepLevels_kept sameLevel entry
  | around front run behind => exact keepLevels_around sameLevel front behind run
  | added blanks => exact keepLevels_added sameLevel blanks

theorem keepLevels_paddings
    (sameLevel : carry.level = other.level)
    (paddings : List Padding) :
    KeepLevels rules base image? carry other (paddings.flatMap Padding.original)
      (paddings.flatMap Padding.padded) (paddings.flatMap Padding.isOriginal) := by
  induction paddings generalizing carry other with
  | nil => exact ⟨rfl, sameLevel, rfl, rfl⟩
  | cons padding rest ofRest =>
      have ofPadding :
          KeepLevels rules base image? carry other padding.original padding.padded
            padding.isOriginal :=
        keepLevels_padding sameLevel padding
      exact ofPadding.append (ofRest ofPadding.finish)

end

/-! ## The level that the markers have reached -/

section

variable
    (rules : TextRules)
    (base : Bidi.Level)
    (image? : String → Option ImageData)

theorem balance_composeEntry (carry : Carry) (entry : Entry) :
    (carry.level : Int) + balance (composeEntry rules image? base carry entry).1 =
      (composeEntry rules image? base carry entry).2.level := by
  cases entry with
  | text run =>
      rw [composeEntry, ← balance_levelMarkers, levelMarkers_composeRun, level_composeRun,
        balance_levelPath]
  | resetBidi => exact balance_levelShift carry.level base
  | style style => exact Int.add_zero _
  | fixedSpace width => exact Int.add_zero _
  | control kind isStart => exact Int.add_zero _
  | link kind target => exact Int.add_zero _
  | image id =>
      simp only [composeEntry]
      cases image? id <;> exact Int.add_zero _

/-- After all entries the markers have led to the level that is carried on. -/
theorem balance_passEntries (carry : Carry) (entries : List Entry) :
    (carry.level : Int) + balance (passEntries rules base image? carry entries).1 =
      (passEntries rules base image? carry entries).2.level := by
  induction entries generalizing carry with
  | nil => exact Int.add_zero _
  | cons entry rest ofRest =>
      simp only [passEntries]
      rw [balance_append, ← Int.add_assoc, balance_composeEntry, ofRest]

end

/-! ## Filled paragraphs -/

theorem marked_eq_self
    (marks : Marks)
    {element : Element}
    (isLevel : element.isLevelMarker = true) :
    marked marks element = element := by
  cases element with
  | word word => exact absurd isLevel (by simp [Element.isLevelMarker])
  | _ => rfl

/-- Marks show on words only. -/
theorem levelMarkers_map_marked (marks : Marks) (elements : List Element) :
    levelMarkers (elements.map (marked marks)) = levelMarkers elements := by
  have sameFilter : Element.isLevelMarker ∘ marked marks = Element.isLevelMarker :=
    funext fun element => isLevelMarker_marked marks element
  rw [levelMarkers, List.filter_map, sameFilter, levelMarkers]
  refine (List.map_congr_left fun element isLevel => ?_).trans (List.map_id _)
  exact marked_eq_self marks (List.mem_filter.1 isLevel).2

/-- The level markers of a filled paragraph are those that its entries leave. -/
theorem levelMarkers_fill
    (rules : TextRules)
    (language : Language)
    (pool : Pool)
    {document : Document}
    {index : Nat}
    {paragraph : Paragraph}
    (found : document.paragraph? index = some paragraph)
    (hasText : paragraph.kind = .text ∨ paragraph.kind = .tree) :
    let base := language.baseLevel
    let passed := passEntries rules base document.image? ⟨base, 0⟩ paragraph.entries
    levelMarkers (fill rules document language index pool).1 =
      levelMarkers passed.1 ++ levelShift passed.2.level base := by
  intro base passed
  rw [fst_fill, levelMarkers_map_marked, ofDocument_eq rules language found hasText,
    composeEntries_eq, levelMarkers_append, levelMarkers_levelShift]

/--
Blanks that are put around the texts of entries, or between entries, leave the level markers of a
paragraph as they are, and all other characters on their levels.  After each of the entries the
markers have led to the level on which the analysis of the next begins.
-/
theorem blanks_at_edges_keep_levels
    (rules : TextRules)
    (document : Document)
    (language : Language)
    (index : Nat)
    (pool paddedPool : Pool)
    (paragraph : Paragraph)
    (paddings : List Padding)
    (found : document.paragraph? index = some paragraph)
    (hasText : paragraph.kind = .text ∨ paragraph.kind = .tree)
    (isParted : paragraph.entries = paddings.flatMap Padding.original) :
    let base := language.baseLevel
    let start : Carry := ⟨base, 0⟩
    let padded := paddings.flatMap Padding.padded
    let elements := (fill rules document language index pool).1
    let paddedElements :=
      (fill rules (document.setEntries index padded) language index paddedPool).1
    levelMarkers paddedElements = levelMarkers elements ∧
      keepMarked (paddings.flatMap Padding.isOriginal)
          (leveledChars rules base document.image? start padded) =
        leveledChars rules base document.image? start paragraph.entries ∧
      ∀ first later,
        padded = first ++ later →
          let passed := passEntries rules base document.image? start first
          let reached := passed.1.map (marked (Marks.ofParagraph document.marks index))
          reached <+: paddedElements ∧ (base : Int) + balance reached = passed.2.level := by
  intro base start padded elements paddedElements
  have keeps :
      KeepLevels rules base document.image? start start paragraph.entries padded
        (paddings.flatMap Padding.isOriginal) := by
    rw [isParted]
    exact keepLevels_paddings rfl paddings
  have foundPadded := Document.paragraph?_setEntries found padded
  refine ⟨?_, keeps.levels, ?_⟩
  · have markers := levelMarkers_fill rules language pool found hasText
    have paddedMarkers := levelMarkers_fill rules language paddedPool foundPadded hasText
    exact (paddedMarkers.trans
      (congrArg₂ (fun front level => front ++ levelShift level base)
        keeps.markers keeps.finish).symm).trans markers.symm
  · intro first later split passed reached
    constructor
    · have isFilled :
          paddedElements =
            (composeEntries rules document.image? base start padded).map
              (marked (Marks.ofParagraph document.marks index)) := by
        have composed := ofDocument_eq rules language foundPadded hasText
        exact (fst_fill ..).trans (congrArg (List.map _) composed)
      rw [isFilled, split, composeEntries_append, List.map_append]
      exact List.prefix_append reached _
    · rw [← balance_levelMarkers, levelMarkers_map_marked, balance_levelMarkers]
      exact balance_passEntries rules base document.image? start first

/-- The case of a Hebrew run between blanks, with a run of blanks put in before it. -/
theorem blanks_around_hebrew_keep_levels :
    let entries : List Entry := [.text "one", .text "\u05d0\u05d1", .text ""]
    let blank : Blanks := ⟨" \t", by simp [isBlank]⟩
    let paddings : List Padding :=
      [.kept (.text "one"), .added blank, .around blank "\u05d0\u05d1" blank,
        .around blank "" blank]
    let document := Document.plain [⟨.text, entries⟩]
    let rules := TextRules.standard .normal
    document.paragraph? 0 = some ⟨.text, entries⟩ ∧
      entries = paddings.flatMap Padding.original ∧
      levelMarkers
          (fill rules (document.setEntries 0 (paddings.flatMap Padding.padded)) .undetermined 0
            (.empty 4)).1 =
        levelMarkers (fill rules document .undetermined 0 (.empty 4)).1 := by
  intro entries blank paddings document rules
  have keeps :=
    blanks_at_edges_keep_levels rules document .undetermined 0 (.empty 4) (.empty 4)
      ⟨.text, entries⟩ paddings rfl (Or.inl rfl) rfl
  exact ⟨rfl, rfl, keeps.1⟩

end Composition

end Folio
