import Mathlib.Algebra.GroupWithZero.Nat
import Mathlib.Order.Bounds.Basic
import Folio.Proofs.Document.Occurrences
import Folio.Session.DocumentStep

/-!
# The leftmost occurrences

Where a pattern matches is told without reading: a text starts with the pattern if the pattern
is a prefix of it, character by character as the case mode counts characters as equal.  Taking
the leftmost place at which the pattern matches, then the leftmost one from the end of this
occurrence on, and so on, leaves no choice.  A search lists just these occurrences, for each
run of text by itself, and every place at which the pattern matches lies inside one of them.
-/

namespace Folio

/-- What is compared of a character: the character, or the characters of its lower case. -/
def CaseMode.fold : CaseMode → Char → List Char
  | .respect, c => [c]
  | .ignore, c => Lowercase.ofChar c

theorem CaseMode.agree_iff (mode : CaseMode) (left right : Char) :
    mode.agree left right = true ↔ mode.fold left = mode.fold right := by
  cases mode with
  | respect => simp [agree, fold]
  | ignore =>
      simp only [agree, fold, Bool.or_eq_true, beq_iff_eq, or_iff_right_iff_imp]
      exact congrArg Lowercase.ofChar

namespace Search

/-! ## Where a pattern matches -/

/-- The pattern is a prefix of the text, as the mode compares characters. -/
def StartsWith (mode : CaseMode) (pattern text : List Char) : Prop :=
  pattern.map mode.fold <+: text.map mode.fold

/-- The text from one of its characters on starts with the pattern. -/
def MatchesAt (mode : CaseMode) (pattern text : List Char) (place : Nat) : Prop :=
  StartsWith mode pattern (text.drop place)

section

variable
    {mode : CaseMode}
    {pattern text : List Char}

theorem StartsWith.length_le
    (starts : StartsWith mode pattern text) :
    pattern.length ≤ text.length := by
  have fits := List.IsPrefix.length_le starts
  rwa [List.length_map, List.length_map] at fits

/-- Reading the pattern off a text leaves what comes after as many characters. -/
theorem afterPattern?_eq_some_iff (rest : List Char) :
    afterPattern? mode pattern text = some rest ↔
      StartsWith mode pattern text ∧ rest = text.drop pattern.length := by
  induction pattern generalizing text with
  | nil => simp [afterPattern?, StartsWith, eq_comm]
  | cons p pattern ofPattern =>
      cases text with
      | nil => simp [afterPattern?, StartsWith]
      | cons c text =>
          have starts :
              StartsWith mode (p :: pattern) (c :: text) ↔
                mode.agree c p = true ∧ StartsWith mode pattern text := by
            rw [StartsWith, List.map_cons, List.map_cons, List.cons_prefix_cons,
              CaseMode.agree_iff, eq_comm]
            rfl
          rw [starts, afterPattern?, List.length_cons, List.drop_succ_cons]
          split
          · rename_i agrees
            rw [ofPattern, and_iff_right agrees]
          · rename_i differs
            simp [differs]

theorem afterPattern?_eq_none_iff :
    afterPattern? mode pattern text = none ↔ ¬ StartsWith mode pattern text := by
  constructor
  · intro none starts
    have found := (afterPattern?_eq_some_iff _).2 ⟨starts, rfl⟩
    exact absurd (none.symm.trans found) (by simp)
  · intro differs
    cases found : afterPattern? mode pattern text with
    | none => rfl
    | some rest => exact absurd ((afterPattern?_eq_some_iff rest).1 found).1 differs

theorem MatchesAt.add_length_le
    (nonempty : pattern ≠ [])
    {place : Nat}
    (isMatch : MatchesAt mode pattern text place) :
    place + pattern.length ≤ text.length := by
  have fits := StartsWith.length_le isMatch
  have positive := List.length_pos_iff.2 nonempty
  rw [List.length_drop] at fits
  omega

end

/-! ## Leftmost places -/

/--
From a place on these are the leftmost places at which the pattern matches, each one sought
from the end of the occurrence before.
-/
inductive TakesLeftmost
    (mode : CaseMode)
    (pattern text : List Char) :
    Nat → List Nat → Prop where
  | done
      {start : Nat}
      (noMatch : ∀ place, start ≤ place → ¬ MatchesAt mode pattern text place) :
      TakesLeftmost mode pattern text start []
  | hit
      {start place : Nat}
      {places : List Nat}
      (leftmost :
        IsLeast { other | start ≤ other ∧ MatchesAt mode pattern text other } place)
      (later : TakesLeftmost mode pattern text (place + pattern.length) places) :
      TakesLeftmost mode pattern text start (place :: places)

namespace TakesLeftmost

variable
    {mode : CaseMode}
    {pattern text : List Char}
    {start : Nat}
    {places : List Nat}

theorem unique
    {others : List Nat}
    (takes : TakesLeftmost mode pattern text start places)
    (takesOthers : TakesLeftmost mode pattern text start others) :
    others = places := by
  induction takes generalizing others with
  | done noMatch =>
      cases takesOthers with
      | done => rfl
      | hit leftmost =>
          obtain ⟨after, isMatch⟩ := leftmost.1
          exact absurd isMatch (noMatch _ after)
  | hit leftmost later ofLater =>
      cases takesOthers with
      | done noMatch =>
          obtain ⟨after, isMatch⟩ := leftmost.1
          exact absurd isMatch (noMatch _ after)
      | hit otherLeftmost otherLater =>
          obtain rfl := leftmost.unique otherLeftmost
          rw [ofLater otherLater]

theorem matchesAt
    (takes : TakesLeftmost mode pattern text start places)
    {place : Nat}
    (member : place ∈ places) :
    MatchesAt mode pattern text place := by
  induction takes with
  | done => exact absurd member List.not_mem_nil
  | hit leftmost _ ofLater =>
      rcases List.mem_cons.1 member with rfl | isLater
      · exact leftmost.1.2
      · exact ofLater isLater

/-- No place at which the pattern matches is passed over. -/
theorem exists_covering
    (takes : TakesLeftmost mode pattern text start places)
    {place : Nat}
    (after : start ≤ place)
    (isMatch : MatchesAt mode pattern text place) :
    ∃ hit ∈ places, hit ≤ place ∧ place < hit + pattern.length := by
  induction takes with
  | done noMatch => exact absurd isMatch (noMatch place after)
  | @hit _ hit _ leftmost _ ofLater =>
      rcases Nat.lt_or_ge place (hit + pattern.length) with inside | beyond
      · exact ⟨hit, List.mem_cons_self, leftmost.2 ⟨after, isMatch⟩, inside⟩
      · obtain ⟨other, member, covers⟩ := ofLater beyond
        exact ⟨other, List.mem_cons_of_mem hit member, covers⟩

/-- A place at which the pattern does not match may be passed over. -/
theorem of_succ
    (differs : ¬ MatchesAt mode pattern text start)
    (takes : TakesLeftmost mode pattern text (start + 1) places) :
    TakesLeftmost mode pattern text start places := by
  have passes :
      ∀ place, start ≤ place → MatchesAt mode pattern text place → start + 1 ≤ place := by
    intro place after isMatch
    apply Nat.succ_le_of_lt
    apply Nat.lt_of_le_of_ne after
    rintro rfl
    exact differs isMatch
  cases takes with
  | done noMatch =>
      apply done
      intro place after isMatch
      exact noMatch place (passes place after isMatch) isMatch
  | hit leftmost later =>
      refine hit ⟨⟨Nat.le_of_succ_le leftmost.1.1, leftmost.1.2⟩, ?_⟩ later
      rintro other ⟨after, isMatch⟩
      exact leftmost.2 ⟨passes other after isMatch, isMatch⟩

end TakesLeftmost

/-! ## Runs in their places -/

/-- A run of text with its paragraph and the bytes of text before it. -/
structure PlacedRun where
  paragraph : Nat
  offset : Nat
  text : List Char

/-- The byte offset, in the text of the paragraph, of a character of the run. -/
def PlacedRun.offsetOf (run : PlacedRun) (place : Nat) : Nat :=
  run.offset + Utf8.size (run.text.take place)

/-- The mark on as many characters of a run as the pattern has. -/
def PlacedRun.markAt (run : PlacedRun) (pattern : List Char) (place : Nat) : Mark where
  paragraph := run.paragraph
  offset := run.offsetOf place
  length := Utf8.size ((run.text.drop place).take pattern.length)

/-- The runs of a paragraph, after those before them. -/
def placedRunsOf (paragraph offset : Nat) (runs : List String) : List PlacedRun :=
  runs.mapIdx fun place run =>
    ⟨paragraph, offset + ((runs.take place).map String.utf8ByteSize).sum, run.toList⟩

/-- The runs of all paragraphs, in order. -/
def placedRuns (paragraphs : List Paragraph) : List PlacedRun :=
  (paragraphs.mapIdx fun index paragraph => placedRunsOf index 0 paragraph.runs).flatten

namespace PlacedRun

variable (run : PlacedRun)

theorem offsetOf_add (place count : Nat) :
    run.offsetOf (place + count) =
      run.offsetOf place + Utf8.size ((run.text.drop place).take count) := by
  rw [offsetOf, offsetOf, List.take_add, Utf8.size_append, Nat.add_assoc]

theorem offsetOf_le_offsetOf
    {early late : Nat}
    (inOrder : early ≤ late) :
    run.offsetOf early ≤ run.offsetOf late := by
  obtain ⟨count, rfl⟩ := Nat.exists_eq_add_of_le inOrder
  rw [offsetOf_add]
  exact Nat.le_add_right _ _

theorem offsetOf_lt_offsetOf
    {early late : Nat}
    (inOrder : early < late)
    (inRange : early < run.text.length) :
    run.offsetOf early < run.offsetOf late := by
  obtain ⟨count, rfl⟩ := Nat.exists_eq_add_of_lt inOrder
  rw [Nat.add_assoc, offsetOf_add]
  apply Nat.lt_add_of_pos_right
  apply Utf8.size_pos
  simp [inRange]

theorem finish_markAt (pattern : List Char) (place : Nat) :
    (run.markAt pattern place).finish = run.offsetOf (place + pattern.length) := by
  rw [offsetOf_add]
  rfl

end PlacedRun

theorem placedRunsOf_cons
    (paragraph offset : Nat)
    (run : String)
    (runs : List String) :
    placedRunsOf paragraph offset (run :: runs) =
      ⟨paragraph, offset, run.toList⟩ ::
        placedRunsOf paragraph (offset + run.utf8ByteSize) runs := by
  simp [placedRunsOf, List.mapIdx_cons, Nat.add_assoc]

/-- These marks are the leftmost occurrences in runs, one run after the other. -/
inductive Collects (mode : CaseMode) (pattern : List Char) : List PlacedRun → Marks → Prop where
  | nil : Collects mode pattern [] []
  | cons
      {run : PlacedRun}
      {runs : List PlacedRun}
      {places : List Nat}
      {marks : Marks}
      (takes : TakesLeftmost mode pattern run.text 0 places)
      (rest : Collects mode pattern runs marks) :
      Collects mode pattern (run :: runs) (places.map (run.markAt pattern) ++ marks)

namespace Collects

variable
    {mode : CaseMode}
    {pattern : List Char}
    {runs : List PlacedRun}
    {marks : Marks}

theorem unique
    {others : Marks}
    (collects : Collects mode pattern runs marks)
    (collectsOthers : Collects mode pattern runs others) :
    others = marks := by
  induction collects generalizing others with
  | nil =>
      cases collectsOthers
      rfl
  | cons takes _ ofRest =>
      cases collectsOthers with
      | cons otherTakes otherRest => rw [takes.unique otherTakes, ofRest otherRest]

theorem append
    {moreRuns : List PlacedRun}
    {moreMarks : Marks}
    (collects : Collects mode pattern runs marks)
    (more : Collects mode pattern moreRuns moreMarks) :
    Collects mode pattern (runs ++ moreRuns) (marks ++ moreMarks) := by
  induction collects with
  | nil => exact more
  | cons takes _ ofRest =>
      rw [List.append_assoc]
      exact cons takes ofRest

/-- Every mark is one of the occurrences. -/
theorem exists_of_mem
    (collects : Collects mode pattern runs marks)
    {mark : Mark}
    (member : mark ∈ marks) :
    ∃ run ∈ runs, ∃ place,
      MatchesAt mode pattern run.text place ∧ mark = run.markAt pattern place := by
  induction collects with
  | nil => exact absurd member List.not_mem_nil
  | @cons run _ _ _ takes _ ofRest =>
      rcases List.mem_append.1 member with here | inRest
      · obtain ⟨place, isPlace, rfl⟩ := List.mem_map.1 here
        exact ⟨run, List.mem_cons_self, place, takes.matchesAt isPlace, rfl⟩
      · obtain ⟨other, isRun, found⟩ := ofRest inRest
        exact ⟨other, List.mem_cons_of_mem run isRun, found⟩

/-- Every place at which the pattern matches lies inside an occurrence that is taken. -/
theorem exists_hit
    (collects : Collects mode pattern runs marks)
    {run : PlacedRun}
    (isRun : run ∈ runs)
    {place : Nat}
    (isMatch : MatchesAt mode pattern run.text place) :
    ∃ hit,
      run.markAt pattern hit ∈ marks ∧ hit ≤ place ∧ place < hit + pattern.length := by
  induction collects with
  | nil => exact absurd isRun List.not_mem_nil
  | @cons other _ _ _ takes _ ofRest =>
      rcases List.mem_cons.1 isRun with rfl | inRest
      · obtain ⟨hit, isHit, covers⟩ := takes.exists_covering (Nat.zero_le _) isMatch
        exact ⟨hit, List.mem_append_left _ (List.mem_map_of_mem isHit), covers⟩
      · obtain ⟨hit, member, covers⟩ := ofRest inRest
        exact ⟨hit, List.mem_append_right _ member, covers⟩

theorem exists_covering_mark
    (collects : Collects mode pattern runs marks)
    {run : PlacedRun}
    (isRun : run ∈ runs)
    {place : Nat}
    (inRange : place < run.text.length)
    (isMatch : MatchesAt mode pattern run.text place) :
    ∃ mark ∈ marks,
      mark.paragraph = run.paragraph ∧
        mark.offset ≤ run.offsetOf place ∧ run.offsetOf place < mark.finish := by
  obtain ⟨hit, member, notBefore, inside⟩ := collects.exists_hit isRun isMatch
  refine ⟨run.markAt pattern hit, member, rfl, run.offsetOf_le_offsetOf notBefore, ?_⟩
  rw [run.finish_markAt]
  exact run.offsetOf_lt_offsetOf inside inRange

end Collects

/-! ## What a search finds -/

section

variable
    {mode : CaseMode}
    {first : Char}
    {pattern : List Char}

/-- Reading a run from one of its characters on takes the leftmost places from there on. -/
theorem exists_takesLeftmost (run : PlacedRun) (offset : Nat) (text : List Char) :
    ∀ start,
      run.text.drop start = text →
        run.offsetOf start = offset →
          ∃ places,
            TakesLeftmost mode (first :: pattern) run.text start places ∧
              (stretches mode first pattern offset text).map
                  (fun (start, length) => ⟨run.paragraph, start, length⟩) =
                places.map (run.markAt (first :: pattern)) := by
  fun_induction stretches mode first pattern offset text with
  | case1 offset =>
      intro start isRest isOffset
      refine ⟨[], .done fun place after isMatch => ?_, rfl⟩
      have inRange := MatchesAt.add_length_le (List.cons_ne_nil first pattern) isMatch
      have beyond := List.drop_eq_nil_iff.1 isRest
      rw [List.length_cons] at inRange
      omega
  | case2 offset c text rest found shorter length ofRest =>
      intro start isRest isOffset
      obtain ⟨starts, isAfter⟩ := (afterPattern?_eq_some_iff rest).1 found
      have isMatch : MatchesAt mode (first :: pattern) run.text start := by
        rw [MatchesAt, isRest]
        exact starts
      have isLength :
          length = Utf8.size ((run.text.drop start).take (first :: pattern).length) := by
        have whole := Utf8.size_append ((c :: text).take (first :: pattern).length) rest
        rw [isAfter, List.take_append_drop, ← isAfter] at whole
        rw [isRest]
        exact Nat.sub_eq_of_eq_add whole
      obtain ⟨places, takes, areMarks⟩ :=
        ofRest (start + (first :: pattern).length)
          (by rw [← List.drop_drop, isRest, isAfter])
          (by rw [run.offsetOf_add, isOffset, isLength])
      refine ⟨start :: places, .hit ⟨⟨Nat.le_refl start, isMatch⟩, ?_⟩ takes, ?_⟩
      · exact fun other isOther => isOther.1
      · rw [List.map_cons, List.map_cons, areMarks, PlacedRun.markAt, isOffset, isLength]
  | case3 offset c text none ofRest =>
      intro start isRest isOffset
      have differs : ¬ MatchesAt mode (first :: pattern) run.text start := by
        rw [MatchesAt, isRest]
        exact afterPattern?_eq_none_iff.1 none
      obtain ⟨places, takes, areMarks⟩ :=
        ofRest (start + 1)
          (by rw [← List.drop_drop, isRest, List.drop_succ_cons, List.drop_zero])
          (by
            rw [run.offsetOf_add, isOffset, isRest, List.take_succ_cons, List.take_zero,
              Utf8.size_cons, Utf8.size_nil, Nat.add_zero])
      exact ⟨places, takes.of_succ differs, areMarks⟩

theorem collects_marksInRuns (paragraph offset : Nat) (runs : List String) :
    Collects mode (first :: pattern) (placedRunsOf paragraph offset runs)
      (marksInRuns mode first pattern paragraph offset runs) := by
  induction runs generalizing offset with
  | nil => exact .nil
  | cons run runs ofRuns =>
      obtain ⟨places, takes, areMarks⟩ :=
        exists_takesLeftmost ⟨paragraph, offset, run.toList⟩ offset run.toList 0 rfl rfl
      rw [placedRunsOf_cons, marksInRuns, areMarks]
      exact .cons takes (ofRuns _)

theorem collects_marksFrom (index : Nat) (paragraphs : List Paragraph) :
    Collects mode (first :: pattern)
      (paragraphs.mapIdx fun place paragraph =>
        placedRunsOf (index + place) 0 paragraph.runs).flatten
      (marksFrom mode first pattern index paragraphs) := by
  induction paragraphs generalizing index with
  | nil => exact .nil
  | cons paragraph rest ofRest =>
      have shifted := ofRest (index + 1)
      simp only [Nat.add_right_comm index 1] at shifted
      rw [List.mapIdx_cons, List.flatten_cons]
      exact (collects_marksInRuns index 0 paragraph.runs).append shifted

end

theorem exists_cons_of_ne_empty
    {pattern : String}
    (nonempty : pattern ≠ "") :
    ∃ first rest, pattern.toList = first :: rest := by
  apply List.exists_cons_of_ne_nil
  intro isEmpty
  apply nonempty
  rw [← String.toList_inj, isEmpty]
  rfl

theorem collects_marks
    (mode : CaseMode)
    {pattern : String}
    (nonempty : pattern ≠ "")
    (paragraphs : List Paragraph) :
    Collects mode pattern.toList (placedRuns paragraphs) (marks mode pattern paragraphs) := by
  obtain ⟨first, rest, isPattern⟩ := exists_cons_of_ne_empty nonempty
  have collects := @collects_marksFrom mode first rest 0 paragraphs
  simp only [Nat.zero_add] at collects
  rw [marks, isPattern]
  exact collects

/--
A search for a pattern that is not empty replaces the marks, and answers with them: they are
the leftmost occurrences in the runs of all paragraphs, and nothing else is.  They come in
increasing order without overlapping, each one is of some bytes and lies on whole characters of
one run, and whatever place of a run the pattern matches at lies inside one of them.
-/
theorem search_takes_leftmost_occurrences
    (document : Document)
    (mode : CaseMode)
    {pattern : String}
    (nonempty : pattern ≠ "") :
    let runs := placedRuns document.paragraphs.toList
    ∃ found : Marks,
      Session.runDocument document (.search pattern mode) =
          ({ document with marks := found }, .hits found) ∧
        (∀ others, Collects mode pattern.toList runs others ↔ others = found) ∧
        (found.Pairwise fun earlier later => earlier < later ∧ Precedes earlier later) ∧
        (∀ mark ∈ found,
          0 < mark.length ∧
            ∃ run ∈ runs, ∃ place,
              place + pattern.toList.length ≤ run.text.length ∧
                mark.paragraph = run.paragraph ∧
                mark.offset = run.offsetOf place ∧
                mark.finish = run.offsetOf (place + pattern.toList.length)) ∧
        ∀ run ∈ runs, ∀ place,
          MatchesAt mode pattern.toList run.text place →
            ∃ mark ∈ found,
              mark.paragraph = run.paragraph ∧
                mark.offset ≤ run.offsetOf place ∧ run.offsetOf place < mark.finish := by
  intro runs
  have collects : Collects mode pattern.toList runs (marks mode pattern _) :=
    collects_marks mode nonempty document.paragraphs.toList
  have hasCharacters : pattern.toList ≠ [] := by
    obtain ⟨first, rest, isPattern⟩ := exists_cons_of_ne_empty nonempty
    rw [isPattern]
    exact List.cons_ne_nil first rest
  refine ⟨marks mode pattern document.paragraphs.toList, rfl, ?_, ?_, ?_, ?_⟩
  · intro others
    constructor
    · exact collects.unique
    · rintro rfl
      exact collects
  · exact (pairwise_marks mode pattern _).and (pairwise_precedes_marks mode pattern _)
  · intro mark member
    refine ⟨length_pos_of_mem_marks mode pattern _ mark member, ?_⟩
    obtain ⟨run, isRun, place, isMatch, rfl⟩ := collects.exists_of_mem member
    exact ⟨run, isRun, place, isMatch.add_length_le hasCharacters, rfl, rfl,
      run.finish_markAt pattern.toList place⟩
  · intro run isRun place isMatch
    have inRange : place < run.text.length := by
      have fits := isMatch.add_length_le hasCharacters
      have positive := List.length_pos_iff.2 hasCharacters
      omega
    exact collects.exists_covering_mark isRun inRange isMatch

/-- An occurrence with other letters of more bytes, and one in a later run. -/
theorem search_takes_leftmost_occurrences_of_other_case :
    let document : Document :=
      .plain [⟨.text, [.text "ẞẞß", .fixedSpace 2, .text "Fuß"]⟩]
    "ßß" ≠ "" ∧
      ∃ found : Marks,
        Session.runDocument document (.search "ßß" .ignore) =
            ({ document with marks := found }, .hits found) ∧
          found = [⟨0, 0, 6⟩] := by
  intro document
  have nonempty : "ßß" ≠ "" := by decide
  obtain ⟨found, isRun, -⟩ :=
    search_takes_leftmost_occurrences document .ignore nonempty
  refine ⟨nonempty, found, isRun, ?_⟩
  have searched := congrArg (fun answer => answer.1.marks) isRun
  exact searched.symm.trans (by decide +kernel)

end Search

end Folio
