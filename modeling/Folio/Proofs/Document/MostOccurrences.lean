import Mathlib.Combinatorics.Enumerative.DoubleCounting
import Folio.Proofs.Document.GreedySearch

/-!
# How many occurrences a search finds

All occurrences of a pattern are of as many characters as the pattern, so two of them that start
inside a third one overlap.  Every occurrence starts inside one that a search takes.  Of
occurrences that do not overlap, each one therefore starts inside one of its own, and no more
of them can be chosen than the search finds.

What is an occurrence where case is respected is one where it is ignored, of the same bytes.  So
a search that ignores case has the larger choice and never finds fewer, though it may find
others.
-/

namespace Folio.Search

/-! ## Occurrences -/

/-- The pattern is read off a run from one of its characters on, and the mark is on what is read. -/
def Occurs (mode : CaseMode) (pattern : List Char) (run : PlacedRun) (mark : Mark) : Prop :=
  ∃ place rest,
    place < run.text.length ∧
      afterPattern? mode pattern (run.text.drop place) = some rest ∧
        mark.paragraph = run.paragraph ∧
          mark.offset = run.offsetOf place ∧
            mark.length = Utf8.size (run.text.drop place) - Utf8.size rest

/-- Two marks share a byte, or one without bytes lies inside the other. -/
def Overlap (left right : Mark) : Prop :=
  left.paragraph = right.paragraph ∧ left.offset < right.finish ∧ right.offset < left.finish

/-- Occurrences in runs that do not overlap. -/
structure IsChoice
    (mode : CaseMode)
    (pattern : List Char)
    (runs : List PlacedRun)
    (chosen : Finset Mark) :
    Prop where
  occurs : ∀ mark ∈ chosen, ∃ run ∈ runs, Occurs mode pattern run mark
  apart : (chosen : Set Mark).Pairwise fun left right => ¬ Overlap left right

theorem Overlap.symm
    {left right : Mark}
    (overlap : Overlap left right) :
    Overlap right left :=
  ⟨overlap.1.symm, overlap.2.2, overlap.2.1⟩

theorem Precedes.not_overlap
    {earlier later : Mark}
    (precedes : Precedes earlier later) :
    ¬ Overlap earlier later := by
  rintro ⟨sameParagraph, -, startsInside⟩
  rcases precedes with above | ⟨-, apart⟩
  · exact absurd sameParagraph (Nat.ne_of_lt above)
  · exact absurd startsInside (Nat.not_lt.2 apart)

section

variable
    {mode : CaseMode}
    {pattern : List Char}
    {run : PlacedRun}

/-- The occurrences are the marks on places at which the pattern matches. -/
theorem occurs_iff
    (nonempty : pattern ≠ [])
    (mark : Mark) :
    Occurs mode pattern run mark ↔
      ∃ place, MatchesAt mode pattern run.text place ∧ mark = run.markAt pattern place := by
  have length_eq (text : List Char) :
      Utf8.size text - Utf8.size (text.drop pattern.length) =
        Utf8.size (text.take pattern.length) := by
    have whole := Utf8.size_append (text.take pattern.length) (text.drop pattern.length)
    rw [List.take_append_drop] at whole
    omega
  constructor
  · rintro ⟨place, rest, -, isRead, sameParagraph, sameOffset, sameLength⟩
    obtain ⟨isMatch, rfl⟩ := (afterPattern?_eq_some_iff rest).1 isRead
    rw [length_eq] at sameLength
    obtain ⟨paragraph, offset, length⟩ := mark
    obtain rfl : paragraph = run.paragraph := sameParagraph
    obtain rfl : offset = run.offsetOf place := sameOffset
    obtain rfl := sameLength
    exact ⟨place, isMatch, rfl⟩
  · rintro ⟨place, isMatch, rfl⟩
    have fits := isMatch.add_length_le nonempty
    have positive := List.length_pos_iff.2 nonempty
    refine ⟨place, _, by omega, (afterPattern?_eq_some_iff _).2 ⟨isMatch, rfl⟩, rfl, rfl, ?_⟩
    rw [length_eq]
    rfl

/-- Two occurrences overlap if the later one starts less than a pattern after the earlier one. -/
theorem overlap_markAt
    (nonempty : pattern ≠ [])
    {early late : Nat}
    (inOrder : early ≤ late)
    (close : late < early + pattern.length)
    (inRange : late < run.text.length) :
    Overlap (run.markAt pattern early) (run.markAt pattern late) := by
  have positive := List.length_pos_iff.2 nonempty
  refine ⟨rfl, ?_, ?_⟩
  · rw [run.finish_markAt]
    exact Nat.lt_of_le_of_lt (run.offsetOf_le_offsetOf inOrder)
      (run.offsetOf_lt_offsetOf (Nat.lt_add_of_pos_right positive) inRange)
  · rw [run.finish_markAt]
    exact run.offsetOf_lt_offsetOf close inRange

end

/-! ## Runs do not overlap -/

/-- The byte offset, in the text of the paragraph, at which a run ends. -/
def PlacedRun.finish (run : PlacedRun) : Nat :=
  run.offset + Utf8.size run.text

/-- One run ends before another starts, or it stands in an earlier paragraph. -/
def PlacedRun.Precedes (earlier later : PlacedRun) : Prop :=
  earlier.paragraph < later.paragraph ∨
    earlier.paragraph = later.paragraph ∧ earlier.finish ≤ later.offset

/-- Within one paragraph the runs follow one another, from an offset on. -/
theorem pairwise_placedRunsOf (paragraph offset : Nat) (runs : List String) :
    (∀ run ∈ placedRunsOf paragraph offset runs,
        run.paragraph = paragraph ∧ offset ≤ run.offset) ∧
      (placedRunsOf paragraph offset runs).Pairwise PlacedRun.Precedes := by
  induction runs generalizing offset with
  | nil => exact ⟨by simp [placedRunsOf], .nil⟩
  | cons run rest ofRest =>
      obtain ⟨standAfter, inOrder⟩ := ofRest (offset + run.utf8ByteSize)
      rw [placedRunsOf_cons]
      constructor
      · rintro other (_ | ⟨_, member⟩)
        · exact ⟨rfl, Nat.le_refl offset⟩
        · obtain ⟨sameParagraph, after⟩ := standAfter other member
          exact ⟨sameParagraph, Nat.le_of_add_right_le after⟩
      · refine .cons ?_ inOrder
        intro other member
        obtain ⟨sameParagraph, after⟩ := standAfter other member
        refine Or.inr ⟨sameParagraph.symm, ?_⟩
        rwa [PlacedRun.finish, Utf8.size_toList]

theorem pairwise_placedRuns (paragraphs : List Paragraph) :
    (placedRuns paragraphs).Pairwise PlacedRun.Precedes := by
  rw [placedRuns, List.pairwise_flatten]
  constructor
  · intro runs member
    obtain ⟨index, inRange, rfl⟩ := List.mem_mapIdx.1 member
    exact (pairwise_placedRunsOf index 0 _).2
  · refine List.pairwise_iff_getElem.2 fun early late _ _ inOrder => ?_
    simp only [List.getElem_mapIdx]
    intro earlier inEarly later inLate
    have above := ((pairwise_placedRunsOf early 0 _).1 earlier inEarly).1
    have below := ((pairwise_placedRunsOf late 0 _).1 later inLate).1
    exact Or.inl (by rwa [above, below])

/-- A mark on one run is none on a run that follows. -/
theorem PlacedRun.Precedes.markAt_ne
    {earlier later : PlacedRun}
    (precedes : earlier.Precedes later)
    (pattern : List Char)
    {early : Nat}
    (inRange : early < earlier.text.length)
    (late : Nat) :
    earlier.markAt pattern early ≠ later.markAt pattern late := by
  intro same
  have sameParagraph : earlier.paragraph = later.paragraph := congrArg Mark.paragraph same
  have sameOffset : earlier.offsetOf early = later.offsetOf late := congrArg Mark.offset same
  have before : earlier.offsetOf early < earlier.finish := by
    have whole := earlier.offsetOf_lt_offsetOf inRange inRange
    rwa [offsetOf, offsetOf, List.take_length] at whole
  have after : later.offset ≤ later.offsetOf late := Nat.le_add_right _ _
  rcases precedes with above | ⟨-, apart⟩
  · exact absurd sameParagraph (Nat.ne_of_lt above)
  · omega

/-- A mark tells the run that it is on, and the place in it. -/
theorem eq_of_markAt_eq
    {runs : List PlacedRun}
    (inOrder : runs.Pairwise PlacedRun.Precedes)
    {pattern : List Char}
    {run other : PlacedRun}
    (isRun : run ∈ runs)
    (isOther : other ∈ runs)
    {place otherPlace : Nat}
    (inRange : place < run.text.length)
    (otherInRange : otherPlace < other.text.length)
    (same : run.markAt pattern place = other.markAt pattern otherPlace) :
    run = other ∧ place = otherPlace := by
  obtain ⟨index, indexInRange, rfl⟩ := List.mem_iff_getElem.1 isRun
  obtain ⟨otherIndex, otherIndexInRange, rfl⟩ := List.mem_iff_getElem.1 isOther
  have precedes := List.pairwise_iff_getElem.1 inOrder
  have sameOffset := congrArg Mark.offset same
  rcases Nat.lt_trichotomy index otherIndex with before | rfl | after
  · exact absurd same ((precedes _ _ _ _ before).markAt_ne pattern inRange _)
  · refine ⟨rfl, ?_⟩
    rcases Nat.lt_trichotomy place otherPlace with before | samePlace | after
    · exact absurd sameOffset (Nat.ne_of_lt (PlacedRun.offsetOf_lt_offsetOf _ before inRange))
    · exact samePlace
    · exact absurd sameOffset
        (Nat.ne_of_gt (PlacedRun.offsetOf_lt_offsetOf _ after otherInRange))
  · exact absurd same.symm ((precedes _ _ _ _ after).markAt_ne pattern otherInRange _)

/-! ## Each occurrence starts inside one that is taken -/

/-- An occurrence starts inside another one of the same run. -/
def StartsInside (pattern : List Char) (runs : List PlacedRun) (mark hit : Mark) : Prop :=
  ∃ run ∈ runs, ∃ place start,
    mark = run.markAt pattern place ∧
      hit = run.markAt pattern start ∧
        start ≤ place ∧ place < start + pattern.length ∧ place < run.text.length

/-- Two occurrences that start inside a third one are the same, or they overlap. -/
theorem StartsInside.eq_or_overlap
    {pattern : List Char}
    (nonempty : pattern ≠ [])
    {runs : List PlacedRun}
    (inOrder : runs.Pairwise PlacedRun.Precedes)
    {left right hit : Mark}
    (leftStarts : StartsInside pattern runs left hit)
    (rightStarts : StartsInside pattern runs right hit) :
    left = right ∨ Overlap left right := by
  obtain ⟨run, isRun, place, start, rfl, rfl, notBefore, inside, inRange⟩ := leftStarts
  obtain ⟨other, isOther, otherPlace, otherStart, rfl, sameHit, otherNotBefore, otherInside,
    otherInRange⟩ := rightStarts
  obtain ⟨rfl, rfl⟩ := eq_of_markAt_eq inOrder isRun isOther
    (Nat.lt_of_le_of_lt notBefore inRange) (Nat.lt_of_le_of_lt otherNotBefore otherInRange)
    sameHit
  right
  rcases Nat.le_total place otherPlace with early | late
  · exact overlap_markAt nonempty early (by omega) otherInRange
  · exact (overlap_markAt nonempty late (by omega) inRange).symm

section

variable
    {mode : CaseMode}
    {pattern : List Char}
    (nonempty : pattern ≠ [])
    {runs : List PlacedRun}
    {marks : Marks}
    (collects : Collects mode pattern runs marks)

include nonempty collects

theorem Collects.exists_startsInside
    {run : PlacedRun}
    (isRun : run ∈ runs)
    {mark : Mark}
    (occurs : Occurs mode pattern run mark) :
    ∃ hit ∈ marks, StartsInside pattern runs mark hit := by
  obtain ⟨place, isMatch, rfl⟩ := (occurs_iff nonempty mark).1 occurs
  obtain ⟨start, member, notBefore, inside⟩ := collects.exists_hit isRun isMatch
  have fits := isMatch.add_length_le nonempty
  have positive := List.length_pos_iff.2 nonempty
  exact ⟨_, member, run, isRun, place, start, rfl, rfl, notBefore, inside, by omega⟩

/-- No choice of occurrences has more of them than are taken. -/
theorem Collects.card_le
    (inOrder : runs.Pairwise PlacedRun.Precedes)
    {chosen : Finset Mark}
    (isChoice : IsChoice mode pattern runs chosen) :
    chosen.card ≤ marks.length := by
  refine Nat.le_trans ?_ (List.toFinset_card_le marks)
  apply Finset.card_le_card_of_forall_subsingleton (StartsInside pattern runs)
  · intro mark member
    obtain ⟨run, isRun, occurs⟩ := isChoice.occurs mark member
    obtain ⟨hit, isHit, starts⟩ := collects.exists_startsInside nonempty isRun occurs
    exact ⟨hit, List.mem_toFinset.2 isHit, starts⟩
  · rintro hit - left ⟨leftChosen, leftStarts⟩ right ⟨rightChosen, rightStarts⟩
    by_contra differ
    exact isChoice.apart leftChosen rightChosen differ
      ((leftStarts.eq_or_overlap nonempty inOrder rightStarts).resolve_left differ)

/-- What is taken is itself such a choice. -/
theorem Collects.isChoice
    (precedes : marks.Pairwise Precedes) :
    IsChoice mode pattern runs marks.toFinset where
  occurs := by
    intro mark member
    obtain ⟨run, isRun, place, isMatch, isMark⟩ :=
      collects.exists_of_mem (List.mem_toFinset.1 member)
    exact ⟨run, isRun, (occurs_iff nonempty mark).2 ⟨place, isMatch, isMark⟩⟩
  apart := by
    intro left leftMember right rightMember differ
    rw [Finset.mem_coe, List.mem_toFinset, List.mem_iff_getElem] at leftMember rightMember
    obtain ⟨place, inRange, rfl⟩ := leftMember
    obtain ⟨otherPlace, otherInRange, rfl⟩ := rightMember
    have isBefore := List.pairwise_iff_getElem.1 precedes
    rcases Nat.lt_trichotomy place otherPlace with before | rfl | after
    · exact (isBefore _ _ _ _ before).not_overlap
    · exact absurd rfl differ
    · exact fun overlap => (isBefore _ _ _ _ after).not_overlap overlap.symm

end

/-! ## Ignoring case -/

theorem afterPattern?_ignore
    {pattern text rest : List Char}
    (isRead : afterPattern? .respect pattern text = some rest) :
    afterPattern? .ignore pattern text = some rest := by
  fun_induction afterPattern? .respect pattern text with
  | case1 text => exact isRead
  | case2 p pattern => exact absurd isRead (by simp)
  | case3 p pattern c text agrees ofRest =>
      have alike : CaseMode.ignore.agree c p = true := by
        simp only [CaseMode.agree, beq_iff_eq] at agrees
        simp [CaseMode.agree, agrees]
      rw [afterPattern?, if_pos alike]
      exact ofRest isRead
  | case4 p pattern c text differs => exact absurd isRead (by simp)

/-- An occurrence where case is respected is one of the same bytes where it is ignored. -/
theorem Occurs.ignore
    {pattern : List Char}
    {run : PlacedRun}
    {mark : Mark}
    (occurs : Occurs .respect pattern run mark) :
    Occurs .ignore pattern run mark := by
  obtain ⟨place, rest, inRange, isRead, isMark⟩ := occurs
  exact ⟨place, rest, inRange, afterPattern?_ignore isRead, isMark⟩

theorem IsChoice.ignore
    {pattern : List Char}
    {runs : List PlacedRun}
    {chosen : Finset Mark}
    (isChoice : IsChoice .respect pattern runs chosen) :
    IsChoice .ignore pattern runs chosen where
  occurs := by
    intro mark member
    obtain ⟨run, isRun, occurs⟩ := isChoice.occurs mark member
    exact ⟨run, isRun, occurs.ignore⟩
  apart := isChoice.apart

/-! ## The count of a search -/

theorem isGreatest_length_marks
    (mode : CaseMode)
    {pattern : String}
    (nonempty : pattern ≠ "")
    (paragraphs : List Paragraph) :
    IsGreatest
      { count | ∃ chosen,
        IsChoice mode pattern.toList (placedRuns paragraphs) chosen ∧ chosen.card = count }
      (marks mode pattern paragraphs).length := by
  obtain ⟨first, rest, isPattern⟩ := exists_cons_of_ne_empty nonempty
  have hasCharacters : pattern.toList ≠ [] := isPattern ▸ List.cons_ne_nil first rest
  have collects := collects_marks mode nonempty paragraphs
  constructor
  · have noneTwice : (marks mode pattern paragraphs).Nodup := by
      apply (pairwise_marks mode pattern paragraphs).imp
      rintro mark _ before rfl
      exact absurd before ((Mark.lt_iff _ _).not.2 (by omega))
    exact ⟨_, collects.isChoice hasCharacters (pairwise_precedes_marks mode pattern paragraphs),
      List.toFinset_card_of_nodup noneTwice⟩
  · rintro count ⟨chosen, isChoice, rfl⟩
    exact collects.card_le hasCharacters (pairwise_placedRuns paragraphs) isChoice

/--
A search for a pattern that is not empty finds as many occurrences as can be chosen at all
without an overlap, whether case is respected or ignored.  What is an occurrence where case is
respected is one of the same bytes where it is ignored, so a search that ignores case never
finds fewer.  But it may pass over one that is found where case is respected.
-/
theorem search_finds_the_most_occurrences
    (document : Document)
    {pattern : String}
    (nonempty : pattern ≠ "") :
    let runs := placedRuns document.paragraphs.toList
    (∀ mode,
        ∃ found : Marks,
          Session.runDocument document (.search pattern mode) =
              ({ document with marks := found }, .hits found) ∧
            IsGreatest
              { count | ∃ chosen,
                IsChoice mode pattern.toList runs chosen ∧ chosen.card = count }
              found.length) ∧
      (∀ run ∈ runs, ∀ mark,
        Occurs .respect pattern.toList run mark → Occurs .ignore pattern.toList run mark) ∧
      (∃ respected ignored : Marks,
        (Session.runDocument document (.search pattern .respect)).2 = .hits respected ∧
          (Session.runDocument document (.search pattern .ignore)).2 = .hits ignored ∧
          respected.length ≤ ignored.length) ∧
      ∃ (other : Document) (otherPattern : String) (respected ignored : Marks),
        (Session.runDocument other (.search otherPattern .respect)).2 = .hits respected ∧
          (Session.runDocument other (.search otherPattern .ignore)).2 = .hits ignored ∧
          ∃ mark ∈ respected, mark ∉ ignored := by
  intro runs
  have mostOf (mode : CaseMode) :=
    isGreatest_length_marks mode nonempty document.paragraphs.toList
  refine ⟨fun mode => ⟨_, rfl, mostOf mode⟩, ?_, ⟨_, _, rfl, rfl, ?_⟩, ?_⟩
  · exact fun _ _ _ occurs => occurs.ignore
  · obtain ⟨chosen, isChoice, isCount⟩ := (mostOf .respect).1
    exact (mostOf .ignore).2 ⟨chosen, isChoice.ignore, isCount⟩
  · -- Ignoring case takes the first two letters, and so passes over the last two.
    exact ⟨.plain [⟨.text, [.text "aAa"]⟩], "Aa", _, _, rfl, rfl, ⟨0, 1, 2⟩, by decide +kernel,
      by decide +kernel⟩

/-- Of two occurrences that overlap one is found, and one more in other letters. -/
theorem search_finds_the_most_occurrences_of_overlapping :
    let document : Document :=
      .plain [⟨.text, [.text "axaxa", .fixedSpace 2, .text "AXA"]⟩]
    let runs := placedRuns document.paragraphs.toList
    "axa" ≠ "" ∧
      ∃ found : Marks,
        Session.runDocument document (.search "axa" .ignore) =
            ({ document with marks := found }, .hits found) ∧
          found = [⟨0, 0, 3⟩, ⟨0, 5, 3⟩] ∧
          IsGreatest
            { count | ∃ chosen,
              IsChoice .ignore "axa".toList runs chosen ∧ chosen.card = count }
            2 := by
  intro document runs
  have nonempty : "axa" ≠ "" := by decide
  obtain ⟨found, isRun, isGreatest⟩ :=
    (search_finds_the_most_occurrences document nonempty).1 .ignore
  have searched := congrArg (fun answer => answer.1.marks) isRun
  have isFound : found = [⟨0, 0, 3⟩, ⟨0, 5, 3⟩] := searched.symm.trans (by decide +kernel)
  refine ⟨nonempty, found, isRun, isFound, ?_⟩
  rw [isFound] at isGreatest
  exact isGreatest

end Folio.Search
