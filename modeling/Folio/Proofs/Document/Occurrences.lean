import Folio.Document.Search
import Folio.Proofs.Document.MarkOrder

/-!
# Occurrences in order

A search reads paragraph after paragraph, in each run after run, and in each run from its
start to its end.  So it finds the occurrences of a pattern in their order, without the need
to put them in order afterwards.
-/

namespace Folio.Search

variable
    {mode : CaseMode}
    {first : Char}
    {pattern : List Char}

/-! ## Within a run -/

/-- An occurrence has as many characters as the pattern. -/
theorem exists_matched
    {text rest : List Char}
    (found : afterPattern? mode pattern text = some rest) :
    ∃ matched, text = matched ++ rest ∧ matched.length = pattern.length := by
  induction pattern generalizing text with
  | nil => exact ⟨[], by simpa [afterPattern?] using found, rfl⟩
  | cons p pattern matchedRest =>
      cases text with
      | nil => simp [afterPattern?] at found
      | cons c text =>
          simp only [afterPattern?] at found
          split at found
          · rcases matchedRest found with ⟨matched, rfl, length⟩
            exact ⟨c :: matched, rfl, by simp [length]⟩
          · simp at found

/-- What is left after an occurrence has fewer bytes. -/
theorem size_lt_of_afterPattern?
    {text rest : List Char}
    (found : afterPattern? mode (first :: pattern) text = some rest) :
    Utf8.size rest < Utf8.size text := by
  rcases exists_matched found with ⟨matched, rfl, length⟩
  have nonempty : matched ≠ [] := List.ne_nil_of_length_eq_add_one length
  rw [Utf8.size_append]
  exact Nat.lt_add_of_pos_left (Utf8.size_pos nonempty)

/-- A stretch of at least one byte lies between two offsets. -/
structure LiesWithin (low high : Nat) (stretch : Nat × Nat) : Prop where
  low_le : low ≤ stretch.1
  length_pos : 0 < stretch.2
  le_high : stretch.1 + stretch.2 ≤ high

theorem liesWithin_stretches
    {offset : Nat}
    {text : List Char}
    {stretch : Nat × Nat}
    (member : stretch ∈ stretches mode first pattern offset text) :
    LiesWithin offset (offset + Utf8.size text) stretch := by
  fun_induction stretches mode first pattern offset text with
  | case1 offset => exact absurd member List.not_mem_nil
  | case2 offset c text rest found shorter length liesInRest =>
      have fewer := size_lt_of_afterPattern? found
      have whole : length + Utf8.size rest = Utf8.size (c :: text) :=
        Nat.sub_add_cancel (Nat.le_of_lt fewer)
      have positive : 0 < length := Nat.sub_pos_of_lt fewer
      rcases List.mem_cons.1 member with rfl | later
      · constructor
        · exact Nat.le_refl offset
        · exact positive
        · show offset + length ≤ offset + Utf8.size (c :: text)
          omega
      · have lies := liesInRest later
        rw [Nat.add_assoc, whole] at lies
        exact ⟨Nat.le_of_add_right_le lies.low_le, lies.length_pos, lies.le_high⟩
  | case3 offset c text none liesInRest =>
      have lies := liesInRest member
      rw [Nat.add_assoc, ← Utf8.size_cons] at lies
      exact ⟨Nat.le_of_add_right_le lies.low_le, lies.length_pos, lies.le_high⟩

/-- Each stretch ends before the next one starts. -/
theorem pairwise_stretches (offset : Nat) (text : List Char) :
    (stretches mode first pattern offset text).Pairwise
      fun earlier later => earlier.1 + earlier.2 ≤ later.1 := by
  fun_induction stretches mode first pattern offset text with
  | case1 offset => exact .nil
  | case2 offset c text rest found shorter length apart =>
      refine .cons ?_ apart
      intro later member
      exact (liesWithin_stretches member).low_le
  | case3 offset c text none apart => exact apart

/-! ## Within a document -/

/-- A mark of a paragraph of at least one byte, from an offset on. -/
structure MarksAfter (paragraph offset : Nat) (mark : Mark) : Prop where
  paragraph_eq : mark.paragraph = paragraph
  le_offset : offset ≤ mark.offset
  length_pos : 0 < mark.length

theorem marksAfter_marksInRuns
    {paragraph offset : Nat}
    {runs : List String}
    {mark : Mark}
    (member : mark ∈ marksInRuns mode first pattern paragraph offset runs) :
    MarksAfter paragraph offset mark := by
  induction runs generalizing offset with
  | nil => exact absurd member List.not_mem_nil
  | cons run rest afterRest =>
      rcases List.mem_append.1 member with here | later
      · rcases List.mem_map.1 here with ⟨stretch, isStretch, rfl⟩
        have lies := liesWithin_stretches isStretch
        exact ⟨rfl, lies.low_le, lies.length_pos⟩
      · have after := afterRest later
        exact ⟨after.paragraph_eq, Nat.le_of_add_right_le after.le_offset, after.length_pos⟩

/-- The occurrences in a paragraph do not overlap, and come in order. -/
theorem pairwise_marksInRuns (paragraph offset : Nat) (runs : List String) :
    (marksInRuns mode first pattern paragraph offset runs).Pairwise
      fun earlier later => earlier.finish ≤ later.offset := by
  induction runs generalizing offset with
  | nil => exact .nil
  | cons run rest apart =>
      refine List.pairwise_append.2 ⟨?_, apart _, ?_⟩
      · exact List.pairwise_map.2 (pairwise_stretches offset run.toList)
      · intro earlier inRun later inRest
        rcases List.mem_map.1 inRun with ⟨stretch, isStretch, rfl⟩
        have lies := liesWithin_stretches isStretch
        rw [Utf8.size_toList] at lies
        exact Nat.le_trans lies.le_high (marksAfter_marksInRuns inRest).le_offset

theorem of_mem_marksFrom
    {index : Nat}
    {paragraphs : List Paragraph}
    {mark : Mark}
    (member : mark ∈ marksFrom mode first pattern index paragraphs) :
    index ≤ mark.paragraph ∧ 0 < mark.length := by
  induction paragraphs generalizing index with
  | nil => exact absurd member List.not_mem_nil
  | cons paragraph rest ofRest =>
      rcases List.mem_append.1 member with here | later
      · have after := marksAfter_marksInRuns here
        exact ⟨Nat.le_of_eq after.paragraph_eq.symm, after.length_pos⟩
      · exact ⟨Nat.le_of_succ_le (ofRest later).1, (ofRest later).2⟩

/-- One mark ends before another starts, or it stands in an earlier paragraph. -/
def Precedes (earlier later : Mark) : Prop :=
  earlier.paragraph < later.paragraph ∨
    earlier.paragraph = later.paragraph ∧ earlier.finish ≤ later.offset

theorem Precedes.lt
    {earlier later : Mark}
    (precedes : Precedes earlier later)
    (positive : 0 < earlier.length) :
    earlier < later := by
  apply (Mark.lt_iff earlier later).2
  rcases precedes with above | ⟨same, apart⟩
  · exact Or.inl above
  · have starts : earlier.offset < earlier.finish := Nat.lt_add_of_pos_right positive
    exact Or.inr ⟨same, Or.inl (Nat.lt_of_lt_of_le starts apart)⟩

/-- The occurrences in all paragraphs do not overlap, and come in order. -/
theorem pairwise_precedes_marksFrom (index : Nat) (paragraphs : List Paragraph) :
    (marksFrom mode first pattern index paragraphs).Pairwise Precedes := by
  induction paragraphs generalizing index with
  | nil => exact .nil
  | cons paragraph rest ordered =>
      refine List.pairwise_append.2 ⟨?_, ordered _, ?_⟩
      · apply (pairwise_marksInRuns index 0 paragraph.runs).imp_of_mem
        intro earlier later inEarlier inLater apart
        have before := marksAfter_marksInRuns inEarlier
        have after := marksAfter_marksInRuns inLater
        exact Or.inr ⟨before.paragraph_eq.trans after.paragraph_eq.symm, apart⟩
      · intro earlier here later inRest
        have before := (marksAfter_marksInRuns here).paragraph_eq
        have after := (of_mem_marksFrom inRest).1
        exact Or.inl (Nat.lt_of_lt_of_le (Nat.lt_succ_of_le (Nat.le_of_eq before)) after)

section

variable
    (mode : CaseMode)
    (pattern : String)
    (paragraphs : List Paragraph)

theorem pairwise_precedes_marks : (marks mode pattern paragraphs).Pairwise Precedes := by
  unfold marks
  split
  · exact .nil
  · exact pairwise_precedes_marksFrom 0 paragraphs

theorem length_pos_of_mem_marks :
    ∀ mark ∈ marks mode pattern paragraphs, 0 < mark.length := by
  intro mark member
  unfold marks at member
  split at member
  · exact absurd member List.not_mem_nil
  · exact (of_mem_marksFrom member).2

/-- The occurrences of a pattern in a document are found in increasing order. -/
theorem pairwise_marks :
    (marks mode pattern paragraphs).Pairwise fun earlier later => earlier < later := by
  apply (pairwise_precedes_marks mode pattern paragraphs).imp_of_mem
  intro earlier later inEarlier _ precedes
  exact precedes.lt (length_pos_of_mem_marks mode pattern paragraphs earlier inEarlier)

end

theorem isOrdered_marks (mode : CaseMode) (pattern : String) (paragraphs : List Paragraph) :
    Marks.IsOrdered (marks mode pattern paragraphs) :=
  (pairwise_marks mode pattern paragraphs).imp Mark.le_of_lt

end Folio.Search
