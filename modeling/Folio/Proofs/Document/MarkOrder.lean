import Folio.Document.Mark

/-!
# Marks in order

Marks are ordered by their places.  Putting marks in order loses none and repeats none, and in
marks that are in order those of one paragraph are found without looking at all the others.
-/

namespace Folio

namespace Mark

theorem lt_iff (left right : Mark) :
    left < right ↔
      left.paragraph < right.paragraph ∨
        left.paragraph = right.paragraph ∧
          (left.offset < right.offset ∨
            left.offset = right.offset ∧ left.length < right.length) :=
  Iff.rfl

theorem le_iff (left right : Mark) :
    left ≤ right ↔
      left.paragraph < right.paragraph ∨
        left.paragraph = right.paragraph ∧
          (left.offset < right.offset ∨
            left.offset = right.offset ∧ left.length ≤ right.length) := by
  have reversed : left ≤ right ↔ ¬ right < left := Iff.rfl
  rw [reversed, lt_iff]
  omega

theorem le_of_lt {left right : Mark} (before : left < right) : left ≤ right := by
  rw [lt_iff] at before
  rw [le_iff]
  omega

theorem le_trans
    {first second third : Mark}
    (here : first ≤ second)
    (there : second ≤ third) :
    first ≤ third := by
  rw [le_iff] at here there ⊢
  omega

theorem le_total (left right : Mark) : left ≤ right ∨ right ≤ left := by
  rw [le_iff, le_iff]
  omega

theorem paragraph_le_of_le {left right : Mark} (before : left ≤ right) :
    left.paragraph ≤ right.paragraph := by
  rw [le_iff] at before
  omega

end Mark

namespace Marks

/-- The marks are in increasing order; some may be equal. -/
def IsOrdered (marks : Marks) : Prop :=
  marks.Pairwise fun earlier later => earlier ≤ later

theorem isOrdered_nil : IsOrdered [] :=
  .nil

theorem isOrdered_ofList (marks : List Mark) : (ofList marks).IsOrdered := by
  have sorted :
      (ofList marks).Pairwise fun earlier later => decide (earlier ≤ later) = true := by
    refine List.pairwise_mergeSort ?_ ?_ marks
    · simpa using fun first second third => Mark.le_trans
    · simpa using Mark.le_total
  simpa [IsOrdered] using sorted

theorem ofList_perm (marks : List Mark) : (ofList marks).Perm marks :=
  List.mergeSort_perm marks _

/-- The marks of a paragraph stand together in front of those of later paragraphs. -/
theorem IsOrdered.takeWhile_eq_filter
    {marks : Marks}
    (ordered : marks.IsOrdered)
    {paragraph : Nat}
    (notEarlier : ∀ mark ∈ marks, paragraph ≤ mark.paragraph) :
    marks.takeWhile (fun mark => mark.paragraph == paragraph) =
      marks.filter fun mark => mark.paragraph == paragraph := by
  induction marks with
  | nil => rfl
  | cons mark rest taken =>
      rcases List.pairwise_cons.1 ordered with ⟨first, orderedRest⟩
      rcases List.forall_mem_cons.1 notEarlier with ⟨notEarlierHere, notEarlierRest⟩
      by_cases here : mark.paragraph = paragraph
      · simp [here, taken orderedRest notEarlierRest]
      · have later : paragraph < mark.paragraph :=
          Nat.lt_of_le_of_ne notEarlierHere (Ne.symm here)
        have others : ∀ follower ∈ rest, ¬ follower.paragraph = paragraph := by
          intro follower member
          have above := Mark.paragraph_le_of_le (first follower member)
          exact Nat.ne_of_gt (Nat.lt_of_lt_of_le later above)
        simpa [here] using others

/-- In marks that are in order, all those of a paragraph are found. -/
theorem IsOrdered.ofParagraph_eq
    {marks : Marks}
    (ordered : marks.IsOrdered)
    (paragraph : Nat) :
    marks.ofParagraph paragraph = marks.filter fun mark => mark.paragraph == paragraph := by
  unfold ofParagraph
  induction marks with
  | nil => rfl
  | cons mark rest found =>
      rcases List.pairwise_cons.1 ordered with ⟨first, orderedRest⟩
      by_cases earlier : mark.paragraph < paragraph
      · have other : ¬ mark.paragraph = paragraph := Nat.ne_of_lt earlier
        simpa [earlier, other] using found orderedRest
      · have notEarlier : ∀ follower ∈ mark :: rest, paragraph ≤ follower.paragraph := by
          intro follower member
          rcases List.mem_cons.1 member with rfl | inRest
          · exact Nat.not_lt.1 earlier
          · have above := Mark.paragraph_le_of_le (first follower inRest)
            exact Nat.le_trans (Nat.not_lt.1 earlier) above
        rw [List.dropWhile_cons_of_neg (by simpa using earlier)]
        exact ordered.takeWhile_eq_filter notEarlier

end Marks

end Folio
