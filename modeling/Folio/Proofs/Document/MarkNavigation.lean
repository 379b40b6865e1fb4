import Mathlib.Data.List.Dedup
import Mathlib.Order.Bounds.Basic
import Folio.Proofs.ReadsThrough
import Folio.Proofs.Session.StoredMarks

/-!
# From mark to mark

Marks are kept in order, so those after a position stand behind all others, and the first of
them is the nearest one.  The same holds of the marks before it.  Steps from mark to mark pass
over repeated ones: they lead from the first mark through all the different ones to the last,
and back again.
-/

namespace Folio

/-! ## The ends of a sorted list -/

section

variable
    {α : Type}
    [LinearOrder α]
    {entries : List α}
    (sorted : entries.Pairwise (· ≤ ·))

include sorted

theorem isLeast_of_head?
    {first : α}
    (isFirst : entries.head? = some first) :
    IsLeast { other | other ∈ entries } first := by
  obtain ⟨rest, rfl⟩ := List.head?_eq_some_iff.1 isFirst
  refine ⟨List.mem_cons_self, fun other member => ?_⟩
  rcases List.mem_cons.1 member with rfl | inRest
  · exact le_refl other
  · exact (List.pairwise_cons.1 sorted).1 other inRest

theorem isGreatest_of_getLast?
    {last : α}
    (isLast : entries.getLast? = some last) :
    IsGreatest { other | other ∈ entries } last := by
  obtain ⟨front, rfl⟩ := List.getLast?_eq_some_iff.1 isLast
  refine ⟨List.mem_append_right front List.mem_cons_self, fun other member => ?_⟩
  rcases List.mem_append.1 member with inFront | same
  · exact (List.pairwise_append.1 sorted).2.2 other inFront last List.mem_cons_self
  · exact le_of_eq (List.mem_singleton.1 same)

theorem head?_eq_some_iff_isLeast (entry : α) :
    entries.head? = some entry ↔ IsLeast { other | other ∈ entries } entry := by
  refine ⟨isLeast_of_head? sorted, fun isLeast => ?_⟩
  cases isFirst : entries.head? with
  | none =>
      obtain rfl := List.head?_eq_none_iff.1 isFirst
      exact absurd isLeast.1 List.not_mem_nil
  | some first => rw [(isLeast_of_head? sorted isFirst).unique isLeast]

theorem getLast?_eq_some_iff_isGreatest (entry : α) :
    entries.getLast? = some entry ↔ IsGreatest { other | other ∈ entries } entry := by
  refine ⟨isGreatest_of_getLast? sorted, fun isGreatest => ?_⟩
  cases isLast : entries.getLast? with
  | none =>
      obtain rfl := List.getLast?_eq_none_iff.1 isLast
      exact absurd isGreatest.1 List.not_mem_nil
  | some last => rw [(isGreatest_of_getLast? sorted isLast).unique isGreatest]

end

/-! ## The marks on the two sides of a position -/

instance : LinearOrder Mark where
  le_refl mark := (Mark.le_iff mark mark).2 (by omega)
  le_trans _ _ _ := Mark.le_trans
  le_antisymm := by
    rintro ⟨paragraph, offset, length⟩ ⟨_, _, _⟩ before after
    simp only [Mark.le_iff, Mark.mk.injEq] at before after ⊢
    omega
  lt_iff_le_not_ge left right := by
    rw [Mark.lt_iff, Mark.le_iff, Mark.le_iff]
    omega
  le_total := Mark.le_total
  toDecidableLE := inferInstance

namespace Marks

variable
    {marks : Marks}
    (ordered : marks.IsOrdered)

include ordered

/-- Marks that answer a question as all earlier ones do stand in front of the others. -/
theorem IsOrdered.takeWhile_and_dropWhile
    (isBefore : Mark → Bool)
    (ofEarlier :
      ∀ earlier later, earlier ≤ later → isBefore later = true → isBefore earlier = true) :
    marks.takeWhile isBefore = marks.filter isBefore ∧
      marks.dropWhile isBefore = marks.filter fun mark => !isBefore mark := by
  induction marks with
  | nil => exact ⟨rfl, rfl⟩
  | cons mark rest ofRest =>
      rcases List.pairwise_cons.1 ordered with ⟨first, orderedRest⟩
      obtain ⟨taken, dropped⟩ := ofRest orderedRest
      cases here : isBefore mark with
      | true => simp [here, taken, dropped]
      | false =>
          have noneBefore : ∀ later ∈ rest, isBefore later = false := by
            intro later member
            cases there : isBefore later with
            | false => rfl
            | true => exact absurd (ofEarlier mark later (first later member) there) (by simp [here])
          have noneTaken : rest.filter isBefore = [] :=
            List.filter_eq_nil_iff.2 (by simpa using noneBefore)
          have allLeft : rest.filter (fun mark => !isBefore mark) = rest :=
            List.filter_eq_self.2 (by simpa using noneBefore)
          simp [here, noneTaken, allLeft]

/-- The next mark is the first of all that are greater. -/
theorem IsOrdered.next?_eq (position : Mark) :
    marks.next? position = (marks.filter fun mark => position < mark).head? := by
  have parted :=
    ordered.takeWhile_and_dropWhile (fun mark => mark ≤ position) fun earlier later before =>
      by simpa using le_trans before
  have after : (fun mark => !decide (mark ≤ position)) = fun mark => decide (position < mark) := by
    funext mark
    rw [← decide_not, decide_eq_decide]
    exact not_le
  rw [next?, parted.2, after]

/-- The previous mark is the last of all that are less. -/
theorem IsOrdered.previous?_eq (position : Mark) :
    marks.previous? position = (marks.filter fun mark => mark < position).getLast? := by
  have parted :=
    ordered.takeWhile_and_dropWhile (fun mark => mark < position) fun earlier later before =>
      by simpa using lt_of_le_of_lt before
  rw [previous?, parted.1]

theorem IsOrdered.next?_eq_some_iff (position mark : Mark) :
    marks.next? position = some mark ↔
      IsLeast { other | other ∈ marks ∧ position < other } mark := by
  rw [ordered.next?_eq, head?_eq_some_iff_isLeast (ordered.filter _)]
  simp only [List.mem_filter, decide_eq_true_eq]

theorem IsOrdered.next?_eq_none_iff (position : Mark) :
    marks.next? position = none ↔ ∀ mark ∈ marks, ¬ position < mark := by
  rw [ordered.next?_eq, List.head?_eq_none_iff, List.filter_eq_nil_iff]
  simp only [decide_eq_true_eq]

theorem IsOrdered.previous?_eq_some_iff (position mark : Mark) :
    marks.previous? position = some mark ↔
      IsGreatest { other | other ∈ marks ∧ other < position } mark := by
  rw [ordered.previous?_eq, getLast?_eq_some_iff_isGreatest (ordered.filter _)]
  simp only [List.mem_filter, decide_eq_true_eq]

theorem IsOrdered.previous?_eq_none_iff (position : Mark) :
    marks.previous? position = none ↔ ∀ mark ∈ marks, ¬ mark < position := by
  rw [ordered.previous?_eq, List.getLast?_eq_none_iff, List.filter_eq_nil_iff]
  simp only [decide_eq_true_eq]

/-! ## From the first mark to the last and back -/

theorem IsOrdered.pairwise_dedup : marks.dedup.Pairwise (· < ·) := by
  have inOrder : marks.dedup.Pairwise (· ≤ ·) := ordered.sublist (List.dedup_sublist marks)
  exact (inOrder.and (List.nodup_dedup marks)).imp fun both => lt_of_le_of_ne both.1 both.2

theorem IsOrdered.head?_dedup : marks.dedup.head? = marks.head? := by
  ext mark
  have inOrder : marks.dedup.Pairwise (· ≤ ·) := ordered.sublist (List.dedup_sublist marks)
  rw [head?_eq_some_iff_isLeast inOrder, head?_eq_some_iff_isLeast ordered]
  simp only [List.mem_dedup]

theorem IsOrdered.getLast?_dedup : marks.dedup.getLast? = marks.getLast? := by
  ext mark
  have inOrder : marks.dedup.Pairwise (· ≤ ·) := ordered.sublist (List.dedup_sublist marks)
  rw [getLast?_eq_some_iff_isGreatest inOrder, getLast?_eq_some_iff_isGreatest ordered]
  simp only [List.mem_dedup]

theorem IsOrdered.readsThrough_next? : ReadsThrough marks.next? marks.dedup := by
  apply ReadsThrough.of_sorted ordered.pairwise_dedup
  · intro mark _ following isLeast
    rw [ordered.next?_eq_some_iff]
    simpa only [List.mem_dedup] using isLeast
  · intro mark _ isLast
    rw [ordered.next?_eq_none_iff]
    exact fun other member => not_lt.2 (isLast other (List.mem_dedup.2 member))

theorem IsOrdered.readsThrough_previous? :
    ReadsThrough marks.previous? marks.dedup.reverse := by
  apply ordered.readsThrough_next?.reverse
  · intro mark member following isNext
    obtain ⟨⟨-, after⟩, least⟩ := (ordered.next?_eq_some_iff mark following).1 isNext
    rw [ordered.previous?_eq_some_iff]
    refine ⟨⟨List.mem_dedup.1 member, after⟩, fun other ⟨otherMember, before⟩ => ?_⟩
    -- A mark between the two would be the next one.
    refine le_of_not_gt fun between => ?_
    exact absurd before (not_lt.2 (least ⟨otherMember, between⟩))
  · intro first isFirst
    rw [ordered.head?_dedup] at isFirst
    rw [ordered.previous?_eq_none_iff]
    exact fun other member => not_lt.2 ((isLeast_of_head? ordered isFirst).2 member)

end Marks

/--
After any commands to a new document its marks are those last asked for, in order.  From every
position, be it a mark or not, the next mark is the least one that is greater and the previous
mark the greatest one that is less; there is none only where no mark is greater or less.  Steps
forward lead from the first mark through each different mark once, in increasing order, to the
last, and steps back lead through the same marks in reverse.
-/
theorem Document.marks_are_walked_in_order
    (source : DocumentSource)
    (commands : List Session.DocumentCommand) :
    let built := source.build.1
    let document := Session.afterCommands built commands
    document.StoresMarks
        (commands.foldl (Session.requestedMarks built.paragraphs.toList) source.marks) ∧
      (∀ position,
        (∀ mark,
            document.nextMark? position = some mark ↔
              IsLeast { other | other ∈ document.marks ∧ position < other } mark) ∧
          (document.nextMark? position = none ↔ ∀ mark ∈ document.marks, ¬ position < mark) ∧
          (∀ mark,
            document.previousMark? position = some mark ↔
              IsGreatest { other | other ∈ document.marks ∧ other < position } mark) ∧
          (document.previousMark? position = none ↔ ∀ mark ∈ document.marks, ¬ mark < position)) ∧
      ∃ different : List Mark,
        different.Pairwise (· < ·) ∧
          (∀ mark, mark ∈ different ↔ mark ∈ document.marks) ∧
          different.head? = document.firstMark? ∧
          different.getLast? = document.lastMark? ∧
          ReadsThrough document.nextMark? different ∧
          ReadsThrough document.previousMark? different.reverse := by
  intro built document
  have stores :=
    Session.storesMarks_afterCommands (Document.storesMarks_of_eq source.marks_build) commands
  have ordered : document.marks.IsOrdered := stores.ordered
  refine ⟨stores, fun position => ?_, document.marks.dedup, ordered.pairwise_dedup,
    fun mark => List.mem_dedup, ordered.head?_dedup, ordered.getLast?_dedup,
    ordered.readsThrough_next?, ordered.readsThrough_previous?⟩
  exact ⟨ordered.next?_eq_some_iff position, ordered.next?_eq_none_iff position,
    ordered.previous?_eq_some_iff position, ordered.previous?_eq_none_iff position⟩

end Folio
