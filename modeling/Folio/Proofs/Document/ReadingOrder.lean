import Folio.Proofs.Document.VisibleNodes

/-!
# The order of reading

What is read after a paragraph, and whether anything is, are found in two ways that share no
step: the one climbs to the next sibling of a node above, the other asks of each node above
whether it is a last child.  In the documents that were built the answers agree, and a step
leads to a greater number or back to a smaller one.

From a paragraph on which a text starts, steps forward lead through the paragraphs of that
text and no others: in a tree document the visible ones, and in a plain document those before
the end of the text.
-/

namespace Folio

/-! ## The last node -/

namespace Outline.WellLinked

variable
    {outline : Outline}
    (linked : outline.WellLinked)

include linked

/-- Nothing comes after a subtree when each node of the lineage is a last child. -/
theorem afterSubtree?_eq_none_iff (index : Nat) :
    outline.afterSubtree? index = none ↔
      (outline.lineage index).all outline.isLastChild = true := by
  rw [afterSubtree?, Option.bind_eq_none_iff, List.all_eq_true]
  constructor
  · intro noSibling node member
    by_contra notLast
    have isFound :
        ((outline.lineage index).find? fun node => !outline.isLastChild node).isSome := by
      rw [List.find?_isSome]
      exact ⟨node, member, by simpa using notLast⟩
    obtain ⟨lowest, found⟩ := Option.isSome_iff_exists.1 isFound
    have lowestNotLast : outline.isLastChild lowest = false := by
      simpa using List.find?_some found
    obtain ⟨sibling, isNext⟩ := linked.exists_isNextSibling lowestNotLast
    have stored := (linked.nextSibling?_eq_some_iff lowest sibling).2 isNext
    exact absurd (noSibling lowest found) (by simp [stored])
  · intro allLast lowest found
    have lowestLast := allLast lowest (List.mem_of_find?_eq_some found)
    have notLast := List.find?_some found
    simp [lowestLast] at notLast

/-- A node is the last one, or nothing visible follows it, when no step leads on from it. -/
theorem next?_eq_none_iff_isLast (index : Nat) :
    outline.next? index = none ↔
      index + 1 = outline.size ∨ outline.isLast index = true := by
  rw [next?_eq, isLast, Bool.and_eq_true, ← linked.afterSubtree?_eq_none_iff]
  by_cases isEnd : index + 1 = outline.size
  · simp [isEnd]
  · cases shows : outline.showsChildren index <;> simp [isEnd]

end Outline.WellLinked

namespace Document

/-! ## The ends of a text -/

theorem isFirst_iff (document : Document) (index : Nat) :
    document.isFirst index = true ↔ document.previous? index = none := by
  rw [previous?]
  cases document.isFirst index with
  | true => simp
  | false => cases document.outline <;> simp

variable {document : Document}

theorem next?_of_plain
    (isPlain : document.outline = none)
    (index : Nat) :
    document.next? index =
      if index + 1 = document.size ∨ document.endsText (index + 1) = true then
        none
      else
        some (index + 1) := by
  simp [next?, isLast, isLastInSequence, isPlain]

theorem previous?_of_plain
    (isPlain : document.outline = none)
    (index : Nat) :
    document.previous? index =
      if index = 0 ∨ document.endsText index = true ∨ document.endsText (index - 1) = true then
        none
      else
        some (index - 1) := by
  simp [previous?, isFirst, isPlain, or_assoc]

theorem IsNavigable.isLast_iff
    (navigable : document.IsNavigable)
    (index : Nat) :
    document.isLast index = true ↔ document.next? index = none := by
  cases isOutline : document.outline with
  | none =>
      rw [next?, isOutline]
      cases document.isLast index <;> simp
  | some tree =>
      have linked := navigable.wellLinked tree isOutline
      have noEnd := navigable.endsText_eq tree isOutline (index + 1)
      have sameSize : tree.size = document.size := document.outline_size tree isOutline
      simp only [next?, isLast, isLastInSequence, isOutline, noEnd, Bool.or_false,
        Bool.or_eq_true, beq_iff_eq, linked.next?_eq_none_iff_isLast, sameSize]

theorem IsNavigable.lt_of_next?
    (navigable : document.IsNavigable)
    {index next : Nat}
    (isNext : document.next? index = some next) :
    index < next := by
  unfold next? at isNext
  cases isOutline : document.outline with
  | none =>
      simp only [isOutline] at isNext
      split at isNext
      · exact absurd isNext (by simp)
      · exact Option.some.inj isNext ▸ Nat.lt_succ_self index
  | some tree =>
      simp only [isOutline] at isNext
      have linked := navigable.wellLinked tree isOutline
      exact (linked.isLeast_of_next?_eq_some isNext).1.1

theorem IsNavigable.lt_of_previous?
    (navigable : document.IsNavigable)
    {index before : Nat}
    (isPrevious : document.previous? index = some before) :
    before < index := by
  unfold previous? at isPrevious
  split at isPrevious
  · exact absurd isPrevious (by simp)
  · rename_i notFirst
    have positive : 0 < index := by
      refine Nat.pos_of_ne_zero ?_
      rintro rfl
      exact notFirst rfl
    cases isOutline : document.outline with
    | none =>
        simp only [isOutline, Option.some.injEq] at isPrevious
        omega
    | some tree =>
        simp only [isOutline, Option.some.injEq] at isPrevious
        have linked := navigable.wellLinked tree isOutline
        exact isPrevious ▸ (linked.isGreatest_previous positive).1.1

/-! ## The paragraphs of a text -/

/--
The paragraphs that are read from the first one of a text on: in a tree document the visible
ones, and in a plain document those up to the end of the text.
-/
def readFrom (document : Document) (first : Nat) : List Nat :=
  match document.outline with
  | some tree => tree.visibleNodes
  | none =>
      (List.range' first (document.size - first)).takeWhile fun index =>
        !document.endsText index

theorem pairwise_readFrom (document : Document) (first : Nat) :
    (document.readFrom first).Pairwise (· < ·) := by
  unfold readFrom
  split
  · exact Outline.pairwise_visibleNodes _
  · refine List.Pairwise.sublist (List.takeWhile_sublist _) ?_
    exact List.pairwise_lt_range' 1

theorem isReversible_of_mem_readFrom
    {first index : Nat}
    (member : index ∈ document.readFrom first) :
    document.IsReversible index := by
  cases isOutline : document.outline with
  | none =>
      simp only [readFrom, isOutline] at member
      have notEnd := List.mem_takeWhile_imp member
      simpa only [IsReversible, isOutline, Bool.not_eq_true'] using notEnd
  | some tree =>
      simp only [readFrom, isOutline] at member
      simpa only [IsReversible, isOutline] using (Outline.mem_visibleNodes.1 member).2

/-- In a plain document reading goes on by one until the text or the document ends. -/
theorem readsThrough_takeWhile
    (isPlain : document.outline = none)
    {first remaining : Nat}
    (isRest : first + (remaining + 1) = document.size)
    (notEnd : document.endsText first = false) :
    ReadsThrough document.next?
      ((List.range' first (remaining + 1)).takeWhile fun index => !document.endsText index) := by
  induction remaining generalizing first with
  | zero =>
      have isStop : document.next? first = none := by
        rw [next?_of_plain isPlain, if_pos (Or.inl isRest)]
      simpa [notEnd] using ReadsThrough.cons_iff.2 ⟨isStop, .nil⟩
  | succ remaining ofRest =>
      rw [List.range'_succ, List.takeWhile_cons_of_pos (by simp [notEnd])]
      cases endsNext : document.endsText (first + 1) with
      | true =>
          have isStop : document.next? first = none := by
            rw [next?_of_plain isPlain, if_pos (Or.inr endsNext)]
          simpa [List.range'_succ, endsNext] using ReadsThrough.cons_iff.2 ⟨isStop, .nil⟩
      | false =>
          have goesOn : document.next? first = some (first + 1) := by
            rw [next?_of_plain isPlain, if_neg]
            simp only [endsNext, Bool.false_eq_true, or_false]
            omega
          have isRestAfter : first + 1 + (remaining + 1) = document.size := by omega
          have following := ofRest isRestAfter endsNext
          rw [List.range'_succ, List.takeWhile_cons_of_pos (by simp [endsNext])] at following ⊢
          exact ReadsThrough.cons_iff.2 ⟨goesOn, following⟩

/-- A paragraph has nothing to read before it, and does not end a text. -/
structure StartsText (document : Document) (first : Nat) : Prop where
  inRange : first < document.size
  isFirst : document.isFirst first = true
  notEnd : document.endsText first = false

theorem StartsText.eq_zero
    (navigable : document.IsNavigable)
    {first : Nat}
    (starts : document.StartsText first)
    {tree : Outline}
    (isOutline : document.outline = some tree) :
    first = 0 := by
  have noEnd := navigable.endsText_eq tree isOutline
  simpa [Document.isFirst, noEnd] using starts.isFirst

theorem StartsText.head?_readFrom
    (navigable : document.IsNavigable)
    {first : Nat}
    (starts : document.StartsText first) :
    (document.readFrom first).head? = some first := by
  have inRange := starts.inRange
  cases isOutline : document.outline with
  | none =>
      obtain ⟨remaining, isRest⟩ : ∃ remaining, document.size - first = remaining + 1 :=
        ⟨document.size - first - 1, by omega⟩
      simp [readFrom, isOutline, isRest, List.range'_succ, starts.notEnd]
  | some tree =>
      obtain rfl := starts.eq_zero navigable isOutline
      have nonempty : 0 < tree.size := by rwa [document.outline_size tree isOutline]
      simpa [readFrom, isOutline] using Outline.head?_visibleNodes nonempty

theorem StartsText.readsThrough_readFrom
    (navigable : document.IsNavigable)
    {first : Nat}
    (starts : document.StartsText first) :
    ReadsThrough document.next? (document.readFrom first) := by
  have inRange := starts.inRange
  cases isOutline : document.outline with
  | none =>
      obtain ⟨remaining, isRest⟩ : ∃ remaining, document.size - first = remaining + 1 :=
        ⟨document.size - first - 1, by omega⟩
      have isSize : first + (remaining + 1) = document.size := by omega
      simp only [readFrom, isOutline, isRest]
      exact readsThrough_takeWhile isOutline isSize starts.notEnd
  | some tree =>
      simp only [readFrom, isOutline]
      exact navigable.readsThrough_next? isOutline

end Document

end Folio
