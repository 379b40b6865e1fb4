import Folio.Proofs.Document.ReadingOrder

/-!
# Bodies of text

The ends of texts part a plain document into bodies: stretches of paragraphs none of which ends
a text, with such an end, or the edge of the document, on either side.  Every paragraph that
ends no text is in one body.

A step forward asks only of the paragraph after it whether that one ends a text, and a step back
asks it of the paragraph itself as well.  From the inside of a body both stop at its edges and
go by one before that, and no step from anywhere leads to the end of a text.
-/

namespace Folio.Document

/-- A longest stretch of paragraphs of a plain document that end no text. -/
structure IsBody (document : Document) (first last : Nat) : Prop where
  isPlain : document.outline = none
  first_le : first ≤ last
  inRange : last < document.size
  notEnd : ∀ index, first ≤ index → index ≤ last → document.endsText index = false
  opens : first = 0 ∨ document.endsText (first - 1) = true
  closes : last + 1 = document.size ∨ document.endsText (last + 1) = true

variable {document : Document}

/-- A body is told by the paragraphs, and by there being no outline. -/
theorem IsBody.congr
    {first last : Nat}
    (body : document.IsBody first last)
    {other : Document}
    (sameParagraphs : other.paragraphs = document.paragraphs)
    (isPlain : other.outline = none) :
    other.IsBody first last := by
  have sameEnds : other.endsText = document.endsText := by
    funext index
    rw [endsText, kind?, paragraph?, sameParagraphs]
    rfl
  have sameSize : other.size = document.size := by
    rw [size, sameParagraphs, size]
  exact {
    isPlain := isPlain
    first_le := body.first_le
    inRange := sameSize ▸ body.inRange
    notEnd := sameEnds ▸ body.notEnd
    opens := sameEnds ▸ body.opens
    closes := sameSize ▸ sameEnds ▸ body.closes }

/-! ## Every paragraph that ends no text is in a body -/

/-- Back to the last end of a text before a paragraph, or to the start of the document. -/
theorem exists_first_of_body
    {index : Nat}
    (notEnd : document.endsText index = false) :
    ∃ first,
      first ≤ index ∧
        (∀ between, first ≤ between → between ≤ index → document.endsText between = false) ∧
        (first = 0 ∨ document.endsText (first - 1) = true) := by
  induction index with
  | zero =>
      refine ⟨0, Nat.le_refl 0, fun between _ upTo => ?_, Or.inl rfl⟩
      rwa [Nat.le_zero.1 upTo]
  | succ index ofIndex =>
      cases endsBefore : document.endsText index with
      | true =>
          refine ⟨index + 1, Nat.le_refl _, fun between isFrom isUpTo => ?_, Or.inr endsBefore⟩
          rwa [Nat.le_antisymm isUpTo isFrom]
      | false =>
          obtain ⟨first, upTo, noneEnds, opens⟩ := ofIndex endsBefore
          refine ⟨first, Nat.le_succ_of_le upTo, fun between isFrom isUpTo => ?_, opens⟩
          rcases Nat.le_succ_iff.1 isUpTo with before | rfl
          · exact noneEnds between isFrom before
          · exact notEnd

/-- On to the next end of a text after a paragraph, or to the end of the document. -/
theorem exists_last_of_body
    {index remaining : Nat}
    (isRest : index + (remaining + 1) = document.size)
    (notEnd : document.endsText index = false) :
    ∃ last,
      index ≤ last ∧ last < document.size ∧
        (∀ between, index ≤ between → between ≤ last → document.endsText between = false) ∧
        (last + 1 = document.size ∨ document.endsText (last + 1) = true) := by
  have only (between : Nat) (isFrom : index ≤ between) (isUpTo : between ≤ index) :
      document.endsText between = false := by
    rwa [Nat.le_antisymm isUpTo isFrom]
  cases remaining with
  | zero => exact ⟨index, Nat.le_refl _, by omega, only, Or.inl isRest⟩
  | succ remaining =>
      cases endsNext : document.endsText (index + 1) with
      | true => exact ⟨index, Nat.le_refl _, by omega, only, Or.inr endsNext⟩
      | false =>
          obtain ⟨last, isFrom, inRange, noneEnds, closes⟩ :=
            exists_last_of_body (by omega : index + 1 + (remaining + 1) = document.size) endsNext
          refine ⟨last, Nat.le_of_succ_le isFrom, inRange, fun between after isUpTo => ?_, closes⟩
          rcases Nat.eq_or_lt_of_le after with rfl | after
          · exact notEnd
          · exact noneEnds between after isUpTo

theorem exists_isBody
    (isPlain : document.outline = none)
    {index : Nat}
    (inRange : index < document.size)
    (notEnd : document.endsText index = false) :
    ∃ first last, document.IsBody first last ∧ first ≤ index ∧ index ≤ last := by
  obtain ⟨first, isFrom, noneBefore, opens⟩ := exists_first_of_body notEnd
  obtain ⟨remaining, isSize⟩ := Nat.exists_eq_add_of_lt inRange
  obtain ⟨last, isUpTo, lastInRange, noneAfter, closes⟩ :=
    exists_last_of_body (by omega : index + (remaining + 1) = document.size) notEnd
  refine ⟨first, last, ⟨isPlain, isFrom.trans isUpTo, lastInRange, ?_, opens, closes⟩,
    isFrom, isUpTo⟩
  intro between fromFirst upToLast
  rcases Nat.le_total between index with before | after
  · exact noneBefore between fromFirst before
  · exact noneAfter between after upToLast

/-! ## Steps in a body -/

namespace IsBody

variable
    {first last : Nat}
    (body : document.IsBody first last)

include body

theorem next?_eq_some_iff
    {index next : Nat}
    (isFrom : first ≤ index)
    (isUpTo : index ≤ last) :
    document.next? index = some next ↔ next = index + 1 ∧ next ≤ last := by
  rw [next?_of_plain body.isPlain]
  by_cases isLast : index = last
  · rw [if_pos (isLast ▸ body.closes)]
    simp only [reduceCtorEq, false_iff]
    omega
  · have noEnd := body.notEnd (index + 1) (by omega) (by omega)
    have inRange := body.inRange
    have notSize : index + 1 ≠ document.size := by omega
    simp only [noEnd, notSize, Bool.false_eq_true, or_self, if_false, Option.some.injEq]
    omega

theorem previous?_eq_some_iff
    {index before : Nat}
    (isFrom : first ≤ index)
    (isUpTo : index ≤ last) :
    document.previous? index = some before ↔ index = before + 1 ∧ first ≤ before := by
  rw [previous?_of_plain body.isPlain]
  by_cases isFirst : index = first
  · rw [if_pos (isFirst ▸ body.opens.imp_right Or.inr)]
    simp only [reduceCtorEq, false_iff]
    omega
  · have noEnd := body.notEnd index isFrom isUpTo
    have noEndBefore := body.notEnd (index - 1) (by omega) (by omega)
    have notZero : index ≠ 0 := by omega
    simp only [noEnd, noEndBefore, notZero, Bool.false_eq_true, or_self, if_false,
      Option.some.injEq]
    omega

section

variable
    {index next : Nat}
    (isFrom : first ≤ index)
    (isUpTo : index ≤ last)
    (isNext : document.next? index = some next)

include isFrom isUpTo isNext

/-- A step forward stays inside. -/
theorem within_of_next? : first ≤ next ∧ next ≤ last := by
  obtain ⟨rfl, nextUpTo⟩ := (body.next?_eq_some_iff isFrom isUpTo).1 isNext
  exact ⟨Nat.le_succ_of_le isFrom, nextUpTo⟩

/-- In all documents of one body the step back undoes the step forward. -/
theorem previous?_of_next?
    {other : Document}
    (otherBody : other.IsBody first last) :
    other.previous? next = some index := by
  obtain ⟨nextFrom, nextUpTo⟩ := body.within_of_next? isFrom isUpTo isNext
  have isStep := ((body.next?_eq_some_iff isFrom isUpTo).1 isNext).1
  exact (otherBody.previous?_eq_some_iff nextFrom nextUpTo).2 ⟨isStep, isFrom⟩

end

section

variable
    {index before : Nat}
    (isFrom : first ≤ index)
    (isUpTo : index ≤ last)
    (isPrevious : document.previous? index = some before)

include isFrom isUpTo isPrevious

/-- A step back stays inside. -/
theorem within_of_previous? : first ≤ before ∧ before ≤ last := by
  obtain ⟨rfl, beforeFrom⟩ := (body.previous?_eq_some_iff isFrom isUpTo).1 isPrevious
  exact ⟨beforeFrom, Nat.le_of_succ_le isUpTo⟩

/-- In all documents of one body the step forward undoes the step back. -/
theorem next?_of_previous?
    {other : Document}
    (otherBody : other.IsBody first last) :
    other.next? before = some index := by
  obtain ⟨beforeFrom, beforeUpTo⟩ := body.within_of_previous? isFrom isUpTo isPrevious
  have isStep := ((body.previous?_eq_some_iff isFrom isUpTo).1 isPrevious).1
  exact (otherBody.next?_eq_some_iff beforeFrom beforeUpTo).2 ⟨isStep, isUpTo⟩

end

end IsBody

/-! ## Steps from anywhere -/

theorem isNavigable_of_plain (isPlain : document.outline = none) : document.IsNavigable where
  wellLinked tree isOutline := absurd (isPlain.symm.trans isOutline) (by simp)
  endsText_eq tree isOutline := absurd (isPlain.symm.trans isOutline) (by simp)

theorem endsText_of_next?
    (isPlain : document.outline = none)
    {index next : Nat}
    (isNext : document.next? index = some next) :
    document.endsText next = false := by
  rw [next?_of_plain isPlain] at isNext
  split at isNext
  · exact absurd isNext (by simp)
  · rename_i notLast
    obtain rfl := Option.some.inj isNext
    exact Bool.eq_false_of_not_eq_true fun ends => notLast (Or.inr ends)

theorem endsText_of_previous?
    (isPlain : document.outline = none)
    {index before : Nat}
    (isPrevious : document.previous? index = some before) :
    document.endsText before = false := by
  rw [previous?_of_plain isPlain] at isPrevious
  split at isPrevious
  · exact absurd isPrevious (by simp)
  · rename_i notFirst
    obtain rfl := Option.some.inj isPrevious
    exact Bool.eq_false_of_not_eq_true fun ends => notFirst (Or.inr (Or.inr ends))

end Folio.Document
