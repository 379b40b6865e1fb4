import Mathlib.Data.Nat.Find
import Folio.Proofs.Document.Links

/-!
# Subtrees are stretches of the preorder

The nodes below a node follow it without a gap, up to the next sibling of the nearest node of
its lineage that has one.  So to ask what stands below a node is to compare numbers.
-/

namespace Folio.Outline

/--
The first node after a node and all that stands below it: the next sibling of the nearest node
of its lineage that has one.
-/
def afterSubtree? (outline : Outline) (index : Nat) : Option Nat :=
  ((outline.lineage index).find? fun node => !outline.isLastChild node).bind
    outline.nextSibling?

theorem afterSubtree?_eq (outline : Outline) (index : Nat) :
    outline.afterSubtree? index =
      if outline.isLastChild index then
        (outline.parent? index).bind outline.afterSubtree?
      else
        outline.nextSibling? index := by
  cases isLast : outline.isLastChild index with
  | false => simp [afterSubtree?, lineage, isLast]
  | true =>
      cases link : outline.parent? index with
      | none => simp [afterSubtree?, lineage, isLast, ancestors_of_root link]
      | some parent => simp [afterSubtree?, lineage, isLast, ancestors_of_parent link]

namespace WellLinked

variable
    {outline : Outline}
    (linked : outline.WellLinked)

include linked

/-- Between an ancestor and a node there are only nodes below the ancestor. -/
theorem mem_lineage_of_le
    {above between index : Nat}
    (member : above ∈ outline.lineage index)
    (after : above ≤ between)
    (before : between ≤ index) :
    above ∈ outline.lineage between := by
  induction index with
  | zero =>
      obtain rfl : between = 0 := Nat.le_zero.1 before
      exact member
  | succ index inLineageBefore =>
      rcases Nat.lt_or_eq_of_le before with earlier | rfl
      · refine inLineageBefore ?_ (Nat.le_of_lt_succ earlier)
        have proper : above ∈ outline.ancestors (index + 1) :=
          mem_ancestors_of_mem_lineage member (by omega)
        cases link : outline.parent? (index + 1) with
        | none => simp [ancestors_of_root link] at proper
        | some parent =>
            rw [ancestors_of_parent link] at proper
            have onWay := linked.parent_mem_lineage index parent link
            rcases mem_lineage_iff.1 proper with rfl | higher
            · exact onWay
            · exact mem_lineage_iff.2 (Or.inr (mem_ancestors_of_lineage onWay higher))
      · exact member

theorem isLastChild_iff (index : Nat) :
    outline.isLastChild index = true ↔
      ∀ later, index < later → later < outline.size →
        outline.parent? later ≠ outline.parent? index := by
  cases found : outline.nodes[index]? with
  | none =>
      have outOfRange : outline.size ≤ index := by
        simpa [size] using found
      simp only [isLastChild, found, true_iff]
      intro later after inRange
      omega
  | some node =>
      have inRange : index < outline.size := by
        obtain ⟨inNodes, -⟩ := Array.getElem?_eq_some_iff.1 found
        exact inNodes
      have sameParent : outline.parent? index = node.parent := by
        simp [parent?, found]
      simp only [isLastChild, found, beq_iff_eq]
      rw [linked.getLast?_childrenOf_eq_some_iff, sameParent]
      simp [inRange]

theorem exists_isNextSibling
    {index : Nat}
    (notLast : outline.isLastChild index = false) :
    ∃ sibling, outline.IsNextSibling index sibling := by
  classical
  have someLater :
      ∃ later, index < later ∧ later < outline.size ∧
        outline.parent? later = outline.parent? index := by
    by_contra noLater
    have isLast : outline.isLastChild index = true := by
      rw [linked.isLastChild_iff]
      intro later after inRange sameParent
      exact noLater ⟨later, after, inRange, sameParent⟩
    exact absurd (isLast.symm.trans notLast) (by simp)
  obtain ⟨after, inRange, sameParent⟩ := Nat.find_spec someLater
  refine ⟨Nat.find someLater, after, inRange, sameParent, ?_⟩
  intro between later earlier sibling
  exact Nat.find_min someLater earlier ⟨later, Nat.lt_trans earlier inRange, sibling⟩

/--
A node stands below another if it is below the other's parent and no sibling has come between.
-/
theorem mem_ancestors_of_no_sibling
    {index node : Nat}
    (after : index < node)
    (noSibling :
      ∀ between, index < between → between ≤ node →
        outline.parent? between ≠ outline.parent? index)
    (belowParent :
      ∀ parent, outline.parent? index = some parent → parent ∈ outline.ancestors node) :
    index ∈ outline.ancestors node := by
  obtain ⟨branch, onWay, siblings⟩ := exists_mem_lineage_parent?_eq belowParent
  have branchLe : branch ≤ node := le_of_mem_lineage onWay
  have notLater : branch ≤ index := by
    refine Nat.le_of_not_lt fun later => ?_
    exact noSibling branch later branchLe siblings
  have inLineage := linked.mem_lineage_of_le onWay notLater (Nat.le_of_lt after)
  obtain rfl := eq_of_mem_lineage_of_sibling inLineage siblings
  exact mem_ancestors_of_mem_lineage onWay (Nat.ne_of_lt after)

/-- The nodes below a node are those after it and before the end of its subtree. -/
theorem mem_ancestors_iff_lt_afterSubtree?
    {index node : Nat}
    (after : index < node)
    (inRange : node < outline.size) :
    index ∈ outline.ancestors node ↔
      ∀ finish, outline.afterSubtree? index = some finish → node < finish := by
  induction index using Nat.strongRecOn with
  | ind index higherUp =>
      rw [afterSubtree?_eq]
      cases isLast : outline.isLastChild index with
      | true =>
          have noSibling := (linked.isLastChild_iff index).1 isLast
          have belowIff :
              index ∈ outline.ancestors node ↔
                ∀ parent, outline.parent? index = some parent →
                  parent ∈ outline.ancestors node := by
            constructor
            · intro below parent link
              exact mem_ancestors_trans below (mem_ancestors_of_parent link)
            · intro belowParent
              refine linked.mem_ancestors_of_no_sibling after ?_ belowParent
              intro between later earlier
              exact noSibling between later (by omega)
          rw [belowIff, if_pos rfl]
          cases link : outline.parent? index with
          | none => simp
          | some parent =>
              have parentBelow := parent?_lt link
              simpa using higherUp parent parentBelow (by omega)
      | false =>
          obtain ⟨sibling, isNext⟩ := linked.exists_isNextSibling isLast
          have stored := (linked.nextSibling?_eq_some_iff index sibling).2 isNext
          rw [if_neg (by simp), stored]
          constructor
          · rintro below finish isFinish
            obtain rfl := Option.some.inj isFinish
            refine Nat.lt_of_not_le fun siblingLe => ?_
            have onWay :=
              linked.mem_lineage_of_le (mem_lineage_iff.2 (Or.inr below))
                (Nat.le_of_lt isNext.after) siblingLe
            have same := eq_of_mem_lineage_of_sibling onWay isNext.sameParent.symm
            exact absurd isNext.after (by omega)
          · intro beforeSibling
            have earlier := beforeSibling sibling rfl
            apply linked.mem_ancestors_of_no_sibling after
            · intro between later notPast
              exact isNext.first between later (by omega)
            · intro parent link
              have parentBelow := parent?_lt link
              have aboveSibling :=
                mem_ancestors_of_parent (isNext.sameParent.trans link)
              have onWay :=
                linked.mem_lineage_of_le (mem_lineage_iff.2 (Or.inr aboveSibling))
                  (by omega) (Nat.le_of_lt earlier)
              exact mem_ancestors_of_mem_lineage onWay (by omega)

end WellLinked

end Folio.Outline
