import Mathlib.Data.List.TakeWhile
import Mathlib.Order.Bounds.Basic
import Folio.Proofs.Document.Subtree

/-!
# Stepping to the nearest visible node

A node is visible when all nodes above it are open.  Seen from another node, hidden or not,
only those nodes above it count that are not above the other as well.  Stepping forward leads
to the first node after, and stepping back to the last node before, that is visible in this
sense; from visible nodes the two undo each other.
-/

namespace Folio.Outline

/-- Whether every closed node above `other` is above `index` too. -/
def IsSeenFrom (outline : Outline) (index other : Nat) : Prop :=
  ∀ above ∈ outline.ancestors other,
    above ∉ outline.ancestors index → outline.isOpen above = true

/-- Whether all nodes above a node are open. -/
def IsVisible (outline : Outline) (index : Nat) : Prop :=
  ∀ above ∈ outline.ancestors index, outline.isOpen above = true

/-- The nodes after a node that are seen from it. -/
def seenAfter (outline : Outline) (index : Nat) : Set Nat :=
  { other | index < other ∧ other < outline.size ∧ outline.IsSeenFrom index other }

/-- The nodes before a node that are seen from it. -/
def seenBefore (outline : Outline) (index : Nat) : Set Nat :=
  { other | other < index ∧ outline.IsSeenFrom index other }

/-- The nodes above the node before a node, up to the parent of the latter. -/
def between (outline : Outline) (index : Nat) : List Nat :=
  (outline.ancestors (index - 1)).takeWhile fun node => some node != outline.parent? index

namespace WellLinked

variable
    {outline : Outline}
    (linked : outline.WellLinked)

include linked

/-! ## Forward -/

omit linked in
theorem next?_eq (index : Nat) :
    outline.next? index =
      if index + 1 = outline.size then
        none
      else if outline.showsChildren index then
        some (index + 1)
      else
        outline.afterSubtree? index :=
  rfl

/-- Nodes have children exactly when the node after them is one. -/
theorem parent?_succ_of_mem_ancestors
    {index below : Nat}
    (member : index ∈ outline.ancestors below) :
    outline.parent? (index + 1) = some index := by
  have after := lt_of_mem_ancestors member
  have onWay :=
    linked.mem_lineage_of_le (mem_lineage_iff.2 (Or.inr member)) (Nat.le_succ index) after
  have proper := mem_ancestors_of_mem_lineage onWay (by omega)
  cases link : outline.parent? (index + 1) with
  | none => simp [ancestors_of_root link] at proper
  | some parent =>
      have parentBelow := parent?_lt link
      rw [ancestors_of_parent link] at proper
      have := le_of_mem_lineage proper
      rw [show parent = index by omega]

theorem showsChildren_iff (index : Nat) :
    outline.showsChildren index = true ↔
      outline.isOpen index = true ∧ outline.parent? (index + 1) = some index := by
  have children : outline.children index = outline.childrenOf (some index) := rfl
  have someChild :
      (outline.children index).isEmpty = false ↔ outline.parent? (index + 1) = some index := by
    rw [children, linked.childrenOf_eq]
    constructor
    · intro nonempty
      obtain ⟨child, member⟩ :=
        List.exists_mem_of_ne_nil _ (List.isEmpty_eq_false_iff.1 nonempty)
      have link : outline.parent? child = some index := by
        simpa using (List.mem_filter.1 member).2
      exact linked.parent?_succ_of_mem_ancestors (mem_ancestors_of_parent link)
    · intro link
      have inRange := lt_size_of_parent?_eq_some link
      refine List.isEmpty_eq_false_iff.2 (List.ne_nil_of_mem (a := index + 1) ?_)
      simp [inRange, link]
  simp [showsChildren, someChild]

/-- The node after a subtree is seen from every node on the last branch of it. -/
theorem mem_seenAfter_of_afterSubtree?
    {index finish : Nat}
    (isFinish : outline.afterSubtree? index = some finish) :
    finish ∈ outline.seenAfter index := by
  obtain ⟨node, found, stored⟩ := Option.bind_eq_some_iff.1 isFinish
  have onWay : node ∈ outline.lineage index := List.mem_of_find?_eq_some found
  have isNext := (linked.nextSibling?_eq_some_iff node finish).1 stored
  have sameAncestors := ancestors_congr isNext.sameParent
  refine ⟨?_, isNext.inRange, ?_⟩
  · refine Nat.lt_of_not_le fun finishLe => ?_
    have between := linked.mem_lineage_of_le onWay (Nat.le_of_lt isNext.after) finishLe
    have same := eq_of_mem_lineage_of_sibling between isNext.sameParent.symm
    exact absurd isNext.after (by omega)
  · intro above member notAbove
    rw [sameAncestors] at member
    exact absurd (mem_ancestors_of_lineage onWay member) notAbove

/-- Where no children are shown, nothing below the node is seen from it. -/
theorem not_mem_ancestors_of_mem_seenAfter
    {index other : Nat}
    (hidden : outline.showsChildren index = false)
    (seen : other ∈ outline.seenAfter index) :
    index ∉ outline.ancestors other := by
  intro below
  have notAbove : index ∉ outline.ancestors index := fun member =>
    absurd (lt_of_mem_ancestors member) (Nat.lt_irrefl index)
  have shown :=
    (linked.showsChildren_iff index).2
      ⟨seen.2.2 index below notAbove, linked.parent?_succ_of_mem_ancestors below⟩
  exact absurd (shown.symm.trans hidden) (by simp)

theorem isLeast_of_next?_eq_some
    {index next : Nat}
    (isNext : outline.next? index = some next) :
    IsLeast (outline.seenAfter index) next := by
  rw [next?_eq] at isNext
  split at isNext
  · exact absurd isNext (by simp)
  · cases shows : outline.showsChildren index with
    | true =>
        rw [shows] at isNext
        obtain rfl : index + 1 = next := by simpa using isNext
        obtain ⟨isOpen, link⟩ := (linked.showsChildren_iff index).1 shows
        refine ⟨⟨Nat.lt_succ_self index, lt_size_of_parent?_eq_some link, ?_⟩, ?_⟩
        · intro above member notAbove
          rw [ancestors_of_parent link] at member
          rcases mem_lineage_iff.1 member with rfl | higher
          · exact isOpen
          · exact absurd higher notAbove
        · intro other seen
          exact seen.1
    | false =>
        rw [shows] at isNext
        have isFinish : outline.afterSubtree? index = some next := by simpa using isNext
        refine ⟨linked.mem_seenAfter_of_afterSubtree? isFinish, ?_⟩
        intro other seen
        have notBelow := linked.not_mem_ancestors_of_mem_seenAfter shows seen
        rw [linked.mem_ancestors_iff_lt_afterSubtree? seen.1 seen.2.1] at notBelow
        simpa [isFinish] using notBelow

theorem seenAfter_eq_empty_of_next?_eq_none
    {index : Nat}
    (isNone : outline.next? index = none) :
    outline.seenAfter index = ∅ := by
  apply Set.eq_empty_of_forall_notMem
  intro other seen
  rw [next?_eq] at isNone
  split at isNone
  · have := seen.1
    have := seen.2.1
    omega
  · cases shows : outline.showsChildren index with
    | true => simp [shows] at isNone
    | false =>
        rw [shows] at isNone
        have noFinish : outline.afterSubtree? index = none := by simpa using isNone
        apply linked.not_mem_ancestors_of_mem_seenAfter shows seen
        rw [linked.mem_ancestors_iff_lt_afterSubtree? seen.1 seen.2.1]
        simp [noFinish]

/-- The node stepped to is the first one after that is seen. -/
theorem next?_eq_some_iff (index next : Nat) :
    outline.next? index = some next ↔ IsLeast (outline.seenAfter index) next := by
  constructor
  · exact linked.isLeast_of_next?_eq_some
  · intro isLeast
    cases found : outline.next? index with
    | none =>
        have nothingSeen := linked.seenAfter_eq_empty_of_next?_eq_none found
        exact absurd (nothingSeen ▸ isLeast.1) (Set.notMem_empty next)
    | some other =>
        rw [(linked.isLeast_of_next?_eq_some found).unique isLeast]

theorem next?_eq_none_iff (index : Nat) :
    outline.next? index = none ↔ outline.seenAfter index = ∅ := by
  constructor
  · exact linked.seenAfter_eq_empty_of_next?_eq_none
  · intro nothingSeen
    cases found : outline.next? index with
    | none => rfl
    | some other =>
        have seen := (linked.isLeast_of_next?_eq_some found).1
        exact absurd (nothingSeen ▸ seen) (Set.notMem_empty other)

/-! ## Back -/

/-- The way up from the node before meets the parent. -/
theorem parent_mem_lineage_pred
    {index parent : Nat}
    (link : outline.parent? index = some parent) :
    parent ∈ outline.lineage (index - 1) := by
  have parentBelow := parent?_lt link
  obtain ⟨before, rfl⟩ : ∃ before, index = before + 1 := ⟨index - 1, by omega⟩
  exact linked.parent_mem_lineage before parent link

/-- Above the node before stand the nodes between, and then those above the node. -/
theorem ancestors_pred_eq
    {index : Nat}
    (notParent : outline.parent? index ≠ some (index - 1)) :
    outline.ancestors (index - 1) = outline.between index ++ outline.ancestors index ∧
      ∀ node ∈ outline.between index, node ∉ outline.ancestors index := by
  cases link : outline.parent? index with
  | none =>
      have isAll : outline.between index = outline.ancestors (index - 1) := by
        rw [between, link]
        exact List.takeWhile_eq_self_iff.2 (by simp)
      simp [isAll, ancestors_of_root link]
  | some parent =>
      have member : parent ∈ outline.ancestors (index - 1) := by
        apply mem_ancestors_of_mem_lineage (linked.parent_mem_lineage_pred link)
        rintro rfl
        exact notParent link
      obtain ⟨front, rest, split⟩ := List.append_of_mem member
      have ancestorsOfParent := ancestors_of_split split
      have parentBelow : ∀ node ∈ front, parent < node := by
        intro node inFront
        obtain ⟨lower, higher, frontSplit⟩ := List.append_of_mem inFront
        rw [frontSplit, List.append_assoc] at split
        have isAbove : parent ∈ outline.ancestors node := by
          rw [ancestors_of_split split]
          simp
        exact lt_of_mem_ancestors isAbove
      have isFront : outline.between index = front := by
        rw [between, split, link, List.takeWhile_append_of_pos]
        · simp
        · intro node inFront
          have := parentBelow node inFront
          simp only [bne_iff_ne, ne_eq, Option.some.injEq]
          omega
      rw [isFront, ancestors_of_parent link, lineage, ancestorsOfParent]
      refine ⟨split, fun node inFront atParent => ?_⟩
      have inLineage : node ∈ outline.lineage parent := by
        rw [lineage, ancestorsOfParent]
        exact atParent
      exact absurd (parentBelow node inFront) (Nat.not_lt.2 (le_of_mem_lineage inLineage))

omit linked in
theorem previous_eq (index : Nat) :
    outline.previous index =
      if outline.parent? index = some (index - 1) then
        index - 1
      else
        (((outline.between index).filter fun node => !outline.isOpen node).getLast?).getD
          (index - 1) :=
  rfl

omit linked in
/-- The node before is seen where no closed node is between. -/
theorem isGreatest_pred
    {index : Nat}
    (positive : 0 < index)
    (allOpen : ∀ node ∈ outline.ancestors (index - 1),
      node ∉ outline.ancestors index → outline.isOpen node = true) :
    IsGreatest (outline.seenBefore index) (index - 1) :=
  ⟨⟨by omega, allOpen⟩, fun _ seen => Nat.le_sub_one_of_lt seen.1⟩

/-- The topmost closed node between stands for all that it hides. -/
theorem isGreatest_of_topmost_closed
    {index closed : Nat}
    (front rest : List Nat)
    (split : outline.ancestors (index - 1) = front ++ closed :: (rest ++ outline.ancestors index))
    (isClosed : outline.isOpen closed = false)
    (notAbove : closed ∉ outline.ancestors index)
    (restOpen : ∀ node ∈ rest, outline.isOpen node = true) :
    IsGreatest (outline.seenBefore index) closed := by
  have member : closed ∈ outline.ancestors (index - 1) := by
    rw [split]
    simp
  have closedBelow := lt_of_mem_ancestors member
  refine ⟨⟨by omega, ?_⟩, ?_⟩
  · intro above isAbove elsewhere
    rw [ancestors_of_split split] at isAbove
    rcases List.mem_append.1 isAbove with inRest | inAncestors
    · exact restOpen above inRest
    · exact absurd inAncestors elsewhere
  · intro other seen
    refine Nat.le_of_not_lt fun later => ?_
    have onWay :=
      linked.mem_lineage_of_le (mem_lineage_iff.2 (Or.inr member)) (Nat.le_of_lt later)
        (Nat.le_sub_one_of_lt seen.1)
    have isAbove := mem_ancestors_of_mem_lineage onWay (Nat.ne_of_lt later)
    exact absurd ((seen.2 closed isAbove notAbove).symm.trans isClosed) (by simp)

/-- The node stepped back to is the last one before that is seen. -/
theorem isGreatest_previous
    {index : Nat}
    (positive : 0 < index) :
    IsGreatest (outline.seenBefore index) (outline.previous index) := by
  rw [previous_eq]
  by_cases isParent : outline.parent? index = some (index - 1)
  · rw [if_pos isParent]
    apply isGreatest_pred positive
    intro above member notAbove
    rw [ancestors_of_parent isParent, mem_lineage_iff] at notAbove
    exact absurd (Or.inr member) notAbove
  · obtain ⟨split, apart⟩ := linked.ancestors_pred_eq isParent
    rw [if_neg isParent, List.getLast?_filter]
    cases topmost : (outline.between index).reverse.find? fun node => !outline.isOpen node with
    | none =>
        apply isGreatest_pred positive
        intro above member notAbove
        rw [split] at member
        have isBetween := (List.mem_append.1 member).resolve_right notAbove
        simpa using List.find?_eq_none.1 topmost above (List.mem_reverse.2 isBetween)
    | some closed =>
        obtain ⟨isClosed, above, below, parts, aboveOpen⟩ :=
          List.find?_eq_some_iff_append.1 topmost
        have betweenEq : outline.between index = below.reverse ++ closed :: above.reverse := by
          simpa using congrArg List.reverse parts
        have isBetween : closed ∈ outline.between index := by
          rw [betweenEq]
          simp
        refine linked.isGreatest_of_topmost_closed below.reverse above.reverse ?_ ?_
          (apart closed isBetween) ?_
        · simpa [betweenEq] using split
        · simpa using isClosed
        · simpa using aboveOpen

/-! ## Between visible nodes -/

omit linked in
/-- Seen from a visible node are exactly the visible nodes. -/
theorem isSeenFrom_iff
    {index : Nat}
    (visible : outline.IsVisible index)
    (other : Nat) :
    outline.IsSeenFrom index other ↔ outline.IsVisible other := by
  constructor
  · intro seen above member
    by_cases common : above ∈ outline.ancestors index
    · exact visible above common
    · exact seen above member common
  · intro otherVisible above member _
    exact otherVisible above member

theorem previous_of_next?
    {index next : Nat}
    (visible : outline.IsVisible index)
    (isNext : outline.next? index = some next) :
    outline.IsVisible next ∧ outline.previous next = index := by
  obtain ⟨⟨after, inRange, seen⟩, least⟩ := linked.isLeast_of_next?_eq_some isNext
  have nextVisible := (isSeenFrom_iff visible next).1 seen
  obtain ⟨⟨before, seenBack⟩, greatest⟩ :=
    linked.isGreatest_previous (Nat.zero_lt_of_lt after)
  have previousVisible := (isSeenFrom_iff nextVisible _).1 seenBack
  refine ⟨nextVisible, Nat.le_antisymm (Nat.le_of_not_lt fun later => ?_) ?_⟩
  · have notBefore :=
      least ⟨later, before.trans inRange, (isSeenFrom_iff visible _).2 previousVisible⟩
    exact absurd before (Nat.not_lt.2 notBefore)
  · exact greatest ⟨after, (isSeenFrom_iff nextVisible index).2 visible⟩

theorem next?_of_previous
    {index : Nat}
    (visible : outline.IsVisible index)
    (positive : 0 < index)
    (inRange : index < outline.size) :
    outline.IsVisible (outline.previous index) ∧
      outline.next? (outline.previous index) = some index := by
  obtain ⟨⟨before, seenBack⟩, greatest⟩ := linked.isGreatest_previous positive
  have previousVisible := (isSeenFrom_iff visible _).1 seenBack
  refine ⟨previousVisible, (linked.next?_eq_some_iff _ index).2 ⟨⟨before, inRange, ?_⟩, ?_⟩⟩
  · exact (isSeenFrom_iff previousVisible index).2 visible
  · rintro other ⟨after, -, seen⟩
    refine Nat.le_of_not_lt fun earlier => ?_
    have otherVisible := (isSeenFrom_iff previousVisible other).1 seen
    have notAfter := greatest ⟨earlier, (isSeenFrom_iff visible other).2 otherVisible⟩
    exact absurd after (Nat.not_lt.2 notAfter)

end WellLinked

/-! ## Built outlines -/

/--
In every built outline, whichever nodes are open, `next?` finds the first node after and
`previous` the last node before that is seen from a node, and the way back meets the parent.
Between visible nodes each step undoes the other.
-/
theorem steps_reach_nearest_seen
    (pushes : List (Option Nat × Paragraph))
    (isOpen : Nat → Bool) :
    let outline :=
      (TreeBuilder.empty.pushAll pushes).1.outline.mapOpen fun index _ => isOpen index
    (∀ index next,
        outline.next? index = some next ↔ IsLeast (outline.seenAfter index) next) ∧
      (∀ index, outline.next? index = none ↔ outline.seenAfter index = ∅) ∧
      (∀ index, 0 < index →
        IsGreatest (outline.seenBefore index) (outline.previous index) ∧
          ∀ parent, outline.parent? index = some parent →
            parent ∈ outline.lineage (index - 1)) ∧
      (∀ index next, outline.IsVisible index → outline.next? index = some next →
        outline.IsVisible next ∧ outline.previous next = index) ∧
      (∀ index, outline.IsVisible index → 0 < index → index < outline.size →
        outline.IsVisible (outline.previous index) ∧
          outline.next? (outline.previous index) = some index) := by
  intro outline
  have linked : outline.WellLinked :=
    (TreeBuilder.wellLinked_pushAll wellLinked_empty pushes).mapOpen _
  refine ⟨linked.next?_eq_some_iff, linked.next?_eq_none_iff, ?_, ?_, ?_⟩
  · intro index positive
    exact ⟨linked.isGreatest_previous positive, fun _ link =>
      linked.parent_mem_lineage_pred link⟩
  · intro index next visible isNext
    exact linked.previous_of_next? visible isNext
  · intro index visible positive inRange
    exact linked.next?_of_previous visible positive inRange

/-- Stepping back over a node that is closed below an open one. -/
theorem steps_reach_nearest_seen_over_closed :
    let outline :=
      (TreeBuilder.empty.pushAll
        [(none, ⟨.tree, []⟩), (some 0, ⟨.tree, []⟩), (some 1, ⟨.tree, []⟩),
          (none, ⟨.tree, []⟩)]).1.outline.mapOpen fun index _ => index == 0
    0 < 3 ∧ outline.previous 3 = 1 ∧
      IsGreatest (outline.seenBefore 3) (outline.previous 3) :=
  ⟨by decide, by decide +kernel, ((steps_reach_nearest_seen _ _).2.2.1 3 (by decide)).1⟩

end Folio.Outline
