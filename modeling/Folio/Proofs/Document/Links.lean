import Folio.Document.TreeBuilder
import Folio.Proofs.Document.Lineage

/-!
# The links of built outlines

Whatever is pushed, accepted or refused, the links stored with the nodes of an outline agree
with its parents: children are listed in order, siblings are chained in order, and the parent
of a node is the node before it or one above that.  The last is what makes the numbers a
preorder, so that the nodes from an ancestor down to a node all stand below the ancestor.
-/

namespace Folio.Outline

/-! ## Adding a node -/

theorem getElem?_modifyNode?
    (nodes : Array OutlineNode)
    (changed : Option Nat)
    (change : OutlineNode → OutlineNode)
    (index : Nat) :
    (modifyNode? nodes changed change)[index]? =
      if changed = some index then nodes[index]?.map change else nodes[index]? := by
  cases changed with
  | none => simp [modifyNode?]
  | some target => simp [modifyNode?, Array.getElem?_modify]

section Push

variable
    (outline : Outline)
    (parent : Option Nat)
    (earlier : ∀ node, parent = some node → node < outline.size)

theorem size_push : (outline.push parent earlier).size = outline.size + 1 :=
  size_pushNodes outline parent

/-- The links of the nodes after one is added. -/
theorem getElem?_push (index : Nat) :
    (outline.push parent earlier).nodes[index]? =
      if index = outline.size then
        some (outline.newNode parent)
      else
        outline.nodes[index]?.map fun node =>
          { node with
            children :=
              if parent = some index then node.children ++ [outline.size] else node.children
            nextSibling :=
              if (outline.childrenOf parent).getLast? = some index then
                some outline.size
              else
                node.nextSibling } := by
  simp only [push, pushNodes, Array.getElem?_push, size_modifyNode?, getElem?_modifyNode?]
  by_cases isNew : index = outline.nodes.size
  · simp [isNew, size]
  · have isOld : ¬ index = outline.size := isNew
    rw [if_neg isNew, if_neg isOld]
    cases outline.nodes[index]? with
    | none => simp
    | some node => split <;> split <;> simp

theorem parent?_push (index : Nat) :
    (outline.push parent earlier).parent? index =
      if index = outline.size then parent else outline.parent? index := by
  simp only [parent?, getElem?_push]
  split
  · rfl
  · cases outline.nodes[index]? <;> rfl

theorem ancestors_push
    {index : Nat}
    (inRange : index < outline.size) :
    (outline.push parent earlier).ancestors index = outline.ancestors index := by
  refine ancestors_eq_of_parent?_eq (fun node inRange => ?_) inRange
  rw [parent?_push, if_neg (Nat.ne_of_lt inRange)]

theorem children_push (index : Nat) :
    (outline.push parent earlier).children index =
      if parent = some index then
        outline.children index ++ [outline.size]
      else
        outline.children index := by
  simp only [children, getElem?_push]
  by_cases isParent : parent = some index
  · have inRange : index < outline.nodes.size := earlier index isParent
    have isOld : ¬ index = outline.size := Nat.ne_of_lt inRange
    rw [if_pos isParent, if_neg isOld, Array.getElem?_eq_getElem inRange]
    simp [isParent]
  · rw [if_neg isParent]
    split
    · simp_all [newNode, size]
    · cases outline.nodes[index]? with
      | none => rfl
      | some node => simp

theorem childrenOf_push (above : Option Nat) :
    (outline.push parent earlier).childrenOf above =
      if parent = above then
        outline.childrenOf above ++ [outline.size]
      else
        outline.childrenOf above := by
  cases above with
  | none => cases parent <;> simp [childrenOf, push]
  | some index => exact children_push outline parent earlier index

theorem nextSibling?_push
    {index : Nat}
    (inRange : index < outline.size) :
    (outline.push parent earlier).nextSibling? index =
      if (outline.childrenOf parent).getLast? = some index then
        some outline.size
      else
        outline.nextSibling? index := by
  have isOld : ¬ index = outline.size := Nat.ne_of_lt inRange
  have inNodes : index < outline.nodes.size := inRange
  simp only [nextSibling?, getElem?_push, if_neg isOld, Array.getElem?_eq_getElem inNodes]
  rfl

theorem nextSibling?_eq_none_of_size_le
    {index : Nat}
    (outOfRange : outline.size ≤ index) :
    outline.nextSibling? index = none := by
  have unused : outline.nodes[index]? = none := Array.getElem?_eq_none outOfRange
  simp [nextSibling?, unused]

theorem nextSibling?_push_size :
    (outline.push parent earlier).nextSibling? outline.size = none := by
  simp [nextSibling?, getElem?_push, newNode]

end Push

/-- Only nodes have parents. -/
theorem lt_size_of_parent?_eq_some
    {outline : Outline}
    {index parent : Nat}
    (link : outline.parent? index = some parent) :
    index < outline.size := by
  refine Nat.lt_of_not_le fun outOfRange => ?_
  have unused : outline.nodes[index]? = none := Array.getElem?_eq_none outOfRange
  simp [parent?, unused] at link

/-! ## Links that agree with the parents -/

/-- The first node after another with the same parent. -/
structure IsNextSibling (outline : Outline) (index sibling : Nat) : Prop where
  after : index < sibling
  inRange : sibling < outline.size
  sameParent : outline.parent? sibling = outline.parent? index
  first :
    ∀ between, index < between → between < sibling →
      outline.parent? between ≠ outline.parent? index

/-- The links of an outline agree with its parents, and its numbers are a preorder. -/
structure WellLinked (outline : Outline) : Prop where
  parent_mem_lineage :
    ∀ index parent, outline.parent? (index + 1) = some parent → parent ∈ outline.lineage index
  childrenOf_eq :
    ∀ above,
      outline.childrenOf above =
        (List.range outline.size).filter fun index => outline.parent? index = above
  nextSibling?_eq_some_iff :
    ∀ index sibling,
      outline.nextSibling? index = some sibling ↔ outline.IsNextSibling index sibling

theorem wellLinked_empty : empty.WellLinked where
  parent_mem_lineage := by simp [parent?, empty]
  childrenOf_eq := by
    intro above
    cases above <;> rfl
  nextSibling?_eq_some_iff := by
    intro index sibling
    constructor
    · simp [nextSibling?, empty]
    · intro next
      exact absurd next.inRange (Nat.not_lt_zero sibling)

/-- The last number below a bound that satisfies a test. -/
theorem getLast?_filter_range_eq_some_iff
    (test : Nat → Bool)
    (bound last : Nat) :
    ((List.range bound).filter test).getLast? = some last ↔
      last < bound ∧ test last = true ∧
        ∀ later, last < later → later < bound → test later = false := by
  induction bound with
  | zero => simp
  | succ bound lastBelow =>
      rw [List.range_succ, List.filter_append]
      cases passes : test bound with
      | true =>
          rw [List.filter_cons_of_pos passes, List.filter_nil, List.getLast?_concat]
          constructor
          · intro isLast
            obtain rfl := Option.some.inj isLast
            exact ⟨Nat.lt_succ_self bound, passes, fun later after inBound => by omega⟩
          · rintro ⟨inBound, -, noLater⟩
            by_cases same : last = bound
            · rw [same]
            · have fails := noLater bound (by omega) (Nat.lt_succ_self bound)
              exact absurd (passes.symm.trans fails) (by simp)
      | false =>
          rw [List.filter_cons_of_neg (by simp [passes]), List.filter_nil, List.append_nil,
            lastBelow]
          constructor
          · rintro ⟨inBound, found, noLater⟩
            refine ⟨Nat.lt_succ_of_lt inBound, found, fun later after inBound => ?_⟩
            by_cases same : later = bound
            · rw [same, passes]
            · exact noLater later after (by omega)
          · rintro ⟨inBound, found, noLater⟩
            have other : last ≠ bound := by
              rintro rfl
              exact absurd (passes.symm.trans found) (by simp)
            exact ⟨by omega, found, fun later after inBound => noLater later after (by omega)⟩

namespace WellLinked

variable
    {outline : Outline}
    (linked : outline.WellLinked)

include linked

/-- The last child is the one that no other follows. -/
theorem getLast?_childrenOf_eq_some_iff (above : Option Nat) (index : Nat) :
    (outline.childrenOf above).getLast? = some index ↔
      index < outline.size ∧ outline.parent? index = above ∧
        ∀ later, index < later → later < outline.size → outline.parent? later ≠ above := by
  rw [linked.childrenOf_eq, getLast?_filter_range_eq_some_iff]
  simp

/-! ### Adding a node keeps the links -/

section Push

variable
    {parent : Option Nat}
    (earlier : ∀ node, parent = some node → node < outline.size)

theorem childrenOf_push_eq (above : Option Nat) :
    (outline.push parent earlier).childrenOf above =
      (List.range (outline.push parent earlier).size).filter fun index =>
        (outline.push parent earlier).parent? index = above := by
  have oldChildren :
      ((List.range outline.size).filter fun index =>
          (outline.push parent earlier).parent? index = above) =
        outline.childrenOf above := by
    rw [linked.childrenOf_eq]
    apply List.filter_congr
    intro index member
    rw [parent?_push, if_neg (Nat.ne_of_lt (List.mem_range.1 member))]
  rw [size_push, List.range_succ, List.filter_append, oldChildren, childrenOf_push]
  by_cases isParent : parent = above
  · simp [isParent, parent?_push]
  · simp [isParent, parent?_push]

theorem isNextSibling_push_iff
    {index sibling : Nat}
    (inRange : index < outline.size) :
    (outline.push parent earlier).IsNextSibling index sibling ↔
      outline.IsNextSibling index sibling ∨
        sibling = outline.size ∧ (outline.childrenOf parent).getLast? = some index := by
  have oldParent :
      ∀ node < outline.size,
        (outline.push parent earlier).parent? node = outline.parent? node := by
    intro node isOld
    rw [parent?_push, if_neg (Nat.ne_of_lt isOld)]
  have newParent : (outline.push parent earlier).parent? outline.size = parent := by
    rw [parent?_push, if_pos rfl]
  rw [linked.getLast?_childrenOf_eq_some_iff]
  constructor
  · intro next
    have siblingBelow : sibling < outline.size + 1 := size_push outline parent earlier ▸ next.inRange
    have sameParent := next.sameParent
    rw [oldParent index inRange] at sameParent
    have noneBetween :
        ∀ between, index < between → between < sibling →
          outline.parent? between ≠ outline.parent? index := by
      intro between after before
      rw [← oldParent index inRange, ← oldParent between (by omega)]
      exact next.first between after before
    by_cases isNew : sibling = outline.size
    · subst isNew
      rw [newParent] at sameParent
      exact Or.inr ⟨rfl, inRange, sameParent.symm, fun later after inRange =>
        sameParent ▸ noneBetween later after inRange⟩
    · have isOld : sibling < outline.size := by omega
      rw [oldParent sibling isOld] at sameParent
      exact Or.inl ⟨next.after, isOld, sameParent, noneBetween⟩
  · rintro (next | ⟨rfl, -, sameParent, noLater⟩)
    · have siblingBelow := next.inRange
      refine ⟨next.after, by rw [size_push]; omega, ?_, ?_⟩
      · rw [oldParent sibling siblingBelow, oldParent index inRange]
        exact next.sameParent
      · intro between after before
        rw [oldParent index inRange, oldParent between (by omega)]
        exact next.first between after before
    · refine ⟨inRange, by rw [size_push]; omega, ?_, ?_⟩
      · rw [newParent, oldParent index inRange, sameParent]
      · intro between after before
        rw [oldParent index inRange, oldParent between before, sameParent]
        exact noLater between after before

theorem nextSibling?_push_eq_some_iff (index sibling : Nat) :
    (outline.push parent earlier).nextSibling? index = some sibling ↔
      (outline.push parent earlier).IsNextSibling index sibling := by
  by_cases inRange : index < outline.size
  · rw [nextSibling?_push outline parent earlier inRange,
      linked.isNextSibling_push_iff earlier inRange]
    split
    · rename_i isLast
      constructor
      · intro isNew
        exact Or.inr ⟨(Option.some.inj isNew).symm, isLast⟩
      · rintro (next | ⟨rfl, -⟩)
        · obtain ⟨-, sameParent, noLater⟩ :=
            (linked.getLast?_childrenOf_eq_some_iff parent index).1 isLast
          exact absurd (next.sameParent.trans sameParent)
            (noLater sibling next.after next.inRange)
        · rfl
    · rename_i notLast
      rw [linked.nextSibling?_eq_some_iff]
      simp [notLast]
  · have noNext : (outline.push parent earlier).nextSibling? index = none := by
      by_cases isNew : index = outline.size
      · rw [isNew, nextSibling?_push_size]
      · apply nextSibling?_eq_none_of_size_le
        rw [size_push]
        omega
    rw [noNext]
    constructor
    · intro impossible
      exact absurd impossible (by simp)
    · intro next
      have siblingBelow := next.inRange
      have after := next.after
      rw [size_push] at siblingBelow
      omega

/-- A node added at the end of the rightmost path keeps all links. -/
theorem push
    (onPath : ∀ node, parent = some node → node ∈ outline.rightmostPath) :
    (outline.push parent earlier).WellLinked where
  parent_mem_lineage := by
    intro index above link
    rw [parent?_push] at link
    split at link
    · rename_i isNew
      have member := onPath above link
      rw [rightmostPath, ← isNew] at member
      rw [lineage, ancestors_push outline parent earlier (by omega)]
      exact member
    · have inRange := lt_size_of_parent?_eq_some link
      rw [lineage, ancestors_push outline parent earlier (by omega)]
      exact linked.parent_mem_lineage index above link
  childrenOf_eq := linked.childrenOf_push_eq earlier
  nextSibling?_eq_some_iff := linked.nextSibling?_push_eq_some_iff earlier

end Push

end WellLinked

/-! ## Opening and closing -/

section MapOpen

variable
    (change : Nat → Bool → Bool)
    (outline : Outline)

theorem getElem?_mapOpen (index : Nat) :
    (outline.mapOpen change).nodes[index]? =
      outline.nodes[index]?.map fun node =>
        { node with isOpen := change index node.isOpen } := by
  simp [mapOpen]

@[simp]
theorem parent?_mapOpen (index : Nat) :
    (outline.mapOpen change).parent? index = outline.parent? index := by
  rw [parent?, getElem?_mapOpen, parent?]
  cases outline.nodes[index]? <;> rfl

@[simp]
theorem nextSibling?_mapOpen (index : Nat) :
    (outline.mapOpen change).nextSibling? index = outline.nextSibling? index := by
  rw [nextSibling?, getElem?_mapOpen, nextSibling?]
  cases outline.nodes[index]? <;> rfl

@[simp]
theorem childrenOf_mapOpen (above : Option Nat) :
    (outline.mapOpen change).childrenOf above = outline.childrenOf above := by
  cases above with
  | none => rfl
  | some index =>
      simp only [childrenOf, children, getElem?_mapOpen]
      cases outline.nodes[index]? <;> rfl

@[simp]
theorem ancestors_mapOpen (index : Nat) :
    (outline.mapOpen change).ancestors index = outline.ancestors index :=
  ancestors_eq_of_parent?_eq (fun node _ => parent?_mapOpen change outline node)
    (Nat.lt_succ_self index)

variable {outline}

/-- Opening and closing nodes leaves the links as they are. -/
theorem WellLinked.mapOpen (linked : outline.WellLinked) :
    (outline.mapOpen change).WellLinked where
  parent_mem_lineage := by
    intro index parent link
    rw [parent?_mapOpen] at link
    rw [lineage, ancestors_mapOpen]
    exact linked.parent_mem_lineage index parent link
  childrenOf_eq := by
    intro above
    simpa using linked.childrenOf_eq above
  nextSibling?_eq_some_iff := by
    intro index sibling
    rw [nextSibling?_mapOpen, linked.nextSibling?_eq_some_iff]
    constructor
    · intro next
      exact ⟨next.after, by simpa using next.inRange, by simpa using next.sameParent,
        by simpa using next.first⟩
    · intro next
      exact ⟨next.after, by simpa using next.inRange, by simpa using next.sameParent,
        by simpa using next.first⟩

end MapOpen

end Folio.Outline

namespace Folio.TreeBuilder

/-- An accepted push adds its node at the end of the rightmost path. -/
theorem wellLinked_push
    {builder next : TreeBuilder}
    {parent : Option Nat}
    {paragraph : Paragraph}
    (linked : builder.outline.WellLinked)
    (accepted : builder.push parent paragraph = .ok next) :
    next.outline.WellLinked := by
  unfold push at accepted
  split at accepted
  · exact absurd accepted (by simp)
  · cases parent with
    | none =>
        obtain rfl := Except.ok.inj accepted
        exact linked.push (by simp) (by simp)
    | some node =>
        simp only at accepted
        split at accepted
        · split at accepted
          · rename_i isEarlier onPath
            obtain rfl := Except.ok.inj accepted
            apply linked.push (by simpa using isEarlier)
            intro above isParent
            obtain rfl := Option.some.inj isParent
            exact List.contains_iff_mem.1 onPath
          · exact absurd accepted (by simp)
        · exact absurd accepted (by simp)

/-- What accepted pushes keep is kept over any sequence of pushes, accepted or refused. -/
theorem pushAll_induction
    {invariant : TreeBuilder → Prop}
    (ofPush :
      ∀ {before next parent paragraph},
        before.push parent paragraph = .ok next → invariant before → invariant next)
    {builder : TreeBuilder}
    (holds : invariant builder)
    (pushes : List (Option Nat × Paragraph)) :
    invariant (builder.pushAll pushes).1 := by
  induction pushes generalizing builder with
  | nil => exact holds
  | cons attempt rest holdsAfter =>
      obtain ⟨parent, paragraph⟩ := attempt
      simp only [pushAll]
      split
      · rename_i next accepted
        exact holdsAfter (ofPush accepted holds)
      · exact holdsAfter holds

/-- The links stay consistent over any sequence of pushes, accepted or refused. -/
theorem wellLinked_pushAll
    {builder : TreeBuilder}
    (linked : builder.outline.WellLinked)
    (pushes : List (Option Nat × Paragraph)) :
    (builder.pushAll pushes).1.outline.WellLinked :=
  pushAll_induction (fun accepted linked => wellLinked_push linked accepted) linked pushes

end Folio.TreeBuilder
