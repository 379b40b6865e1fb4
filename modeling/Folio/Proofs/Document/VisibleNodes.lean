import Folio.Proofs.Document.Reading
import Folio.Proofs.ReadsThrough

/-!
# The list of the visible nodes

Stepping forward leads through all visible nodes in order, and stepping back through the same
nodes from the last one to the first.  Which nodes are listed depends only on which nodes are
open, so what folding adds to the list or takes from it is told by the nodes above.
-/

namespace Folio

/-! ## Visible nodes -/

namespace Outline

/-- The visible nodes in order. -/
def visibleNodes (outline : Outline) : List Nat :=
  (List.range outline.size).filter fun index => (outline.ancestors index).all outline.isOpen

variable {outline : Outline}

theorem mem_visibleNodes
    {index : Nat} :
    index ∈ outline.visibleNodes ↔ index < outline.size ∧ outline.IsVisible index := by
  simp [visibleNodes, IsVisible]

theorem pairwise_visibleNodes (outline : Outline) : outline.visibleNodes.Pairwise (· < ·) :=
  List.Pairwise.filter _ List.pairwise_lt_range

/-- Node 0 is at the top of every outline that has nodes. -/
theorem head?_visibleNodes
    (nonempty : 0 < outline.size) :
    outline.visibleNodes.head? = some 0 := by
  have isRoot : outline.ancestors 0 = [] := by
    apply ancestors_of_root
    cases link : outline.parent? 0 with
    | none => rfl
    | some parent => exact absurd (parent?_lt link) (Nat.not_lt_zero parent)
  obtain ⟨last, size⟩ := Nat.exists_eq_add_of_lt nonempty
  rw [visibleNodes, size, Nat.zero_add, List.range_succ_eq_map, List.filter_cons_of_pos]
  · rfl
  · rw [isRoot]
    rfl

/-- Seen after a visible node are the visible nodes with greater numbers. -/
theorem seenAfter_eq
    {index : Nat}
    (visible : outline.IsVisible index) :
    outline.seenAfter index = { other | other ∈ outline.visibleNodes ∧ index < other } := by
  ext other
  show index < other ∧ other < outline.size ∧ outline.IsSeenFrom index other ↔
    other ∈ outline.visibleNodes ∧ index < other
  rw [mem_visibleNodes, WellLinked.isSeenFrom_iff visible]
  constructor
  · rintro ⟨after, inRange, otherVisible⟩
    exact ⟨⟨inRange, otherVisible⟩, after⟩
  · rintro ⟨⟨inRange, otherVisible⟩, after⟩
    exact ⟨after, inRange, otherVisible⟩

theorem WellLinked.readsThrough_next?
    (linked : outline.WellLinked) :
    ReadsThrough outline.next? outline.visibleNodes := by
  apply ReadsThrough.of_sorted outline.pairwise_visibleNodes
  · intro index member following isLeast
    have visible := (mem_visibleNodes.1 member).2
    apply (linked.next?_eq_some_iff index following).2
    rwa [seenAfter_eq visible]
  · intro index member greatest
    have visible := (mem_visibleNodes.1 member).2
    apply (linked.next?_eq_none_iff index).2
    rw [seenAfter_eq visible]
    apply Set.eq_empty_of_forall_notMem
    rintro other ⟨otherMember, after⟩
    exact absurd after (Nat.not_lt.2 (greatest other otherMember))

/-! ## Folding -/

section Folding

variable
    {change : Nat → Bool → Bool}
    {index node : Nat}

theorem isOpen_mapOpen
    (inRange : index < outline.size) :
    (outline.mapOpen change).isOpen index = change index (outline.isOpen index) := by
  have isNode : outline.nodes[index]? = some outline.nodes[index] :=
    Array.getElem?_eq_getElem inRange
  rw [isOpen, isOpen, getElem?_mapOpen, isNode]
  rfl

theorem isOpen_of_size_le
    (outOfRange : outline.size ≤ index) :
    outline.isOpen index = false := by
  have noNode : outline.nodes[index]? = none := Array.getElem?_eq_none outOfRange
  rw [isOpen, noNode]
  rfl

/-- A change shows at a node only if it changes the node's own flag. -/
theorem isOpen_mapOpen_of_same
    (same : change index (outline.isOpen index) = outline.isOpen index) :
    (outline.mapOpen change).isOpen index = outline.isOpen index := by
  rcases Nat.lt_or_ge index outline.size with inRange | outOfRange
  · rw [isOpen_mapOpen inRange, same]
  · rw [isOpen_of_size_le outOfRange, isOpen_of_size_le]
    rwa [size_mapOpen]

/-- The nodes that are listed depend on the flags of the nodes above them. -/
theorem mem_visibleNodes_mapOpen :
    node ∈ (outline.mapOpen change).visibleNodes ↔
      node < outline.size ∧
        ∀ above ∈ outline.ancestors node, (outline.mapOpen change).isOpen above = true := by
  rw [mem_visibleNodes, size_mapOpen, IsVisible, ancestors_mapOpen]

/-- Opening a node with all those above it opens nothing else. -/
theorem isOpen_openingLineage_of_notMem
    (notAbove : node ∉ outline.lineage index) :
    (outline.mapOpen (outline.openingLineage index)).isOpen node = outline.isOpen node := by
  apply isOpen_mapOpen_of_same
  simp [openingLineage, notAbove]

theorem isOpen_openingLineage_of_isOpen
    (wasOpen : outline.isOpen node = true) :
    (outline.mapOpen (outline.openingLineage index)).isOpen node = true := by
  rw [← wasOpen]
  apply isOpen_mapOpen_of_same
  rw [wasOpen, openingLineage, Bool.or_true]

theorem mem_visibleNodes_openingLineage_self
    (inRange : index < outline.size) :
    index ∈ (outline.mapOpen (outline.openingLineage index)).visibleNodes := by
  rw [mem_visibleNodes_mapOpen]
  refine ⟨inRange, fun above member => ?_⟩
  have onWay : above ∈ outline.lineage index := mem_lineage_iff.2 (Or.inr member)
  rw [isOpen_mapOpen (Nat.lt_trans (lt_of_mem_ancestors member) inRange)]
  simp [openingLineage, onWay]

theorem mem_visibleNodes_openingLineage
    (member : node ∈ outline.visibleNodes) :
    node ∈ (outline.mapOpen (outline.openingLineage index)).visibleNodes := by
  obtain ⟨inRange, visible⟩ := mem_visibleNodes.1 member
  rw [mem_visibleNodes_mapOpen]
  exact ⟨inRange, fun above isAbove => isOpen_openingLineage_of_isOpen (visible above isAbove)⟩

/-- Opening or closing a node leaves the list alone but for what is below the node. -/
theorem mem_visibleNodes_opening_iff
    {isOpen : Bool}
    (notBelow : index ∉ outline.ancestors node) :
    node ∈ (outline.mapOpen (opening index isOpen)).visibleNodes ↔
      node ∈ outline.visibleNodes := by
  rw [mem_visibleNodes_mapOpen, mem_visibleNodes]
  apply and_congr_right
  intro inRange
  apply forall₂_congr
  intro above member
  have other : above ≠ index := by
    rintro rfl
    exact notBelow member
  rw [isOpen_mapOpen_of_same]
  rw [opening, if_neg other]

theorem notMem_visibleNodes_closing
    (below : index ∈ outline.ancestors node) :
    node ∉ (outline.mapOpen (opening index false)).visibleNodes := by
  intro member
  obtain ⟨inRange, allOpen⟩ := mem_visibleNodes_mapOpen.1 member
  have isOpen := allOpen index below
  rw [isOpen_mapOpen (Nat.lt_trans (lt_of_mem_ancestors below) inRange), opening,
    if_pos rfl] at isOpen
  exact absurd isOpen Bool.false_ne_true

end Folding

end Outline

/-! ## Reading a tree document -/

namespace Document

variable
    {document : Document}
    {tree : Outline}

theorem IsNavigable.readsThrough_next?
    (navigable : document.IsNavigable)
    (isOutline : document.outline = some tree) :
    ReadsThrough document.next? tree.visibleNodes := by
  have isStep : document.next? = tree.next? := by
    funext index
    rw [next?, isOutline]
  rw [isStep]
  exact (navigable.wellLinked tree isOutline).readsThrough_next?

theorem IsNavigable.readsThrough_previous?
    (navigable : document.IsNavigable)
    (isOutline : document.outline = some tree) :
    ReadsThrough document.previous? tree.visibleNodes.reverse := by
  apply (navigable.readsThrough_next? isOutline).reverse
  · intro index member following isNext
    apply navigable.previous?_of_next? _ isNext
    rw [IsReversible, isOutline]
    exact (Outline.mem_visibleNodes.1 member).2
  · intro first isHead
    have nonempty : 0 < tree.size := by
      have member := List.mem_of_head? isHead
      exact Nat.zero_lt_of_lt (Outline.mem_visibleNodes.1 member).1
    rw [Outline.head?_visibleNodes nonempty] at isHead
    obtain rfl := Option.some.inj isHead
    rw [previous?, isFirst]
    rfl

end Document

end Folio
