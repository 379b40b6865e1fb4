import Mathlib.Data.Set.Card
import Mathlib.Order.Interval.Set.Basic
import Folio.Proofs.Document.Preorder
import Folio.Proofs.Document.Visibility

/-!
# How the links of nodes agree

An outline keeps more than it would need: the parent of a node, its children, its next
sibling and its depth, and the nodes at the top.  In an outline that has been built the
parents tell all the others.  They also tell how far a subtree reaches, so that asking whether
a node stands above another comes down to comparing numbers, and every walk towards the top
ends, since parents are smaller than their children.
-/

namespace Folio.Outline

variable
    {outline : Outline}
    {index parent above : Nat}

/-! ## Walks towards the top -/

/-- Past the end of the outline no number has a parent. -/
theorem parent?_eq_none_of_size_le (unused : outline.size ≤ index) :
    outline.parent? index = none := by
  by_contra someParent
  obtain ⟨node, isParent⟩ := Option.ne_none_iff_exists'.1 someParent
  exact absurd (lt_size_of_parent?_eq_some isParent) (Nat.not_lt.mpr unused)

/-- Ancestors come in decreasing order. -/
theorem pairwise_ancestors (outline : Outline) (index : Nat) :
    (outline.ancestors index).Pairwise fun lower upper => upper < lower := by
  induction index using Nat.strongRecOn with
  | ind index smaller =>
      cases link : outline.parent? index with
      | none =>
          rw [ancestors_of_root link]
          exact .nil
      | some parent =>
          rw [ancestors_of_parent link, lineage]
          refine .cons ?_ (smaller parent (parent?_lt link))
          intro above member
          exact lt_of_mem_ancestors member

/-- Following parents from a node ends, after no more steps than there are nodes up to it. -/
theorem iterate_parent?_eq_none (outline : Outline) (index : Nat) :
    (fun node? : Option Nat => node?.bind outline.parent?)^[index + 1] (some index) = none := by
  induction index using Nat.strongRecOn with
  | ind index smaller =>
      have stays : ∀ steps, (fun node? : Option Nat => node?.bind outline.parent?)^[steps] none =
          none := fun steps => Function.iterate_fixed rfl steps
      rw [Function.iterate_succ_apply, Option.bind_some]
      cases link : outline.parent? index with
      | none => exact stays index
      | some parent =>
          have parentBelow := parent?_lt link
          obtain ⟨more, rfl⟩ := Nat.exists_eq_add_of_lt parentBelow
          rw [show parent + more + 1 = more + (parent + 1) by omega,
            Function.iterate_add_apply, smaller parent parentBelow]
          exact stays more

theorem isAncestorOf_iff_mem :
    outline.isAncestorOf above index = true ↔ above ∈ outline.ancestors index :=
  List.contains_iff_mem

/-- The nodes above a node are those that are reached by following parents, once or more. -/
theorem isAncestorOf_iff_transGen :
    outline.isAncestorOf above index = true ↔
      Relation.TransGen (fun lower upper => outline.parent? lower = some upper) index above := by
  rw [isAncestorOf_iff_mem, Relation.TransGen.head'_iff]
  constructor
  · intro member
    cases link : outline.parent? index with
    | none => simp [ancestors_of_root link] at member
    | some parent =>
        rw [ancestors_of_parent link] at member
        exact ⟨parent, rfl, mem_lineage_iff_reflTransGen.1 member⟩
  · rintro ⟨parent, link, reached⟩
    rw [ancestors_of_parent link]
    exact mem_lineage_iff_reflTransGen.2 reached

/-! ## Depths -/

/-- The depth that is stored for a node is the number of its ancestors. -/
def CountsDepth (outline : Outline) : Prop :=
  ∀ index, outline.depth index = (outline.ancestors index).length

theorem countsDepth_empty : empty.CountsDepth := by
  intro index
  rw [ancestors_of_root (by simp [parent?, empty])]
  simp [depth, empty]

section Push

variable
    (outline : Outline)
    (parent : Option Nat)
    (earlier : ∀ node, parent = some node → node < outline.size)

theorem depth_push (index : Nat) :
    (outline.push parent earlier).depth index =
      if index = outline.size then (outline.newNode parent).depth else outline.depth index := by
  simp only [depth, getElem?_push]
  split
  · rfl
  · cases outline.nodes[index]? <;> rfl

variable {outline}

theorem CountsDepth.push (counts : outline.CountsDepth) :
    (outline.push parent earlier).CountsDepth := by
  intro index
  have link := parent?_push outline parent earlier index
  rw [depth_push]
  rcases Nat.lt_trichotomy index outline.size with isOld | isNew | unused
  · rw [if_neg (Nat.ne_of_lt isOld), counts, ancestors_push outline parent earlier isOld]
  · rw [if_pos isNew] at link ⊢
    cases parent with
    | none =>
        rw [ancestors_of_root link]
        rfl
    | some node =>
        rw [ancestors_of_parent link, lineage,
          ancestors_push outline (some node) earlier (earlier node rfl), List.length_cons,
          ← counts]
        rfl
  · have noParent := parent?_eq_none_of_size_le (Nat.le_of_lt unused)
    rw [if_neg (Nat.ne_of_gt unused)] at link ⊢
    rw [counts, ancestors_of_root noParent, ancestors_of_root (link.trans noParent)]

end Push

/-- A depth counts the nodes that stand above. -/
theorem CountsDepth.depth_eq_ncard (counts : outline.CountsDepth) (index : Nat) :
    outline.depth index = { above | outline.isAncestorOf above index = true }.ncard := by
  have distinct : (outline.ancestors index).Nodup :=
    (pairwise_ancestors outline index).imp fun later => Nat.ne_of_gt later
  have sameNodes :
      { above | outline.isAncestorOf above index = true } =
        ((outline.ancestors index).toFinset : Set Nat) := by
    ext above
    simp [isAncestorOf_iff_mem]
  rw [sameNodes, Set.ncard_coe_finset, List.toFinset_card_of_nodup distinct, counts]

/-! ## Siblings -/

/-- Two numbers follow each other among those below a bound that satisfy a test. -/
theorem follows_in_filter_range_iff
    (test : Nat → Bool)
    (bound first second : Nat) :
    (∃ front back,
        (List.range bound).filter test = front ++ first :: second :: back) ↔
      first < second ∧ second < bound ∧ test first = true ∧ test second = true ∧
        ∀ between, first < between → between < second → test between = false := by
  have listed : ∀ number, number ∈ (List.range bound).filter test ↔
      number < bound ∧ test number = true := by
    simp
  have increasing : ((List.range bound).filter test).Pairwise (· < ·) :=
    List.pairwise_lt_range.filter test
  constructor
  · rintro ⟨front, back, split⟩
    rw [split] at listed increasing
    obtain ⟨-, fromFirst, beforeFirst⟩ := List.pairwise_append.1 increasing
    obtain ⟨afterFirst, fromSecond⟩ := List.pairwise_cons.1 fromFirst
    obtain ⟨afterSecond, -⟩ := List.pairwise_cons.1 fromSecond
    obtain ⟨-, firstPasses⟩ := (listed first).1 (by simp)
    obtain ⟨secondBelow, secondPasses⟩ := (listed second).1 (by simp)
    refine ⟨afterFirst second (by simp), secondBelow, firstPasses, secondPasses, ?_⟩
    intro between later earlier
    by_contra passes
    have member := (listed between).2 ⟨by omega, by simpa using passes⟩
    rcases List.mem_append.1 member with inFront | inRest
    · have := beforeFirst between inFront first (by simp)
      omega
    · rcases List.mem_cons.1 inRest with rfl | inRest
      · exact Nat.lt_irrefl between later
      · rcases List.mem_cons.1 inRest with rfl | inBack
        · exact Nat.lt_irrefl between earlier
        · have := afterSecond between inBack
          omega
  · rintro ⟨inOrder, secondBelow, firstPasses, secondPasses, noneBetween⟩
    obtain ⟨front, rest, split⟩ :=
      List.append_of_mem ((listed first).2 ⟨by omega, firstPasses⟩)
    have member := (listed second).2 ⟨secondBelow, secondPasses⟩
    rw [split] at listed increasing member
    obtain ⟨-, fromFirst, beforeFirst⟩ := List.pairwise_append.1 increasing
    obtain ⟨afterFirst, ofRest⟩ := List.pairwise_cons.1 fromFirst
    have inRest : second ∈ rest := by
      rcases List.mem_append.1 member with inFront | inRest
      · have := beforeFirst second inFront first (by simp)
        omega
      · exact (List.mem_cons.1 inRest).resolve_left (Nat.ne_of_gt inOrder)
    cases rest with
    | nil => exact absurd inRest List.not_mem_nil
    | cons next back =>
        have isLater := afterFirst next (by simp)
        obtain ⟨-, nextPasses⟩ := (listed next).1 (by simp)
        rcases List.mem_cons.1 inRest with rfl | inBack
        · exact ⟨front, back, split⟩
        · have isEarlier := (List.pairwise_cons.1 ofRest).1 second inBack
          exact absurd nextPasses (by simp [noneBetween next isLater isEarlier])

namespace WellLinked

variable (linked : outline.WellLinked)

include linked

/-- The next sibling is the one that follows in the list of siblings. -/
theorem nextSibling?_eq_some_iff_follows (index sibling : Nat) :
    outline.nextSibling? index = some sibling ↔
      ∃ front back,
        outline.childrenOf (outline.parent? index) = front ++ index :: sibling :: back := by
  rw [linked.childrenOf_eq, follows_in_filter_range_iff, linked.nextSibling?_eq_some_iff]
  constructor
  · intro next
    exact ⟨next.after, next.inRange, by simp, by simp [next.sameParent],
      fun between later earlier => by simpa using next.first between later earlier⟩
  · rintro ⟨after, inRange, -, sameParent, noneBetween⟩
    exact ⟨after, inRange, by simpa using sameParent,
      fun between later earlier => by simpa using noneBetween between later earlier⟩

theorem nextSibling?_eq_none_iff (index : Nat) :
    outline.nextSibling? index = none ↔ outline.isLastChild index = true := by
  constructor
  · intro noNext
    by_contra notLast
    obtain ⟨sibling, isNext⟩ := linked.exists_isNextSibling (by simpa using notLast)
    have stored := (linked.nextSibling?_eq_some_iff index sibling).2 isNext
    exact absurd (noNext.symm.trans stored) (by simp)
  · intro isLast
    by_contra someNext
    obtain ⟨sibling, stored⟩ := Option.ne_none_iff_exists'.1 someNext
    have isNext := (linked.nextSibling?_eq_some_iff index sibling).1 stored
    exact (linked.isLastChild_iff index).1 isLast sibling isNext.after isNext.inRange
      isNext.sameParent

/-- The first child of a node comes right after it. -/
theorem head?_children
    (hasChildren : outline.children index ≠ []) :
    (outline.children index).head? = some (index + 1) := by
  have listed :
      outline.children index =
        (List.range outline.size).filter fun node => outline.parent? node = some index :=
    linked.childrenOf_eq (some index)
  have increasing : (outline.children index).Pairwise (· < ·) :=
    listed ▸ List.pairwise_lt_range.filter _
  have isChild : ∀ child ∈ outline.children index, outline.parent? child = some index := by
    simp [listed]
  cases children : outline.children index with
  | nil => exact absurd children hasChildren
  | cons first rest =>
      rw [children] at increasing isChild
      have firstLink := isChild first (by simp)
      have nextLink := linked.parent?_succ_of_mem_ancestors (mem_ancestors_of_parent firstLink)
      have member : index + 1 ∈ first :: rest := by
        simp [← children, listed, nextLink, lt_size_of_parent?_eq_some nextLink]
      rcases List.mem_cons.1 member with isFirst | inRest
      · rw [isFirst, List.head?_cons]
      · have later := (List.pairwise_cons.1 increasing).1 (index + 1) inRest
        have childAfter := parent?_lt firstLink
        omega

end WellLinked

/-! ## Subtrees -/

/--
Where the subtree of a node ends: at the next sibling of the node or of the nearest node above
it that has one, and at the end of the outline where there is none.
-/
def subtreeEnd (outline : Outline) (index : Nat) : Nat :=
  ((outline.lineage index).findSome? outline.nextSibling?).getD outline.size

namespace WellLinked

variable (linked : outline.WellLinked)

include linked

theorem afterSubtree?_eq_findSome? (index : Nat) :
    outline.afterSubtree? index = (outline.lineage index).findSome? outline.nextSibling? := by
  unfold afterSubtree?
  generalize outline.lineage index = nodes
  induction nodes with
  | nil => rfl
  | cons node rest ofRest =>
      have lastIff := linked.nextSibling?_eq_none_iff node
      cases next : outline.nextSibling? node with
      | none => simp [lastIff.1 next, next, ofRest]
      | some sibling =>
          have notLast : outline.isLastChild node = false := by
            simpa [next] using lastIff
          simp [notLast, next]

theorem lt_subtreeEnd (inRange : index < outline.size) :
    index < outline.subtreeEnd index := by
  rw [subtreeEnd, ← linked.afterSubtree?_eq_findSome?]
  cases finish : outline.afterSubtree? index with
  | none => exact inRange
  | some finish => exact (linked.mem_seenAfter_of_afterSubtree? finish).1

theorem subtreeEnd_le_size (index : Nat) : outline.subtreeEnd index ≤ outline.size := by
  rw [subtreeEnd, ← linked.afterSubtree?_eq_findSome?]
  cases finish : outline.afterSubtree? index with
  | none => exact Nat.le_refl _
  | some finish => exact Nat.le_of_lt (linked.mem_seenAfter_of_afterSubtree? finish).2.1

/-- A node stands above those after it up to the end of its subtree. -/
theorem isAncestorOf_iff_lt_subtreeEnd (above index : Nat) :
    outline.isAncestorOf above index = true ↔
      above < index ∧ index < outline.subtreeEnd above := by
  rw [isAncestorOf_iff_mem]
  have endLe := linked.subtreeEnd_le_size above
  by_cases inRange : above < index ∧ index < outline.size
  · rw [linked.mem_ancestors_iff_lt_afterSubtree? inRange.1 inRange.2, subtreeEnd,
      ← linked.afterSubtree?_eq_findSome?]
    cases outline.afterSubtree? above with
    | none => simp [inRange]
    | some finish => simp [inRange]
  · constructor
    · intro member
      have unused : outline.size ≤ index :=
        Nat.not_lt.1 fun used => inRange ⟨lt_of_mem_ancestors member, used⟩
      simp [ancestors_of_root (parent?_eq_none_of_size_le unused)] at member
    · rintro ⟨after, before⟩
      exact absurd ⟨after, by omega⟩ inRange

end WellLinked

/-! ## All links together -/

/-- The links of an outline are told by its parents, and its numbers are a preorder. -/
structure LinksAgree (outline : Outline) : Prop where
  /-- The children of a node, and the nodes at the top, in increasing order. -/
  childrenOf_eq :
    ∀ above,
      outline.childrenOf above =
        (List.range outline.size).filter fun index => outline.parent? index = above
  /-- The next sibling of a node is the one after it in the list of siblings. -/
  nextSibling?_iff :
    ∀ index sibling,
      outline.nextSibling? index = some sibling ↔
        ∃ front back,
          outline.childrenOf (outline.parent? index) = front ++ index :: sibling :: back
  isLastChild_iff :
    ∀ index, outline.nextSibling? index = none ↔ outline.isLastChild index = true
  parent_lt : ∀ index parent, outline.parent? index = some parent → parent < index
  firstChild_eq :
    ∀ index, outline.children index ≠ [] → (outline.children index).head? = some (index + 1)
  /-- Standing above a node is being reached from it by following parents. -/
  isAncestorOf_iff :
    ∀ above index,
      outline.isAncestorOf above index = true ↔
        Relation.TransGen (fun lower upper => outline.parent? lower = some upper) index above
  depth_eq :
    ∀ index,
      outline.depth index = { above | outline.isAncestorOf above index = true }.ncard
  isAncestorOf_iff_lt :
    ∀ above index,
      outline.isAncestorOf above index = true ↔
        above < index ∧ index < outline.subtreeEnd above
  subtreeEnd_le_size : ∀ index, outline.subtreeEnd index ≤ outline.size
  /-- A node and what stands below it are numbered without a gap. -/
  subtree_eq :
    ∀ index < outline.size,
      { below | below = index ∨ outline.isAncestorOf index below = true } =
        Set.Ico index (outline.subtreeEnd index)
  /-- Following parents comes to an end. -/
  climb_ends :
    ∀ index,
      (fun node? : Option Nat => node?.bind outline.parent?)^[index + 1] (some index) = none

theorem WellLinked.linksAgree
    (linked : outline.WellLinked)
    (counts : outline.CountsDepth) :
    outline.LinksAgree where
  childrenOf_eq := linked.childrenOf_eq
  nextSibling?_iff := linked.nextSibling?_eq_some_iff_follows
  isLastChild_iff := linked.nextSibling?_eq_none_iff
  parent_lt := fun _ _ => parent?_lt
  firstChild_eq := fun _ => linked.head?_children
  isAncestorOf_iff := fun _ _ => isAncestorOf_iff_transGen
  depth_eq := counts.depth_eq_ncard
  isAncestorOf_iff_lt := linked.isAncestorOf_iff_lt_subtreeEnd
  subtreeEnd_le_size := linked.subtreeEnd_le_size
  subtree_eq := by
    intro index inRange
    have beforeEnd := linked.lt_subtreeEnd inRange
    ext below
    rw [Set.mem_ofPred_eq, linked.isAncestorOf_iff_lt_subtreeEnd, Set.mem_Ico]
    omega
  climb_ends := iterate_parent?_eq_none outline

end Folio.Outline

namespace Folio.TreeBuilder

theorem countsDepth_push
    {builder next : TreeBuilder}
    {parent : Option Nat}
    {paragraph : Paragraph}
    (accepted : builder.push parent paragraph = .ok next)
    (counts : builder.outline.CountsDepth) :
    next.outline.CountsDepth := by
  obtain ⟨earlier, isNext⟩ := push_of_accepts (push_eq_ok_iff.1 ⟨next, accepted⟩)
  obtain rfl := Except.ok.inj (accepted.symm.trans isNext)
  exact counts.push parent earlier

/-- The parents in a built document are those of the accepted pushes. -/
theorem map_parent?_build_pushAll (pushes : List (Option Nat × Paragraph)) :
    let document := (empty.pushAll pushes).1.build
    (List.range document.size).map document.links.parent? =
      (accepted pushes (empty.pushAll pushes).2).map Prod.fst := by
  have pushed := congrArg (List.map Prod.fst) (listing_pushAll empty pushes)
  rw [listing_empty, List.nil_append, listing, List.map_map] at pushed
  exact pushed

/--
Whatever is pushed, accepted or refused, the document that is built has the parents of the
accepted pushes, and its links agree: the parents of the nodes tell their children, siblings,
depths and ancestors, and the nodes below a node are those after it up to the end of its
subtree.
-/
theorem links_of_built_documents_agree (pushes : List (Option Nat × Paragraph)) :
    let builder := (empty.pushAll pushes).1
    let document := builder.build
    document.links.size = document.size ∧
      (List.range document.size).map document.links.parent? =
        (accepted pushes (empty.pushAll pushes).2).map Prod.fst ∧
      document.links.LinksAgree := by
  intro builder document
  have linked : builder.outline.WellLinked :=
    wellLinked_pushAll Outline.wellLinked_empty pushes
  have counts : builder.outline.CountsDepth :=
    pushAll_induction countsDepth_push Outline.countsDepth_empty pushes
  exact ⟨builder.outline_size, map_parent?_build_pushAll pushes, linked.linksAgree counts⟩

/-- Two trees of two nodes; the fourth push comes too late for the first tree. -/
example :
    let node : Paragraph := ⟨.tree, []⟩
    let pushes := [(none, node), (some 0, node), (none, node), (some 0, node), (some 2, node)]
    let links := (empty.pushAll pushes).1.build.links
    (links.subtreeEnd 0, links.subtreeEnd 1, links.subtreeEnd 2) = (2, 2, 4) := by
  decide +kernel

end Folio.TreeBuilder
