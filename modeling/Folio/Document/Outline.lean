/-!
# Outlines

The hierarchy of the paragraphs of a document.  The nodes are numbered in preorder: a node
comes before its children, and the descendants of a node are the nodes that follow it up to
its next sibling.  Every node can be open or closed, and its descendants are seen only while
it is open.

The links of a node are stored both ways and kept up to date as nodes are added; the proof
field of `Outline` makes every walk towards the top finite.
-/

namespace Folio

/-- The links of a node. -/
structure OutlineNode where
  parent : Option Nat
  children : List Nat
  nextSibling : Option Nat
  depth : Nat
  isOpen : Bool
  deriving DecidableEq, Repr, Inhabited

/-- Nodes numbered so that a parent comes before its children. -/
structure Outline where
  nodes : Array OutlineNode
  roots : List Nat
  parent_lt :
    ∀ index parent : Nat,
      nodes[index]?.bind OutlineNode.parent = some parent → parent < index
  deriving DecidableEq

namespace Outline

/-- The outline without nodes. -/
def empty : Outline where
  nodes := #[]
  roots := []
  parent_lt := by simp

instance : Inhabited Outline := ⟨empty⟩

/-- The number of nodes. -/
def size (outline : Outline) : Nat :=
  outline.nodes.size

/-! ## Links -/

/-- The parent of a node that is not at the top. -/
def parent? (outline : Outline) (index : Nat) : Option Nat :=
  outline.nodes[index]?.bind OutlineNode.parent

theorem parent?_lt
    {outline : Outline}
    {index parent : Nat}
    (link : outline.parent? index = some parent) :
    parent < index :=
  outline.parent_lt index parent link

/-- The children of a node in order. -/
def children (outline : Outline) (index : Nat) : List Nat :=
  (outline.nodes[index]?.map OutlineNode.children).getD []

/-- The children of a node, or the nodes at the top. -/
def childrenOf (outline : Outline) : Option Nat → List Nat
  | some parent => outline.children parent
  | none => outline.roots

/-- The node after a node among the children of its parent. -/
def nextSibling? (outline : Outline) (index : Nat) : Option Nat :=
  outline.nodes[index]?.bind OutlineNode.nextSibling

/-- Whether a node is the last of its siblings; so is an index without a node. -/
def isLastChild (outline : Outline) (index : Nat) : Bool :=
  match outline.nodes[index]? with
  | none => true
  | some node => (outline.childrenOf node.parent).getLast? == some index

/-- The number of nodes above a node. -/
def depth (outline : Outline) (index : Nat) : Nat :=
  (outline.nodes[index]?.map OutlineNode.depth).getD 0

/-- The nodes above a node, its parent first. -/
def ancestors (outline : Outline) (index : Nat) : List Nat :=
  match link : outline.parent? index with
  | none => []
  | some parent =>
      have := parent?_lt link
      parent :: outline.ancestors parent
termination_by index

/-- A node with those above it. -/
def lineage (outline : Outline) (index : Nat) : List Nat :=
  index :: outline.ancestors index

/-- Whether a node stands above another. -/
def isAncestorOf (outline : Outline) (ancestor index : Nat) : Bool :=
  (outline.ancestors index).contains ancestor

/-! ## Adding a node -/

/-- The nodes under which the next node may come: the last node and those above it. -/
def rightmostPath (outline : Outline) : List Nat :=
  match outline.size with
  | 0 => []
  | last + 1 => outline.lineage last

/-- A new node under a parent. -/
def newNode (outline : Outline) (parent : Option Nat) : OutlineNode where
  parent := parent
  children := []
  nextSibling := none
  depth :=
    match parent with
    | some parent => outline.depth parent + 1
    | none => 0
  isOpen := false

/-- Change a node, if there is one at the index. -/
def modifyNode?
    (nodes : Array OutlineNode)
    (index : Option Nat)
    (change : OutlineNode → OutlineNode) :
    Array OutlineNode :=
  match index with
  | some index => nodes.modify index change
  | none => nodes

@[simp]
theorem size_modifyNode?
    (nodes : Array OutlineNode)
    (index : Option Nat)
    (change : OutlineNode → OutlineNode) :
    (modifyNode? nodes index change).size = nodes.size := by
  cases index <;> simp [modifyNode?]

theorem parent_modifyNode?
    (nodes : Array OutlineNode)
    (changed : Option Nat)
    (change : OutlineNode → OutlineNode)
    (sameParent : ∀ node, (change node).parent = node.parent)
    (index : Nat) :
    (modifyNode? nodes changed change)[index]?.bind OutlineNode.parent =
      nodes[index]?.bind OutlineNode.parent := by
  cases changed with
  | none => rfl
  | some target =>
      simp only [modifyNode?, Array.getElem?_modify]
      split
      · cases nodes[index]? <;> simp [sameParent]
      · rfl

/-- The nodes after one is added, linked to its parent and to its previous sibling. -/
def pushNodes (outline : Outline) (parent : Option Nat) : Array OutlineNode :=
  let index := outline.size
  let linked :=
    modifyNode? outline.nodes (outline.childrenOf parent).getLast? fun node =>
      { node with nextSibling := some index }
  let adopted :=
    modifyNode? linked parent fun node => { node with children := node.children ++ [index] }
  adopted.push (outline.newNode parent)

theorem size_pushNodes (outline : Outline) (parent : Option Nat) :
    (outline.pushNodes parent).size = outline.size + 1 := by
  simp [pushNodes, size]

/-- Add a node under an earlier node, or at the top. -/
def push
    (outline : Outline)
    (parent : Option Nat)
    (earlier : ∀ node, parent = some node → node < outline.size) :
    Outline where
  nodes := outline.pushNodes parent
  roots := if parent.isNone then outline.roots ++ [outline.size] else outline.roots
  parent_lt := by
    intro index above link
    simp only [pushNodes, Array.getElem?_push, size_modifyNode?] at link
    split at link
    · rename_i isNew
      exact isNew ▸ earlier above link
    · rw [parent_modifyNode? _ _ _ (by intro _; rfl),
        parent_modifyNode? _ _ _ (by intro _; rfl)] at link
      exact outline.parent_lt index above link

/-! ## Opening and closing -/

/-- Whether the children of a node are shown. -/
def isOpen (outline : Outline) (index : Nat) : Bool :=
  (outline.nodes[index]?.map OutlineNode.isOpen).getD false

/-- Change which nodes are open. -/
def mapOpen (change : Nat → Bool → Bool) (outline : Outline) : Outline where
  nodes := outline.nodes.mapIdx fun index node =>
    { node with isOpen := change index node.isOpen }
  roots := outline.roots
  parent_lt := by
    intro index parent link
    apply outline.parent_lt index parent
    rw [← link, Array.getElem?_mapIdx]
    cases outline.nodes[index]? <;> rfl

@[simp]
theorem size_mapOpen (change : Nat → Bool → Bool) (outline : Outline) :
    (outline.mapOpen change).size = outline.size := by
  simp [mapOpen, size]

/-- Open or close one node and leave the others. -/
def opening (index : Nat) (isOpen : Bool) (other : Nat) (wasOpen : Bool) : Bool :=
  if other = index then isOpen else wasOpen

/-- Open a node with all those above it and leave the others. -/
def openingLineage (outline : Outline) (index other : Nat) (wasOpen : Bool) : Bool :=
  (outline.lineage index).contains other || wasOpen

/-- The open nodes in order. -/
def openNodes (outline : Outline) : List Nat :=
  (List.range outline.size).filter outline.isOpen

/-! ## Stepping through the visible nodes -/

/-- Whether a node shows children. -/
def showsChildren (outline : Outline) (index : Nat) : Bool :=
  outline.isOpen index && !(outline.children index).isEmpty

/--
The visible node after a node: its first child if it shows children, and otherwise the next
sibling of the nearest node of its lineage that has one.
-/
def next? (outline : Outline) (index : Nat) : Option Nat :=
  if index + 1 = outline.size then
    none
  else if outline.showsChildren index then
    some (index + 1)
  else
    ((outline.lineage index).find? fun node => !outline.isLastChild node).bind
      outline.nextSibling?

/--
The visible node before a node.  It is the node with the number before, unless that node is
hidden by a closed one below the parent of the first; then the topmost such node stands for
it.
-/
def previous (outline : Outline) (index : Nat) : Nat :=
  let candidate := index - 1
  let parent := outline.parent? index
  if parent = some candidate then
    candidate
  else
    let between := (outline.ancestors candidate).takeWhile fun node => some node != parent
    ((between.filter fun node => !outline.isOpen node).getLast?).getD candidate

/-- Whether no visible node comes after a node. -/
def isLast (outline : Outline) (index : Nat) : Bool :=
  !outline.showsChildren index && (outline.lineage index).all outline.isLastChild

end Outline

end Folio
