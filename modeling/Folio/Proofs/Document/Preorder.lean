import Mathlib.Logic.Relation
import Folio.Proofs.Document.Forest

/-!
# Building in preorder

A paragraph is accepted exactly if its node can come next in preorder: at the top, or under a
node on the branch that the last node ends.  A refused push changes nothing, so what is built
is told by the accepted pushes alone.  These are always the listing of a forest, and every
forest can be built by pushing its listing.
-/

namespace Folio

/-- The nodes above a node are those that are reached by following parents. -/
theorem Outline.mem_lineage_iff_reflTransGen
    {outline : Outline}
    {index above : Nat} :
    above ∈ outline.lineage index ↔
      Relation.ReflTransGen (fun lower upper => outline.parent? lower = some upper)
        index above := by
  constructor
  · intro member
    induction index using Nat.strongRecOn with
    | ind index smaller =>
        rcases mem_lineage_iff.1 member with rfl | higher
        · exact .refl
        · cases link : outline.parent? index with
          | none => simp [ancestors_of_root link] at higher
          | some parent =>
              rw [ancestors_of_parent link] at higher
              exact .head link (smaller parent (parent?_lt link) higher)
  · intro reached
    induction reached using Relation.ReflTransGen.head_induction_on with
    | refl => exact self_mem_lineage outline above
    | head link _ member =>
        rw [mem_lineage_iff, ancestors_of_parent link]
        exact Or.inr member

namespace TreeBuilder

/-! ## One push -/

/-- A node from which the last one is reached by going down. -/
def IsOnLastBranch (builder : TreeBuilder) (node : Nat) : Prop :=
  ∃ last,
    last + 1 = builder.size ∧
      Relation.ReflTransGen (fun lower upper => builder.outline.parent? lower = some upper)
        last node

/-- A node may come next: it is a node, and its parent, if any, is on the last branch. -/
structure Accepts (builder : TreeBuilder) (parent : Option Nat) (paragraph : Paragraph) :
    Prop where
  isNode : paragraph.kind = .tree
  parentExists : ∀ node, parent = some node → node < builder.size
  parentIsOpen : ∀ node, parent = some node → builder.IsOnLastBranch node

/-- Why a paragraph is refused: the first of three reasons that holds. -/
inductive Refuses (builder : TreeBuilder) :
    Option Nat → Paragraph → PushRefusal → Prop where
  | kindMismatch
      {parent : Option Nat}
      {paragraph : Paragraph}
      (other : paragraph.kind ≠ .tree) :
      Refuses builder parent paragraph (.kindMismatch builder.size paragraph.kind)
  | invalidParent
      {node : Nat}
      {paragraph : Paragraph}
      (isNode : paragraph.kind = .tree)
      (missing : builder.size ≤ node) :
      Refuses builder (some node) paragraph (.invalidParent builder.size node)
  | notPreorder
      {node : Nat}
      {paragraph : Paragraph}
      (isNode : paragraph.kind = .tree)
      (parentExists : node < builder.size)
      (closed : ¬ builder.IsOnLastBranch node) :
      Refuses builder (some node) paragraph (.notPreorder builder.size node)

section

variable
    {builder : TreeBuilder}
    {parent : Option Nat}
    {paragraph : Paragraph}

theorem mem_rightmostPath_iff (node : Nat) :
    node ∈ builder.outline.rightmostPath ↔ builder.IsOnLastBranch node := by
  have sameSize : builder.outline.size = builder.size := builder.outline_size
  unfold Outline.rightmostPath IsOnLastBranch
  cases size : builder.outline.size with
  | zero => simp [← sameSize, size]
  | succ last =>
      simp only [← sameSize, size, Nat.add_right_cancel_iff, exists_eq_left,
        Outline.mem_lineage_iff_reflTransGen]

theorem push_of_accepts (accepts : builder.Accepts parent paragraph) :
    ∃ earlier, builder.push parent paragraph = .ok (builder.add parent earlier paragraph) := by
  have isNode : ¬ paragraph.kind ≠ .tree := fun other => other accepts.isNode
  cases parent with
  | none => exact ⟨by simp, by simp [push, isNode]⟩
  | some node =>
      have isEarlier : node < builder.outline.size :=
        builder.outline_size ▸ accepts.parentExists node rfl
      have onPath := (mem_rightmostPath_iff node).2 (accepts.parentIsOpen node rfl)
      exact ⟨by simpa using isEarlier, by simp [push, isNode, isEarlier, onPath]⟩

theorem push_of_refuses
    {refusal : PushRefusal}
    (refuses : builder.Refuses parent paragraph refusal) :
    builder.push parent paragraph = .error refusal := by
  cases refuses with
  | kindMismatch other => simp [push, other]
  | @invalidParent node _ isNode missing =>
      have notEarlier : ¬ node < builder.outline.size :=
        Nat.not_lt.2 (builder.outline_size ▸ missing)
      simp [push, isNode, notEarlier]
  | @notPreorder node _ isNode parentExists closed =>
      have isEarlier : node < builder.outline.size := builder.outline_size ▸ parentExists
      have notOnPath := mt (mem_rightmostPath_iff node).1 closed
      simp [push, isNode, isEarlier, notOnPath]

theorem accepts_or_refuses
    (builder : TreeBuilder)
    (parent : Option Nat)
    (paragraph : Paragraph) :
    builder.Accepts parent paragraph ∨
      ∃ refusal, builder.Refuses parent paragraph refusal := by
  by_cases isNode : paragraph.kind = .tree
  · cases parent with
    | none => exact Or.inl ⟨isNode, by simp, by simp⟩
    | some node =>
        by_cases parentExists : node < builder.size
        · by_cases isOpen : builder.IsOnLastBranch node
          · exact Or.inl ⟨isNode, by simpa using parentExists, by simpa using isOpen⟩
          · exact Or.inr ⟨_, .notPreorder isNode parentExists isOpen⟩
        · exact Or.inr ⟨_, .invalidParent isNode (Nat.le_of_not_lt parentExists)⟩
  · exact Or.inr ⟨_, .kindMismatch isNode⟩

theorem push_eq_ok_iff :
    (∃ next, builder.push parent paragraph = .ok next) ↔ builder.Accepts parent paragraph := by
  constructor
  · rintro ⟨next, accepted⟩
    refine (builder.accepts_or_refuses parent paragraph).resolve_right ?_
    rintro ⟨refusal, refuses⟩
    rw [push_of_refuses refuses] at accepted
    exact absurd accepted (by simp)
  · intro accepts
    obtain ⟨earlier, accepted⟩ := push_of_accepts accepts
    exact ⟨_, accepted⟩

theorem push_eq_error_iff (refusal : PushRefusal) :
    builder.push parent paragraph = .error refusal ↔
      builder.Refuses parent paragraph refusal := by
  constructor
  · intro refused
    rcases builder.accepts_or_refuses parent paragraph with accepts | ⟨other, refuses⟩
    · obtain ⟨earlier, accepted⟩ := push_of_accepts accepts
      exact absurd (refused.symm.trans accepted) (by simp)
    · obtain rfl : other = refusal := by
        simpa [push_of_refuses refuses] using refused
      exact refuses
  · exact push_of_refuses

end

/-! ## What has been built -/

/-- The paragraphs pushed so far, each with the parent that is stored for it. -/
def listing (builder : TreeBuilder) : List (Option Nat × Paragraph) :=
  (List.range builder.size).map fun index =>
    (builder.outline.parent? index, builder.paragraphs.getD index default)

@[simp]
theorem length_listing (builder : TreeBuilder) : builder.listing.length = builder.size := by
  simp [listing]

theorem listing_empty : empty.listing = [] := by
  simp [listing, empty, size]

theorem size_add
    (builder : TreeBuilder)
    (parent : Option Nat)
    (earlier : ∀ node, parent = some node → node < builder.outline.size)
    (paragraph : Paragraph) :
    (builder.add parent earlier paragraph).size = builder.size + 1 := by
  simp [add, size]

theorem listing_add
    (builder : TreeBuilder)
    (parent : Option Nat)
    (earlier : ∀ node, parent = some node → node < builder.outline.size)
    (paragraph : Paragraph) :
    (builder.add parent earlier paragraph).listing = builder.listing ++ [(parent, paragraph)] := by
  have sameSize : builder.outline.size = builder.size := builder.outline_size
  rw [listing, size_add, List.range_succ, List.map_append, listing]
  congr 1
  · apply List.map_congr_left
    intro index member
    have isOld := List.mem_range.1 member
    have inParagraphs : index < builder.paragraphs.size := isOld
    simp only [add, Outline.parent?_push, sameSize, Nat.ne_of_lt isOld, if_false]
    simp [Array.getD, Array.getElem_push, inParagraphs, Nat.lt_succ_of_lt inParagraphs]
  · simp [add, Outline.parent?_push, sameSize, size, Array.getD]

theorem parent?_of_listing_append
    {builder later : TreeBuilder}
    {more : List (Option Nat × Paragraph)}
    (longer : later.listing = builder.listing ++ more)
    {index : Nat}
    (isOld : index < builder.size) :
    later.outline.parent? index = builder.outline.parent? index := by
  have sizes := congrArg List.length longer
  rw [length_listing, List.length_append, length_listing] at sizes
  have entry := congrArg (fun nodes => nodes[index]?) longer
  rw [List.getElem?_append_left (by simpa using isOld)] at entry
  have isStill : index < later.size := by omega
  simp only [listing, List.getElem?_map, List.getElem?_range, isOld, isStill, Option.map_some,
    Option.some.injEq, Prod.mk.injEq] at entry
  exact entry.1

/-- Those of some pushes that were accepted, going by the answers to them. -/
def accepted :
    List (Option Nat × Paragraph) →
      List (Except PushRefusal Nat) → List (Option Nat × Paragraph)
  | attempt :: pushes, .ok _ :: answers => attempt :: accepted pushes answers
  | _ :: pushes, .error _ :: answers => accepted pushes answers
  | _, _ => []

theorem accepted_of_all_ok
    (pushes : List (Option Nat × Paragraph))
    {indices : List Nat}
    (sameLength : indices.length = pushes.length) :
    accepted pushes (indices.map .ok) = pushes := by
  induction pushes generalizing indices with
  | nil => simp [accepted]
  | cons attempt pushes ofRest =>
      cases indices with
      | nil => simp at sameLength
      | cons index indices =>
          simp only [List.map_cons, accepted]
          rw [ofRest (by simpa using sameLength)]

theorem pushAll_append
    (builder : TreeBuilder)
    (earlier later : List (Option Nat × Paragraph)) :
    builder.pushAll (earlier ++ later) =
      (((builder.pushAll earlier).1.pushAll later).1,
        (builder.pushAll earlier).2 ++ ((builder.pushAll earlier).1.pushAll later).2) := by
  induction earlier generalizing builder with
  | nil => rfl
  | cons attempt earlier ofRest =>
      obtain ⟨parent, paragraph⟩ := attempt
      simp only [List.cons_append, pushAll]
      cases builder.push parent paragraph with
      | ok next => simp [ofRest]
      | error refusal => simp [ofRest]

/-- A refused push at the end changes nothing. -/
theorem pushAll_concat_of_refuses
    (builder : TreeBuilder)
    (pushes : List (Option Nat × Paragraph))
    {parent : Option Nat}
    {paragraph : Paragraph}
    {refusal : PushRefusal}
    (refuses : (builder.pushAll pushes).1.Refuses parent paragraph refusal) :
    (builder.pushAll (pushes ++ [(parent, paragraph)])).1 = (builder.pushAll pushes).1 := by
  simp [pushAll_append, pushAll, push_of_refuses refuses]

section

variable
    (builder : TreeBuilder)
    (pushes : List (Option Nat × Paragraph))

/-- What is built is told by the accepted pushes. -/
theorem listing_pushAll :
    (builder.pushAll pushes).1.listing =
      builder.listing ++ accepted pushes (builder.pushAll pushes).2 := by
  induction pushes generalizing builder with
  | nil => simp [pushAll, accepted]
  | cons attempt pushes ofRest =>
      obtain ⟨parent, paragraph⟩ := attempt
      rcases builder.accepts_or_refuses parent paragraph with accepts | ⟨refusal, refuses⟩
      · obtain ⟨earlier, isAdded⟩ := push_of_accepts accepts
        simp only [pushAll, isAdded, accepted]
        rw [ofRest, listing_add, List.append_assoc, List.singleton_append]
      · simp only [pushAll, push_of_refuses refuses, accepted]
        exact ofRest builder

theorem pushAll_accepted :
    builder.pushAll (accepted pushes (builder.pushAll pushes).2) =
      ((builder.pushAll pushes).1,
        (List.range' builder.size (accepted pushes (builder.pushAll pushes).2).length).map
          .ok) := by
  induction pushes generalizing builder with
  | nil => rfl
  | cons attempt pushes ofRest =>
      obtain ⟨parent, paragraph⟩ := attempt
      rcases builder.accepts_or_refuses parent paragraph with accepts | ⟨refusal, refuses⟩
      · obtain ⟨earlier, isAdded⟩ := push_of_accepts accepts
        have ofNext := ofRest (builder.add parent earlier paragraph)
        rw [size_add] at ofNext
        simp only [pushAll, isAdded, accepted, ofNext, List.length_cons, List.range'_succ,
          List.map_cons]
      · simp only [pushAll, push_of_refuses refuses, accepted]
        exact ofRest builder

theorem kind_of_mem_accepted
    {node : Option Nat × Paragraph}
    (member : node ∈ accepted pushes (builder.pushAll pushes).2) :
    node.2.kind = .tree := by
  induction pushes generalizing builder with
  | nil => simp [accepted] at member
  | cons attempt pushes ofRest =>
      obtain ⟨parent, paragraph⟩ := attempt
      rcases builder.accepts_or_refuses parent paragraph with accepts | ⟨refusal, refuses⟩
      · obtain ⟨earlier, isAdded⟩ := push_of_accepts accepts
        simp only [pushAll, isAdded, accepted] at member
        rcases List.mem_cons.1 member with rfl | later
        · exact accepts.isNode
        · exact ofRest _ later
      · simp only [pushAll, push_of_refuses refuses, accepted] at member
        exact ofRest builder member

end

/-- All paragraphs that were pushed are nodes. -/
theorem kind_getD_pushAll
    (pushes : List (Option Nat × Paragraph))
    {index : Nat}
    (inRange : index < (empty.pushAll pushes).1.size) :
    ((empty.pushAll pushes).1.paragraphs.getD index default).kind = .tree := by
  let builder := (empty.pushAll pushes).1
  have member :
      (builder.outline.parent? index, builder.paragraphs.getD index default) ∈
        builder.listing :=
    List.mem_map_of_mem (List.mem_range.2 inRange)
  rw [listing_pushAll, listing_empty, List.nil_append] at member
  exact kind_of_mem_accepted empty pushes member

/-! ## Pushing a forest -/

theorem IsOnLastBranch.lt_size
    {builder : TreeBuilder}
    {node : Nat}
    (onBranch : builder.IsOnLastBranch node) :
    node < builder.size := by
  obtain ⟨last, isLast, reached⟩ := onBranch
  have notAfter := Outline.le_of_mem_lineage (Outline.mem_lineage_iff_reflTransGen.2 reached)
  omega

/-- The pushes of nodes in preorder, the first of which gets a certain number. -/
def pushesFrom
    (first : Nat)
    (parent : Option Nat)
    (forest : Forest (List Entry)) :
    List (Option Nat × Paragraph) :=
  (forest.listing first parent).map fun node => (node.1, ⟨.tree, node.2⟩)

@[simp]
theorem length_pushesFrom
    (first : Nat)
    (parent : Option Nat)
    (forest : Forest (List Entry)) :
    (pushesFrom first parent forest).length = forest.size := by
  simp [pushesFrom]

/-- Nodes in preorder are all accepted under an open parent, and leave it open. -/
theorem pushAll_pushesFrom
    (forest : Forest (List Entry))
    {builder : TreeBuilder}
    {parent : Option Nat}
    (isOpen : ∀ node, parent = some node → builder.IsOnLastBranch node) :
    (builder.pushAll (pushesFrom builder.size parent forest)).2 =
        (List.range' builder.size forest.size).map .ok ∧
      ∀ node, parent = some node →
        (builder.pushAll (pushesFrom builder.size parent forest)).1.IsOnLastBranch node := by
  induction forest generalizing builder parent with
  | empty => exact ⟨rfl, isOpen⟩
  | tree top below after ofBelow ofAfter =>
      have accepts : builder.Accepts parent ⟨.tree, top⟩ :=
        ⟨rfl, fun node isParent => (isOpen node isParent).lt_size, isOpen⟩
      obtain ⟨earlier, isAdded⟩ := push_of_accepts accepts
      let next := builder.add parent earlier ⟨.tree, top⟩
      have sizeNext : next.size = builder.size + 1 := size_add ..
      have newIsOpen : ∀ node, some builder.size = some node → next.IsOnLastBranch node := by
        intro node isNew
        exact ⟨node, by rw [sizeNext, Option.some.inj isNew], .refl⟩
      obtain ⟨belowAnswers, newStaysOpen⟩ := ofBelow newIsOpen
      let middle := (next.pushAll (pushesFrom next.size (some builder.size) below)).1
      have listingMiddle :
          middle.listing =
            next.listing ++ pushesFrom next.size (some builder.size) below := by
        have pushed := listing_pushAll next (pushesFrom next.size (some builder.size) below)
        rwa [belowAnswers, accepted_of_all_ok _ (by simp)] at pushed
      have sizeMiddle : middle.size = builder.size + 1 + below.size := by
        simpa [sizeNext] using congrArg List.length listingMiddle
      -- The last branch goes through the new node, and so on to its parent.
      have parentStaysOpen : ∀ node, parent = some node → middle.IsOnLastBranch node := by
        intro node isParent
        obtain ⟨last, isLast, reached⟩ := newStaysOpen builder.size rfl
        have link : middle.outline.parent? builder.size = some node := by
          rw [parent?_of_listing_append listingMiddle (by omega), ← isParent]
          simp [next, add, Outline.parent?_push, builder.outline_size, size]
        exact ⟨last, isLast, reached.tail link⟩
      obtain ⟨afterAnswers, parentIsOpen⟩ := ofAfter parentStaysOpen
      have pushes :
          pushesFrom builder.size parent (.tree top below after) =
            (parent, ⟨.tree, top⟩) ::
              (pushesFrom next.size (some builder.size) below ++
                pushesFrom middle.size parent after) := by
        simp [pushesFrom, Forest.listing, sizeNext, sizeMiddle]
      have run := pushAll_append next (pushesFrom next.size (some builder.size) below)
        (pushesFrom middle.size parent after)
      rw [pushes]
      simp only [pushAll, isAdded]
      rw [run]
      refine ⟨?_, parentIsOpen⟩
      rw [belowAnswers, afterAnswers, sizeMiddle, sizeNext, ← List.map_append,
        List.range'_append_1, Forest.size, Nat.add_assoc 1, Nat.add_comm 1, List.range'_succ,
        List.map_cons]

/-! ## What is built and forests -/

/-- The pushes that build a forest. -/
def pushesOf (forest : Forest (List Entry)) : List (Option Nat × Paragraph) :=
  pushesFrom 0 none forest

/-- The entries of a paragraph that was pushed. -/
def entriesAt (builder : TreeBuilder) (index : Nat) : List Entry :=
  (builder.paragraphs.getD index default).entries

/--
A forest has been built: its preorder listing is what was pushed, and it is the forest of the
links, whether they are followed down to children or up to parents.
-/
structure Builds (builder : TreeBuilder) (forest : Forest (List Entry)) : Prop where
  listing_eq : builder.listing = pushesOf forest
  childrenHang :
    Forest.Hangs builder.outline.childrenOf builder.entriesAt builder.outline.roots forest
  parentsHang :
    Forest.Hangs (builder.outline.nodesUnder 0 builder.size) builder.entriesAt
      (builder.outline.nodesUnder 0 builder.size none) forest

theorem eq_of_pushesOf_eq
    {left right : Forest (List Entry)}
    (same : pushesOf left = pushesOf right) :
    left = right := by
  have sameListing : left.listing 0 none = right.listing 0 none := by
    refine (List.map_inj_right ?_).1 same
    rintro ⟨parent, entries⟩ ⟨otherParent, otherEntries⟩ equal
    simpa using equal
  exact Forest.eq_of_listing_eq rfl sameListing

theorem exists_builds (pushes : List (Option Nat × Paragraph)) :
    ∃ forest, (empty.pushAll pushes).1.Builds forest := by
  let builder := (empty.pushAll pushes).1
  have linked : builder.outline.WellLinked :=
    wellLinked_pushAll Outline.wellLinked_empty pushes
  have sameSize : builder.outline.size = builder.size := builder.outline_size
  obtain ⟨forest, parentsHang, isListing⟩ :=
    builder.outline.isBlock_all.exists_forest builder.entriesAt linked (Nat.le_refl _)
  have under : builder.outline.nodesUnder 0 builder.outline.size = builder.outline.childrenOf := by
    funext above
    rw [linked.childrenOf_eq, Outline.nodesUnder, Nat.sub_zero, List.range_eq_range']
  refine ⟨forest, ?_, ?_, ?_⟩
  · rw [pushesOf, pushesFrom, isListing, Nat.sub_zero, ← List.range_eq_range', List.map_map,
      sameSize]
    apply List.map_congr_left
    intro index member
    rw [Function.comp_apply, entriesAt, ← kind_getD_pushAll pushes (List.mem_range.1 member)]
  · rw [under] at parentsHang
    exact parentsHang
  · rw [← sameSize]
    exact parentsHang

theorem builds_pushesOf (forest : Forest (List Entry)) :
    (empty.pushAll (pushesOf forest)).2 = (List.range forest.size).map .ok ∧
      (empty.pushAll (pushesOf forest)).1.Builds forest := by
  have atTop : ∀ node, none = some node → empty.IsOnLastBranch node := by simp
  have answers : (empty.pushAll (pushesOf forest)).2 = (List.range forest.size).map .ok := by
    rw [List.range_eq_range']
    exact (pushAll_pushesFrom forest atTop).1
  refine ⟨answers, ?_⟩
  obtain ⟨other, builds⟩ := exists_builds (pushesOf forest)
  have pushed := listing_pushAll empty (pushesOf forest)
  rw [answers, accepted_of_all_ok _ (by simp [pushesOf]), builds.listing_eq, listing_empty,
    List.nil_append] at pushed
  exact eq_of_pushesOf_eq pushed ▸ builds

/--
After any pushes the next one is accepted exactly if its node can come next in preorder, and
else refused, for the first reason that holds, without a change.  So the accepted pushes alone
build the same.  Every forest is built by pushing its nodes in preorder, and whatever has been
built is one forest.
-/
theorem pushes_build_preorder_listings :
    (∀ pushes parent paragraph,
      let builder := (empty.pushAll pushes).1
      ((∃ next, builder.push parent paragraph = .ok next) ↔
          builder.Accepts parent paragraph) ∧
        ∀ refusal,
          (builder.push parent paragraph = .error refusal ↔
              builder.Refuses parent paragraph refusal) ∧
            (builder.Refuses parent paragraph refusal →
              (empty.pushAll (pushes ++ [(parent, paragraph)])).1 = builder)) ∧
      (∀ pushes,
        let (builder, answers) := empty.pushAll pushes
        builder.listing = accepted pushes answers ∧
          empty.pushAll (accepted pushes answers) =
            (builder, (List.range builder.size).map .ok)) ∧
      (∀ forest,
        let (builder, answers) := empty.pushAll (pushesOf forest)
        answers = (List.range forest.size).map .ok ∧ builder.Builds forest) ∧
      ∀ pushes, ∃ forest,
        (empty.pushAll pushes).1.Builds forest ∧
          ∀ other, (empty.pushAll pushes).1.Builds other → other = forest := by
  refine ⟨?onePush, ?acceptedAlone, builds_pushesOf, ?oneForest⟩
  case onePush =>
    intro pushes parent paragraph
    refine ⟨push_eq_ok_iff, fun refusal => ⟨push_eq_error_iff refusal, fun refuses => ?_⟩⟩
    exact empty.pushAll_concat_of_refuses pushes refuses
  case acceptedAlone =>
    intro pushes
    have isListing := listing_pushAll empty pushes
    rw [listing_empty, List.nil_append] at isListing
    refine ⟨isListing, ?_⟩
    rw [pushAll_accepted, ← isListing, length_listing, List.range_eq_range']
    rfl
  case oneForest =>
    intro pushes
    obtain ⟨forest, builds⟩ := exists_builds pushes
    refine ⟨forest, builds, fun other buildsOther => eq_of_pushesOf_eq ?_⟩
    exact buildsOther.listing_eq.symm.trans builds.listing_eq

end TreeBuilder

end Folio
