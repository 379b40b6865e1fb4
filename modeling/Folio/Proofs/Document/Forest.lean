import Folio.Proofs.Document.Subtree

/-!
# Forests and their preorder

An ordered forest can be written down as the list of its nodes in preorder, each with the
number of its parent, and the list tells the forest.  In an outline whose numbers are a
preorder the nodes below a node are a stretch of numbers, in which no node outside has its
parent.  Such a stretch is taken apart at its top nodes, and so the parents of any well linked
outline are the listing of a forest.
-/

namespace Folio

/-- Ordered trees side by side: none, or a first one, with what is below its top, and others. -/
inductive Forest (α : Type) where
  | empty
  | tree (top : α) (below after : Forest α)
  deriving DecidableEq, Repr

namespace Forest

variable {α β : Type}

/-- The number of nodes. -/
def size : Forest α → Nat
  | empty => 0
  | tree _ below after => 1 + below.size + after.size

/-- The forest of the same shape with other nodes. -/
def map (change : α → β) : Forest α → Forest β
  | empty => empty
  | tree top below after => tree (change top) (below.map change) (after.map change)

/-- The nodes in preorder, numbered from `first` on, each with the number of its parent. -/
def listing (first : Nat) (parent : Option Nat) : Forest α → List (Option Nat × α)
  | empty => []
  | tree top below after =>
      (parent, top) ::
        (below.listing (first + 1) (some first) ++
          after.listing (first + 1 + below.size) parent)

/-! ## The listing tells the forest -/

@[simp]
theorem length_listing (first : Nat) (parent : Option Nat) (forest : Forest α) :
    (forest.listing first parent).length = forest.size := by
  induction forest generalizing first parent with
  | empty => rfl
  | tree top below after lengthBelow lengthAfter =>
      simp only [listing, List.length_cons, List.length_append, lengthBelow, lengthAfter, size]
      omega

/-- Whether a parent is one of the nodes from `first` on. -/
def reaches (first : Nat) : Option Nat → Bool
  | none => false
  | some number => first ≤ number

theorem reaches_of_le
    {first later : Nat}
    {parent : Option Nat}
    (notAfter : first ≤ later)
    (reached : reaches later parent = true) :
    reaches first parent = true := by
  cases parent with
  | none => exact reached
  | some number =>
      simp only [reaches, decide_eq_true_eq] at reached ⊢
      exact Nat.le_trans notAfter reached

/-- In a listing the parent of a node is the common one, or a node of the listing. -/
theorem eq_or_reaches_of_mem_listing
    {first : Nat}
    {parent : Option Nat}
    {forest : Forest α}
    {node : Option Nat × α}
    (member : node ∈ forest.listing first parent) :
    node.1 = parent ∨ reaches first node.1 = true := by
  induction forest generalizing first parent with
  | empty => exact absurd member List.not_mem_nil
  | tree top below after ofBelow ofAfter =>
      rcases List.mem_cons.1 member with rfl | member
      · exact Or.inl rfl
      · rcases List.mem_append.1 member with inBelow | inAfter
        · rcases ofBelow inBelow with isFirst | reached
          · exact Or.inr (by simp [isFirst, reaches])
          · exact Or.inr (reaches_of_le (by omega) reached)
        · rcases ofAfter inAfter with isParent | reached
          · exact Or.inl isParent
          · exact Or.inr (reaches_of_le (by omega) reached)

/-- What is below the first node of a listing reaches as far as its parents come after that. -/
theorem takeWhile_listing
    {first : Nat}
    {parent : Option Nat}
    (earlier : reaches first parent = false)
    (below after : Forest α) :
    (below.listing (first + 1) (some first) ++
        after.listing (first + 1 + below.size) parent).takeWhile
      (fun node => reaches first node.1) = below.listing (first + 1) (some first) := by
  rw [List.takeWhile_append_of_pos]
  · cases after with
    | empty => simp [listing]
    | tree top below after => simp [listing, earlier]
  · intro node member
    rcases eq_or_reaches_of_mem_listing member with isFirst | reached
    · simp [isFirst, reaches]
    · exact reaches_of_le (Nat.le_succ first) reached

/-- Forests with one listing are the same. -/
theorem eq_of_listing_eq
    {first : Nat}
    {parent : Option Nat}
    (earlier : reaches first parent = false)
    {left right : Forest α}
    (same : left.listing first parent = right.listing first parent) :
    left = right := by
  induction left generalizing first parent right with
  | empty =>
      cases right with
      | empty => rfl
      | tree top below after => simp [listing] at same
  | tree top below after ofBelow ofAfter =>
      cases right with
      | empty => simp [listing] at same
      | tree otherTop otherBelow otherAfter =>
          simp only [listing, List.cons.injEq, Prod.mk.injEq, true_and] at same
          obtain ⟨rfl, sameRest⟩ := same
          have sameBelow :
              below.listing (first + 1) (some first) =
                otherBelow.listing (first + 1) (some first) := by
            rw [← takeWhile_listing earlier below after, sameRest,
              takeWhile_listing earlier otherBelow otherAfter]
          obtain rfl := ofBelow (by simp [reaches]) sameBelow
          have stillEarlier : reaches (first + 1 + below.size) parent = false := by
            rw [← Bool.not_eq_true] at earlier ⊢
            exact mt (reaches_of_le (by omega)) earlier
          rw [ofAfter stillEarlier (List.append_cancel_left sameRest)]

/-! ## Links -/

/--
The forest that hangs at some tops, where `below` tells the nodes under each node, and `label`
what a node is labelled with.
-/
inductive Hangs (below : Option Nat → List Nat) (label : Nat → α) :
    List Nat → Forest α → Prop where
  | nothing : Hangs below label [] .empty
  | tree
      {index : Nat}
      {tops : List Nat}
      {lower later : Forest α}
      (under : Hangs below label (below (some index)) lower)
      (beside : Hangs below label tops later) :
      Hangs below label (index :: tops) (.tree (label index) lower later)

end Forest

/-! ## Stretches of the preorder -/

namespace Outline

theorem range'_eq_append
    {first middle finish : Nat}
    (before : first ≤ middle)
    (after : middle ≤ finish) :
    List.range' first (finish - first) =
      List.range' first (middle - first) ++ List.range' middle (finish - middle) := by
  have sum : middle - first + (finish - middle) = finish - first := by omega
  have joined := List.range'_append_1 (s := first) (m := middle - first) (n := finish - middle)
  rw [Nat.add_sub_cancel' before, sum] at joined
  exact joined.symm

/-- The nodes from one number to another that have a certain parent, or none. -/
def nodesUnder (outline : Outline) (first finish : Nat) (above : Option Nat) : List Nat :=
  (List.range' first (finish - first)).filter fun index => outline.parent? index = above

theorem nodesUnder_append
    (outline : Outline)
    (above : Option Nat)
    {first middle finish : Nat}
    (before : first ≤ middle)
    (after : middle ≤ finish) :
    outline.nodesUnder first finish above =
      outline.nodesUnder first middle above ++ outline.nodesUnder middle finish above := by
  rw [nodesUnder, range'_eq_append before after, List.filter_append, nodesUnder, nodesUnder]

theorem nodesUnder_eq_nil
    {outline : Outline}
    {above : Option Nat}
    {first finish : Nat}
    (others : ∀ index, first ≤ index → index < finish → outline.parent? index ≠ above) :
    outline.nodesUnder first finish above = [] := by
  rw [nodesUnder, List.filter_eq_nil_iff]
  intro index member
  have bounds := List.mem_range'_1.1 member
  simpa using others index bounds.1 (by omega)

/--
The nodes from one number to another are those under a common parent, with all that stands
below them.
-/
structure IsBlock (outline : Outline) (parent : Option Nat) (first finish : Nat) : Prop where
  le : first ≤ finish
  inside :
    ∀ index, first ≤ index → index < finish →
      outline.parent? index = parent ∨
        ∃ above, outline.parent? index = some above ∧ first ≤ above
  outside :
    ∀ index above, finish ≤ index →
      outline.parent? index = some above → above < first ∨ finish ≤ above

theorem isBlock_all (outline : Outline) : outline.IsBlock none 0 outline.size where
  le := Nat.zero_le _
  inside := by
    intro index _ _
    cases link : outline.parent? index with
    | none => exact Or.inl rfl
    | some above => exact Or.inr ⟨above, rfl, Nat.zero_le above⟩
  outside := by
    intro index above outOfRange link
    exact absurd (lt_size_of_parent?_eq_some link) (Nat.not_lt.2 outOfRange)

namespace IsBlock

variable
    {outline : Outline}
    {parent : Option Nat}
    {first finish : Nat}

theorem parent?_first
    (block : outline.IsBlock parent first finish)
    (nonempty : first < finish) :
    outline.parent? first = parent := by
  rcases block.inside first (Nat.le_refl first) nonempty with isParent | ⟨above, link, after⟩
  · exact isParent
  · exact absurd (parent?_lt link) (Nat.not_lt.2 after)

/-- The place of the second top node of a block, or else its end. -/
theorem exists_second
    (outline : Outline)
    (parent : Option Nat)
    {first finish : Nat}
    (nonempty : first < finish) :
    ∃ second,
      first < second ∧ second ≤ finish ∧
        (second < finish → outline.parent? second = parent) ∧
        ∀ index, first < index → index < second → outline.parent? index ≠ parent := by
  classical
  have someEnd :
      ∃ second, first < second ∧ (second = finish ∨ outline.parent? second = parent) :=
    ⟨finish, nonempty, Or.inl rfl⟩
  have found := Nat.find_spec someEnd
  have notAfter : Nat.find someEnd ≤ finish := Nat.find_le ⟨nonempty, Or.inl rfl⟩
  refine ⟨Nat.find someEnd, found.1, notAfter, ?_, ?_⟩
  · intro inBlock
    exact found.2.resolve_left (Nat.ne_of_lt inBlock)
  · intro index after before isParent
    exact Nat.find_min someEnd before ⟨after, Or.inr isParent⟩

/-- A block goes on as a block from any of its top nodes. -/
theorem tail
    (linked : outline.WellLinked)
    (block : outline.IsBlock parent first finish)
    {second : Nat}
    (after : first < second)
    (inBlock : second ≤ finish)
    (isTop : second < finish → outline.parent? second = parent) :
    outline.IsBlock parent second finish where
  le := inBlock
  inside := by
    intro index later before
    have ofBlock := block.inside index (by omega) before
    refine ofBlock.imp_right ?_
    rintro ⟨above, link, notBefore⟩
    refine ⟨above, link, Nat.le_of_not_lt fun earlier => ?_⟩
    -- A parent before the second top would stand above that too, and so before the block.
    have onWay :=
      linked.mem_lineage_of_le (mem_lineage_iff.2 (Or.inr (mem_ancestors_of_parent link)))
        (Nat.le_of_lt earlier) later
    have aboveSecond := mem_ancestors_of_mem_lineage onWay (Nat.ne_of_lt earlier)
    have siblings : outline.parent? second = outline.parent? first := by
      rw [isTop (by omega), block.parent?_first (by omega)]
    rw [ancestors_congr siblings] at aboveSecond
    exact absurd (lt_of_mem_ancestors aboveSecond) (Nat.not_lt.2 notBefore)
  outside := by
    intro index above isAfter link
    rcases block.outside index above isAfter link with before | beyond
    · exact Or.inl (by omega)
    · exact Or.inr beyond

/-- What stands below the first node of a block is a block. -/
theorem below
    (block : outline.IsBlock parent first finish)
    {second : Nat}
    (after : first < second)
    (rest : outline.IsBlock parent second finish)
    (noTop : ∀ index, first < index → index < second → outline.parent? index ≠ parent) :
    outline.IsBlock (some first) (first + 1) second where
  le := after
  inside := by
    intro index later before
    have inBlock := rest.le
    rcases block.inside index (by omega) (by omega) with isTop | ⟨above, link, notBefore⟩
    · exact absurd isTop (noTop index (by omega) before)
    · by_cases isFirst : above = first
      · exact Or.inl (isFirst ▸ link)
      · exact Or.inr ⟨above, link, by omega⟩
  outside := by
    intro index above later link
    have inBlock := rest.le
    by_cases inRest : index < finish
    · rcases rest.inside index later inRest with isTop | ⟨other, otherLink, notBefore⟩
      · have isParent := block.parent?_first (by omega)
        have := parent?_lt (isParent.trans (isTop.symm.trans link))
        exact Or.inl (by omega)
      · obtain rfl := Option.some.inj (link.symm.trans otherLink)
        exact Or.inr notBefore
    · rcases block.outside index above (by omega) link with before | beyond
      · exact Or.inl (by omega)
      · exact Or.inr (by omega)

/-- The nodes under the first node of a block are found in the part below it. -/
theorem nodesUnder_first
    (block : outline.IsBlock parent first finish)
    (inRange : finish ≤ outline.size)
    {second : Nat}
    (after : first < second)
    (rest : outline.IsBlock parent second finish) :
    outline.nodesUnder 0 outline.size (some first) =
      outline.nodesUnder (first + 1) second (some first) := by
  have inBlock := rest.le
  have noneBefore : outline.nodesUnder 0 (first + 1) (some first) = [] := by
    refine nodesUnder_eq_nil fun index _ before link => ?_
    have := parent?_lt link
    omega
  have noneAfter : outline.nodesUnder second outline.size (some first) = [] := by
    refine nodesUnder_eq_nil fun index later _ link => ?_
    by_cases inRest : index < finish
    · rcases rest.inside index later inRest with isTop | ⟨above, aboveLink, notBefore⟩
      · have isParent := block.parent?_first (by omega)
        have := parent?_lt (isParent.trans (isTop.symm.trans link))
        omega
      · obtain rfl := Option.some.inj (link.symm.trans aboveLink)
        omega
    · have := block.outside index first (by omega) link
      omega
  rw [nodesUnder_append outline (some first) (Nat.zero_le (first + 1)) (by omega), noneBefore,
    List.nil_append, nodesUnder_append outline (some first) after (by omega), noneAfter,
    List.append_nil]

/-- The nodes of a block are the listing of the forest that hangs at its top nodes. -/
theorem exists_forest
    {α : Type}
    (label : Nat → α)
    (linked : outline.WellLinked)
    (block : outline.IsBlock parent first finish)
    (inRange : finish ≤ outline.size) :
    ∃ forest : Forest α,
      Forest.Hangs (outline.nodesUnder 0 outline.size) label
          (outline.nodesUnder first finish parent) forest ∧
        forest.listing first parent =
          (List.range' first (finish - first)).map fun index =>
            (outline.parent? index, label index) := by
  induction length : finish - first using Nat.strongRecOn generalizing parent first finish with
  | ind count shorter =>
      rcases Nat.lt_or_eq_of_le block.le with nonempty | rfl
      · obtain ⟨second, after, inBlock, isTop, noTop⟩ :=
          exists_second outline parent nonempty
        have rest := block.tail linked after inBlock isTop
        have lower := block.below after rest noTop
        obtain ⟨below, belowHangs, belowListing⟩ :=
          shorter (second - (first + 1)) (by omega) lower (by omega) rfl
        obtain ⟨later, laterHangs, laterListing⟩ :=
          shorter (finish - second) (by omega) rest inRange rfl
        have sizeBelow : below.size = second - (first + 1) := by
          simpa using congrArg List.length belowListing
        have isFirst := block.parent?_first nonempty
        have noTopBelow : outline.nodesUnder (first + 1) second parent = [] :=
          nodesUnder_eq_nil fun index later before => noTop index later before
        refine ⟨.tree (label first) below later, ?_, ?_⟩
        · have tops :
              outline.nodesUnder first finish parent =
                first :: outline.nodesUnder second finish parent := by
            rw [nodesUnder_append outline parent (Nat.le_of_lt after) inBlock,
              nodesUnder_append outline parent (Nat.le_succ first) after, noTopBelow]
            simp [nodesUnder, isFirst]
          rw [tops]
          refine .tree ?_ laterHangs
          rw [block.nodesUnder_first inRange after rest]
          exact belowHangs
        · have startsLater : first + 1 + below.size = second := by omega
          have cutAtSecond := range'_eq_append (Nat.succ_le_of_lt after) inBlock
          rw [← length, range'_eq_append (Nat.le_succ first) (by omega), cutAtSecond]
          simp [Forest.listing, isFirst, startsLater, belowListing, laterListing]
      · obtain rfl : count = 0 := by omega
        exact ⟨.empty, by simpa [nodesUnder] using .nothing, by simp [Forest.listing]⟩

end IsBlock

end Outline

end Folio
