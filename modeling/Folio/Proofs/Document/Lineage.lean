import Folio.Document.Outline

/-!
# The nodes above a node

Ancestors are found by following parents, so they grow smaller towards the top, and two nodes
with one parent have the same ancestors.  Everything said here holds of any outline; what
makes the numbers a preorder comes from the way outlines are built.
-/

namespace Folio.Outline

variable
    {outline : Outline}
    {index parent node above below : Nat}

theorem ancestors_of_root
    (isRoot : outline.parent? index = none) :
    outline.ancestors index = [] := by
  rw [ancestors]
  split
  · rfl
  · simp_all

theorem ancestors_of_parent
    (link : outline.parent? index = some parent) :
    outline.ancestors index = outline.lineage parent := by
  rw [ancestors]
  split
  · simp_all
  · simp_all [lineage]

theorem ancestors_congr
    (sameParent : outline.parent? index = outline.parent? node) :
    outline.ancestors index = outline.ancestors node := by
  cases link : outline.parent? node with
  | none => rw [ancestors_of_root link, ancestors_of_root (sameParent.trans link)]
  | some parent => rw [ancestors_of_parent link, ancestors_of_parent (sameParent.trans link)]

theorem mem_lineage_iff :
    above ∈ outline.lineage index ↔ above = index ∨ above ∈ outline.ancestors index := by
  simp [lineage]

theorem self_mem_lineage (outline : Outline) (index : Nat) : index ∈ outline.lineage index :=
  mem_lineage_iff.2 (Or.inl rfl)

theorem mem_ancestors_of_parent
    (link : outline.parent? index = some parent) :
    parent ∈ outline.ancestors index := by
  rw [ancestors_of_parent link]
  exact self_mem_lineage outline parent

theorem lt_of_mem_ancestors
    (member : above ∈ outline.ancestors index) :
    above < index := by
  induction index using Nat.strongRecOn with
  | ind index smaller =>
      cases link : outline.parent? index with
      | none => simp [ancestors_of_root link] at member
      | some parent =>
          have parentBelow := parent?_lt link
          rw [ancestors_of_parent link] at member
          rcases mem_lineage_iff.1 member with rfl | higher
          · exact parentBelow
          · exact Nat.lt_trans (smaller parent parentBelow higher) parentBelow

theorem le_of_mem_lineage
    (member : above ∈ outline.lineage index) :
    above ≤ index := by
  rcases mem_lineage_iff.1 member with rfl | higher
  · exact Nat.le_refl _
  · exact Nat.le_of_lt (lt_of_mem_ancestors higher)

theorem mem_ancestors_of_mem_lineage
    (member : above ∈ outline.lineage index)
    (other : above ≠ index) :
    above ∈ outline.ancestors index :=
  (mem_lineage_iff.1 member).resolve_left other

/-- What follows a node among the ancestors of another are the ancestors of the former. -/
theorem ancestors_of_split
    {front rest : List Nat}
    (split : outline.ancestors index = front ++ above :: rest) :
    outline.ancestors above = rest := by
  induction index using Nat.strongRecOn generalizing front with
  | ind index smaller =>
      cases link : outline.parent? index with
      | none => simp [ancestors_of_root link] at split
      | some parent =>
          rw [ancestors_of_parent link, lineage] at split
          cases front with
          | nil =>
              obtain ⟨rfl, sameRest⟩ := List.cons.inj split
              exact sameRest
          | cons first front =>
              exact smaller parent (parent?_lt link) (List.cons.inj split).2

theorem mem_ancestors_trans
    (lower : below ∈ outline.ancestors index)
    (higher : above ∈ outline.ancestors below) :
    above ∈ outline.ancestors index := by
  obtain ⟨front, rest, split⟩ := List.append_of_mem lower
  rw [ancestors_of_split split] at higher
  rw [split]
  exact List.mem_append_right front (List.mem_cons_of_mem below higher)

theorem mem_ancestors_of_lineage
    (lower : below ∈ outline.lineage index)
    (higher : above ∈ outline.ancestors below) :
    above ∈ outline.ancestors index := by
  rcases mem_lineage_iff.1 lower with rfl | lower
  · exact higher
  · exact mem_ancestors_trans lower higher

/-- A node does not stand above another with the same parent. -/
theorem eq_of_mem_lineage_of_sibling
    (member : node ∈ outline.lineage index)
    (siblings : outline.parent? node = outline.parent? index) :
    node = index := by
  rcases mem_lineage_iff.1 member with same | higher
  · exact same
  · rw [← ancestors_congr siblings] at higher
    exact absurd (lt_of_mem_ancestors higher) (Nat.lt_irrefl node)

/-- Going up from a node, one comes to a child of each of its ancestors, and to a root. -/
theorem exists_mem_lineage_parent?_eq
    {parent? : Option Nat}
    (reached : ∀ parent, parent? = some parent → parent ∈ outline.ancestors index) :
    ∃ branch ∈ outline.lineage index, outline.parent? branch = parent? := by
  induction index using Nat.strongRecOn with
  | ind index smaller =>
      by_cases found : outline.parent? index = parent?
      · exact ⟨index, self_mem_lineage outline index, found⟩
      · cases link : outline.parent? index with
        | none =>
            cases parent? with
            | none => exact absurd link found
            | some parent =>
                have impossible := reached parent rfl
                simp [ancestors_of_root link] at impossible
        | some next =>
            have reachedNext :
                ∀ parent, parent? = some parent → parent ∈ outline.ancestors next := by
              intro parent isParent
              have member := reached parent isParent
              rw [ancestors_of_parent link] at member
              apply mem_ancestors_of_mem_lineage member
              rintro rfl
              exact found (link.trans isParent.symm)
            obtain ⟨branch, onWay, isBranch⟩ := smaller next (parent?_lt link) reachedNext
            refine ⟨branch, ?_, isBranch⟩
            rw [mem_lineage_iff, ancestors_of_parent link]
            exact Or.inr onWay

/-- Outlines with the same parents have the same ancestors. -/
theorem ancestors_eq_of_parent?_eq
    {other : Outline}
    {bound : Nat}
    (sameParents : ∀ node < bound, outline.parent? node = other.parent? node)
    (inBound : index < bound) :
    outline.ancestors index = other.ancestors index := by
  induction index using Nat.strongRecOn with
  | ind index smaller =>
      have same := sameParents index inBound
      cases link : outline.parent? index with
      | none => rw [ancestors_of_root link, ancestors_of_root (same ▸ link)]
      | some parent =>
          have parentBelow := parent?_lt link
          rw [ancestors_of_parent link, ancestors_of_parent (same ▸ link), lineage, lineage,
            smaller parent parentBelow (Nat.lt_trans parentBelow inBound)]

end Folio.Outline
