import Mathlib.Data.List.Chain
import Mathlib.Order.Bounds.Defs
import Mathlib.Order.Lattice

/-!
# Reading through a list

A step that leads from each entry of a list to the one after it, and from the last one nowhere.
Whoever follows it from the first entry comes through the whole list and stops.  A step through
a list in increasing order is told by where it leads from any place, and a step back that undoes
it leads through the list in reverse.
-/

namespace Folio

/-- A step leads from each entry of a list to the one after it, and from the last nowhere. -/
structure ReadsThrough {α : Type} (step : α → Option α) (nodes : List α) : Prop where
  leads : nodes.IsChain fun index following => step index = some following
  stops : ∀ last, nodes.getLast? = some last → step last = none

namespace ReadsThrough

variable
    {α : Type}
    {step : α → Option α}
    {index following : α}
    {rest : List α}

theorem head_leads
    (reads : ReadsThrough step (index :: following :: rest)) :
    step index = some following :=
  (List.isChain_cons_cons.1 reads.leads).1

theorem tail
    (reads : ReadsThrough step (index :: following :: rest)) :
    ReadsThrough step (following :: rest) where
  leads := (List.isChain_cons_cons.1 reads.leads).2
  stops := by
    intro last isLast
    apply reads.stops
    rw [List.getLast?_cons_cons]
    exact isLast

theorem nil : ReadsThrough step [] :=
  ⟨.nil, by simp⟩

theorem cons_iff :
    ReadsThrough step (index :: rest) ↔ step index = rest.head? ∧ ReadsThrough step rest := by
  cases rest with
  | nil =>
      constructor
      · exact fun reads => ⟨reads.stops index rfl, nil⟩
      · rintro ⟨isStop, -⟩
        refine ⟨.singleton index, fun last isLast => ?_⟩
        exact Option.some.inj isLast ▸ isStop
  | cons following rest =>
      constructor
      · exact fun reads => ⟨reads.head_leads, reads.tail⟩
      · rintro ⟨leads, reads⟩
        refine ⟨.cons_cons leads reads.leads, fun last isLast => reads.stops last ?_⟩
        rwa [List.getLast?_cons_cons] at isLast

/-- A step through a list in order leads to the least entry that is greater. -/
theorem of_sorted
    {β : Type}
    [LinearOrder β]
    {step : β → Option β}
    {nodes : List β}
    (sorted : nodes.Pairwise (· < ·))
    (leads :
      ∀ index ∈ nodes, ∀ following,
        IsLeast { other | other ∈ nodes ∧ index < other } following →
          step index = some following)
    (stops : ∀ index ∈ nodes, (∀ other ∈ nodes, other ≤ index) → step index = none) :
    ReadsThrough step nodes where
  leads := by
    apply List.isChain_iff_getElem.2
    intro place inRange
    have isBefore := List.pairwise_iff_getElem.1 sorted
    apply leads _ (List.getElem_mem _)
    constructor
    · exact ⟨List.getElem_mem _, isBefore _ _ _ _ (Nat.lt_succ_self place)⟩
    · rintro other ⟨member, greater⟩
      obtain ⟨otherPlace, otherInRange, rfl⟩ := List.mem_iff_getElem.1 member
      -- The places of a sorted list are in the order of its entries.
      have later : place < otherPlace := by
        refine Nat.lt_of_not_le fun notLater => ?_
        rcases Nat.lt_or_eq_of_le notLater with earlier | same
        · exact absurd (isBefore _ _ _ _ earlier) (lt_asymm greater)
        · subst same
          exact absurd greater (lt_irrefl _)
      rcases Nat.lt_or_eq_of_le (Nat.succ_le_of_lt later) with beyond | same
      · exact le_of_lt (isBefore _ _ _ _ beyond)
      · subst same
        exact le_refl _
  stops := by
    intro last isLast
    obtain ⟨front, rfl⟩ := List.getLast?_eq_some_iff.1 isLast
    apply stops last (by simp)
    intro other member
    rcases List.mem_append.1 member with inFront | same
    · exact le_of_lt ((List.pairwise_append.1 sorted).2.2 other inFront last (by simp))
    · exact le_of_eq (List.mem_singleton.1 same)

/-- A step back that undoes the steps forward, and stops where they start. -/
theorem reverse
    {nodes : List α}
    {back : α → Option α}
    (reads : ReadsThrough step nodes)
    (undoes :
      ∀ index ∈ nodes, ∀ following, step index = some following → back following = some index)
    (stops : ∀ first, nodes.head? = some first → back first = none) :
    ReadsThrough back nodes.reverse where
  leads := by
    apply List.isChain_reverse.2
    apply List.IsChain.imp_of_mem_imp _ reads.leads
    intro index following member _ leads
    exact undoes index member following leads
  stops := by
    intro first isFirst
    exact stops first (by rwa [List.getLast?_reverse] at isFirst)

end ReadsThrough

end Folio
