import Folio.Proofs.Document.VisibleNodes

/-!
# The places of a text

A text is a list of paragraphs that a step leads through, each with its elements.  Its places are
the elements and, for every paragraph, the end after the last element.  Going from element to
element, and from the end of a paragraph to the start of the one that is read next, leads through
all places once and in order, and going back leads through the same places from the last one to
the first.  Who reads at each place reads every element once.
-/

namespace Folio

/-! ## Steps and what follows them -/

namespace ReadsThrough

variable
    {α β : Type}
    {step : α → Option α}
    {stepBy : β → Option β}

/-- Only the last entry is one from which no step leads on. -/
theorem exists_of_mem_front
    {front : List α}
    {last index : α}
    (reads : ReadsThrough step (front ++ [last]))
    (member : index ∈ front) :
    ∃ following, step index = some following := by
  induction front with
  | nil => exact absurd member List.not_mem_nil
  | cons head rest ofRest =>
      rw [List.cons_append, cons_iff] at reads
      rcases List.mem_cons.1 member with rfl | inRest
      · rw [reads.1]
        cases rest with
        | nil => exact ⟨last, rfl⟩
        | cons next others => exact ⟨next, rfl⟩
      · exact ofRest reads.2 inRest

/-- What follows the steps of another leads through entries that are related to the other's. -/
theorem exists_following
    {Related : β → α → Prop}
    (leads :
      ∀ state index following,
        Related state index → step index = some following →
          ∃ later, stepBy state = some later ∧ Related later following)
    (stops : ∀ state index, Related state index → step index = none → stepBy state = none)
    {index : α}
    {rest : List α}
    (reads : ReadsThrough step (index :: rest))
    {state : β}
    (related : Related state index) :
    ∃ states,
      ReadsThrough stepBy (state :: states) ∧
        List.Forall₂ Related (state :: states) (index :: rest) := by
  induction rest generalizing index state with
  | nil =>
      have isStop := stops state index related (cons_iff.1 reads).1
      exact ⟨[], cons_iff.2 ⟨isStop, nil⟩, .cons related .nil⟩
  | cons following rest ofRest =>
      obtain ⟨isLed, readsOn⟩ := cons_iff.1 reads
      obtain ⟨later, follows, laterRelated⟩ := leads state index following related isLed
      obtain ⟨states, laterReads, laterRelate⟩ := ofRest readsOn laterRelated
      exact ⟨later :: states, cons_iff.2 ⟨follows, laterReads⟩, .cons related laterRelate⟩

end ReadsThrough

section

variable
    {α β γ : Type}
    {Related : β → α → Prop}
    {states : List β}
    {entries : List α}

theorem exists_related_of_mem
    (relate : List.Forall₂ Related states entries)
    {state : β}
    (member : state ∈ states) :
    ∃ entry, Related state entry := by
  induction relate with
  | nil => exact absurd member List.not_mem_nil
  | cons related _ ofRest =>
      rcases List.mem_cons.1 member with rfl | inRest
      · exact ⟨_, related⟩
      · exact ofRest inRest

theorem filterMap_eq_of_related
    (relate : List.Forall₂ Related states entries)
    {ofState : β → Option γ}
    {ofEntry : α → Option γ}
    (same : ∀ state entry, Related state entry → ofState state = ofEntry entry) :
    states.filterMap ofState = entries.filterMap ofEntry := by
  induction relate with
  | nil => rfl
  | cons related _ ofRest =>
      rw [List.filterMap_cons, List.filterMap_cons, same _ _ related, ofRest]

end

/-! ## Places -/

/-- An element of a paragraph, or the end after the last one. -/
structure Place where
  index : Nat
  element : Nat

namespace Place

section

variable
    (elements : Nat → List Element)
    (step : Nat → Option Nat)

/-- The element at a place. -/
def read (place : Place) : Option Element :=
  (elements place.index)[place.element]?

/-- The end of a paragraph. -/
def ending (index : Nat) : Place where
  index := index
  element := (elements index).length

/-- The place after another, where a step leads on from the end of a paragraph. -/
def after? (place : Place) : Option Place :=
  if place.element = (elements place.index).length then
    (step place.index).map (⟨·, 0⟩)
  else
    some ⟨place.index, place.element + 1⟩

/-- The place before another, where a step leads back from the start of a paragraph. -/
def before? (place : Place) : Option Place :=
  if place.element = 0 then
    (step place.index).map (ending elements)
  else
    some ⟨place.index, place.element - 1⟩

/-- The places of one paragraph from an element on. -/
def within (index element remaining : Nat) : List Place :=
  (List.range' element (remaining + 1)).map (⟨index, ·⟩)

/-- The places of paragraphs, one paragraph after the other. -/
def ofText (indices : List Nat) : List Place :=
  indices.flatMap fun index => within index 0 (elements index).length

end

variable
    {elements : Nat → List Element}
    {step back : Nat → Option Nat}

theorem within_zero (index element : Nat) : within index element 0 = [⟨index, element⟩] := rfl

theorem within_succ (index element remaining : Nat) :
    within index element (remaining + 1) =
      ⟨index, element⟩ :: within index (element + 1) remaining := by
  rw [within, List.range'_succ, List.map_cons, within]

theorem head?_within_append (index element remaining : Nat) (others : List Place) :
    (within index element remaining ++ others).head? = some ⟨index, element⟩ := by
  rw [within, List.range'_succ]
  rfl

theorem head?_ofText (indices : List Nat) :
    (ofText elements indices).head? = indices.head?.map (⟨·, 0⟩) := by
  cases indices with
  | nil => rfl
  | cons index rest =>
      rw [ofText, List.flatMap_cons, head?_within_append]
      rfl

theorem mem_ofText
    {indices : List Nat}
    {place : Place}
    (member : place ∈ ofText elements indices) :
    place.index ∈ indices := by
  obtain ⟨index, isIndex, inParagraph⟩ := List.mem_flatMap.1 member
  obtain ⟨element, -, rfl⟩ := List.mem_map.1 inParagraph
  exact isIndex

/-! ### Reading on -/

/-- From any element of a paragraph on, reading leads to its end and on from there. -/
theorem readsThrough_within
    {index element remaining : Nat}
    (isRest : element + remaining = (elements index).length)
    {others : List Place}
    (leads : (step index).map (⟨·, 0⟩) = others.head?)
    (reads : ReadsThrough (after? elements step) others) :
    ReadsThrough (after? elements step) (within index element remaining ++ others) := by
  induction remaining generalizing element with
  | zero =>
      have isEnd : element = (elements index).length := isRest
      rw [within_zero, List.singleton_append, ReadsThrough.cons_iff]
      refine ⟨?_, reads⟩
      rw [after?, if_pos isEnd, leads]
  | succ remaining ofRest =>
      have notEnd : element ≠ (elements index).length := by omega
      rw [within_succ, List.cons_append, ReadsThrough.cons_iff, head?_within_append]
      constructor
      · rw [after?, if_neg notEnd]
      · exact ofRest (by omega)

theorem readsThrough_ofText
    {indices : List Nat}
    (reads : ReadsThrough step indices) :
    ReadsThrough (after? elements step) (ofText elements indices) := by
  induction indices with
  | nil => exact .nil
  | cons index rest ofRest =>
      obtain ⟨leads, readsOn⟩ := ReadsThrough.cons_iff.1 reads
      rw [ofText, List.flatMap_cons]
      apply readsThrough_within (Nat.zero_add _) _ (ofRest readsOn)
      rw [leads, head?_ofText]

/-! ### Reading back -/

/-- Going back undoes going on, wherever a step back undoes a step on. -/
theorem before?_of_after?
    {place following : Place}
    (undoes : ∀ next, step place.index = some next → back next = some place.index)
    (isAfter : after? elements step place = some following) :
    before? elements back following = some place := by
  unfold after? at isAfter
  split at isAfter
  · rename_i isEnd
    obtain ⟨next, leads, rfl⟩ := Option.map_eq_some_iff.1 isAfter
    rw [before?, if_pos rfl, undoes next leads, Option.map_some, ending, ← isEnd]
  · obtain rfl := Option.some.inj isAfter
    rw [before?, if_neg (Nat.succ_ne_zero _)]
    rfl

theorem readsThrough_reverse_ofText
    {indices : List Nat}
    (reads : ReadsThrough step indices)
    (undoes :
      ∀ index ∈ indices, ∀ next, step index = some next → back next = some index)
    (stops : ∀ first, indices.head? = some first → back first = none) :
    ReadsThrough (before? elements back) (ofText elements indices).reverse := by
  apply (readsThrough_ofText reads).reverse
  · intro place member following isAfter
    exact before?_of_after? (undoes place.index (mem_ofText member)) isAfter
  · intro place isHead
    rw [head?_ofText] at isHead
    obtain ⟨first, isFirst, rfl⟩ := Option.map_eq_some_iff.1 isHead
    rw [before?, if_pos rfl, stops first isFirst]
    rfl

/-! ### What is read -/

theorem filterMap_read_within
    {index element remaining : Nat}
    (isRest : element + remaining = (elements index).length) :
    (within index element remaining).filterMap (read elements) =
      (elements index).drop element := by
  induction remaining generalizing element with
  | zero =>
      have beyond : (elements index).length ≤ element := by omega
      simp [within, read, beyond]
  | succ remaining ofRest =>
      have inRange : element < (elements index).length := by omega
      rw [within_succ, List.filterMap_cons, ofRest (by omega), read,
        List.getElem?_eq_getElem inRange, List.drop_eq_getElem_cons inRange]

/-- At the places of a text its elements are read, one after the other. -/
theorem filterMap_read_ofText (indices : List Nat) :
    (ofText elements indices).filterMap (read elements) = indices.flatMap elements := by
  rw [ofText, List.filterMap_flatMap]
  congr 1
  funext index
  exact filterMap_read_within (Nat.zero_add _)

end Place

end Folio
