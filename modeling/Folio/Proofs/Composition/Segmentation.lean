import Mathlib.Data.List.Chain
import Folio.Composition.Scan
import Folio.Proofs.Composition.Analysis

/-!
# How a run is taken apart

The words and spaces of a run show its characters one stretch after the other, and nothing is
shown twice or left out.  A word is a stretch of letters on one level, and it reaches as far
as no line may end and the level stays the same.  A space is a whole stretch of spacing.

What the scan holds back at any time is itself such a stretch in the making, and this is the
invariant by which one character after the other is read.
-/

namespace Folio

/-! ## Tilings -/

/--
Elements that show a list of items stretch by stretch, where `before` are the items already
shown.  Whether an element shows a stretch may depend on the items on its two sides.
-/
inductive Tiling {α : Type}
    (shows : List α → List α → List α → Element → Prop) :
    List α → List α → List Element → Prop where
  | done (before : List α) : Tiling shows before [] []
  | next
      {before inside after : List α}
      {element : Element}
      {elements : List Element}
      (head : shows before inside after element)
      (tail : Tiling shows (before ++ inside) after elements) :
      Tiling shows before (inside ++ after) (element :: elements)

namespace Tiling

variable
    {α β : Type}
    {shows : List α → List α → List α → Element → Prop}

/-- A tiling of items is one of what the items are mapped to. -/
theorem map
    {shows' : List β → List β → List β → Element → Prop}
    (item : α → β)
    (change : Element → Element)
    (carried :
      ∀ before inside after element,
        shows before inside after element →
          shows' (before.map item) (inside.map item) (after.map item) (change element))
    {before rest : List α}
    {elements : List Element}
    (tiling : Tiling shows before rest elements) :
    Tiling shows' (before.map item) (rest.map item) (elements.map change) := by
  induction tiling with
  | done before => exact .done _
  | next head tail tailTiling =>
      rw [List.map_append, List.map_cons]
      rw [List.map_append] at tailTiling
      exact .next (carried _ _ _ _ head) tailTiling

/-- Each element of a tiling shows a stretch of the items. -/
theorem exists_stretch
    {before rest : List α}
    {elements : List Element}
    (tiling : Tiling shows before rest elements)
    {element : Element}
    (member : element ∈ elements) :
    ∃ front inside after,
      rest = front ++ inside ++ after ∧ shows (before ++ front) inside after element := by
  induction tiling with
  | done before => exact absurd member List.not_mem_nil
  | @next before inside after head elements shown tail stretchOfTail =>
      rcases List.mem_cons.1 member with rfl | later
      · exact ⟨[], inside, after, by simp, by simpa using shown⟩
      · rcases stretchOfTail later with ⟨front, stretch, behind, split, found⟩
        exact ⟨inside ++ front, stretch, behind, by simp [split], by simpa using found⟩

end Tiling

/-! ## Words and spaces -/

/-- Whether an element shows a part of the text. -/
def Element.isTextual : Element → Bool
  | .word _ => true
  | .marker .space => true
  | .marker .noBreakSpace => true
  | _ => false

@[simp]
theorem Element.isTextual_word (word : Word) : (Element.word word).isTextual = true := rfl

theorem Element.word?_eq_some_iff {element : Element} {word : Word} :
    element.word? = some word ↔ element = .word word := by
  cases element <;> simp [word?]

theorem mem_filterMap_word?_iff {elements : List Element} {word : Word} :
    word ∈ elements.filterMap Element.word? ↔ .word word ∈ elements := by
  simp [List.mem_filterMap, Element.word?_eq_some_iff]

@[simp]
theorem filter_isTextual_levelShift (start finish : Bidi.Level) :
    (levelShift start finish).filter Element.isTextual = [] := by
  simp [levelShift, Element.isTextual]

namespace Scan

/-- Whether two neighbouring letters belong to different words. -/
def Parts (left right : AnalyzedChar) : Prop :=
  (right.boundary ≠ .closed ∧ left.char ≠ '-') ∨ left.level ≠ right.level

/-- The marker for a stretch of spacing between other characters. -/
def spaceFor (before inside after : List AnalyzedChar) : Marker :=
  let hasBlank := inside.any fun c => isBlank c.char
  match after with
  | [] => spaceAtEnd hasBlank
  | next :: _ => spaceBefore hasBlank (before.getLast?.map AnalyzedChar.char) next.boundary

/-- What a run at `shift` puts out for the characters `inside`, between those on both sides. -/
inductive Shows (shift : Nat) (before inside after : List AnalyzedChar) : Element → Prop where
  | word
      (level : Bidi.Level)
      (nonempty : inside ≠ [])
      (letters : ∀ c ∈ inside, isSpacing c.char = false ∧ c.level = level)
      (whole : inside.IsChain fun left right => ¬ Parts left right)
      (parted :
        ∀ last ∈ inside.getLast?, ∀ next ∈ after.head?,
          isSpacing next.char = true ∨ Parts last next) :
      Shows shift before inside after
        (.word
          { text := String.ofList (inside.map AnalyzedChar.char)
            offset := shift + Utf8.size (before.map AnalyzedChar.char)
            level := level
            marks := [] })
  | space
      (nonempty : inside ≠ [])
      (spacing : ∀ c ∈ inside, isSpacing c.char = true)
      (opens : ∀ last ∈ before.getLast?, isSpacing last.char = false)
      (closes : ∀ next ∈ after.head?, isSpacing next.char = false) :
      Shows shift before inside after (.marker (spaceFor before inside after))

/-! ## What is held back -/

/-- The characters `held`, read after `before`, are what is pending. -/
inductive Holds (level : Bidi.Level) (before held : List AnalyzedChar) : Pending → Prop where
  | nothing (atStart : before = []) (unread : held = []) :
      Holds level before held initial
  | word
      {start : Nat}
      {pending : List Char}
      (nonempty : held ≠ [])
      (letters : ∀ c ∈ held, isSpacing c.char = false ∧ c.level = level)
      (whole : held.IsChain fun left right => ¬ Parts left right)
      (startsHere : start = Utf8.size (before.map AnalyzedChar.char))
      (spelled : pending = (held.map AnalyzedChar.char).reverse) :
      Holds level before held (.word start pending)
  | gap
      {hasBlank : Bool}
      {previous : Option Char}
      (nonempty : held ≠ [])
      (spacing : ∀ c ∈ held, isSpacing c.char = true)
      (opens : ∀ last ∈ before.getLast?, isSpacing last.char = false)
      (counted : hasBlank = held.any fun c => isBlank c.char)
      (remembered : previous = before.getLast?.map AnalyzedChar.char) :
      Holds level before held (.gap hasBlank previous)

/--
What comes of reading a character: either it joins what is held, or an element shows what was
held and the character is held alone.
-/
inductive Advances
    (shift : Nat)
    (before held : List AnalyzedChar)
    (c : AnalyzedChar) :
    List Element × Pending → Prop where
  | join
      {next : Pending}
      (holds : Holds c.level before (held ++ [c]) next) :
      Advances shift before held c ([], next)
  | put
      {element : Element}
      {next : Pending}
      (textual : element.isTextual = true)
      (shown : ∀ rest, Shows shift before held (c :: rest) element)
      (holds : Holds c.level (before ++ held) [c] next) :
      Advances shift before held c ([element], next)

theorem flushWord_reverse
    (shift start : Nat)
    (level : Bidi.Level)
    {letters : List Char}
    (nonempty : letters ≠ []) :
    flushWord shift level start letters.reverse =
      [.word ⟨String.ofList letters, shift + start, level, []⟩] := by
  simp [flushWord, nonempty]

/-- Of two letters on one level and the next, the cut is where they part. -/
theorem cutsBefore_iff_parts
    {held : List AnalyzedChar}
    {last : AnalyzedChar}
    (isLast : held.getLast? = some last)
    (c : AnalyzedChar) :
    cutsBefore last.level (held.map AnalyzedChar.char).reverse c = true ↔ Parts last c := by
  simp [cutsBefore, Parts, holdsLine, isLast]

theorem isTextual_spaceFor (before inside after : List AnalyzedChar) :
    (Element.marker (spaceFor before inside after)).isTextual = true := by
  cases after <;> simp only [spaceFor, spaceAtEnd, spaceBefore] <;> split <;> rfl

/-! ## Reading a run -/

theorem Holds.single
    {before : List AnalyzedChar}
    {c : AnalyzedChar}
    (isLetter : isSpacing c.char = false)
    (place : c.offset = Utf8.size (before.map AnalyzedChar.char)) :
    Holds c.level before [c] (.word c.offset [c.char]) :=
  .word (by simp) (by simpa using isLetter) (.singleton c) place (by simp)

/-- A letter that does not part from the last one joins its word. -/
theorem Holds.concat
    {level : Bidi.Level}
    {before held : List AnalyzedChar}
    {last c : AnalyzedChar}
    (isLast : held.getLast? = some last)
    (isLetter : isSpacing c.char = false)
    (together : ¬ Parts last c)
    (letters : ∀ c ∈ held, isSpacing c.char = false ∧ c.level = level)
    (whole : held.IsChain fun left right => ¬ Parts left right) :
    Holds c.level before (held ++ [c])
      (.word (Utf8.size (before.map AnalyzedChar.char))
        (c.char :: (held.map AnalyzedChar.char).reverse)) := by
  have sameLevel : level = c.level := by
    have levelOfLast := (letters last (List.mem_of_getLast? isLast)).2
    by_contra differs
    exact together (Or.inr (levelOfLast ▸ differs))
  refine .word (by simp) ?_ ?_ rfl (by simp)
  · intro letter member
    rcases List.mem_append.1 member with old | new
    · exact sameLevel ▸ letters letter old
    · obtain rfl := List.mem_singleton.1 new
      exact ⟨isLetter, rfl⟩
  · refine List.isChain_append.2 ⟨whole, .singleton c, ?_⟩
    intro left isLeft right isRight
    obtain rfl : last = left := by simpa [isLast] using isLeft
    obtain rfl : c = right := by simpa using isRight
    exact together

theorem advances_spacing
    {level : Bidi.Level}
    {before held : List AnalyzedChar}
    {pending : Pending}
    {c : AnalyzedChar}
    (shift : Nat)
    (spacing : isSpacing c.char = true)
    (holds : Holds level before held pending) :
    Advances shift before held c (step shift level pending c) := by
  cases holds with
  | nothing atStart unread =>
      subst atStart unread
      simp only [step, spacing, if_true, initial]
      exact .join (.gap (by simp) (by simpa using spacing) (by simp) (by simp) (by simp))
  | @word start letters nonempty areLetters whole startsHere spelled =>
      subst startsHere spelled
      simp only [step, spacing, if_true]
      rw [flushWord_reverse _ _ _ (by simpa using nonempty)]
      refine .put rfl (fun rest => .word level nonempty areLetters whole ?_) ?_
      · intro last _ next isNext
        obtain rfl : c = next := by simpa using isNext
        exact Or.inl spacing
      · refine .gap (by simp) (by simpa using spacing) ?_ (by simp) ?_
        · intro last isLast
          rw [List.getLast?_append_of_ne_nil _ nonempty] at isLast
          exact (areLetters last (List.mem_of_getLast? isLast)).1
        · simp [List.getLast?_append_of_ne_nil _ nonempty]
  | @gap hasBlank previous nonempty areSpacing opens counted remembered =>
      subst counted remembered
      simp only [step, spacing, if_true]
      refine .join (.gap (by simp) ?_ opens (by simp) rfl)
      intro held member
      rcases List.mem_append.1 member with old | new
      · exact areSpacing held old
      · obtain rfl := List.mem_singleton.1 new
        exact spacing

theorem advances_letter
    {level : Bidi.Level}
    {before held : List AnalyzedChar}
    {pending : Pending}
    {c : AnalyzedChar}
    (shift : Nat)
    (isLetter : isSpacing c.char = false)
    (holds : Holds level before held pending)
    (place : c.offset = Utf8.size ((before ++ held).map AnalyzedChar.char)) :
    Advances shift before held c (step shift level pending c) := by
  cases holds with
  | nothing atStart unread =>
      subst atStart unread
      have starts : c.offset = 0 := place
      simp only [step, isLetter, initial]
      exact .join (.word (by simp) (by simpa using isLetter) (.singleton c) rfl (by simp))
  | @word start letters nonempty areLetters whole startsHere spelled =>
      subst startsHere spelled
      obtain ⟨last, isLast⟩ : ∃ last, held.getLast? = some last :=
        ⟨_, List.getLast?_eq_some_getLast nonempty⟩
      have levelOfLast := (areLetters last (List.mem_of_getLast? isLast)).2
      have cuts := cutsBefore_iff_parts isLast c
      rw [levelOfLast] at cuts
      by_cases parts : Parts last c
      · simp only [step, isLetter, cuts.2 parts]
        rw [flushWord_reverse _ _ _ (by simpa using nonempty)]
        simp only [List.isEmpty_reverse, List.isEmpty_map, List.isEmpty_eq_false_iff.2 nonempty,
          Bool.not_false, Bool.and_true, if_true, Bool.false_eq_true, if_false]
        refine .put rfl (fun rest => .word level nonempty areLetters whole ?_)
          (.single isLetter place)
        intro left isLeft next isNext
        obtain rfl : last = left := by simpa [isLast] using isLeft
        obtain rfl : c = next := by simpa using isNext
        exact Or.inr parts
      · have stays : cutsBefore level (held.map AnalyzedChar.char).reverse c = false := by
          simpa using mt cuts.1 parts
        simp only [step, isLetter, stays, Bool.and_false]
        exact .join (.concat isLast isLetter parts areLetters whole)
  | @gap hasBlank previous nonempty areSpacing opens counted remembered =>
      subst counted remembered
      simp only [step, isLetter]
      refine .put (isTextual_spaceFor before held [c])
        (fun rest => .space nonempty areSpacing opens ?_) (.single isLetter place)
      intro next isNext
      obtain rfl : c = next := by simpa using isNext
      exact isLetter

/-- Reading a character keeps the invariant, whatever is pending. -/
theorem advances_step
    {level : Bidi.Level}
    {before held : List AnalyzedChar}
    {pending : Pending}
    {c : AnalyzedChar}
    (shift : Nat)
    (holds : Holds level before held pending)
    (place : c.offset = Utf8.size ((before ++ held).map AnalyzedChar.char)) :
    Advances shift before held c (step shift level pending c) := by
  cases spacing : isSpacing c.char with
  | true => exact advances_spacing shift spacing holds
  | false => exact advances_letter shift spacing holds place

/-- At the end of a run what is held is shown. -/
theorem tiling_finish
    {level : Bidi.Level}
    {before held : List AnalyzedChar}
    {pending : Pending}
    (shift : Nat)
    (holds : Holds level before held pending) :
    Tiling (Shows shift) before held ((finish shift level pending).filter Element.isTextual) := by
  cases holds with
  | nothing atStart unread =>
      subst unread
      exact .done before
  | word nonempty areLetters whole startsHere spelled =>
      subst startsHere spelled
      rw [finish, flushWord_reverse _ _ _ (by simpa using nonempty)]
      have shown : Shows shift before held [] _ :=
        .word level nonempty areLetters whole (by simp)
      simpa [List.filter_cons] using Tiling.next shown (.done _)
  | gap nonempty areSpacing opens counted remembered =>
      subst counted remembered
      have shown : Shows shift before held [] _ := .space nonempty areSpacing opens (by simp)
      have textual := isTextual_spaceFor before held []
      simp only [spaceFor] at shown textual
      simpa [finish, textual] using Tiling.next shown (.done _)

/-- The elements of the rest of a run show what is held and what is still to be read. -/
theorem tiling_elements
    {level : Bidi.Level}
    {before held : List AnalyzedChar}
    {pending : Pending}
    (shift : Nat)
    (rest : List AnalyzedChar)
    (holds : Holds level before held pending)
    (places :
      rest.map (fun c => (c.offset, c.char)) =
        Utf8.placesFrom (Utf8.size ((before ++ held).map AnalyzedChar.char))
          (rest.map AnalyzedChar.char)) :
    Tiling (Shows shift) before (held ++ rest)
      ((elements shift level pending rest).filter Element.isTextual) := by
  induction rest generalizing level before held pending with
  | nil =>
      rw [List.append_nil]
      exact tiling_finish shift holds
  | cons c rest tilingOfRest =>
      simp only [List.map_cons, Utf8.placesFrom, List.cons.injEq, Prod.mk.injEq, and_true]
        at places
      obtain ⟨place, places⟩ := places
      have advances := advances_step shift holds place
      rw [elements]
      generalize step shift level pending c = read at advances ⊢
      cases advances with
      | @join next holdsNext =>
          have tiling := tilingOfRest holdsNext (by simpa [Nat.add_assoc] using places)
          simpa using tiling
      | @put element next textual shown holdsNext =>
          have tiling := tilingOfRest holdsNext (by simpa [Nat.add_assoc] using places)
          simpa [textual] using Tiling.next (shown rest) tiling

end Scan

/-- The elements of an analyzed run show its characters, from the first to the last. -/
theorem tiling_elements_analyze
    (rules : TextRules)
    (base latest level : Bidi.Level)
    (shift : Nat)
    (text : List Char) :
    let chars := analyze rules base latest text
    Tiling (Scan.Shows shift) [] chars
      ((Scan.elements shift level Scan.initial chars).filter Element.isTextual) := by
  intro chars
  have places : chars.map (fun c => (c.offset, c.char)) = Utf8.placesFrom 0 text :=
    map_place_analyze rules base latest text
  apply Scan.tiling_elements shift chars (.nothing rfl rfl)
  simpa [chars] using places

end Folio
