import Folio.Proofs.Composition.TextTiling
import Folio.Proofs.Session.StoredMarks

/-!
# Words show the marks of their paragraph

A word of a filled paragraph has one span for each mark of the paragraph that reaches into it,
in the order of the marks, and the span is what the mark covers of the word.  So each byte of
a word is highlighted by exactly the marks that cover it.

This holds as long as there is an offset just after each of these marks.  A mark that reaches
beyond the last offset shows in no word, or in one beyond its end.
-/

namespace Folio

/-! ## What a mark covers of a word -/

/-- Whether a mark reaches into a word, going by their places in the text. -/
def Word.Meets (word : Word) (mark : Mark) : Prop :=
  mark.offset < word.finish ∧ word.offset < mark.finish

instance (word : Word) (mark : Mark) : Decidable (word.Meets mark) :=
  inferInstanceAs (Decidable (_ ∧ _))

/-- What a mark covers of a word into which it reaches, from the start of the word. -/
def Word.spanOf (word : Word) (mark : Mark) : MarkSpan where
  start := max mark.offset word.offset - word.offset
  length := min mark.finish word.finish - max mark.offset word.offset

/-- Whether a span covers a byte of its word. -/
def MarkSpan.Covers (span : MarkSpan) (place : Nat) : Prop :=
  span.start ≤ place ∧ place < span.start + span.length

instance (span : MarkSpan) (place : Nat) : Decidable (span.Covers place) :=
  inferInstanceAs (Decidable (_ ∧ _))

/-- Whether a mark covers a byte of the text of its paragraph. -/
def Mark.Covers (mark : Mark) (place : Nat) : Prop :=
  mark.offset ≤ place ∧ place < mark.finish

instance (mark : Mark) (place : Nat) : Decidable (mark.Covers place) :=
  inferInstanceAs (Decidable (_ ∧ _))

/-- Whether there is an offset just after a mark. -/
def Mark.IsAddressable (mark : Mark) : Prop :=
  mark.finish < Offset.count

instance (mark : Mark) : Decidable mark.IsAddressable :=
  inferInstanceAs (Decidable (_ < _))

theorem Mark.IsAddressable.finishOffset_eq
    {mark : Mark}
    (addressable : mark.IsAddressable) :
    mark.finishOffset = mark.finish :=
  Offset.add_of_lt addressable

namespace Word

variable
    {word : Word}
    {mark : Mark}

/-- Where a word ends at an offset, it makes no difference whether it lies in a text. -/
theorem addMarkAnywhere_eq (inRange : word.finish < Offset.count) :
    word.addMarkAnywhere = word.addMark := by
  funext offset length
  rw [addMarkAnywhere, addMark, clip?, Offset.add_of_lt inRange]
  rfl

/-- A mark that does not reach into a word shows nothing in it. -/
theorem clip?_of_not_meets (misses : ¬ word.Meets mark) :
    word.clip? mark.offset mark.length = none := by
  refine if_neg fun ⟨startsBefore, endsAfter⟩ => misses ⟨startsBefore, ?_⟩
  exact Nat.lt_of_lt_of_le endsAfter (Nat.mod_le ..)

/-- A mark that reaches into a word starts before it ends there. -/
theorem Meets.start_le (meets : word.Meets mark) :
    max mark.offset word.offset ≤ min mark.finish word.finish := by
  rcases meets with ⟨startsBefore, endsAfter⟩
  simp only [finish, Mark.finish] at startsBefore endsAfter ⊢
  omega

/-- A mark that reaches into a word shows what it covers, if there is an offset after it. -/
theorem Meets.clip?_eq (meets : word.Meets mark) (addressable : mark.IsAddressable) :
    word.clip? mark.offset mark.length = some (word.spanOf mark) := by
  have isStop : Offset.add mark.offset mark.length = mark.finish := addressable.finishOffset_eq
  have inRange : min mark.finish word.finish < Offset.count :=
    Nat.lt_of_le_of_lt (Nat.min_le_left ..) addressable
  have isLength := Offset.sub_of_le inRange meets.start_le
  simp only [clip?, clipTo?, isStop, isLength]
  exact if_pos meets

/-- A span never reaches beyond its word. -/
theorem Meets.span_le_size (meets : word.Meets mark) :
    (word.spanOf mark).start + (word.spanOf mark).length ≤ word.size := by
  rcases meets with ⟨startsBefore, endsAfter⟩
  simp only [spanOf, finish] at startsBefore ⊢
  omega

/-- The span of a mark covers the bytes of the word that the mark covers. -/
theorem meets_and_covers_iff
    {place : Nat}
    (inWord : place < word.size) :
    word.Meets mark ∧ (word.spanOf mark).Covers place ↔ mark.Covers (word.offset + place) := by
  simp only [Meets, spanOf, MarkSpan.Covers, Mark.Covers, finish, Mark.finish]
  omega

end Word

namespace Composition

section

variable
    {marks : Marks}
    {word : Word}

theorem spansOf_eq (addressable : ∀ mark ∈ marks, word.Meets mark → mark.IsAddressable) :
    spansOf marks word = (marks.filter fun mark => word.Meets mark).map word.spanOf := by
  induction marks with
  | nil => rfl
  | cons mark rest spansOfRest =>
      have here := spansOfRest fun other member => addressable other (List.mem_cons_of_mem _ member)
      unfold spansOf at here ⊢
      by_cases meets : word.Meets mark
      · have shown := meets.clip?_eq (addressable mark List.mem_cons_self meets)
        simp [meets, shown, here]
      · simp [meets, Word.clip?_of_not_meets meets, here]

end

/-- A mark before the word, the same mark twice, and a mark that starts where the word ends. -/
example :
    spansOf [⟨0, 0, 3⟩, ⟨0, 6, 9⟩, ⟨0, 6, 9⟩, ⟨0, 8, 1⟩] ⟨"abcd", 4, 0, []⟩ =
      [⟨2, 2⟩, ⟨2, 2⟩] := by
  cbv

/-- A mark that goes on at the first offset, and there once more into the word. -/
example : spansOf [⟨0, 5, Offset.count - 3⟩] ⟨"abcdef", 0, 0, []⟩ = [⟨5, Offset.count - 3⟩] := by
  cbv

/-- The spans of a word of a filled paragraph, as the marks of the document give them. -/
theorem marks_of_mem_fill
    (rules : TextRules)
    {document : Document}
    (ordered : document.marks.IsOrdered)
    (language : Language)
    (index : Nat)
    (pool : Pool)
    {word : Word}
    (member : .word word ∈ (fill rules document language index pool).1) :
    word.marks = spansOf (document.marks.filter fun mark => mark.paragraph == index) word := by
  rw [fst_fill, ordered.ofParagraph_eq] at member
  rcases List.mem_map.1 member with ⟨element, isComposed, shown⟩
  rcases exists_word_of_marked shown with ⟨bare, rfl, rfl⟩
  rfl

end Composition

end Folio
