import Folio.Proofs.Composition.CarriedLevel
import Folio.Proofs.Composition.Highlight

/-!
# Entries compose independently

What is carried from entry to entry shows in the level markers and in the offsets of words.  So
a paragraph is, level markers aside, what its entries are alone, put one after the other, with
words and marks measured from where the text of each entry begins.

An entry that is neither text nor a return to the base level carries on what was carried to it.
Putting one in puts its own element in, and nothing else changes.
-/

namespace Folio

/-! ## Paragraphs with other entries -/

namespace Document

/-- The document with other entries in a paragraph. -/
def setEntries (document : Document) (index : Nat) (entries : List Entry) : Document :=
  { document with
    paragraphs := document.paragraphs.modify index fun paragraph => { paragraph with entries }
    outline_size := by
      intro tree isOutline
      rw [Array.size_modify]
      exact document.outline_size tree isOutline }

theorem paragraph?_setEntries
    {document : Document}
    {index : Nat}
    {paragraph : Paragraph}
    (found : document.paragraph? index = some paragraph)
    (entries : List Entry) :
    (document.setEntries index entries).paragraph? index = some { paragraph with entries } := by
  change document.paragraphs[index]? = some paragraph at found
  change (document.paragraphs.modify index _)[index]? = _
  rw [Array.getElem?_modify, if_pos rfl, found]
  rfl

end Document

/-! ## Marks measured from further on -/

/-- A mark measured from an offset on; what lies before the offset is cut off. -/
def Mark.since (offset : Nat) (mark : Mark) : Mark where
  paragraph := mark.paragraph
  offset := mark.offset - offset
  length := Offset.sub (mark.finishOffset - offset) (mark.offset - offset)

/-- The document with its marks measured from an offset on. -/
def Document.marksSince (document : Document) (offset : Nat) : Document :=
  { document with marks := document.marks.map (Mark.since offset) }

theorem Marks.ofParagraph_map_since (marks : Marks) (offset paragraph : Nat) :
    Marks.ofParagraph (marks.map (Mark.since offset)) paragraph =
      (Marks.ofParagraph marks paragraph).map (Mark.since offset) := by
  rw [Marks.ofParagraph, List.dropWhile_map, List.takeWhile_map, Marks.ofParagraph]
  rfl

theorem Mark.finishOffset_since (offset : Nat) (mark : Mark) :
    (mark.since offset).finishOffset = mark.finishOffset - offset :=
  Offset.add_sub
    (Nat.lt_of_le_of_lt (Nat.sub_le ..) (Offset.add_lt_count mark.offset mark.length)) _

/-- What a mark covers from an offset on, it covers measured from there. -/
theorem Mark.covers_since
    {mark : Mark}
    (addressable : mark.IsAddressable)
    (offset place : Nat) :
    (mark.since offset).Covers place ↔ mark.Covers (offset + place) := by
  have isOffset : (mark.since offset).offset = mark.offset - offset := rfl
  have inRange : mark.finish - offset < Offset.count :=
    Nat.lt_of_le_of_lt (Nat.sub_le ..) addressable
  have inOrder : mark.offset - offset ≤ mark.finish - offset :=
    Nat.sub_le_sub_right (Nat.le_add_right ..) offset
  have isLength :
      (mark.since offset).length = mark.finish - offset - (mark.offset - offset) := by
    rw [Mark.since, addressable.finishOffset_eq]
    exact Offset.sub_of_le inRange inOrder
  simp only [Mark.finish] at isLength
  simp only [Mark.Covers, Mark.finish, isOffset, isLength]
  omega

theorem Word.finish_shiftBy (offset : Nat) (word : Word) :
    (word.shiftBy offset).finish = word.finish + offset :=
  Nat.add_right_comm ..

/-- A mark covers of a word further on what it covers, measured from there, of the word. -/
theorem Word.clip?_shiftBy
    {word : Word}
    (nonempty : 0 < word.size)
    (offset : Nat)
    (mark : Mark) :
    (word.shiftBy offset).clip? mark.offset mark.length =
      word.clip? (mark.since offset).offset (mark.since offset).length := by
  have isFinish : word.finish = word.offset + word.size := rfl
  have isOffset : (word.shiftBy offset).offset = word.offset + offset := rfl
  have isStart : (mark.since offset).offset = mark.offset - offset := rfl
  have isStop :
      Offset.add (mark.offset - offset) (mark.since offset).length =
        Offset.add mark.offset mark.length - offset :=
    mark.finishOffset_since offset
  simp only [clip?, clipTo?, finish_shiftBy, isOffset, isStart, isStop]
  by_cases reaches :
      mark.offset < word.finish + offset ∧
        word.offset + offset < Offset.add mark.offset mark.length
  · have reachesToo :
        mark.offset - offset < word.finish ∧
          word.offset < Offset.add mark.offset mark.length - offset := by omega
    have first :
        max mark.offset (word.offset + offset) =
          max (mark.offset - offset) word.offset + offset := by omega
    have last :
        min (Offset.add mark.offset mark.length) (word.finish + offset) =
          min (Offset.add mark.offset mark.length - offset) word.finish + offset := by omega
    rw [if_pos reaches, if_pos reachesToo, first, last, Offset.sub_add_right,
      Nat.add_sub_add_right]
  · have missesToo :
        ¬ (mark.offset - offset < word.finish ∧
          word.offset < Offset.add mark.offset mark.length - offset) := by omega
    rw [if_neg reaches, if_neg missesToo]

/-! ## Entries that put in one element -/

namespace Entry

/-- Whether an entry is neither text nor a return to the base level. -/
def isInline : Entry → Bool
  | .text _ => false
  | .resetBidi => false
  | _ => true

/-- The element that an inline entry puts in; an image that is missing puts in none. -/
def ownElement? (image? : String → Option ImageData) : Entry → Option Element
  | .text _ => none
  | .style found => some (.style found)
  | .fixedSpace width => some (.fixedSpace width)
  | .control kind isStart => some (.control ⟨kind, isStart, none⟩)
  | .link kind target => some (.control ⟨kind, true, some target⟩)
  | .image id => (image? id).map (.image id)
  | .resetBidi => none

/-- Marks show on no element that an inline entry puts in. -/
theorem map_marked_ownElement?
    (image? : String → Option ImageData)
    (marks : Marks)
    (entry : Entry) :
    (entry.ownElement? image?).toList.map (Composition.marked marks) =
      (entry.ownElement? image?).toList := by
  cases entry with
  | image id => cases found : image? id <;> simp [ownElement?, found, Composition.marked]
  | _ => rfl

end Entry

namespace Composition

/-- An inline entry carries on what was carried to it. -/
theorem composeEntry_of_isInline
    (rules : TextRules)
    (image? : String → Option ImageData)
    (base : Bidi.Level)
    (carry : Carry)
    {entry : Entry}
    (isInline : entry.isInline = true) :
    composeEntry rules image? base carry entry = ((entry.ownElement? image?).toList, carry) := by
  cases entry with
  | text run => exact absurd isInline Bool.false_ne_true
  | image id => cases found : image? id <;> simp [composeEntry, Entry.ownElement?, found]
  | resetBidi => exact absurd isInline Bool.false_ne_true
  | _ => rfl

/-! ## Marks on elements further on -/

theorem marked_shiftBy
    {element : Element}
    (nonempty : ∀ word, element = .word word → 0 < word.size)
    (offset : Nat)
    (marks : Marks) :
    marked marks (element.shiftBy offset) =
      (marked (marks.map (Mark.since offset)) element).shiftBy offset := by
  cases element with
  | word word =>
      have sameSpans :
          spansOf marks (word.shiftBy offset) =
            spansOf (marks.map (Mark.since offset)) word := by
        rw [spansOf, spansOf, List.filterMap_map]
        congr 1
        funext mark
        exact Word.clip?_shiftBy (nonempty word rfl) offset mark
      rw [Element.shiftBy, marked, sameSpans]
      rfl
  | _ => rfl

theorem isLevelMarker_marked (marks : Marks) (element : Element) :
    (marked marks element).isLevelMarker = element.isLevelMarker := by
  cases element <;> rfl

/-- No word that is composed is empty. -/
theorem size_pos_of_mem_composeEntries
    {rules : TextRules}
    {image? : String → Option ImageData}
    {base : Bidi.Level}
    {carry : Carry}
    {entries : List Entry}
    {word : Word}
    (member : .word word ∈ composeEntries rules image? base carry entries) :
    0 < word.size := by
  have isShown := List.mem_filter.2 ⟨member, Element.isTextual_word word⟩
  obtain ⟨-, -, -, -, nonempty⟩ :=
    (runsTiled_composeEntries rules image? base carry entries).exists_place
      (mem_filterMap_word?_iff.2 isShown)
  rw [Word.size, ← Utf8.size_toList]
  exact Utf8.size_pos nonempty

/-! ## Filling with other entries -/

section

variable
    (rules : TextRules)
    (language : Language)
    (pool : Pool)
    {document : Document}
    {index : Nat}
    {paragraph : Paragraph}
    (found : document.paragraph? index = some paragraph)
    (hasText : paragraph.kind = .text ∨ paragraph.kind = .tree)

include found hasText

theorem fst_fill_eq :
    (fill rules document language index pool).1 =
      (composeEntries rules document.image? language.baseLevel ⟨language.baseLevel, 0⟩
        paragraph.entries).map (marked (Marks.ofParagraph document.marks index)) := by
  rw [fst_fill, ofDocument_eq rules language found hasText]

theorem fst_fill_setEntries (entries : List Entry) :
    (fill rules (document.setEntries index entries) language index pool).1 =
      (composeEntries rules document.image? language.baseLevel ⟨language.baseLevel, 0⟩
        entries).map (marked (Marks.ofParagraph document.marks index)) :=
  fst_fill_eq rules language pool (Document.paragraph?_setEntries found entries) hasText

/-- An entry alone, with marks measured from an offset on, and then moved on to that offset. -/
theorem withoutLevels_fill_alone (entry : Entry) (offset : Nat) :
    (withoutLevels
        (fill rules ((document.setEntries index [entry]).marksSince offset) language index
          pool).1).map (Element.shiftBy offset) =
      ((withoutLevels
          (composeEntry rules document.image? language.baseLevel ⟨language.baseLevel, 0⟩
            entry).1).map (Element.shiftBy offset)).map
        (marked (Marks.ofParagraph document.marks index)) := by
  have foundAlone :
      ((document.setEntries index [entry]).marksSince offset).paragraph? index =
        some { paragraph with entries := [entry] } :=
    Document.paragraph?_setEntries found [entry]
  have sameMarks :
      Marks.ofParagraph ((document.setEntries index [entry]).marksSince offset).marks index =
        (Marks.ofParagraph document.marks index).map (Mark.since offset) :=
    Marks.ofParagraph_map_since document.marks offset index
  have alone :
      withoutLevels
          (composeEntries rules document.image? language.baseLevel ⟨language.baseLevel, 0⟩
            [entry]) =
        withoutLevels
          (composeEntry rules document.image? language.baseLevel ⟨language.baseLevel, 0⟩
            entry).1 := by
    rw [composeEntries_cons, withoutLevels_append, composeEntries, withoutLevels_levelShift,
      List.append_nil]
  rw [fst_fill_eq rules language pool foundAlone hasText, sameMarks,
    withoutLevels_map (isLevelMarker_marked _), List.map_map, List.map_map]
  change (withoutLevels (composeEntries rules document.image? _ _ [entry])).map _ = _
  rw [← alone]
  apply List.map_congr_left
  intro element member
  refine (marked_shiftBy ?_ offset _).symm
  rintro word rfl
  exact size_pos_of_mem_composeEntries (List.mem_of_mem_filter member)

end

/--
Level markers aside, a paragraph is what its entries are alone, one after the other, with the
words of each and the marks moved on by the text before it; so returns to the base level change
nothing else.  Among all its elements, an entry that is neither text nor such a return puts its
own element in after those of the entries before it, and changes nothing more.
-/
theorem entries_compose_independently
    (rules : TextRules)
    (document : Document)
    (language : Language)
    (index : Nat)
    (pools : Document → Pool)
    (paragraph : Paragraph)
    (found : document.paragraph? index = some paragraph)
    (hasText : paragraph.kind = .text ∨ paragraph.kind = .tree) :
    let filled (document : Document) := (fill rules document language index (pools document)).1
    let sizeBefore (place : Nat) :=
      Paragraph.textSize { paragraph with entries := paragraph.entries.take place }
    withoutLevels (filled document) =
        (paragraph.entries.mapIdx fun place entry =>
          (withoutLevels
            (filled ((document.setEntries index [entry]).marksSince (sizeBefore place)))).map
              (Element.shiftBy (sizeBefore place))).flatten ∧
      withoutLevels
          (filled (document.setEntries index (paragraph.entries.filter (· ≠ .resetBidi)))) =
        withoutLevels (filled document) ∧
      ∀ before,
        ∃ front,
          (∃ back,
            filled (document.setEntries index before) = front ++ back ∧
              ∀ element ∈ back, element.isLevelMarker = true) ∧
            ∀ after,
              ∃ behind,
                filled (document.setEntries index (before ++ after)) = front ++ behind ∧
                  ∀ entry : Entry,
                    entry.isInline = true →
                      filled (document.setEntries index (before ++ entry :: after)) =
                        front ++ (entry.ownElement? document.image?).toList ++ behind := by
  intro filled sizeBefore
  let base := language.baseLevel
  let marks := Marks.ofParagraph document.marks index
  have isFilled :
      filled document =
        (composeEntries rules document.image? base ⟨base, 0⟩ paragraph.entries).map
          (marked marks) :=
    fst_fill_eq rules language _ found hasText
  have isFilledWith (entries : List Entry) :
      filled (document.setEntries index entries) =
        (composeEntries rules document.image? base ⟨base, 0⟩ entries).map (marked marks) :=
    fst_fill_setEntries rules language _ found hasText entries
  refine ⟨?_, ?_, fun before => ?_⟩
  · rw [isFilled, withoutLevels_map (isLevelMarker_marked _), withoutLevels_composeEntries,
      List.map_flatten]
    simp only [List.mapIdx_eq_zipIdx_map, List.map_map]
    congr 1
    apply List.map_congr_left
    rintro ⟨entry, place⟩ -
    have sameOffset : 0 + textSize (paragraph.entries.take place) = sizeBefore place :=
      Nat.zero_add _
    simp only [Function.comp_apply, sameOffset]
    exact (withoutLevels_fill_alone rules language _ found hasText entry (sizeBefore place)).symm
  · rw [isFilled, isFilledWith, withoutLevels_map (isLevelMarker_marked _),
      withoutLevels_map (isLevelMarker_marked _),
      withoutLevels_composeEntries_of_resets rules base document.image? rfl]
  · let passed := passEntries rules base document.image? ⟨base, 0⟩ before
    refine ⟨passed.1.map (marked marks), ⟨levelShift passed.2.level base, ?_, ?_⟩,
      fun after => ?_⟩
    · rw [isFilledWith, composeEntries_eq, List.map_append, map_levelShift fun _ => rfl]
    · exact fun element => isLevelMarker_of_mem_levelShift
    · refine ⟨(composeEntries rules document.image? base passed.2 after).map (marked marks), ?_,
        fun entry isInline => ?_⟩
      · rw [isFilledWith, composeEntries_append, List.map_append]
      · rw [isFilledWith, composeEntries_append, List.map_append, composeEntries_cons,
          composeEntry_of_isInline rules document.image? base _ isInline, List.map_append,
          Entry.map_marked_ownElement?, List.append_assoc]

/-- A mark over two runs of different directions, with a return to the base level between. -/
theorem entries_compose_independently_of_direction :
    let entries : List Entry := [.text "one", .resetBidi, .text "\u05d0\u05d1"]
    let document := (Document.plain [⟨.text, entries⟩]).setMarks [⟨0, 2, 3⟩]
    let filled (document : Document) :=
      (fill (.standard .normal) document .undetermined 0 (.empty 4)).1
    (document.paragraph? 0 = some ⟨.text, entries⟩ ∧
        (ParagraphKind.text = .text ∨ ParagraphKind.text = .tree)) ∧
      withoutLevels (filled (document.setEntries 0 [.text "one", .text "\u05d0\u05d1"])) =
        withoutLevels (filled document) ∧
      ∃ front behind,
        filled (document.setEntries 0 [.text "one", .text "\u05d0\u05d1"]) = front ++ behind ∧
          filled (document.setEntries 0 [.text "one", .fixedSpace 2, .text "\u05d0\u05d1"]) =
            front ++ [.fixedSpace 2] ++ behind ∧
          filled (document.setEntries 0 [.text "one", .image "none", .text "\u05d0\u05d1"]) =
            front ++ behind := by
  intro entries document filled
  have found : document.paragraph? 0 = some ⟨.text, entries⟩ := rfl
  obtain ⟨-, resets, inserts⟩ :=
    entries_compose_independently (.standard .normal) document .undetermined 0
      (fun _ => .empty 4) _ found (Or.inl rfl)
  obtain ⟨front, -, ofAfter⟩ := inserts [.text "one"]
  obtain ⟨behind, without, insertsInline⟩ := ofAfter [.text "\u05d0\u05d1"]
  have withImage := insertsInline (.image "none") rfl
  rw [show (Entry.image "none").ownElement? document.image? = none from rfl, Option.toList_none,
    List.append_nil] at withImage
  exact ⟨⟨found, Or.inl rfl⟩, resets, front, behind, without, insertsInline (.fixedSpace 2) rfl,
    withImage⟩

end Composition

end Folio
