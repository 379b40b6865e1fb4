import Mathlib.Data.Set.Basic
import Folio.Proofs.Composition.Highlight
import Folio.Proofs.Document.GreedySearch
import Folio.Proofs.Session.History
import Folio.Proofs.Text.Boundaries

/-!
# Hits show in the words of their paragraph

After a search the words of a paragraph can be drawn one span after the other: no span is
empty, none overlaps another, and each one starts and ends between two characters.  All spans
together cover what the hits cover of the paragraph, but for the spacing between the words,
however the hits are cut by the ends of words.
-/

namespace Folio

/-! ## Spans that can be drawn -/

/-- The spans of a word can be drawn one after the other, on whole characters. -/
structure Word.IsDrawable (word : Word) : Prop where
  length_pos : ∀ span ∈ word.marks, 0 < span.length
  apart :
    word.marks.Pairwise fun earlier later =>
      earlier.start < later.start ∧ earlier.start + earlier.length ≤ later.start
  isBoundary :
    ∀ span ∈ word.marks,
      Utf8.IsBoundary word.text.toList span.start ∧
        Utf8.IsBoundary word.text.toList (span.start + span.length)

/-- Whether there is an offset for each place in the text of a paragraph, and for its end. -/
def Paragraph.IsAddressable (paragraph : Paragraph) : Prop :=
  paragraph.plainText.utf8ByteSize < Offset.count

instance (paragraph : Paragraph) : Decidable paragraph.IsAddressable :=
  inferInstanceAs (Decidable (_ < _))

/-- The bytes of a paragraph that its words show highlighted. -/
def Composition.highlighted (elements : List Element) : Set Nat :=
  { place |
    ∃ word, .word word ∈ elements ∧
      ∃ span ∈ word.marks, ∃ inWord, span.Covers inWord ∧ place = word.offset + inWord }

/-- The bytes of a paragraph that marks cover. -/
def Marks.covered (marks : Marks) (paragraph : Nat) : Set Nat :=
  { place | ∃ mark ∈ marks, mark.paragraph = paragraph ∧ mark.Covers place }

/-- The bytes of the characters of a text that stand between words. -/
def Utf8.spacing (text : List Char) : Set Nat :=
  { place | ∃ c, Utf8.charAt? text place = some c ∧ isSpacing c = true }

namespace Word

variable
    {word : Word}
    {mark : Mark}

theorem Meets.finish_spanOf
    (meets : word.Meets mark)
    (nonempty : 0 < word.size)
    (positive : 0 < mark.length) :
    (word.spanOf mark).start + (word.spanOf mark).length =
      min mark.finish word.finish - word.offset := by
  rcases meets with ⟨startsBefore, endsAfter⟩
  simp only [spanOf, finish, Mark.finish] at startsBefore endsAfter ⊢
  omega

theorem Meets.length_spanOf_pos
    (meets : word.Meets mark)
    (nonempty : 0 < word.size)
    (positive : 0 < mark.length) :
    0 < (word.spanOf mark).length := by
  rcases meets with ⟨startsBefore, endsAfter⟩
  simp only [spanOf, finish, Mark.finish] at startsBefore endsAfter ⊢
  omega

/-- Where one mark ends before another starts, so do their spans. -/
theorem Meets.spanOf_apart
    {later : Mark}
    (meets : word.Meets mark)
    (nonempty : 0 < word.size)
    (positive : 0 < mark.length)
    (inOrder : mark.finish ≤ later.offset) :
    (word.spanOf mark).start < (word.spanOf later).start ∧
      (word.spanOf mark).start + (word.spanOf mark).length ≤ (word.spanOf later).start := by
  have ends := meets.finish_spanOf nonempty positive
  have someBytes := meets.length_spanOf_pos nonempty positive
  have startsLater : (word.spanOf later).start = max later.offset word.offset - word.offset := rfl
  omega

/-- The ends of a span are ends of the mark or of the word, so they part no character. -/
theorem Meets.isBoundary_spanOf
    {before after : List Char}
    (meets : word.Meets mark)
    (nonempty : 0 < word.size)
    (positive : 0 < mark.length)
    (isOffset : word.offset = Utf8.size before)
    (starts : Utf8.IsBoundary (before ++ word.text.toList ++ after) mark.offset)
    (ends : Utf8.IsBoundary (before ++ word.text.toList ++ after) mark.finish) :
    Utf8.IsBoundary word.text.toList (word.spanOf mark).start ∧
      Utf8.IsBoundary word.text.toList
        ((word.spanOf mark).start + (word.spanOf mark).length) := by
  have isSize : Utf8.size word.text.toList = word.size := Utf8.size_toList word.text
  have isFinish : word.finish = Utf8.size before + word.size := by
    rw [finish, isOffset]
  obtain ⟨startsBefore, endsAfter⟩ := meets
  constructor
  · rw [spanOf, isOffset]
    rcases Nat.le_total mark.offset (Utf8.size before) with startsEarlier | startsInside
    · rw [Nat.max_eq_right startsEarlier, Nat.sub_self]
      exact Utf8.isBoundary_zero _
    · rw [Nat.max_eq_left startsInside]
      exact starts.inside startsInside (by omega)
  · rw [Meets.finish_spanOf ⟨startsBefore, endsAfter⟩ nonempty positive, isOffset, isFinish]
    rcases Nat.le_total mark.finish (Utf8.size before + word.size) with endsInside | endsLater
    · rw [Nat.min_eq_left endsInside]
      exact ends.inside (by omega) (by omega)
    · rw [Nat.min_eq_right endsLater, Nat.add_sub_cancel_left, ← isSize]
      exact Utf8.isBoundary_size _

end Word

/-! ## Where the hits are -/

namespace Search

/-- A run stands in the text of its paragraph at its offset. -/
theorem exists_place_of_mem_placedRuns
    {paragraphs : List Paragraph}
    {run : PlacedRun}
    (member : run ∈ placedRuns paragraphs) :
    ∃ paragraph before after,
      paragraphs[run.paragraph]? = some paragraph ∧
        paragraph.plainText.toList = before ++ run.text ++ after ∧
        run.offset = Utf8.size before := by
  obtain ⟨runs, isOfParagraph, inRuns⟩ := List.mem_flatten.1 member
  obtain ⟨index, inRange, rfl⟩ := List.mem_mapIdx.1 isOfParagraph
  obtain ⟨number, isRun, rfl⟩ := List.mem_mapIdx.1 inRuns
  have sizeOfRuns :
      ∀ runs : List String,
        Utf8.size (runs.flatMap String.toList) = (runs.map String.utf8ByteSize).sum := by
    intro runs
    induction runs with
    | nil => rfl
    | cons run rest sizeOfRest => simp [sizeOfRest]
  refine ⟨paragraphs[index], (paragraphs[index].runs.take number).flatMap String.toList,
    (paragraphs[index].runs.drop (number + 1)).flatMap String.toList,
    List.getElem?_eq_getElem inRange, ?_, ?_⟩
  · rw [Composition.toList_plainText]
    have split := List.take_append_drop number paragraphs[index].runs
    rw [List.drop_eq_getElem_cons isRun] at split
    have text := congrArg (List.flatMap String.toList) split
    rw [List.flatMap_append, List.flatMap_cons, ← List.append_assoc] at text
    exact text.symm
  · rw [sizeOfRuns, Nat.zero_add]

/-- Hits start and end between the characters of their paragraph. -/
theorem isBoundary_of_mem_marks
    {mode : CaseMode}
    {pattern : String}
    {paragraphs : List Paragraph}
    {mark : Mark}
    (member : mark ∈ marks mode pattern paragraphs)
    {paragraph : Paragraph}
    (isParagraph : paragraphs[mark.paragraph]? = some paragraph) :
    Utf8.IsBoundary paragraph.plainText.toList mark.offset ∧
      Utf8.IsBoundary paragraph.plainText.toList mark.finish := by
  by_cases isEmpty : pattern = ""
  · subst isEmpty
    exact absurd member List.not_mem_nil
  · obtain ⟨run, isRun, place, -, rfl⟩ :=
      (collects_marks mode isEmpty paragraphs).exists_of_mem member
    obtain ⟨other, before, after, isOther, text, offset⟩ := exists_place_of_mem_placedRuns isRun
    obtain rfl := Option.some.inj (isOther.symm.trans isParagraph)
    have inRun : ∀ place, Utf8.IsBoundary run.text (Utf8.size (run.text.take place)) :=
      fun place => ⟨_, _, (List.take_append_drop place run.text).symm, rfl⟩
    rw [text, run.finish_markAt]
    simp only [PlacedRun.markAt, PlacedRun.offsetOf, offset]
    exact ⟨(inRun _).within before after, (inRun _).within before after⟩

end Search

namespace Composition

/-! ## Words cover all but the spacing -/

/-- Each byte of a run that is not of a spacing character lies in a word. -/
theorem exists_word_of_tiling
    {shift : Nat}
    {before rest : List Char}
    {elements : List Element}
    (tiling : Tiling (Spells shift) before rest elements)
    {place : Nat}
    {c : Char}
    (found : Utf8.charAt? rest place = some c)
    (isLetter : isSpacing c = false) :
    ∃ word, .word word ∈ elements ∧
      word.offset ≤ shift + Utf8.size before + place ∧
        shift + Utf8.size before + place < word.finish := by
  induction tiling generalizing place with
  | done before => cases found
  | @next before inside after element elements shown tail ofTail =>
      rcases Nat.lt_or_ge place (Utf8.size inside) with inHead | beyond
      · have inInside : c ∈ inside := by
          rw [Utf8.charAt?_append_of_lt after inHead] at found
          exact Utf8.mem_of_charAt? found
        cases shown with
        | @word word nonempty letters text size length offset =>
            exact ⟨word, List.mem_cons_self, by omega, by rw [Word.finish]; omega⟩
        | space isSpace nonempty spacing opens closes =>
            exact absurd (spacing c inInside) (by simp [isLetter])
      · obtain ⟨later, rfl⟩ := Nat.exists_eq_add_of_le beyond
        rw [Utf8.charAt?_append_size_add] at found
        obtain ⟨word, member, starts, ends⟩ := ofTail found
        rw [Utf8.size_append] at starts ends
        exact ⟨word, List.mem_cons_of_mem element member, by omega, by omega⟩

theorem RunsTiled.exists_word
    {shift : Nat}
    {runs : List String}
    {elements : List Element}
    (tiled : RunsTiled shift runs elements)
    {place : Nat}
    {c : Char}
    (found : Utf8.charAt? (runs.flatMap String.toList) place = some c)
    (isLetter : isSpacing c = false) :
    ∃ word, .word word ∈ elements ∧
      word.offset ≤ shift + place ∧ shift + place < word.finish := by
  induction tiled generalizing place with
  | done shift => cases found
  | @run shift run runs here later head tail ofTail =>
      rw [List.flatMap_cons] at found
      rcases Nat.lt_or_ge place (Utf8.size run.toList) with inHead | beyond
      · rw [Utf8.charAt?_append_of_lt _ inHead] at found
        obtain ⟨word, member, starts, ends⟩ := exists_word_of_tiling head found isLetter
        exact ⟨word, List.mem_append_left later member, starts, ends⟩
      · obtain ⟨beyond, rfl⟩ := Nat.exists_eq_add_of_le beyond
        rw [Utf8.charAt?_append_size_add] at found
        obtain ⟨word, member, starts, ends⟩ := ofTail found
        rw [Utf8.size_toList]
        exact ⟨word, List.mem_append_right here member, by omega, by omega⟩

/-- No word of tiled runs has a spacing character. -/
theorem RunsTiled.isSpacing_eq_false
    {shift : Nat}
    {runs : List String}
    {elements : List Element}
    (tiled : RunsTiled shift runs elements)
    {word : Word}
    (member : .word word ∈ elements) :
    ∀ c ∈ word.text.toList, isSpacing c = false := by
  induction tiled with
  | done shift => exact absurd member List.not_mem_nil
  | @run shift run runs here later head tail ofTail =>
      rcases List.mem_append.1 member with inHere | inLater
      · obtain ⟨front, inside, behind, -, shown⟩ := head.exists_stretch inHere
        cases shown with
        | word nonempty letters text => exact text ▸ letters
      · exact ofTail inLater

/-! ## A paragraph after a search -/

section

variable
    (rules : TextRules)
    {document : Document}
    (language : Language)
    {index : Nat}
    (pool : Pool)
    {paragraph : Paragraph}
    (found : document.paragraph? index = some paragraph)
    (hasText : paragraph.kind = .text ∨ paragraph.kind = .tree)

include found hasText

/-- Each word of a filled paragraph stands in the text of the paragraph at its offset. -/
theorem exists_place_of_mem_fill
    {word : Word}
    (member : .word word ∈ (fill rules document language index pool).1) :
    ∃ before after,
      paragraph.plainText.toList = before ++ word.text.toList ++ after ∧
        word.offset = Utf8.size before ∧
        0 < word.size ∧
        ∀ c ∈ word.text.toList, isSpacing c = false := by
  have tiled := runsTiled_fill rules language pool found hasText
  have isTextual : .word word ∈
      (fill rules document language index pool).1.filter Element.isTextual :=
    List.mem_filter.2 ⟨member, rfl⟩
  obtain ⟨before, after, split, offset, nonempty⟩ :=
    tiled.exists_place (mem_filterMap_word?_iff.2 isTextual)
  refine ⟨before, after, (toList_plainText paragraph).trans split, by simpa using offset, ?_,
    tiled.isSpacing_eq_false isTextual⟩
  rw [Word.size, ← Utf8.size_toList]
  exact Utf8.size_pos nonempty

/-- A byte of the text that is not of a spacing character lies in a word. -/
theorem exists_word_of_charAt?
    {place : Nat}
    {c : Char}
    (isChar : Utf8.charAt? paragraph.plainText.toList place = some c)
    (isLetter : isSpacing c = false) :
    ∃ word, .word word ∈ (fill rules document language index pool).1 ∧
      word.offset ≤ place ∧ place < word.finish := by
  rw [toList_plainText] at isChar
  obtain ⟨word, isTextual, starts, ends⟩ :=
    (runsTiled_fill rules language pool found hasText).exists_word isChar isLetter
  exact ⟨word, (List.mem_filter.1 isTextual).1, by omega, by omega⟩

variable
    {mode : CaseMode}
    {pattern : String}
    (areHits : document.marks = Search.marks mode pattern document.paragraphs.toList)

include areHits

omit hasText in
theorem isBoundary_of_hit
    {hit : Mark}
    (isHit : hit ∈ document.marks)
    (ofIndex : hit.paragraph = index) :
    Utf8.IsBoundary paragraph.plainText.toList hit.offset ∧
      Utf8.IsBoundary paragraph.plainText.toList hit.finish := by
  refine Search.isBoundary_of_mem_marks (areHits ▸ isHit) ?_
  rw [ofIndex, Array.getElem?_toList]
  exact found

variable (addressable : paragraph.IsAddressable)

include addressable

omit hasText in
theorem isAddressable_of_hit (word : Word) :
    ∀ hit ∈ document.marks.filter fun mark => mark.paragraph == index,
      word.Meets hit → hit.IsAddressable := by
  intro hit member _
  obtain ⟨isHit, ofIndex⟩ := List.mem_filter.1 member
  have endsInText := (isBoundary_of_hit found areHits isHit (beq_iff_eq.1 ofIndex)).2.le_size
  rw [Utf8.size_toList] at endsInText
  exact Nat.lt_of_le_of_lt endsInText addressable

omit hasText in
theorem mem_marks_iff
    {word : Word}
    (member : .word word ∈ (fill rules document language index pool).1)
    (span : MarkSpan) :
    span ∈ word.marks ↔
      ∃ hit ∈ document.marks, hit.paragraph = index ∧ word.Meets hit ∧ word.spanOf hit = span := by
  have ordered : document.marks.IsOrdered :=
    areHits ▸ Search.isOrdered_marks mode pattern document.paragraphs.toList
  rw [marks_of_mem_fill rules ordered language index pool member,
    spansOf_eq (isAddressable_of_hit found areHits addressable word)]
  simp only [List.mem_map, List.mem_filter, decide_eq_true_eq, beq_iff_eq, and_assoc]

theorem isDrawable_of_mem_fill
    {word : Word}
    (member : .word word ∈ (fill rules document language index pool).1) :
    word.IsDrawable := by
  have positive : ∀ hit ∈ document.marks, 0 < hit.length :=
    areHits ▸ Search.length_pos_of_mem_marks mode pattern _
  obtain ⟨before, after, text, offset, nonempty, -⟩ :=
    exists_place_of_mem_fill rules language pool found hasText member
  refine ⟨?_, ?_, ?_⟩
  · intro span isSpan
    obtain ⟨hit, isHit, -, meets, rfl⟩ :=
      (mem_marks_iff rules language pool found areHits addressable member span).1 isSpan
    exact meets.length_spanOf_pos nonempty (positive hit isHit)
  · have ordered : document.marks.IsOrdered :=
      areHits ▸ Search.isOrdered_marks mode pattern document.paragraphs.toList
    have apart : document.marks.Pairwise Search.Precedes :=
      areHits ▸ Search.pairwise_precedes_marks mode pattern document.paragraphs.toList
    rw [marks_of_mem_fill rules ordered language index pool member,
      spansOf_eq (isAddressable_of_hit found areHits addressable word)]
    refine List.pairwise_map.2 (((apart.filter _).filter _).imp_of_mem ?_)
    intro earlier later isEarlier isLater precedes
    simp only [List.mem_filter, decide_eq_true_eq, beq_iff_eq] at isEarlier isLater
    obtain ⟨⟨isHit, ofIndex⟩, meets⟩ := isEarlier
    have inOrder : earlier.finish ≤ later.offset := by
      rcases precedes with otherParagraph | ⟨-, inOrder⟩
      · omega
      · exact inOrder
    exact meets.spanOf_apart nonempty (positive earlier isHit) inOrder
  · intro span isSpan
    obtain ⟨hit, isHit, ofIndex, meets, rfl⟩ :=
      (mem_marks_iff rules language pool found areHits addressable member span).1 isSpan
    obtain ⟨starts, ends⟩ := isBoundary_of_hit found areHits isHit ofIndex
    rw [text] at starts ends
    exact meets.isBoundary_spanOf nonempty (positive hit isHit) offset starts ends

/-- What the words show highlighted is what the hits cover, but for the spacing. -/
theorem highlighted_fill :
    highlighted (fill rules document language index pool).1 =
      document.marks.covered index \ Utf8.spacing paragraph.plainText.toList := by
  ext place
  constructor
  · rintro ⟨word, member, span, isSpan, inWord, covers, rfl⟩
    obtain ⟨hit, isHit, ofIndex, meets, rfl⟩ :=
      (mem_marks_iff rules language pool found areHits addressable member span).1 isSpan
    obtain ⟨before, after, text, offset, -, letters⟩ :=
      exists_place_of_mem_fill rules language pool found hasText member
    have inRange : inWord < word.size := Nat.lt_of_lt_of_le covers.2 meets.span_le_size
    refine ⟨⟨hit, isHit, ofIndex, ((Word.meets_and_covers_iff inRange).1 ⟨meets, covers⟩)⟩, ?_⟩
    rintro ⟨c, isChar, spacing⟩
    rw [text, offset, Utf8.charAt?_inside before after (by rwa [Utf8.size_toList])] at isChar
    exact absurd spacing (by simp [letters c (Utf8.mem_of_charAt? isChar)])
  · rintro ⟨⟨hit, isHit, ofIndex, covers⟩, notSpacing⟩
    have endsInText := (isBoundary_of_hit found areHits isHit ofIndex).2.le_size
    obtain ⟨c, isChar⟩ := Utf8.exists_charAt? (Nat.lt_of_lt_of_le covers.2 endsInText)
    have isLetter : isSpacing c = false := by
      by_contra spacing
      exact notSpacing ⟨c, isChar, by simpa using spacing⟩
    obtain ⟨word, member, starts, ends⟩ :=
      exists_word_of_charAt? rules language pool found hasText isChar isLetter
    obtain ⟨inWord, rfl⟩ := Nat.exists_eq_add_of_le starts
    have inRange : inWord < word.size := by
      rw [Word.finish] at ends
      omega
    obtain ⟨meets, spanCovers⟩ := (Word.meets_and_covers_iff inRange).2 covers
    exact ⟨word, member, word.spanOf hit,
      (mem_marks_iff rules language pool found areHits addressable member _).2
        ⟨hit, isHit, ofIndex, meets, rfl⟩,
      inWord, spanCovers, rfl⟩

end

end Composition

/-! ## Building after a search -/

namespace Workspace

/-- A search replaces the marks of a document that there is, and changes nothing else of it. -/
theorem document_apply_search
    {workspace : Workspace}
    {number index : Nat}
    {paragraph : Paragraph}
    (found : (workspace.document number).paragraph? index = some paragraph)
    (mode : CaseMode)
    (pattern : String) :
    (workspace.apply (.command number (.search pattern mode))).document number =
      (workspace.document number).search mode pattern := by
  have isDocument : number < workspace.documents.size := by
    by_contra missing
    have isDefault : workspace.document number = default := by
      simp [document, Array.getD, missing]
    rw [isDefault] at found
    exact absurd found (by simp [Document.paragraph?, default, Document.plain])
  rw [apply, document_setDocument, if_pos ⟨rfl, isDocument⟩]
  rfl

/--
After a search, and as long as nothing but open paragraphs changes in its document, the words
of a paragraph with text that is built or built anew can be drawn one span after the other.
What they show highlighted is what the hits of the search cover of the paragraph, but for its
spacing.  This holds in whatever language the paragraph is built, under any rules of word
breaks, and whatever else is done in between.  There is an offset for each place in the text of
the paragraph, as there is in any text that can be held.
-/
theorem hits_show_in_words
    (rules : Language → WordBreak → TextRules)
    (option : WordBreak)
    (workspace : Workspace)
    (number : Nat)
    (mode : CaseMode)
    (pattern : String)
    {later : Workspace}
    (reached : later.Reached rules option)
    (sameContents :
      (later.document number).SameContents
        ((workspace.apply (.command number (.search pattern mode))).document number))
    (language : Language)
    {index : Nat}
    {paragraph : Paragraph}
    (found : (workspace.document number).paragraph? index = some paragraph)
    (addressable : paragraph.IsAddressable)
    (hasText : paragraph.kind = .text ∨ paragraph.kind = .tree) :
    ∃ (hits : Marks) (built : List Element),
      (Session.runDocument (workspace.document number) (.search pattern mode)).2 = .hits hits ∧
        (∀ id stale,
          later.paragraph? id = some ⟨⟨number, index, language⟩, stale⟩ →
            (later.rebuild id).elements id = built) ∧
        (∃ id after,
          later.cursor number language index = (some id, after) ∧
            (later.isAlive id = false → after.elements id = built)) ∧
        (∀ word, .word word ∈ built → word.IsDrawable) ∧
        Composition.highlighted built =
          hits.covered index \ Utf8.spacing paragraph.plainText.toList := by
  rw [document_apply_search found] at sameContents
  have isSetUp := reached.isSetUp
  have areHits :
      (later.document number).marks =
        Search.marks mode pattern (later.document number).paragraphs.toList := by
    rw [sameContents.marks, sameContents.paragraphs]
    rfl
  have stillFound : (later.document number).paragraph? index = some paragraph := by
    rw [Document.paragraph?, sameContents.paragraphs]
    exact found
  have inRange : index < (later.document number).size := by
    obtain ⟨inParagraphs, -⟩ := Array.getElem?_eq_some_iff.1 stillFound
    exact inParagraphs
  -- Any pool would do, since what it hands out does not show in what is built.
  have built :
      (Composition.fill (rules language option) (later.document number) language index
          later.pool).1 =
        Composition.shown (rules language option) (later.document number) language index :=
    Composition.fst_fill ..
  refine ⟨(later.document number).marks, _, by rw [sameContents.marks]; rfl, ?_,
    isSetUp.elements_cursor inRange, ?_, ?_⟩
  · intro id stale isAlive
    exact isSetUp.elements_rebuild isAlive
  · intro word member
    exact Composition.isDrawable_of_mem_fill _ language later.pool stillFound hasText areHits
      addressable (built ▸ member)
  · exact built ▸
      Composition.highlighted_fill _ language later.pool stillFound hasText areHits addressable

/-- A hit in other letters that is cut after a hyphen and has a space in it. -/
theorem hits_show_in_words_on_both_sides :
    let document : Document := .plain [⟨.text, [.text "re-read it"]⟩]
    let workspace := (create ⟨.normal, 4⟩ [document]).after [.cursor 0 .undetermined 0]
    let later := workspace.apply (.command 0 (.search "E-READ I" .ignore))
    let built := (later.rebuild 0).elements 0
    (workspace.document 0).paragraph? 0 = some ⟨.text, [.text "re-read it"]⟩ ∧
      (∀ word, .word word ∈ built → word.IsDrawable) ∧
      Composition.highlighted built =
        Marks.covered [⟨0, 1, 8⟩] 0 \ Utf8.spacing "re-read it".toList := by
  intro document workspace later built
  have reached : later.Reached (fun _ option => .standard option) .normal :=
    ⟨⟨.normal, 4⟩, [document],
      [.cursor 0 .undetermined 0, .command 0 (.search "E-READ I" .ignore)], rfl, rfl⟩
  have found :
      (workspace.document 0).paragraph? 0 = some ⟨.text, [.text "re-read it"]⟩ := by
    decide +kernel
  have addressable : Paragraph.IsAddressable ⟨.text, [.text "re-read it"]⟩ := by decide +kernel
  have sameKey : (later.paragraph? 0).map BuiltParagraph.key = some ⟨0, 0, .undetermined⟩ := by
    decide +kernel
  obtain ⟨⟨key, stale⟩, isAlive, rfl⟩ := Option.map_eq_some_iff.1 sameKey
  obtain ⟨hits, shown, areHits, rebuilt, -, drawable, highlights⟩ :=
    hits_show_in_words _ .normal workspace 0 .ignore "E-READ I" reached ⟨rfl, rfl, rfl⟩
      .undetermined found addressable (Or.inl rfl)
  obtain rfl := rebuilt 0 stale isAlive
  have areMarks : hits = [⟨0, 1, 8⟩] :=
    (Session.Reply.hits.inj areHits).symm.trans (by decide +kernel)
  rw [areMarks] at highlights
  exact ⟨found, drawable, highlights⟩

end Workspace

end Folio
