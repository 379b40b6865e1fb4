import Folio.Proofs.Composition.Entries
import Folio.Proofs.Composition.Filling

/-!
# Words and spaces tile the text of a paragraph

Each run of a paragraph is covered by its words and spaces from its first byte to its last,
each character by exactly one of them.  So words stand in increasing order, none is empty, and
each is found in the text of the paragraph at its offset.

Neither the rules that break and level the text nor the marks that are laid over it have any
part in this.
-/

namespace Folio

namespace Composition

/-- An element of a run at `shift` stands for the characters `inside`, between the others. -/
inductive Spells (shift : Nat) (before inside after : List Char) : Element → Prop where
  | word
      {found : Word}
      (nonempty : inside ≠ [])
      (letters : ∀ c ∈ inside, isSpacing c = false)
      (text : found.text.toList = inside)
      (size : found.size = Utf8.size inside)
      (length : found.length = inside.length)
      (offset : found.offset = shift + Utf8.size before) :
      Spells shift before inside after (.word found)
  | space
      {marker : Marker}
      (isSpace : marker = .space ∨ marker = .noBreakSpace)
      (nonempty : inside ≠ [])
      (spacing : ∀ c ∈ inside, isSpacing c = true)
      (opens : ∀ c ∈ before.getLast?, isSpacing c = false)
      (closes : ∀ c ∈ after.head?, isSpacing c = false) :
      Spells shift before inside after (.marker marker)

/-- Elements that show runs of text one after the other, the first of them at `shift`. -/
inductive RunsTiled : Nat → List String → List Element → Prop where
  | done (shift : Nat) : RunsTiled shift [] []
  | run
      {shift : Nat}
      {run : String}
      {runs : List String}
      {here later : List Element}
      (head : Tiling (Spells shift) [] run.toList here)
      (tail : RunsTiled (shift + run.utf8ByteSize) runs later) :
      RunsTiled shift (run :: runs) (here ++ later)

theorem spaceFor_eq (before inside after : List AnalyzedChar) :
    Scan.spaceFor before inside after = .space ∨
      Scan.spaceFor before inside after = .noBreakSpace := by
  cases after <;> simp only [Scan.spaceFor, Scan.spaceAtEnd, Scan.spaceBefore] <;> split <;> simp

/-- What a run puts out for its characters spells them. -/
theorem spells_of_shows
    (shift : Nat)
    (before inside after : List AnalyzedChar)
    (element : Element)
    (shown : Scan.Shows shift before inside after element) :
    Spells shift (before.map AnalyzedChar.char) (inside.map AnalyzedChar.char)
      (after.map AnalyzedChar.char) element := by
  cases shown with
  | word level nonempty letters whole parted =>
      refine .word (by simpa using nonempty) ?_ (by simp) ?_ ?_ rfl
      · simpa using fun c member => (letters c member).1
      · exact (Utf8.size_eq_utf8ByteSize _).symm
      · simp [Word.length]
  | space nonempty spacing opens closes =>
      refine .space (spaceFor_eq before inside after) (by simpa using nonempty) ?_ ?_ ?_
      · simpa using spacing
      · simpa using opens
      · simpa using closes

/-- Marks do not change what an element spells. -/
theorem Spells.marked
    {shift : Nat}
    {before inside after : List Char}
    {element : Element}
    (spells : Spells shift before inside after element)
    (marks : Marks) :
    Spells shift before inside after (marked marks element) := by
  cases spells with
  | word nonempty letters text size length offset =>
      exact .word nonempty letters text size length offset
  | space isSpace nonempty spacing opens closes =>
      exact .space isSpace nonempty spacing opens closes

theorem RunsTiled.marked
    {shift : Nat}
    {runs : List String}
    {elements : List Element}
    (tiled : RunsTiled shift runs elements)
    (marks : Marks) :
    RunsTiled shift runs (elements.map (marked marks)) := by
  induction tiled with
  | done shift => exact .done shift
  | run head tail tailMarked =>
      rw [List.map_append]
      refine .run ?_ tailMarked
      simpa using head.map id (Composition.marked marks) fun before inside after element spells =>
        by simpa using spells.marked marks

/-! ## Composing tiles the runs -/

theorem runsTiled_composeEntries
    (rules : TextRules)
    (image? : String → Option ImageData)
    (base : Bidi.Level)
    (carry : Carry)
    (entries : List Entry) :
    RunsTiled carry.offset (entries.filterMap Entry.run?)
      ((composeEntries rules image? base carry entries).filter Element.isTextual) := by
  induction entries generalizing carry with
  | nil =>
      simp only [composeEntries, List.filterMap_nil, filter_isTextual_levelShift]
      exact .done carry.offset
  | cons entry rest tiledRest =>
      simp only [composeEntries, List.filter_append]
      cases isRun : entry.run? with
      | none =>
          obtain ⟨nothing, sameOffset⟩ :=
            composeEntry_of_run?_eq_none rules base image? carry isRun
          rw [List.filterMap_cons_none isRun, nothing, List.nil_append, ← sameOffset]
          exact tiledRest _
      | some run =>
          obtain rfl := eq_text_of_run?_eq_some isRun
          rw [List.filterMap_cons_some isRun]
          apply RunsTiled.run
          · have tiling :=
              (tiling_composeRun rules base carry run).map AnalyzedChar.char id
                (spells_of_shows carry.offset)
            simpa [composeEntry] using tiling
          · rw [← offset_composeRun rules base carry run]
            exact tiledRest _

/-! ## Where the words are -/

/-- The words of a run end one after the other, within the run. -/
theorem words_of_tiling
    {shift : Nat}
    {before rest : List Char}
    {elements : List Element}
    (tiling : Tiling (Spells shift) before rest elements)
    {word : Word}
    (member : word ∈ elements.filterMap Element.word?) :
    ∃ front behind,
      rest = front ++ word.text.toList ++ behind ∧
        word.offset = shift + Utf8.size before + Utf8.size front ∧
        word.text.toList ≠ [] := by
  obtain ⟨front, inside, behind, split, shown⟩ :=
    tiling.exists_stretch (mem_filterMap_word?_iff.1 member)
  cases shown with
  | word nonempty letters text size length offset =>
      refine ⟨front, behind, text ▸ split, ?_, text ▸ nonempty⟩
      rw [offset, Utf8.size_append, Nat.add_assoc]

theorem pairwise_offset_of_tiling
    {shift : Nat}
    {before rest : List Char}
    {elements : List Element}
    (tiling : Tiling (Spells shift) before rest elements) :
    (elements.filterMap Element.word?).Pairwise
      fun earlier later => earlier.offset < later.offset := by
  induction tiling with
  | done before => exact .nil
  | @next before inside after element elements shown tail increasing =>
      cases shown with
      | word nonempty letters text size length offset =>
          refine .cons ?_ increasing
          intro later member
          obtain ⟨front, behind, -, laterOffset, -⟩ := words_of_tiling tail member
          have := Utf8.size_pos nonempty
          rw [offset, laterOffset, Utf8.size_append]
          omega
      | space isSpace nonempty spacing opens closes => exact increasing

/-- Each word of tiled runs stands in their text at its offset. -/
theorem RunsTiled.exists_place
    {shift : Nat}
    {runs : List String}
    {elements : List Element}
    (tiled : RunsTiled shift runs elements)
    {word : Word}
    (member : word ∈ elements.filterMap Element.word?) :
    ∃ front behind,
      runs.flatMap String.toList = front ++ word.text.toList ++ behind ∧
        word.offset = shift + Utf8.size front ∧
        word.text.toList ≠ [] := by
  induction tiled with
  | done shift => simp at member
  | @run shift run runs here later head tail placeInTail =>
      rw [List.filterMap_append] at member
      rcases List.mem_append.1 member with inHere | inLater
      · obtain ⟨front, behind, split, offset, nonempty⟩ := words_of_tiling head inHere
        exact ⟨front, behind ++ runs.flatMap String.toList, by simp [split], offset, nonempty⟩
      · obtain ⟨front, behind, split, offset, nonempty⟩ := placeInTail inLater
        refine ⟨run.toList ++ front, behind, by simp [split], ?_, nonempty⟩
        rw [offset, Utf8.size_append, Utf8.size_toList, Nat.add_assoc]

theorem RunsTiled.pairwise_offset
    {shift : Nat}
    {runs : List String}
    {elements : List Element}
    (tiled : RunsTiled shift runs elements) :
    (elements.filterMap Element.word?).Pairwise
      fun earlier later => earlier.offset < later.offset := by
  induction tiled with
  | done shift => exact .nil
  | @run shift run runs here later head tail increasing =>
      rw [List.filterMap_append]
      refine List.pairwise_append.2 ⟨pairwise_offset_of_tiling head, increasing, ?_⟩
      intro earlier inHere follower inLater
      obtain ⟨front, behind, split, offset, nonempty⟩ := words_of_tiling head inHere
      obtain ⟨skipped, -, -, laterOffset, -⟩ := tail.exists_place inLater
      have bytes : run.utf8ByteSize =
          Utf8.size front + Utf8.size earlier.text.toList + Utf8.size behind := by
        rw [← Utf8.size_toList, split, Utf8.size_append, Utf8.size_append]
      have := Utf8.size_pos nonempty
      rw [offset, laterOffset, Utf8.size_nil]
      omega

/-! ## The text of a paragraph -/

theorem toList_plainText (paragraph : Paragraph) :
    paragraph.plainText.toList = paragraph.runs.flatMap String.toList :=
  String.toList_join

/-- Words are among the elements that show text. -/
theorem filterMap_word?_filter_isTextual (elements : List Element) :
    (elements.filter Element.isTextual).filterMap Element.word? =
      elements.filterMap Element.word? := by
  induction elements with
  | nil => rfl
  | cons element rest wordsOfRest =>
      cases textual : element.isTextual with
      | true => simp [textual, List.filterMap_cons, wordsOfRest]
      | false =>
          have noWord : element.word? = none := by
            cases element <;> simp_all [Element.word?]
          simp [textual, noWord, wordsOfRest]

theorem isTextual_marked (marks : Marks) (element : Element) :
    (marked marks element).isTextual = element.isTextual := by
  cases element <;> rfl

theorem runsTiled_fill
    (rules : TextRules)
    (language : Language)
    (pool : Pool)
    {document : Document}
    {index : Nat}
    {paragraph : Paragraph}
    (found : document.paragraph? index = some paragraph)
    (hasText : paragraph.kind = .text ∨ paragraph.kind = .tree) :
    RunsTiled 0 paragraph.runs
      ((fill rules document language index pool).1.filter Element.isTextual) := by
  have tiled :=
    (runsTiled_composeEntries rules document.image? language.baseLevel
      ⟨language.baseLevel, 0⟩ paragraph.entries).marked
        (Marks.ofParagraph document.marks index)
  have sameFilter :
      Element.isTextual ∘ marked (Marks.ofParagraph document.marks index) =
        Element.isTextual :=
    funext fun element => isTextual_marked _ element
  rw [fst_fill, ofDocument_eq rules language found hasText, List.filter_map, sameFilter]
  exact tiled

/-- Each word of a filled paragraph is found in the text of the paragraph at its offset. -/
theorem slice?_plainText_of_mem_fill
    (rules : TextRules)
    (language : Language)
    (pool : Pool)
    {document : Document}
    {index : Nat}
    {paragraph : Paragraph}
    (found : document.paragraph? index = some paragraph)
    (hasText : paragraph.kind = .text ∨ paragraph.kind = .tree)
    {word : Word}
    (member : word ∈ (fill rules document language index pool).1.filterMap Element.word?) :
    word.text.toList ≠ [] ∧
      Utf8.slice? paragraph.plainText.toList word.offset word.finish =
        some word.text.toList := by
  have tiled := runsTiled_fill rules language pool found hasText
  rw [← filterMap_word?_filter_isTextual] at member
  rcases tiled.exists_place member with ⟨front, behind, split, offset, nonempty⟩
  refine ⟨nonempty, ?_⟩
  rw [toList_plainText, split, Word.finish, Word.size, ← Utf8.size_toList, offset, Nat.zero_add]
  exact Utf8.slice?_append front word.text.toList behind

/--
The words and spaces of a filled paragraph cover its runs in order, each character once.  So
the offsets of its words increase, no word is empty, and the text of the paragraph has each
word at its offset.
-/
theorem words_and_spaces_tile_text
    (rules : TextRules)
    (document : Document)
    (language : Language)
    (index : Nat)
    (pool : Pool)
    (paragraph : Paragraph)
    (found : document.paragraph? index = some paragraph)
    (hasText : paragraph.kind = .text ∨ paragraph.kind = .tree) :
    let elements := (fill rules document language index pool).1
    let words := elements.filterMap Element.word?
    RunsTiled 0 paragraph.runs (elements.filter Element.isTextual) ∧
      words.Pairwise (fun earlier later => earlier.offset < later.offset) ∧
      ∀ word ∈ words,
        0 < word.size ∧ 0 < word.length ∧
          Utf8.slice? paragraph.plainText.toList word.offset (word.offset + word.size) =
            some word.text.toList := by
  intro elements words
  have tiled : RunsTiled 0 paragraph.runs (elements.filter Element.isTextual) :=
    runsTiled_fill rules language pool found hasText
  have sameWords : (elements.filter Element.isTextual).filterMap Element.word? = words :=
    filterMap_word?_filter_isTextual elements
  refine ⟨tiled, sameWords ▸ tiled.pairwise_offset, ?_⟩
  intro word member
  rcases slice?_plainText_of_mem_fill rules language pool found hasText member with
    ⟨nonempty, slice⟩
  have size : word.size = Utf8.size word.text.toList := (Utf8.size_toList word.text).symm
  have length : word.length = word.text.toList.length := String.length_toList.symm
  exact ⟨size ▸ Utf8.size_pos nonempty, length ▸ List.length_pos_of_ne_nil nonempty, slice⟩

/-- The case of two runs with an image of no bytes and a return to the base level between. -/
theorem words_and_spaces_tile_two_runs :
    let document :=
      Document.plain
        [⟨.text, [.text " one  two-", .image "none", .resetBidi, .text "", .text "three"]⟩]
    let elements :=
      (fill (.standard .normal) document .undetermined 0 (.empty 4)).1
    document.paragraph? 0 =
        some ⟨.text, [.text " one  two-", .image "none", .resetBidi, .text "", .text "three"]⟩ ∧
      RunsTiled 0 [" one  two-", "", "three"] (elements.filter Element.isTextual) := by
  intro document elements
  refine ⟨rfl, ?_⟩
  exact
    (words_and_spaces_tile_text (.standard .normal) document .undetermined 0 (.empty 4) _ rfl
      (Or.inl rfl)).1

end Composition

end Folio
