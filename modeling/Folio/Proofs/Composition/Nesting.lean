import Folio.Proofs.Composition.Entries
import Folio.Proofs.Composition.Filling

/-!
# Level markers nest

The markers that raise and lower the bidi level lead from the base level back to it, at the
end of a paragraph and wherever an entry asks for it, and never below it.  Between them every
word stands on the level it says it is on, which is the level of each of its characters.

Elements are followed as a path of levels.  A run leads from the level on which the last entry
ended to that of its last character, so that the paths of the entries join.
-/

namespace Folio

/-! ## Paths of levels -/

/-- How many more of these markers raise the level than lower it. -/
def balance (elements : List Element) : Int :=
  elements.count (.marker .startReversed) - elements.count (.marker .endReversed)

/-- Whether an element changes the level or stands on one. -/
def Element.hasLevel : Element → Bool
  | .word _ => true
  | .marker .startReversed => true
  | .marker .endReversed => true
  | _ => false

/--
Elements that lead from one level to another and never below the floor, where each word is on
the level that the markers before it have reached.
-/
inductive Leads (floor : Bidi.Level) : Bidi.Level → List Element → Bidi.Level → Prop where
  | stay {level : Bidi.Level} (above : floor ≤ level) : Leads floor level [] level
  | rise
      {level finish : Bidi.Level}
      {rest : List Element}
      (above : floor ≤ level)
      (tail : Leads floor (level + 1) rest finish) :
      Leads floor level (.marker .startReversed :: rest) finish
  | fall
      {level finish : Bidi.Level}
      {rest : List Element}
      (tail : Leads floor level rest finish) :
      Leads floor (level + 1) (.marker .endReversed :: rest) finish
  | word
      {finish : Bidi.Level}
      {word : Word}
      {rest : List Element}
      (tail : Leads floor word.level rest finish) :
      Leads floor word.level (.word word :: rest) finish
  | other
      {level finish : Bidi.Level}
      {element : Element}
      {rest : List Element}
      (noLevel : element.hasLevel = false)
      (tail : Leads floor level rest finish) :
      Leads floor level (element :: rest) finish

@[simp]
theorem balance_nil : balance [] = 0 := rfl

theorem balance_append (first later : List Element) :
    balance (first ++ later) = balance first + balance later := by
  simp only [balance, List.count_append]
  omega

theorem balance_cons (element : Element) (rest : List Element) :
    balance (element :: rest) = balance [element] + balance rest :=
  balance_append [element] rest

theorem balance_of_hasLevel_eq_false
    {element : Element}
    (noLevel : element.hasLevel = false) :
    balance [element] = 0 := by
  cases element with
  | word word => simp [Element.hasLevel] at noLevel
  | control control => rfl
  | image id image => rfl
  | style style => rfl
  | fixedSpace width => rfl
  | marker marker => cases marker <;> first | rfl | simp [Element.hasLevel] at noLevel

namespace Leads

variable
    {floor start middle finish : Bidi.Level}
    {elements here later : List Element}

theorem floor_le_start (leads : Leads floor start elements finish) : floor ≤ start := by
  induction leads with
  | stay above => exact above
  | rise above tail floorOfTail => exact above
  | fall tail floorOfTail => exact Nat.le_succ_of_le floorOfTail
  | word tail floorOfTail => exact floorOfTail
  | other noLevel tail floorOfTail => exact floorOfTail

theorem floor_le_finish (leads : Leads floor start elements finish) : floor ≤ finish := by
  induction leads with
  | stay above => exact above
  | rise above tail floorOfTail => exact floorOfTail
  | fall tail floorOfTail => exact floorOfTail
  | word tail floorOfTail => exact floorOfTail
  | other noLevel tail floorOfTail => exact floorOfTail

theorem append
    (first : Leads floor start here middle)
    (second : Leads floor middle later finish) :
    Leads floor start (here ++ later) finish := by
  induction first with
  | stay above => exact second
  | rise above tail joined => exact .rise above (joined second)
  | fall tail joined => exact .fall (joined second)
  | word tail joined => exact .word (joined second)
  | other noLevel tail joined => exact .other noLevel (joined second)

/-- The level that is reached is told by the markers. -/
theorem finish_eq (leads : Leads floor start elements finish) :
    (finish : Int) = start + balance elements := by
  induction leads with
  | stay above => simp
  | rise above tail finishOfTail =>
      have one : balance [.marker .startReversed] = 1 := rfl
      rw [balance_cons, one, finishOfTail]
      push_cast
      omega
  | fall tail finishOfTail =>
      have one : balance [.marker .endReversed] = -1 := rfl
      rw [balance_cons, one, finishOfTail]
      push_cast
      omega
  | @word finish word rest tail finishOfTail =>
      have none : balance [.word word] = 0 := by simp [balance]
      rw [balance_cons, none, finishOfTail, Int.zero_add]
  | other noLevel tail finishOfTail =>
      rw [balance_cons, balance_of_hasLevel_eq_false noLevel, finishOfTail, Int.zero_add]

/-- A path parts wherever its elements do. -/
theorem exists_middle
    (leads : Leads floor start (here ++ later) finish) :
    ∃ middle, Leads floor start here middle ∧ Leads floor middle later finish := by
  induction here generalizing start with
  | nil => exact ⟨start, .stay leads.floor_le_start, leads⟩
  | cons element rest parted =>
      cases leads with
      | rise above tail =>
          rcases parted tail with ⟨middle, first, second⟩
          exact ⟨middle, .rise above first, second⟩
      | fall tail =>
          rcases parted tail with ⟨middle, first, second⟩
          exact ⟨middle, .fall first, second⟩
      | word tail =>
          rcases parted tail with ⟨middle, first, second⟩
          exact ⟨middle, .word first, second⟩
      | other noLevel tail =>
          rcases parted tail with ⟨middle, first, second⟩
          exact ⟨middle, .other noLevel first, second⟩

/-- Marks do not change on which levels words are. -/
theorem map_marked
    (leads : Leads floor start elements finish)
    (marks : Marks) :
    Leads floor start (elements.map (Composition.marked marks)) finish := by
  induction leads with
  | stay above => exact .stay above
  | rise above tail ofTail => exact .rise above ofTail
  | fall tail ofTail => exact .fall ofTail
  | @word finish word rest tail ofTail =>
      exact @Leads.word floor finish { word with marks := Composition.spansOf marks word } _ ofTail
  | @other level finish element rest noLevel tail ofTail =>
      refine .other ?_ ofTail
      cases element <;> exact noLevel

end Leads

/-! ## Markers between two levels -/

theorem leads_falls
    {floor level : Bidi.Level}
    (above : floor ≤ level)
    (count : Nat) :
    Leads floor (level + count) (List.replicate count (.marker .endReversed)) level := by
  induction count with
  | zero => exact .stay above
  | succ count falls => exact .fall falls

theorem leads_rises
    {floor level : Bidi.Level}
    (above : floor ≤ level)
    (count : Nat) :
    Leads floor level (List.replicate count (.marker .startReversed)) (level + count) := by
  induction count generalizing level with
  | zero => exact .stay above
  | succ count rises =>
      have next := rises (Nat.le_succ_of_le above)
      rw [Nat.succ_add] at next
      exact .rise above next

theorem leads_levelShift
    {floor start finish : Bidi.Level}
    (aboveStart : floor ≤ start)
    (aboveFinish : floor ≤ finish) :
    Leads floor start (levelShift start finish) finish := by
  unfold levelShift
  rcases Nat.le_total start finish with rising | falling
  · have rises := leads_rises aboveStart (finish - start)
    rw [Nat.add_sub_cancel' rising] at rises
    simpa [Nat.sub_eq_zero_of_le rising] using rises
  · have falls := leads_falls aboveFinish (start - finish)
    rw [Nat.add_sub_cancel' falling] at falls
    simpa [Nat.sub_eq_zero_of_le falling] using falls

/-! ## Runs -/

namespace Scan

variable
    {floor level : Bidi.Level}
    (above : floor ≤ level)
    (shift : Nat)

include above

theorem leads_flushWord (start : Nat) (letters : List Char) :
    Leads floor level (flushWord shift level start letters) level := by
  unfold flushWord
  split
  · exact .stay above
  · exact @Leads.word floor level ⟨_, _, level, []⟩ _ (.stay above)

theorem leads_space {marker : Marker} (noLevel : (Element.marker marker).hasLevel = false) :
    Leads floor level [.marker marker] level :=
  .other noLevel (.stay above)

/-- What a character makes the scan put out is still on the level before the character. -/
theorem leads_step (pending : Pending) (c : AnalyzedChar) :
    Leads floor level (step shift level pending c).1 level := by
  unfold step
  split
  · cases pending with
    | word start letters => exact leads_flushWord above shift start letters
    | gap hasBlank before => exact .stay above
  · cases pending with
    | word start letters =>
        dsimp only
        split
        · exact leads_flushWord above shift start letters
        · exact .stay above
    | gap hasBlank before =>
        apply leads_space above
        unfold spaceBefore
        split <;> rfl

theorem leads_finish (pending : Pending) :
    Leads floor level (finish shift level pending) level := by
  cases pending with
  | word start letters => exact leads_flushWord above shift start letters
  | gap hasBlank before =>
      apply leads_space above
      unfold spaceAtEnd
      split <;> rfl

/-- The elements of the rest of a run lead to the level of its last character. -/
theorem leads_elements
    (pending : Pending)
    (chars : List AnalyzedChar)
    (aboveChars : ∀ c ∈ chars, floor ≤ c.level) :
    Leads floor level (elements shift level pending chars)
      ((chars.getLast?.map AnalyzedChar.level).getD level) := by
  induction chars generalizing level pending with
  | nil => exact leads_finish above shift pending
  | cons c rest leadsRest =>
      rcases List.forall_mem_cons.1 aboveChars with ⟨aboveHere, aboveRest⟩
      have next := leadsRest aboveHere (step shift level pending c).2 aboveRest
      have sameLast :
          (((c :: rest).getLast?).map AnalyzedChar.level).getD level =
            (rest.getLast?.map AnalyzedChar.level).getD c.level := by
        cases isLast : rest.getLast? <;> simp [List.getLast?_cons, isLast]
      rw [sameLast]
      exact ((leads_step above shift pending c).append (leads_levelShift above aboveHere)).append
        next

end Scan

namespace Composition

variable
    {rules : TextRules}
    {base : Bidi.Level}
    (above : rules.StaysAbove base)
    (image? : String → Option ImageData)

include above

theorem leads_composeRun
    (carry : Carry)
    (run : String)
    (aboveCarry : base ≤ carry.level) :
    Leads base carry.level (composeRun rules base carry run).1
      (composeRun rules base carry run).2.level := by
  cases analyzed : analyze rules base carry.level run.toList with
  | nil =>
      simp only [composeRun, analyzed]
      exact .stay aboveCarry
  | cons first rest =>
      have aboveChars : ∀ c ∈ first :: rest, base ≤ c.level :=
        fun c member => le_level_of_mem_analyze above aboveCarry (analyzed ▸ member)
      have aboveFirst := aboveChars first List.mem_cons_self
      have scanned :=
        Scan.leads_elements aboveFirst carry.offset Scan.initial (first :: rest) aboveChars
      simp only [composeRun, analyzed]
      rw [List.getLast?_cons] at scanned
      exact (leads_levelShift aboveCarry aboveFirst).append scanned

theorem leads_composeEntry
    (carry : Carry)
    (entry : Entry)
    (aboveCarry : base ≤ carry.level) :
    Leads base carry.level (composeEntry rules image? base carry entry).1
      (composeEntry rules image? base carry entry).2.level := by
  cases entry with
  | text run => exact leads_composeRun above carry run aboveCarry
  | style style => exact .other rfl (.stay aboveCarry)
  | fixedSpace width => exact .other rfl (.stay aboveCarry)
  | control kind isStart => exact .other rfl (.stay aboveCarry)
  | link kind target => exact .other rfl (.stay aboveCarry)
  | image id =>
      cases found : image? id with
      | none => simpa [composeEntry, found] using Leads.stay aboveCarry
      | some image =>
          have shown : Leads base carry.level [.image id image] carry.level :=
            .other rfl (.stay aboveCarry)
          simpa [composeEntry, found] using shown
  | resetBidi => exact leads_levelShift aboveCarry (Nat.le_refl base)

/-- Entry after entry the elements lead to the level that is carried on. -/
theorem leads_passEntries
    (carry : Carry)
    (entries : List Entry)
    (aboveCarry : base ≤ carry.level) :
    Leads base carry.level (passEntries rules base image? carry entries).1
      (passEntries rules base image? carry entries).2.level := by
  induction entries generalizing carry with
  | nil => exact .stay aboveCarry
  | cons entry rest leadsRest =>
      have here := leads_composeEntry above image? carry entry aboveCarry
      exact here.append (leadsRest _ here.floor_le_finish)

/-- A paragraph leads from the base level back to it, and through it after each reset. -/
theorem leads_composeEntries
    (carry : Carry)
    (entries : List Entry)
    (aboveCarry : base ≤ carry.level) :
    Leads base carry.level (composeEntries rules image? base carry entries) base := by
  have passed := leads_passEntries above image? carry entries aboveCarry
  rw [composeEntries_eq]
  exact passed.append (leads_levelShift passed.floor_le_finish (Nat.le_refl base))

omit above in
theorem level_passEntries_concat_resetBidi (carry : Carry) (entries : List Entry) :
    (passEntries rules base image? carry (entries ++ [.resetBidi])).2.level = base := by
  rw [passEntries_append]
  rfl

end Composition

/-! ## Words -/

namespace Composition

section

variable
    (rules : TextRules)
    (base : Bidi.Level)
    (image? : String → Option ImageData)

/-- What analysis knows about the characters of an entry. -/
def analyzeEntry (carry : Carry) : Entry → List AnalyzedChar
  | .text run => analyze rules base carry.level run.toList
  | _ => []

/-- What analysis knows about the characters of a paragraph, entry after entry. -/
def analyzeEntries (carry : Carry) : List Entry → List AnalyzedChar
  | [] => []
  | entry :: rest =>
      analyzeEntry rules base carry entry ++
        analyzeEntries (composeEntry rules image? base carry entry).2 rest

/-- A word shows a stretch of the analyzed characters, all of them on the word's level. -/
def IsOnLevel (shift : Nat) (chars : List AnalyzedChar) (word : Word) : Prop :=
  ∃ front inside behind,
    chars = front ++ inside ++ behind ∧
      word.offset = shift + Utf8.size (front.map AnalyzedChar.char) ∧
      word.text.toList = inside.map AnalyzedChar.char ∧
      ∀ c ∈ inside, c.level = word.level

variable
    {shift : Nat}
    {chars : List AnalyzedChar}
    {word : Word}

omit rules base image? in
theorem IsOnLevel.append_right
    (onLevel : IsOnLevel shift chars word)
    (later : List AnalyzedChar) :
    IsOnLevel shift (chars ++ later) word := by
  rcases onLevel with ⟨front, inside, behind, split, offset, text, level⟩
  exact ⟨front, inside, behind ++ later, by simp [split], offset, text, level⟩

omit rules base image? in
theorem IsOnLevel.append_left
    (first : List AnalyzedChar)
    (onLevel : IsOnLevel (shift + Utf8.size (first.map AnalyzedChar.char)) chars word) :
    IsOnLevel shift (first ++ chars) word := by
  rcases onLevel with ⟨front, inside, behind, split, offset, text, level⟩
  refine ⟨first ++ front, inside, behind, by simp [split], ?_, text, level⟩
  rw [offset, List.map_append, Utf8.size_append, Nat.add_assoc]

/-- The offset that is carried on counts the analyzed characters. -/
theorem offset_composeEntry (carry : Carry) (entry : Entry) :
    (composeEntry rules image? base carry entry).2.offset =
      carry.offset + Utf8.size ((analyzeEntry rules base carry entry).map AnalyzedChar.char) := by
  cases entry with
  | text run =>
      rw [analyzeEntry, map_char_analyze, Utf8.size_toList]
      exact offset_composeRun rules base carry run
  | style style => rfl
  | fixedSpace width => rfl
  | control kind isStart => rfl
  | link kind target => rfl
  | image id => rfl
  | resetBidi => rfl

theorem isOnLevel_of_mem_composeEntry
    (carry : Carry)
    (entry : Entry)
    (member : .word word ∈ (composeEntry rules image? base carry entry).1) :
    IsOnLevel carry.offset (analyzeEntry rules base carry entry) word := by
  have shown := List.mem_filter.2 ⟨member, Element.isTextual_word word⟩
  cases isRun : entry.run? with
  | none =>
      rw [(composeEntry_of_run?_eq_none rules base image? carry isRun).1] at shown
      exact absurd shown List.not_mem_nil
  | some run =>
      obtain rfl := eq_text_of_run?_eq_some isRun
      rcases (tiling_composeRun rules base carry run).exists_stretch shown with
        ⟨front, inside, behind, split, shows⟩
      cases shows with
      | word level nonempty letters whole parted =>
          exact ⟨front, inside, behind, split, by simp, by simp,
            fun c held => (letters c held).2⟩

theorem isOnLevel_of_mem_composeEntries
    (carry : Carry)
    (entries : List Entry)
    (member : .word word ∈ composeEntries rules image? base carry entries) :
    IsOnLevel carry.offset (analyzeEntries rules base image? carry entries) word := by
  induction entries generalizing carry with
  | nil =>
      have shown := List.mem_filter.2 ⟨member, Element.isTextual_word word⟩
      rw [composeEntries, filter_isTextual_levelShift] at shown
      exact absurd shown List.not_mem_nil
  | cons entry rest onLevelInRest =>
      rw [composeEntries_cons] at member
      rcases List.mem_append.1 member with here | later
      · exact (isOnLevel_of_mem_composeEntry rules base image? carry entry here).append_right _
      · have onLevel := onLevelInRest _ later
        rw [offset_composeEntry] at onLevel
        exact onLevel.append_left

end

/--
The markers of a filled paragraph never lead below the base level, and they lead back to it
at its end and at each return that its entries ask for.  Each word is on the level that the
markers before it have reached, and so is every character that it shows.
-/
theorem markers_nest_and_words_stand_on_levels
    (rules : TextRules)
    (document : Document)
    (language : Language)
    (index : Nat)
    (pool : Pool)
    (paragraph : Paragraph)
    (found : document.paragraph? index = some paragraph)
    (hasText : paragraph.kind = .text ∨ paragraph.kind = .tree)
    (above : rules.StaysAbove language.baseLevel) :
    let base := language.baseLevel
    let start : Carry := ⟨base, 0⟩
    let elements := (fill rules document language index pool).1
    (∀ before, before <+: elements → 0 ≤ balance before) ∧
      balance elements = 0 ∧
      (∀ first later,
        paragraph.entries = first ++ .resetBidi :: later →
          let reached :=
            (passEntries rules base document.image? start (first ++ [.resetBidi])).1.map
              (marked (Marks.ofParagraph document.marks index))
          reached <+: elements ∧ balance reached = 0) ∧
      ∀ before word after,
        elements = before ++ .word word :: after →
          (word.level : Int) = base + balance before ∧
            IsOnLevel 0 (analyzeEntries rules base document.image? start paragraph.entries)
              word := by
  intro base start elements
  have filled :
      elements =
        (composeEntries rules document.image? base start paragraph.entries).map
          (marked (Marks.ofParagraph document.marks index)) := by
    rw [← ofDocument_eq rules language found hasText]
    exact fst_fill rules document language index pool
  have leads : Leads base base elements base := by
    rw [filled]
    exact (leads_composeEntries above document.image? start paragraph.entries
      (Nat.le_refl base)).map_marked _
  have parted :
      ∀ before after,
        elements = before ++ after →
          ∃ level, Leads base base before level ∧ Leads base level after base :=
    fun before after split => (split ▸ leads).exists_middle
  refine ⟨?_, ?_, ?_, ?_⟩
  · rintro before ⟨after, split⟩
    rcases parted before after split.symm with ⟨level, first, second⟩
    have reached := first.finish_eq
    have aboveBase : (base : Int) ≤ level := Int.ofNat_le.2 first.floor_le_finish
    omega
  · have back := leads.finish_eq
    omega
  · intro first later entries reached
    constructor
    · rw [filled, entries, List.append_cons, composeEntries_append, List.map_append]
      exact List.prefix_append reached _
    · have passed :=
        leads_passEntries above document.image? start (first ++ [.resetBidi]) (Nat.le_refl base)
      rw [level_passEntries_concat_resetBidi] at passed
      have back : (base : Int) = base + balance reached :=
        (passed.map_marked (Marks.ofParagraph document.marks index)).finish_eq
      omega
  · intro before word after split
    constructor
    · rcases parted before _ split with ⟨level, first, second⟩
      cases second with
      | word tail => exact first.finish_eq
      | other noLevel tail => exact absurd noLevel (by simp [Element.hasLevel])
    · have member : .word word ∈ elements := split ▸ by simp
      rw [filled] at member
      rcases List.mem_map.1 member with ⟨element, isComposed, shown⟩
      rcases exists_word_of_marked shown with ⟨bare, rfl, rfl⟩
      have onLevel : IsOnLevel 0 _ bare :=
        isOnLevel_of_mem_composeEntries rules base document.image? start _ isComposed
      exact onLevel

/-- The case of two runs in both directions with a return to the base level between. -/
theorem markers_nest_in_mixed_runs :
    let entries : List Entry :=
      [.text "one \u05d0\u05d1 ", .resetBidi, .text "\u05d2 2"]
    let document := Document.plain [⟨.text, entries⟩]
    let elements := (fill (.standard .normal) document .undetermined 0 (.empty 4)).1
    document.paragraph? 0 = some ⟨.text, entries⟩ ∧
      (TextRules.standard .normal).StaysAbove Language.undetermined.baseLevel ∧
      (∀ before, before <+: elements → 0 ≤ balance before) ∧
      balance elements = 0 := by
  intro entries document elements
  have above := TextRules.staysAbove_standard .normal Language.undetermined.baseLevel
  have nested :=
    markers_nest_and_words_stand_on_levels (.standard .normal) document .undetermined 0
      (.empty 4) ⟨.text, entries⟩ rfl (Or.inl rfl) above
  exact ⟨rfl, above, nested.1, nested.2.1⟩

end Composition

end Folio
