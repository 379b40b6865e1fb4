import Folio.Proofs.Language.Subtags

/-!
# The grammar of language tags

A tag is spelled by a primary subtag, perhaps a script and perhaps a region, with a hyphen or
an underscore in front of either.  A spelling carries the proofs that its subtags have the
letters and digits of their kinds.  Every text can be taken apart at its separators in one
way, so the reader accepts the texts that have a spelling, and no others.
-/

namespace Folio.Language

/-! ## Texts taken apart at separators -/

section Pieces

variable
    {first : List Char}
    {pieces : List (Char × List Char)}

/-- A first piece of text, and others behind their separators. -/
def joined (first : List Char) (pieces : List (Char × List Char)) : List Char :=
  first ++ pieces.flatMap fun piece => piece.1 :: piece.2

/-- Separators stand in front of the later pieces, and nowhere else. -/
structure Parted (first : List Char) (pieces : List (Char × List Char)) : Prop where
  first : ∀ c ∈ first, isSeparator c = false
  separators : ∀ piece ∈ pieces, isSeparator piece.1
  pieces : ∀ piece ∈ pieces, ∀ c ∈ piece.2, isSeparator c = false

theorem joined_cons (first : List Char) (piece : Char × List Char)
    (pieces : List (Char × List Char)) :
    joined first (piece :: pieces) = first ++ piece.1 :: joined piece.2 pieces := by
  simp [joined]

theorem Parted.splitOnP_joined (parted : Parted first pieces) :
    (joined first pieces).splitOnP isSeparator = first :: pieces.map Prod.snd := by
  induction pieces generalizing first with
  | nil =>
      rw [joined, List.flatMap_nil, List.append_nil, List.splitOnP_eq_singleton parted.first]
      rfl
  | cons piece rest splitRest =>
      obtain ⟨separator, separators⟩ := List.forall_mem_cons.1 parted.separators
      obtain ⟨inPiece, inRest⟩ := List.forall_mem_cons.1 parted.pieces
      rw [joined_cons, List.splitOnP_append_cons_of_forall_mem parted.first _ separator,
        splitRest ⟨inPiece, separators, inRest⟩, List.map_cons]

/-- Every text is made of pieces. -/
theorem exists_joined (text : List Char) :
    ∃ first pieces, Parted first pieces ∧ text = joined first pieces := by
  induction text with
  | nil => exact ⟨[], [], ⟨by simp, by simp, by simp⟩, rfl⟩
  | cons c rest joinedRest =>
      obtain ⟨first, pieces, parted, rfl⟩ := joinedRest
      cases separator : isSeparator c with
      | false =>
          refine ⟨c :: first, pieces, ⟨?_, parted.separators, parted.pieces⟩, rfl⟩
          exact List.forall_mem_cons.2 ⟨separator, parted.first⟩
      | true =>
          refine ⟨[], (c, first) :: pieces, ⟨by simp, ?_, ?_⟩, by rw [joined_cons]; rfl⟩
          · exact List.forall_mem_cons.2 ⟨separator, parted.separators⟩
          · exact List.forall_mem_cons.2 ⟨parted.first, parted.pieces⟩

theorem length_joined (first : List Char) (pieces : List (Char × List Char)) :
    (joined first pieces).length =
      first.length + ((pieces.map Prod.snd).map fun part => part.length + 1).sum := by
  simp [joined, List.length_flatMap, Function.comp_def]

end Pieces

/-! ## Spellings -/

/-- A way to spell a tag: its subtags, and the separators in front of the script and region. -/
structure Spelling where
  primary : List Char
  script : Option (Char × List Char)
  region : Option (Char × List Char)
  isPrimary : SubtagKind.primary.IsSpelledBy primary
  isScript : ∀ piece ∈ script, isSeparator piece.1 ∧ SubtagKind.script.IsSpelledBy piece.2
  isRegion : ∀ piece ∈ region, isSeparator piece.1 ∧ SubtagKind.region.IsSpelledBy piece.2

/-- A word with a capital. -/
def titled : List Char → List Char
  | [] => []
  | c :: rest => c.toUpper :: rest.map Char.toLower

namespace Spelling

variable (spelling : Spelling)

/-- What stands behind the primary subtag. -/
def pieces : List (Char × List Char) :=
  spelling.script.toList ++ spelling.region.toList

/-- The text that is spelled. -/
def toList : List Char :=
  joined spelling.primary spelling.pieces

/-- The same tag with hyphens, a small language, a titled script and a large region. -/
def canonical : List Char :=
  spelling.primary.map Char.toLower ++
    (spelling.script.elim [] fun piece => '-' :: titled piece.2) ++
    spelling.region.elim [] fun piece => '-' :: piece.2.map Char.toUpper

/-- The subtags with their kinds. -/
def subtags : List (SubtagKind × List Char) :=
  (.primary, spelling.primary) ::
    (spelling.script.toList.map (fun piece => (.script, piece.2)) ++
      spelling.region.toList.map fun piece => (.region, piece.2))

theorem isSpelledBy_of_mem_pieces {piece : Char × List Char} (member : piece ∈ spelling.pieces) :
    isSeparator piece.1 ∧ ∃ kind : SubtagKind, kind.IsSpelledBy piece.2 := by
  rcases List.mem_append.1 member with isScript | isRegion
  · obtain ⟨separator, spells⟩ := spelling.isScript piece (Option.mem_toList.1 isScript)
    exact ⟨separator, .script, spells⟩
  · obtain ⟨separator, spells⟩ := spelling.isRegion piece (Option.mem_toList.1 isRegion)
    exact ⟨separator, .region, spells⟩

theorem isSpelledBy_of_mem_subtags
    {subtag : SubtagKind × List Char}
    (member : subtag ∈ spelling.subtags) :
    subtag.1.IsSpelledBy subtag.2 := by
  rcases List.mem_cons.1 member with rfl | behindPrimary
  · exact spelling.isPrimary
  · rcases List.mem_append.1 behindPrimary with isScript | isRegion
    · obtain ⟨piece, hasPiece, rfl⟩ := List.mem_map.1 isScript
      exact (spelling.isScript piece (Option.mem_toList.1 hasPiece)).2
    · obtain ⟨piece, hasPiece, rfl⟩ := List.mem_map.1 isRegion
      exact (spelling.isRegion piece (Option.mem_toList.1 hasPiece)).2

theorem parted : Parted spelling.primary spelling.pieces where
  first := fun _ member =>
    isSeparator_eq_false_of_isAlphanum (spelling.isPrimary.isAlphanum _ member)
  separators := fun _ member => (spelling.isSpelledBy_of_mem_pieces member).1
  pieces := by
    intro piece member c inPiece
    obtain ⟨-, kind, spells⟩ := spelling.isSpelledBy_of_mem_pieces member
    exact isSeparator_eq_false_of_isAlphanum (spells.isAlphanum c inPiece)

theorem canonical_eq : spelling.canonical = (hyphened spelling.subtags).tail := by
  have inCase_script : ∀ part, SubtagKind.script.inCase part = titled part := by
    rintro (_ | ⟨c, rest⟩) <;> rfl
  cases hasScript : spelling.script <;> cases hasRegion : spelling.region <;>
    simp [canonical, subtags, hyphened, SubtagKind.inCase_primary, inCase_script,
      SubtagKind.inCase_region, hasScript, hasRegion]

/-- A tag has no more than three, five and four letters and separators. -/
theorem length_toList_le : spelling.toList.length ≤ maxTagSize := by
  have primaryLength := spelling.isPrimary.1
  have scriptLength : (spelling.script.toList.map fun piece => piece.2.length + 1).sum ≤ 5 := by
    cases hasScript : spelling.script with
    | none => simp
    | some piece => simp [(spelling.isScript piece hasScript).2.1]
  have regionLength : (spelling.region.toList.map fun piece => piece.2.length + 1).sum ≤ 4 := by
    cases hasRegion : spelling.region with
    | none => simp
    | some piece =>
        rcases (spelling.isRegion piece hasRegion).2 with ⟨length, -⟩ | ⟨length, -⟩ <;>
          simp [length]
  simp only [toList, pieces, length_joined, List.map_append, List.sum_append, List.map_map,
    Function.comp_def]
  change _ ≤ 12
  omega

theorem isAscii_toList : IsAscii spelling.toList := by
  intro c member
  rcases List.mem_append.1 member with inPrimary | inPieces
  · exact spelling.isPrimary.isAscii c inPrimary
  · obtain ⟨piece, isPiece, inPiece⟩ := List.mem_flatMap.1 inPieces
    obtain ⟨separator, kind, spells⟩ := spelling.isSpelledBy_of_mem_pieces isPiece
    rcases List.mem_cons.1 inPiece with rfl | inPart
    · exact utf8Size_of_isSeparator separator
    · exact spells.isAscii c inPart

theorem length_canonical : spelling.canonical.length = spelling.toList.length := by
  have length_titled : ∀ part, (titled part).length = part.length := by
    rintro (_ | ⟨c, rest⟩) <;> simp [titled]
  cases hasScript : spelling.script <;> cases hasRegion : spelling.region <;>
    simp [canonical, toList, pieces, joined, hasScript, hasRegion, length_titled]

theorem isAscii_canonical : IsAscii spelling.canonical := by
  intro c member
  rw [canonical_eq] at member
  obtain ⟨⟨kind, part⟩, isSubtag, inSubtag⟩ := List.mem_flatMap.1 (List.mem_of_mem_tail member)
  rcases List.mem_cons.1 inSubtag with rfl | inPart
  · rfl
  · exact kind.isAscii_inCase (spelling.isSpelledBy_of_mem_subtags isSubtag).isAscii c inPart

/-! The language that is kept for a spelling. -/

theorem canonical_room : spelling.canonical.length ≤ maxTagSize :=
  spelling.length_canonical ▸ spelling.length_toList_le

theorem text?_pack :
    (pack spelling.canonical spelling.primary.length).text? =
      some (String.ofList spelling.canonical) :=
  Language.text?_pack spelling.isAscii_canonical spelling.canonical_room

theorem tag_pack :
    (pack spelling.canonical spelling.primary.length).tag = String.ofList spelling.canonical :=
  Language.tag_pack spelling.isAscii_canonical spelling.canonical_room

theorem primary_pack :
    (pack spelling.canonical spelling.primary.length).primary =
      String.ofList (spelling.primary.map Char.toLower) := by
  have ascii := spelling.isAscii_canonical
  have room := spelling.canonical_room
  have sameLength : (spelling.primary.map Char.toLower).length = spelling.primary.length :=
    List.length_map _
  rw [canonical, List.append_assoc] at ascii room ⊢
  rw [← sameLength]
  exact Language.primary_pack ascii room

end Spelling

section Subtags

variable
    {pieces : List (Char × List Char)}
    {subtags : List (SubtagKind × List Char)}

theorem subtags?_behind_region (index : Nat) {parts : List (List Char)} :
    subtags? (index + 2) (some .region) parts = some subtags ↔ parts = [] ∧ subtags = [] := by
  cases parts with
  | nil => simp [subtags?, eq_comm]
  | cons part rest =>
      rw [subtags?_cons_eq_some_iff]
      constructor
      · rintro ⟨kind, -, ⟨follows, -⟩, -⟩
        cases kind <;> simp [SubtagKind.Follows] at follows
      · rintro ⟨impossible, -⟩
        exact absurd impossible (List.cons_ne_nil part rest)

theorem subtags?_behind_script :
    subtags? 2 (some .script) (pieces.map Prod.snd) = some subtags ↔
      ∃ region : Option (Char × List Char),
        (∀ piece ∈ region, SubtagKind.region.IsSpelledBy piece.2) ∧
          region.toList = pieces ∧
            region.toList.map (fun piece => (SubtagKind.region, piece.2)) = subtags := by
  constructor
  · intro read
    cases pieces with
    | nil => exact ⟨none, by simp, rfl, Option.some.inj read⟩
    | cons piece rest =>
        obtain ⟨kind, more, ⟨follows, spells⟩, readMore, rfl⟩ :=
          subtags?_cons_eq_some_iff.1 read
        cases kind with
        | primary => simp [SubtagKind.Follows] at follows
        | script => simp [SubtagKind.Follows] at follows
        | region =>
            obtain ⟨isLast, rfl⟩ := (subtags?_behind_region 1).1 readMore
            obtain rfl := List.map_eq_nil_iff.1 isLast
            exact ⟨some piece, by simpa using spells, rfl, rfl⟩
  · rintro ⟨region, spells, rfl, rfl⟩
    cases region with
    | none => rfl
    | some piece =>
        refine subtags?_cons_eq_some_iff.2 ⟨.region, [], ⟨?_, spells piece rfl⟩, rfl, rfl⟩
        exact Or.inr ⟨rfl, rfl⟩

theorem subtags?_behind_primary :
    subtags? 1 (some .primary) (pieces.map Prod.snd) = some subtags ↔
      ∃ script region : Option (Char × List Char),
        (∀ piece ∈ script, SubtagKind.script.IsSpelledBy piece.2) ∧
          (∀ piece ∈ region, SubtagKind.region.IsSpelledBy piece.2) ∧
            script.toList ++ region.toList = pieces ∧
              script.toList.map (fun piece => (SubtagKind.script, piece.2)) ++
                region.toList.map (fun piece => (SubtagKind.region, piece.2)) = subtags := by
  constructor
  · intro read
    cases pieces with
    | nil => exact ⟨none, none, by simp, by simp, rfl, Option.some.inj read⟩
    | cons piece rest =>
        obtain ⟨kind, more, ⟨follows, spells⟩, readMore, rfl⟩ :=
          subtags?_cons_eq_some_iff.1 read
        cases kind with
        | primary => simp [SubtagKind.Follows] at follows
        | script =>
            obtain ⟨region, spellsRegion, rfl, rfl⟩ := subtags?_behind_script.1 readMore
            exact ⟨some piece, region, by simpa using spells, spellsRegion, rfl, rfl⟩
        | region =>
            obtain ⟨isLast, rfl⟩ := (subtags?_behind_region 0).1 readMore
            obtain rfl := List.map_eq_nil_iff.1 isLast
            exact ⟨none, some piece, by simp, by simpa using spells, rfl, rfl⟩
  · rintro ⟨script, region, spellsScript, spellsRegion, rfl, rfl⟩
    cases script with
    | some piece =>
        exact subtags?_cons_eq_some_iff.2 ⟨.script, _, ⟨rfl, spellsScript piece rfl⟩,
          subtags?_behind_script.2 ⟨region, spellsRegion, rfl, rfl⟩, rfl⟩
    | none =>
        cases region with
        | none => rfl
        | some piece =>
            exact subtags?_cons_eq_some_iff.2
              ⟨.region, [], ⟨Or.inl rfl, spellsRegion piece rfl⟩, rfl, rfl⟩

/-- The pieces of a text are the subtags of a tag if and only if a spelling has these pieces. -/
theorem subtags?_eq_some_iff
    {first : List Char}
    (separators : ∀ piece ∈ pieces, isSeparator piece.1) :
    subtags? 0 none (first :: pieces.map Prod.snd) = some subtags ↔
      ∃ spelling : Spelling, spelling.primary = first ∧ spelling.pieces = pieces ∧
        spelling.subtags = subtags := by
  rw [subtags?_cons_eq_some_iff]
  constructor
  · rintro ⟨kind, more, ⟨follows, spells⟩, readMore, rfl⟩
    cases kind with
    | script => simp [SubtagKind.Follows] at follows
    | region => simp [SubtagKind.Follows] at follows
    | primary =>
        obtain ⟨script, region, spellsScript, spellsRegion, rfl, rfl⟩ :=
          subtags?_behind_primary.1 readMore
        obtain ⟨scriptSeparator, regionSeparator⟩ := List.forall_mem_append.1 separators
        refine ⟨⟨first, script, region, spells, ?_, ?_⟩, rfl, rfl, rfl⟩
        · exact fun piece member =>
            ⟨scriptSeparator piece (Option.mem_toList.2 member), spellsScript piece member⟩
        · exact fun piece member =>
            ⟨regionSeparator piece (Option.mem_toList.2 member), spellsRegion piece member⟩
  · rintro ⟨spelling, rfl, rfl, rfl⟩
    refine ⟨.primary, _, ⟨rfl, spelling.isPrimary⟩, subtags?_behind_primary.2 ?_, rfl⟩
    exact ⟨spelling.script, spelling.region, fun piece member => (spelling.isScript piece member).2,
      fun piece member => (spelling.isRegion piece member).2, rfl, rfl⟩

end Subtags

/-! ## Reading texts -/

section Reading

variable {text : String}

/-- A text of the right size is read as the pieces between its separators are. -/
theorem read?_joined
    {first : List Char}
    {pieces : List (Char × List Char)}
    (parted : Parted first pieces)
    (isJoined : text.toList = joined first pieces)
    (nonempty : text ≠ "")
    (short : text.utf8ByteSize ≤ maxTagSize) :
    read? text =
      some ((subtags? 0 none (first :: pieces.map Prod.snd)).elim (.error .malformedSubtag)
        fun subtags => .ok (pack (hyphened subtags).tail first.length)) := by
  have room : (joined first pieces).length ≤ maxTagSize := by
    rw [← Utf8.size_toList, isJoined] at short
    exact Nat.le_trans (Utf8.length_le_size _) short
  rw [length_joined] at room
  rw [read?, if_neg (by simpa using nonempty), if_neg (Nat.not_lt.mpr short), isJoined,
    parted.splitOnP_joined, readSubtags?_blank room]

/-- A text with a spelling is read to the canonical tag of the spelling. -/
theorem read?_of_spelling
    {spelling : Spelling}
    (isSpelled : text.toList = spelling.toList) :
    read? text = some (.ok (pack spelling.canonical spelling.primary.length)) := by
  have nonempty : text ≠ "" := by
    rintro rfl
    exact spelling.isPrimary.ne_nil (List.append_eq_nil_iff.1 isSpelled.symm).1
  have short : text.utf8ByteSize ≤ maxTagSize := by
    rw [← Utf8.size_toList, isSpelled, spelling.isAscii_toList.size_eq_length]
    exact spelling.length_toList_le
  have areSubtags :
      subtags? 0 none (spelling.primary :: spelling.pieces.map Prod.snd) =
        some spelling.subtags :=
    (subtags?_eq_some_iff spelling.parted.separators).2 ⟨spelling, rfl, rfl, rfl⟩
  rw [read?_joined spelling.parted isSpelled nonempty short, areSubtags, spelling.canonical_eq]
  rfl

/-- Any other text of the right size has a malformed subtag. -/
theorem read?_of_no_spelling
    (nonempty : text ≠ "")
    (short : text.utf8ByteSize ≤ maxTagSize)
    (unspelled : ¬∃ spelling : Spelling, text.toList = spelling.toList) :
    read? text = some (.error .malformedSubtag) := by
  obtain ⟨first, pieces, parted, isJoined⟩ := exists_joined text.toList
  rw [read?_joined parted isJoined nonempty short]
  cases read : subtags? 0 none (first :: pieces.map Prod.snd) with
  | none => rfl
  | some subtags =>
      obtain ⟨spelling, rfl, rfl, -⟩ := (subtags?_eq_some_iff parted.separators).1 read
      exact absurd ⟨spelling, isJoined⟩ unspelled

/-- What a text is read to, as its size and its spellings tell. -/
inductive ReadsTo (text : String) : Except TagError Language → Prop
  | empty : text = "" → ReadsTo text (.error .empty)
  | tooLong :
      text ≠ "" → maxTagSize < text.utf8ByteSize → ReadsTo text (.error .tooLong)
  | malformedSubtag :
      text ≠ "" → text.utf8ByteSize ≤ maxTagSize →
        (¬∃ spelling : Spelling, text.toList = spelling.toList) →
          ReadsTo text (.error .malformedSubtag)
  | language (spelling : Spelling) :
      text.toList = spelling.toList →
        ReadsTo text (.ok (pack spelling.canonical spelling.primary.length))

/-- Reading leads to what it should, and never past the end of the buffer. -/
theorem exists_readsTo (text : String) :
    ∃ outcome, read? text = some outcome ∧ ReadsTo text outcome := by
  by_cases isEmpty : text = ""
  · exact ⟨_, by rw [isEmpty]; rfl, .empty isEmpty⟩
  by_cases long : maxTagSize < text.utf8ByteSize
  · refine ⟨_, ?_, .tooLong isEmpty long⟩
    rw [read?, if_neg (by simpa using isEmpty), if_pos long]
  have short := Nat.not_lt.1 long
  by_cases isSpelled : ∃ spelling : Spelling, text.toList = spelling.toList
  · obtain ⟨spelling, isSpelled⟩ := isSpelled
    exact ⟨_, read?_of_spelling isSpelled, .language spelling isSpelled⟩
  · exact ⟨_, read?_of_no_spelling isEmpty short isSpelled,
      .malformedSubtag isEmpty short isSpelled⟩

theorem read?_eq_parse (text : String) : read? text = some (parse text) := by
  obtain ⟨outcome, read, -⟩ := exists_readsTo text
  rw [parse, read, Option.getD_some]

theorem readsTo_parse (text : String) : ReadsTo text (parse text) := by
  obtain ⟨outcome, read, readsTo⟩ := exists_readsTo text
  rwa [parse, read, Option.getD_some]

theorem parse_of_spelling
    {spelling : Spelling}
    (isSpelled : text.toList = spelling.toList) :
    parse text = .ok (pack spelling.canonical spelling.primary.length) := by
  rw [parse, read?_of_spelling isSpelled, Option.getD_some]

theorem exists_spelling_of_parse {language : Language} (accepted : parse text = .ok language) :
    ∃ spelling : Spelling, text.toList = spelling.toList ∧
      language = pack spelling.canonical spelling.primary.length := by
  have readsTo := readsTo_parse text
  rw [accepted] at readsTo
  cases readsTo with
  | language spelling isSpelled => exact ⟨spelling, isSpelled, rfl⟩

/--
A text is a language tag if and only if it has a spelling.  Other texts are refused: the empty
one as such, then those that are overlong, and the rest for a malformed subtag.  A tag is kept
in canonical form, from which its primary subtag can be told, and no byte is ever written past
the end of the buffer.
-/
theorem tags_are_read_by_their_grammar (text : String) :
    read? text = some (parse text) ∧
      (parse text = .error .empty ↔ text = "") ∧
      (parse text = .error .tooLong ↔ text ≠ "" ∧ maxTagSize < text.utf8ByteSize) ∧
      (parse text = .error .malformedSubtag ↔
        text ≠ "" ∧ text.utf8ByteSize ≤ maxTagSize ∧
          ¬∃ spelling : Spelling, text.toList = spelling.toList) ∧
      ((∃ language, parse text = .ok language) ↔
        ∃ spelling : Spelling, text.toList = spelling.toList) ∧
      ∀ (language : Language) (spelling : Spelling),
        parse text = .ok language → text.toList = spelling.toList →
          language.text? = some (String.ofList spelling.canonical) ∧
            language.tag = String.ofList spelling.canonical ∧
            language.primary = String.ofList (spelling.primary.map Char.toLower) := by
  have readsTo := readsTo_parse text
  refine ⟨read?_eq_parse text, ⟨?_, ?_⟩, ⟨?_, ?_⟩, ⟨?_, ?_⟩, ⟨?_, ?_⟩, ?_⟩
  · intro refused
    rw [refused] at readsTo
    cases readsTo with
    | empty isEmpty => exact isEmpty
  · rintro rfl
    rfl
  · intro refused
    rw [refused] at readsTo
    cases readsTo with
    | tooLong nonempty long => exact ⟨nonempty, long⟩
  · rintro ⟨nonempty, long⟩
    rw [parse, read?, if_neg (by simpa using nonempty), if_pos long, Option.getD_some]
  · intro refused
    rw [refused] at readsTo
    cases readsTo with
    | malformedSubtag nonempty short unspelled => exact ⟨nonempty, short, unspelled⟩
  · rintro ⟨nonempty, short, unspelled⟩
    rw [parse, read?_of_no_spelling nonempty short unspelled, Option.getD_some]
  · rintro ⟨language, accepted⟩
    obtain ⟨spelling, isSpelled, -⟩ := exists_spelling_of_parse accepted
    exact ⟨spelling, isSpelled⟩
  · rintro ⟨spelling, isSpelled⟩
    exact ⟨_, parse_of_spelling isSpelled⟩
  · intro language spelling accepted isSpelled
    rw [parse_of_spelling isSpelled] at accepted
    obtain rfl := Except.ok.inj accepted
    exact ⟨spelling.text?_pack, spelling.tag_pack, spelling.primary_pack⟩

/-- A tag that fills the buffer. -/
example : (parse "YUE_latn_419").toOption.map tag = some "yue-Latn-419" := by
  decide +kernel

end Reading

end Folio.Language
