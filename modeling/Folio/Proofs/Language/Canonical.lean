import Folio.Proofs.Language.Grammar

/-!
# Canonical tags as keys

Texts are written alike when they differ only in the case of letters and in which separators
they use.  The reader does not tell such texts apart, whether they are tags or not.  The
canonical tag of a language is written like the text it was read from, so it is read to the
same language.  What is kept of two tags is the same only where their canonical tags are, and
so a language stands for all the ways to write its tag, and for nothing else.
-/

namespace Folio.Language

variable
    {c : Char}
    {part : List Char}

/-! ## Characters up to case -/

/-- A character without the case of letters and the choice of separators. -/
def plain (c : Char) : Char :=
  if isSeparator c then '-' else c.toLower

theorem plain_of_separator (separator : isSeparator c) : plain c = '-' :=
  if_pos separator

theorem plain_of_not_separator (notSeparator : isSeparator c = false) : plain c = c.toLower :=
  if_neg (by simp [notSeparator])

theorem isSeparator_plain (c : Char) : isSeparator (plain c) = isSeparator c := by
  cases separator : isSeparator c with
  | true => rw [plain_of_separator separator]; rfl
  | false => rw [plain_of_not_separator separator, isSeparator_toLower, separator]

theorem utf8Size_plain (c : Char) : (plain c).utf8Size = c.utf8Size := by
  cases separator : isSeparator c with
  | true =>
      rw [plain_of_separator separator, utf8Size_of_isSeparator separator]
      rfl
  | false => rw [plain_of_not_separator separator, utf8Size_toLower]

theorem plain_toLower (c : Char) : plain c.toLower = plain c := by
  simp [plain, isSeparator_toLower]

theorem plain_toUpper (c : Char) : plain c.toUpper = plain c := by
  rw [← plain_toLower, Char.toLower_toUpper_eq_toLower, plain_toLower]

/-! ## Reading up to case -/

theorem of?_map_toLower (index : Nat) (part : List Char) :
    SubtagKind.of? index (part.map Char.toLower) = SubtagKind.of? index part := by
  simp [SubtagKind.of?, Function.comp_def, isDigit_toLower]

theorem inCase_map_toLower (kind : SubtagKind) (part : List Char) :
    kind.inCase (part.map Char.toLower) = kind.inCase part := by
  cases kind <;> cases part <;> simp [SubtagKind.inCase, Function.comp_def]

/-- A reading does not depend on the case of the subtags. -/
theorem readSubtags?_map_toLower
    (index : Nat)
    (previous : Option SubtagKind)
    (language : Language)
    (parts : List (List Char)) :
    readSubtags? index previous language (parts.map (List.map Char.toLower)) =
      readSubtags? index previous language parts := by
  induction parts generalizing index previous language with
  | nil => rfl
  | cons part rest readRest =>
      rw [List.map_cons, readSubtags?_cons, readSubtags?_cons, SubtagKind.inPlace?,
        SubtagKind.inPlace?, of?_map_toLower]
      simp only [append?, spelled, inCase_map_toLower, readRest]

theorem map_plain_of_not_separator (noSeparator : ∀ c ∈ part, isSeparator c = false) :
    part.map plain = part.map Char.toLower :=
  List.map_congr_left fun c member => plain_of_not_separator (noSeparator c member)

theorem map_plain_joined (first : List Char) (pieces : List (Char × List Char)) :
    (joined first pieces).map plain =
      joined (first.map plain) (pieces.map (Prod.map plain (List.map plain))) := by
  simp [joined, List.map_flatMap, List.flatMap_map]

theorem Parted.map_plain
    {first : List Char}
    {pieces : List (Char × List Char)}
    (parted : Parted first pieces) :
    Parted (first.map plain) (pieces.map (Prod.map plain (List.map plain))) where
  first := by simpa [isSeparator_plain] using parted.first
  separators := by
    rw [List.forall_mem_map]
    simpa [isSeparator_plain] using parted.separators
  pieces := by
    rw [List.forall_mem_map]
    simpa [isSeparator_plain] using parted.pieces

theorem splitOnP_map_plain (text : List Char) :
    (text.map plain).splitOnP isSeparator =
      (text.splitOnP isSeparator).map (List.map Char.toLower) := by
  obtain ⟨first, pieces, parted, rfl⟩ := exists_joined text
  rw [map_plain_joined, parted.map_plain.splitOnP_joined, parted.splitOnP_joined,
    map_plain_of_not_separator parted.first, List.map_cons, List.map_map, List.map_map]
  refine congrArg _ (List.map_congr_left fun piece member => ?_)
  exact map_plain_of_not_separator (parted.pieces piece member)

/-- A text is read in the same way with small letters, and hyphens for its separators. -/
theorem read?_plain (text : String) :
    read? (String.ofList (text.toList.map plain)) = read? text := by
  have sameSize : (String.ofList (text.toList.map plain)).utf8ByteSize = text.utf8ByteSize := by
    rw [← Utf8.size_eq_utf8ByteSize, ← Utf8.size_toList]
    induction text.toList with
    | nil => rfl
    | cons c rest sizeOfRest =>
        rw [List.map_cons, Utf8.size_cons, Utf8.size_cons, utf8Size_plain, sizeOfRest]
  have sameEmpty : (String.ofList (text.toList.map plain)).isEmpty = text.isEmpty := by
    simp only [String.isEmpty, sameSize]
  rw [read?, read?, sameSize, sameEmpty, String.toList_ofList, splitOnP_map_plain,
    readSubtags?_map_toLower]

/-! ## Texts that are written alike -/

/-- The texts differ at most in the case of letters and in the choice of separators. -/
def WrittenAlike (left right : String) : Prop :=
  left.toList.map plain = right.toList.map plain

instance (left right : String) : Decidable (WrittenAlike left right) :=
  inferInstanceAs (Decidable (_ = _))

theorem WrittenAlike.parse_eq {left right : String} (alike : WrittenAlike left right) :
    parse left = parse right := by
  rw [parse, parse, ← read?_plain left, ← read?_plain right, alike]

/-- A hyphen for the separator and another case for the letters are not told apart. -/
theorem map_plain_recased
    {piece? : Option (Char × List Char)}
    {recase : List Char → List Char}
    (separator : ∀ piece ∈ piece?, isSeparator piece.1)
    (recased : ∀ part, (recase part).map plain = part.map plain) :
    (piece?.elim [] fun piece => '-' :: recase piece.2).map plain =
      (piece?.toList.flatMap fun piece => piece.1 :: piece.2).map plain := by
  cases piece? with
  | none => rfl
  | some piece =>
      rw [Option.elim_some, Option.toList_some, List.flatMap_singleton, List.map_cons,
        List.map_cons, recased, plain_of_separator (separator piece rfl)]
      rfl

theorem Spelling.map_plain_canonical (spelling : Spelling) :
    spelling.canonical.map plain = spelling.toList.map plain := by
  have map_plain_titled : ∀ part, (titled part).map plain = part.map plain := by
    rintro (_ | ⟨c, rest⟩) <;> simp [titled, plain_toLower, plain_toUpper]
  have map_plain_toUpper : ∀ part : List Char, (part.map Char.toUpper).map plain =
      part.map plain := by
    simp [plain_toUpper]
  have map_plain_toLower : ∀ part : List Char, (part.map Char.toLower).map plain =
      part.map plain := by
    simp [plain_toLower]
  simp only [canonical, toList, joined, pieces, List.flatMap_append, List.map_append,
    map_plain_toLower, List.append_assoc,
    map_plain_recased (fun piece member => (spelling.isScript piece member).1) map_plain_titled,
    map_plain_recased (fun piece member => (spelling.isRegion piece member).1) map_plain_toUpper]

/-- The canonical tag of a language is written like the text from which it was read. -/
theorem writtenAlike_tag
    {text : String}
    {language : Language}
    (accepted : parse text = .ok language) :
    WrittenAlike language.tag text := by
  obtain ⟨spelling, isSpelled, rfl⟩ := exists_spelling_of_parse accepted
  rw [WrittenAlike, spelling.tag_pack, String.toList_ofList, isSpelled,
    spelling.map_plain_canonical]

/-! ## Directions -/

/-- What stands in front of the first separator. -/
def primarySubtag (text : String) : List Char :=
  text.toList.takeWhile fun c => !isSeparator c

theorem Parted.takeWhile_joined
    {first : List Char}
    {pieces : List (Char × List Char)}
    (parted : Parted first pieces) :
    (joined first pieces).takeWhile (fun c => !isSeparator c) = first := by
  rw [joined, List.takeWhile_append_of_pos (by simpa using parted.first)]
  cases pieces with
  | nil => exact List.append_nil first
  | cons piece rest => simp [parted.separators piece List.mem_cons_self]

theorem primary_of_parse
    {text : String}
    {language : Language}
    (accepted : parse text = .ok language) :
    language.primary = String.ofList ((primarySubtag text).map Char.toLower) := by
  obtain ⟨spelling, isSpelled, rfl⟩ := exists_spelling_of_parse accepted
  rw [spelling.primary_pack, primarySubtag, isSpelled, Spelling.toList,
    spelling.parted.takeWhile_joined]

/--
The canonical tag of a language is read to that language, and so are the texts that are
written like a text from which it was read, and no others.  Whether a language runs from right
to left is told by the primary subtag alone, in whatever case it is written.
-/
theorem tags_are_canonical_keys
    {text : String}
    {language : Language}
    (accepted : parse text = .ok language) :
    parse language.tag = .ok language ∧
      (∀ other, parse other = .ok language ↔ WrittenAlike other text) ∧
      ∀ other otherLanguage, parse other = .ok otherLanguage →
        (primarySubtag other).map Char.toLower = (primarySubtag text).map Char.toLower →
          otherLanguage.isRightToLeft = language.isRightToLeft := by
  refine ⟨?_, fun other => ⟨?_, ?_⟩, ?_⟩
  · rw [(writtenAlike_tag accepted).parse_eq, accepted]
  · intro otherAccepted
    exact (writtenAlike_tag otherAccepted).symm.trans (writtenAlike_tag accepted)
  · intro alike
    rw [alike.parse_eq, accepted]
  · intro other otherLanguage otherAccepted samePrimary
    rw [isRightToLeft, isRightToLeft, primary_of_parse accepted,
      primary_of_parse otherAccepted, samePrimary]

/-- Arabic in Egypt, with its script. -/
theorem tags_are_canonical_keys_of_arabic :
    let withScript : Language := ⟨#v[97, 114, 45, 65, 114, 97, 98, 45, 69, 71, 0, 0], 10, 2⟩
    let plainArabic : Language := ⟨#v[97, 114, 0, 0, 0, 0, 0, 0, 0, 0, 0, 0], 2, 2⟩
    parse "AR_arab_eg" = .ok withScript ∧
      parse withScript.tag = .ok withScript ∧
      parse "ar-ARAB_EG" = .ok withScript ∧
      parse "Ar" ≠ .ok withScript ∧
      plainArabic.isRightToLeft = withScript.isRightToLeft := by
  intro withScript plainArabic
  have accepted : parse "AR_arab_eg" = .ok withScript := by decide +kernel
  obtain ⟨sameTag, alike, directions⟩ := tags_are_canonical_keys accepted
  refine ⟨accepted, sameTag, (alike _).2 (by decide +kernel), ?_, ?_⟩
  · exact fun same => absurd ((alike _).1 same) (by decide +kernel)
  · exact directions "Ar" plainArabic (by decide +kernel) (by decide +kernel)

end Folio.Language
