import Folio.Proofs.Language.Letters

/-!
# What is kept in the buffer of a tag

Whenever a subtag is written, the buffer holds the letters written before, from its first byte
on, and zeros behind them.  As long as there is room for the subtag, writing it leads to the
same with its letters added.  The letters have one byte each, so the text of a tag is made of
those letters again.
-/

namespace Folio.Language

variable
    {letters written more : List Char}
    {primaryLength : Nat}

/-! ## Bytes -/

/-- Letters at the beginning of a buffer, with zeros behind them. -/
def padded (letters : List Char) : Vector UInt8 maxTagSize :=
  .ofFn fun place => (letters[place.val]?.map Char.toUInt8).getD 0

theorem getElem_padded (letters : List Char) {place : Nat} (inRange : place < maxTagSize) :
    (padded letters)[place] = (letters[place]?.map Char.toUInt8).getD 0 := by
  rw [padded, Vector.getElem_ofFn]

/-- A letter that is written behind others stands behind them. -/
theorem set_padded (c : Char) (room : written.length < maxTagSize) :
    (padded written).set written.length c.toUInt8 = padded (written ++ [c]) := by
  apply Vector.ext
  intro place inRange
  rw [Vector.getElem_set, getElem_padded, getElem_padded]
  rcases Nat.lt_trichotomy place written.length with before | isEnd | behind
  · rw [if_neg (Nat.ne_of_gt before), List.getElem?_append_left before]
  · subst isEnd
    rw [if_pos rfl, List.getElem?_concat_length]
    rfl
  · rw [if_neg (Nat.ne_of_lt behind), List.getElem?_eq_none (Nat.le_of_lt behind),
      List.getElem?_eq_none (by rwa [List.length_append])]

theorem writeAt?_padded (room : written.length + more.length ≤ maxTagSize) :
    writeAt? (padded written) written.length (more.map Char.toUInt8) =
      some (padded (written ++ more)) := by
  induction more generalizing written with
  | nil => rw [List.map_nil, writeAt?, List.append_nil]
  | cons c rest writeRest =>
      rw [List.length_cons] at room
      have inRange : written.length < maxTagSize := by omega
      have writtenRest := @writeRest (written ++ [c])
        (by rw [List.length_append, List.length_singleton]; omega)
      rw [List.length_append, List.length_singleton, List.append_assoc] at writtenRest
      rw [List.map_cons, writeAt?, dif_pos inRange, set_padded c inRange]
      exact writtenRest

theorem take_toList_padded (room : letters.length ≤ maxTagSize) :
    (padded letters).toList.take letters.length = letters.map Char.toUInt8 := by
  apply List.ext_getElem
  · rw [List.length_take, Vector.length_toList, List.length_map, Nat.min_eq_left room]
  · intro place inTaken inLetters
    rw [List.length_map] at inLetters
    rw [List.getElem_take, Vector.getElem_toList, getElem_padded,
      List.getElem?_eq_getElem inLetters, List.getElem_map]
    rfl

/-! ## Languages -/

/-- The language with a tag of these letters, the first of which are its primary subtag. -/
def pack (letters : List Char) (primaryLength : Nat) : Language where
  bytes := padded letters
  size := letters.length.toUInt8
  primarySize := primaryLength.toUInt8

theorem blank_eq : blank = pack [] 0 := by
  decide

theorem toNat_size_pack (room : letters.length ≤ maxTagSize) :
    (pack letters primaryLength).size.toNat = letters.length :=
  UInt8.toNat_ofNat_of_lt' (Nat.lt_of_le_of_lt room (by decide))

/-- Where there is room for a subtag, it is written behind what has been written. -/
theorem append?_pack
    {written : List Char}
    {index : Nat}
    {kind : SubtagKind}
    {part : List Char}
    (primaryLength : Nat)
    (room : written.length + (spelled index kind part).length ≤ maxTagSize) :
    (pack written primaryLength).append? index kind part =
      some (pack (written ++ spelled index kind part)
        (if index = 0 then (written ++ spelled index kind part).length else primaryLength)) := by
  have start : (pack written primaryLength).size.toNat = written.length :=
    toNat_size_pack (by omega)
  have isWritten :
      writeAt? (pack written primaryLength).bytes written.length
          ((spelled index kind part).map Char.toUInt8) =
        some (padded (written ++ spelled index kind part)) :=
    writeAt?_padded room
  simp only [append?, start, isWritten, Option.map_some, ← List.length_append]
  by_cases isFirst : index = 0
  · simp only [if_pos isFirst]
    rfl
  · simp only [if_neg isFirst]
    rfl

theorem text?_pack (ascii : IsAscii letters) (room : letters.length ≤ maxTagSize) :
    (pack letters primaryLength).text? = some (String.ofList letters) := by
  rw [text?, toNat_size_pack room]
  change String.fromUTF8? ((padded letters).toList.take letters.length).toByteArray = _
  rw [take_toList_padded room, ascii.fromUTF8?]

theorem tag_pack (ascii : IsAscii letters) (room : letters.length ≤ maxTagSize) :
    (pack letters primaryLength).tag = String.ofList letters := by
  rw [tag, text?_pack ascii room, Option.getD_some]

theorem primary_pack
    {primary : List Char}
    (ascii : IsAscii (primary ++ more))
    (room : (primary ++ more).length ≤ maxTagSize) :
    (pack (primary ++ more) primary.length).primary = String.ofList primary := by
  have asciiPrimary : IsAscii primary := fun c member => ascii c (List.mem_append_left more member)
  have isSmall : primary.length < UInt8.size := by
    rw [List.length_append] at room
    exact Nat.lt_of_le_of_lt (by omega : primary.length ≤ maxTagSize) (by decide)
  have primarySize :
      (pack (primary ++ more) primary.length).primarySize.toNat = Utf8.size primary := by
    rw [asciiPrimary.size_eq_length]
    exact UInt8.toNat_ofNat_of_lt' isSmall
  rw [Language.primary, tag_pack ascii room, primarySize, String.toList_ofList,
    Utf8.take?_size_append]
  rfl

end Folio.Language
