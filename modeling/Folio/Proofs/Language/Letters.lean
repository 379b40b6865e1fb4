import Mathlib
import Folio.Language

/-!
# The letters of tags

Tags are made of letters and digits that have one byte each in UTF-8, and of separators.
Another case of a letter is again such a letter, and no other character has another case.
Letters of one byte are encoded by their codes, and read back from these.
-/

namespace Folio.Language

variable {c : Char}

/-! ## Letters, digits and separators -/

theorem isAlphanum_of_isAlpha (alpha : c.isAlpha) : c.isAlphanum :=
  Bool.or_eq_true_iff.2 (.inl alpha)

theorem isAlphanum_of_isDigit (digit : c.isDigit) : c.isAlphanum :=
  Bool.or_eq_true_iff.2 (.inr digit)

theorem isDigit_eq_false_of_isAlpha (alpha : c.isAlpha) : c.isDigit = false := by
  simp [Char.isAlpha, Char.isUpper, Char.isLower, Char.isDigit,
    UInt32.le_iff_toNat_le] at alpha ⊢
  omega

theorem utf8Size_of_isAlphanum (alphanum : c.isAlphanum) : c.utf8Size = 1 := by
  rw [Char.utf8Size_eq_one_iff, UInt32.le_iff_toNat_le]
  simp [Char.isAlphanum, Char.isAlpha, Char.isUpper, Char.isLower, Char.isDigit,
    UInt32.le_iff_toNat_le] at alphanum ⊢
  omega

theorem isSeparator_iff : isSeparator c ↔ c = '-' ∨ c = '_' := by
  rw [isSeparator, Bool.or_eq_true, beq_iff_eq, beq_iff_eq]

theorem utf8Size_of_isSeparator (separator : isSeparator c) : c.utf8Size = 1 := by
  rcases isSeparator_iff.1 separator with rfl | rfl <;> decide

theorem isSeparator_eq_false_of_isAlphanum (alphanum : c.isAlphanum) :
    isSeparator c = false := by
  refine Bool.eq_false_iff.2 fun separator => ?_
  rcases isSeparator_iff.1 separator with rfl | rfl <;> exact absurd alphanum (by decide)

/-! ## The case of a letter -/

theorem toLower_eq_or_isAlpha (c : Char) : c.toLower = c ∨ c.isAlpha := by
  by_cases upper : c.isUpper
  · exact .inr (Bool.or_eq_true_iff.2 (.inl upper))
  · exact .inl (Char.toLower_eq_of_not_isUpper upper)

/-- What letters have in common holds of a small letter if it holds of the letter. -/
theorem eq_toLower_of_forall_isAlpha
    {α : Type}
    {property : Char → α}
    {value : α}
    (common : ∀ d : Char, d.isAlpha → property d = value)
    (c : Char) :
    property c.toLower = property c := by
  rcases toLower_eq_or_isAlpha c with same | alpha
  · rw [same]
  · rw [common c alpha, common c.toLower (by rwa [Char.isAlpha_toLower_eq_isAlpha])]

theorem isDigit_toLower (c : Char) : c.toLower.isDigit = c.isDigit :=
  eq_toLower_of_forall_isAlpha (fun _ => isDigit_eq_false_of_isAlpha) c

theorem isSeparator_toLower (c : Char) : isSeparator c.toLower = isSeparator c :=
  eq_toLower_of_forall_isAlpha
    (fun _ alpha => isSeparator_eq_false_of_isAlphanum (isAlphanum_of_isAlpha alpha)) c

theorem utf8Size_toLower (c : Char) : c.toLower.utf8Size = c.utf8Size :=
  eq_toLower_of_forall_isAlpha
    (fun _ alpha => utf8Size_of_isAlphanum (isAlphanum_of_isAlpha alpha)) c

theorem utf8Size_toUpper (c : Char) : c.toUpper.utf8Size = c.utf8Size := by
  rw [← utf8Size_toLower, Char.toLower_toUpper_eq_toLower, utf8Size_toLower]

/-! ## Letters of one byte -/

/-- Every character takes one byte of UTF-8. -/
def IsAscii (letters : List Char) : Prop :=
  ∀ c ∈ letters, c.utf8Size = 1

namespace IsAscii

variable {letters : List Char}

theorem size_eq_length (ascii : IsAscii letters) : Utf8.size letters = letters.length := by
  induction letters with
  | nil => rfl
  | cons c rest sizeOfRest =>
      obtain ⟨oneByte, asciiRest⟩ := List.forall_mem_cons.1 ascii
      rw [Utf8.size_cons, oneByte, sizeOfRest asciiRest, List.length_cons, Nat.add_comm]

theorem map
    {change : Char → Char}
    (ascii : IsAscii letters)
    (sameSize : ∀ c, (change c).utf8Size = c.utf8Size) :
    IsAscii (letters.map change) := by
  intro c member
  obtain ⟨letter, isLetter, rfl⟩ := List.mem_map.1 member
  rw [sameSize, ascii letter isLetter]

/-- Such characters are encoded by their codes. -/
theorem flatMap_utf8EncodeChar (ascii : IsAscii letters) :
    letters.flatMap String.utf8EncodeChar = letters.map Char.toUInt8 := by
  induction letters with
  | nil => rfl
  | cons c rest encodeRest =>
      obtain ⟨oneByte, asciiRest⟩ := List.forall_mem_cons.1 ascii
      rw [List.flatMap_cons, String.utf8EncodeChar_eq_singleton oneByte, encodeRest asciiRest,
        List.map_cons]
      rfl

theorem fromUTF8? (ascii : IsAscii letters) :
    String.fromUTF8? (letters.map Char.toUInt8).toByteArray = some (String.ofList letters) := by
  have encoded : (letters.map Char.toUInt8).toByteArray = letters.utf8Encode := by
    rw [← ascii.flatMap_utf8EncodeChar, List.utf8Encode]
  rw [encoded, String.fromUTF8?, dif_pos ByteArray.isValidUTF8_utf8Encode]
  rfl

end IsAscii

end Folio.Language
