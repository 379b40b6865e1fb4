import Folio.Proofs.Language.TagBuffer

/-!
# How subtags are read

What is read from a subtag depends on its letters, on how many subtags stand in front of it
and on what the last of them was.  Told without the buffer, a list of subtags is read to their
kinds or not at all.  As long as the subtags fit into the buffer, the reader that writes into
it comes to the same, and what it has written is each subtag in the case of its kind, with a
hyphen in front of every subtag but the first.
-/

namespace Folio.Language

variable
    {part : List Char}
    {kind : SubtagKind}
    {index : Nat}
    {previous : Option SubtagKind}

/-! ## Kinds of subtags -/

namespace SubtagKind

/-- The subtags of each kind. -/
def IsSpelledBy : SubtagKind → List Char → Prop
  | primary, part => (part.length = 2 ∨ part.length = 3) ∧ ∀ c ∈ part, c.isAlpha
  | script, part => part.length = 4 ∧ ∀ c ∈ part, c.isAlpha
  | region, part =>
      (part.length = 2 ∧ ∀ c ∈ part, c.isAlpha) ∨ (part.length = 3 ∧ ∀ c ∈ part, c.isDigit)

/-- The kinds that may stand behind `index` subtags, the last of them of the kind `previous`. -/
def Follows (index : Nat) (previous : Option SubtagKind) : SubtagKind → Prop
  | primary => index = 0
  | script => index = 1
  | region => index = 1 ∨ (index = 2 ∧ previous = some script)

theorem IsSpelledBy.isAlphanum (spells : kind.IsSpelledBy part) :
    ∀ c ∈ part, c.isAlphanum := by
  intro c member
  cases kind with
  | primary => exact isAlphanum_of_isAlpha (spells.2 c member)
  | script => exact isAlphanum_of_isAlpha (spells.2 c member)
  | region =>
      rcases spells with ⟨-, alpha⟩ | ⟨-, digit⟩
      · exact isAlphanum_of_isAlpha (alpha c member)
      · exact isAlphanum_of_isDigit (digit c member)

theorem IsSpelledBy.isAscii (spells : kind.IsSpelledBy part) : IsAscii part :=
  fun c member => utf8Size_of_isAlphanum (spells.isAlphanum c member)

theorem IsSpelledBy.ne_nil (spells : kind.IsSpelledBy part) : part ≠ [] := by
  rintro rfl
  cases kind <;> simp [IsSpelledBy] at spells

theorem inCase_primary (part : List Char) : primary.inCase part = part.map Char.toLower := rfl

theorem inCase_region (part : List Char) : region.inCase part = part.map Char.toUpper := rfl

@[simp]
theorem length_inCase (kind : SubtagKind) (part : List Char) :
    (kind.inCase part).length = part.length := by
  cases kind with
  | primary => exact List.length_map ..
  | script =>
      cases part with
      | nil => rfl
      | cons c rest => simp [inCase]
  | region => exact List.length_map ..

theorem isAscii_inCase (kind : SubtagKind) (ascii : IsAscii part) :
    IsAscii (kind.inCase part) := by
  cases kind with
  | primary => exact ascii.map utf8Size_toLower
  | region => exact ascii.map utf8Size_toUpper
  | script =>
      cases part with
      | nil => exact ascii
      | cons c rest =>
          obtain ⟨oneByte, asciiRest⟩ := List.forall_mem_cons.1 ascii
          refine List.forall_mem_cons.2 ⟨?_, IsAscii.map asciiRest utf8Size_toLower⟩
          rw [utf8Size_toUpper, oneByte]

theorem of?_eq_some_iff :
    of? index part = some kind ↔
      (kind = primary ∧ index = 0 ∨ kind = script ∧ index = 1 ∨
        kind = region ∧ (index = 1 ∨ index = 2)) ∧ kind.IsSpelledBy part := by
  rcases index with _ | _ | _ | index <;> cases kind <;> unfold of? IsSpelledBy <;>
    split <;> simp_all

/-- The kind of a subtag, if it is in place where it stands. -/
def inPlace? (index : Nat) (previous : Option SubtagKind) (part : List Char) :
    Option SubtagKind :=
  if index = 2 ∧ previous ≠ some script then none else of? index part

theorem inPlace?_eq_some_iff :
    inPlace? index previous part = some kind ↔
      kind.Follows index previous ∧ kind.IsSpelledBy part := by
  unfold inPlace?
  split
  case isTrue outOfPlace =>
    cases kind <;> simp [Follows, outOfPlace]
  case isFalse notOutOfPlace =>
    rw [of?_eq_some_iff]
    cases kind <;> grind [Follows]

end SubtagKind

/-! ## Lists of subtags -/

/-- Subtags with their kinds, if each of them is in place behind the ones before it. -/
def subtags? (index : Nat) (previous : Option SubtagKind) :
    List (List Char) → Option (List (SubtagKind × List Char))
  | [] => some []
  | part :: rest =>
      (SubtagKind.inPlace? index previous part).bind fun kind =>
        (subtags? (index + 1) (some kind) rest).map ((kind, part) :: ·)

theorem subtags?_cons_eq_some_iff
    {rest : List (List Char)}
    {subtags : List (SubtagKind × List Char)} :
    subtags? index previous (part :: rest) = some subtags ↔
      ∃ kind more,
        (kind.Follows index previous ∧ kind.IsSpelledBy part) ∧
          subtags? (index + 1) (some kind) rest = some more ∧ subtags = (kind, part) :: more := by
  simp only [subtags?, Option.bind_eq_some_iff, Option.map_eq_some_iff,
    SubtagKind.inPlace?_eq_some_iff, eq_comm (b := subtags), exists_and_left]

/-- What one subtag does to a reading. -/
theorem readSubtags?_cons
    (index : Nat)
    (previous : Option SubtagKind)
    (language : Language)
    (part : List Char)
    (rest : List (List Char)) :
    readSubtags? index previous language (part :: rest) =
      (SubtagKind.inPlace? index previous part).elim (some (.error .malformedSubtag)) fun kind =>
        (language.append? index kind part).bind fun language =>
          readSubtags? (index + 1) (some kind) language rest := by
  rw [readSubtags?, SubtagKind.inPlace?]
  by_cases outOfPlace : index = 2 ∧ previous ≠ some .script
  · simp only [if_pos outOfPlace]
    split
    · rfl
    · split <;> rfl
  · simp only [if_neg outOfPlace]
    cases found : SubtagKind.of? index part with
    | none => exact ite_self _
    | some kind =>
        have spells := (SubtagKind.of?_eq_some_iff.1 found).2
        have isSubtag : (part.isEmpty || !part.all Char.isAlphanum) = false := by
          rw [List.isEmpty_eq_false_iff.2 spells.ne_nil, List.all_eq_true.2 spells.isAlphanum]
          rfl
        rw [isSubtag]
        rfl

/-- Subtags in the case of their kinds, with a hyphen in front of each. -/
def hyphened (subtags : List (SubtagKind × List Char)) : List Char :=
  subtags.flatMap fun subtag => '-' :: subtag.1.inCase subtag.2

@[simp]
theorem hyphened_nil : hyphened [] = [] := rfl

theorem hyphened_cons
    (kind : SubtagKind)
    (part : List Char)
    (subtags : List (SubtagKind × List Char)) :
    hyphened ((kind, part) :: subtags) = spelled (index + 1) kind part ++ hyphened subtags := rfl

/-- Behind the first subtag, what is read is written as far as there is room for it. -/
theorem readSubtags?_pack
    {written : List Char}
    {parts : List (List Char)}
    (room : written.length + (parts.map fun part => part.length + 1).sum ≤ maxTagSize)
    (primaryLength index : Nat)
    (previous : Option SubtagKind) :
    readSubtags? (index + 1) previous (pack written primaryLength) parts =
      some ((subtags? (index + 1) previous parts).elim (.error .malformedSubtag) fun subtags =>
        .ok (pack (written ++ hyphened subtags) primaryLength)) := by
  induction parts generalizing written index previous with
  | nil =>
      rw [readSubtags?, subtags?, Option.elim_some, hyphened_nil, List.append_nil]
  | cons part rest readRest =>
      rw [List.map_cons, List.sum_cons] at room
      rw [readSubtags?_cons, subtags?]
      cases SubtagKind.inPlace? (index + 1) previous part with
      | none => rfl
      | some kind =>
          have length : (spelled (index + 1) kind part).length = part.length + 1 := by
            simp [spelled]
          have fits : written.length + (spelled (index + 1) kind part).length ≤ maxTagSize := by
            omega
          have appended := append?_pack primaryLength fits
          rw [if_neg (Nat.succ_ne_zero index)] at appended
          have restRead := @readRest (written ++ spelled (index + 1) kind part)
            (by rw [List.length_append]; omega) (index + 1) (some kind)
          rw [Option.elim_some, appended, Option.bind_some, restRead, Option.bind_some]
          cases subtags? (index + 1 + 1) (some kind) rest with
          | none => rfl
          | some subtags =>
              rw [Option.map_some, Option.elim_some, Option.elim_some, List.append_assoc,
                ← hyphened_cons]

/-- Where there is room for all the subtags, they are read as they are without a buffer. -/
theorem readSubtags?_blank
    {first : List Char}
    {parts : List (List Char)}
    (room : first.length + (parts.map fun part => part.length + 1).sum ≤ maxTagSize) :
    readSubtags? 0 none blank (first :: parts) =
      some ((subtags? 0 none (first :: parts)).elim (.error .malformedSubtag) fun subtags =>
        .ok (pack (hyphened subtags).tail first.length)) := by
  rw [readSubtags?_cons, subtags?, blank_eq]
  cases SubtagKind.inPlace? 0 none first with
  | none => rfl
  | some kind =>
      have fits : ([] : List Char).length + (spelled 0 kind first).length ≤ maxTagSize := by
        simp only [spelled, if_pos, List.nil_append, SubtagKind.length_inCase, List.length_nil]
        omega
      have appended := append?_pack 0 fits
      rw [List.nil_append, if_pos rfl, spelled, if_pos rfl, List.nil_append,
        SubtagKind.length_inCase] at appended
      rw [← SubtagKind.length_inCase kind first] at room
      have restRead := readSubtags?_pack room first.length 0 (some kind)
      rw [Option.elim_some, appended, Option.bind_some, restRead, Option.bind_some]
      cases subtags? (0 + 1) (some kind) parts with
      | none => rfl
      | some subtags => rfl

end Folio.Language
