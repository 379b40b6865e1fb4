import Folio.Text.Utf8

/-!
# Bytes and the characters they belong to

A byte offset may stand between two characters of a text or within one.  Offsets between
characters stay so when a part of the text is looked at by itself, and each byte of the part
belongs to the same character as in the whole.
-/

namespace Folio.Utf8

/-- The offset stands between two characters of the text, or at one of its ends. -/
def IsBoundary (text : List Char) (place : Nat) : Prop :=
  ∃ front back, text = front ++ back ∧ size front = place

/-- The character to which a byte of the text belongs. -/
def charAt? : List Char → Nat → Option Char
  | [], _ => none
  | c :: rest, byte => if byte < c.utf8Size then some c else charAt? rest (byte - c.utf8Size)

/-! ## Boundaries -/

theorem isBoundary_zero (text : List Char) : IsBoundary text 0 :=
  ⟨[], text, rfl, rfl⟩

theorem isBoundary_size (text : List Char) : IsBoundary text (size text) :=
  ⟨text, [], (List.append_nil text).symm, rfl⟩

/-- Of two fronts of a text the one with fewer bytes is a front of the other. -/
theorem exists_append_of_size_le
    {left right front back : List Char}
    (same : left ++ right = front ++ back)
    (fewer : size left ≤ size front) :
    ∃ between, front = left ++ between ∧ right = between ++ back := by
  rcases List.append_eq_append_iff.1 same with
    ⟨between, isFront, isRight⟩ | ⟨between, isLeft, isBack⟩
  · exact ⟨between, isFront, isRight⟩
  · cases between with
    | nil => exact ⟨[], by simpa using isLeft.symm, by simpa using isBack.symm⟩
    | cons c rest =>
        have someBytes := size_pos (List.cons_ne_nil c rest)
        rw [isLeft, size_append] at fewer
        omega

/-- A boundary of a text in a part of it is a boundary of the part. -/
theorem IsBoundary.inside
    {before inside after : List Char}
    {place : Nat}
    (boundary : IsBoundary (before ++ inside ++ after) place)
    (notBefore : size before ≤ place)
    (notAfter : place ≤ size before + size inside) :
    IsBoundary inside (place - size before) := by
  obtain ⟨front, back, split, rfl⟩ := boundary
  rw [List.append_assoc] at split
  obtain ⟨between, rfl, afterFront⟩ := exists_append_of_size_le split notBefore
  rw [size_append] at notAfter ⊢
  obtain ⟨rest, isInside, -⟩ := exists_append_of_size_le afterFront.symm (by omega)
  exact ⟨between, rest, isInside, by omega⟩

/-- A boundary of a part of a text is a boundary of the text. -/
theorem IsBoundary.within
    {inside : List Char}
    {place : Nat}
    (boundary : IsBoundary inside place)
    (before after : List Char) :
    IsBoundary (before ++ inside ++ after) (size before + place) := by
  obtain ⟨front, back, rfl, rfl⟩ := boundary
  exact ⟨before ++ front, back ++ after, by simp, size_append before front⟩

theorem IsBoundary.le_size
    {text : List Char}
    {place : Nat}
    (boundary : IsBoundary text place) :
    place ≤ size text := by
  obtain ⟨front, back, rfl, rfl⟩ := boundary
  rw [size_append]
  exact Nat.le_add_right _ _

/-! ## The character of a byte -/

theorem mem_of_charAt?
    {text : List Char}
    {byte : Nat}
    {c : Char}
    (found : charAt? text byte = some c) :
    c ∈ text := by
  induction text generalizing byte with
  | nil => cases found
  | cons first rest inRest =>
      rw [charAt?] at found
      split at found
      · obtain rfl := Option.some.inj found
        exact List.mem_cons_self
      · exact List.mem_cons_of_mem first (inRest found)

theorem exists_charAt?
    {text : List Char}
    {byte : Nat}
    (inRange : byte < size text) :
    ∃ c, charAt? text byte = some c := by
  induction text generalizing byte with
  | nil => exact absurd inRange (Nat.not_lt_zero byte)
  | cons first rest ofRest =>
      rw [charAt?]
      split
      · exact ⟨first, rfl⟩
      · rw [size_cons] at inRange
        exact ofRest (by omega)

theorem charAt?_append_of_lt
    {left : List Char}
    (right : List Char)
    {byte : Nat}
    (inLeft : byte < size left) :
    charAt? (left ++ right) byte = charAt? left byte := by
  induction left generalizing byte with
  | nil => exact absurd inLeft (Nat.not_lt_zero byte)
  | cons first rest ofRest =>
      rw [List.cons_append, charAt?, charAt?]
      split
      · rfl
      · rw [size_cons] at inLeft
        exact ofRest (by omega)

theorem charAt?_append_size_add
    (left right : List Char)
    (byte : Nat) :
    charAt? (left ++ right) (size left + byte) = charAt? right byte := by
  induction left with
  | nil => rw [List.nil_append, size_nil, Nat.zero_add]
  | cons first rest ofRest =>
      have beyond : ¬ size (first :: rest) + byte < first.utf8Size := by
        rw [size_cons]
        omega
      rw [List.cons_append, charAt?, if_neg beyond, size_cons, ← ofRest]
      congr 1
      omega

/-- The bytes of a part of a text belong to the characters of the part. -/
theorem charAt?_inside
    (before : List Char)
    {inside : List Char}
    (after : List Char)
    {byte : Nat}
    (inRange : byte < size inside) :
    charAt? (before ++ inside ++ after) (size before + byte) = charAt? inside byte := by
  rw [List.append_assoc, charAt?_append_size_add, charAt?_append_of_lt after inRange]

end Folio.Utf8
