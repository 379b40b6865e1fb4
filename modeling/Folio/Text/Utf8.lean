/-!
# Places in UTF-8 text

Offsets and sizes count the bytes of UTF-8, while texts are taken apart as lists of
characters.  This file measures such lists.
-/

namespace Folio.Utf8

/-- The number of bytes of a list of characters. -/
def size : List Char → Nat
  | [] => 0
  | c :: rest => c.utf8Size + size rest

/-- Each character with its byte offset, the first one standing at `start`. -/
def placesFrom (start : Nat) : List Char → List (Nat × Char)
  | [] => []
  | c :: rest => (start, c) :: placesFrom (start + c.utf8Size) rest

/-- Each character with its byte offset. -/
def places (text : List Char) : List (Nat × Char) :=
  placesFrom 0 text

/-- The text after a number of bytes, if they are whole characters. -/
def drop? : Nat → List Char → Option (List Char)
  | 0, text => some text
  | _ + 1, [] => none
  | count + 1, c :: rest =>
      if c.utf8Size ≤ count + 1 then drop? (count + 1 - c.utf8Size) rest else none

/-- The text of a number of bytes, if they are whole characters. -/
def take? : Nat → List Char → Option (List Char)
  | 0, _ => some []
  | _ + 1, [] => none
  | count + 1, c :: rest =>
      if c.utf8Size ≤ count + 1 then
        (take? (count + 1 - c.utf8Size) rest).map (c :: ·)
      else
        none

/-- The text between two byte offsets, if both lie between characters and in order. -/
def slice? (text : List Char) (first last : Nat) : Option (List Char) :=
  if first ≤ last then
    (drop? first text).bind (take? (last - first))
  else
    none

@[simp]
theorem size_nil : size [] = 0 := rfl

@[simp]
theorem size_cons (c : Char) (rest : List Char) :
    size (c :: rest) = c.utf8Size + size rest := rfl

@[simp]
theorem size_append (left right : List Char) :
    size (left ++ right) = size left + size right := by
  induction left with
  | nil => simp
  | cons c rest sizeOfRest => simp [sizeOfRest, Nat.add_assoc]

/-- The bytes of a text are those of its characters. -/
theorem size_eq_utf8ByteSize (text : List Char) :
    size text = (String.ofList text).utf8ByteSize := by
  induction text with
  | nil => simp
  | cons c rest sizeOfRest =>
      have split : String.ofList (c :: rest) = String.singleton c ++ String.ofList rest := by
        rw [String.singleton_eq_ofList, ← String.ofList_append]
        rfl
      rw [size_cons, sizeOfRest, split, String.utf8ByteSize_append,
        String.utf8ByteSize_singleton]

@[simp]
theorem size_toList (text : String) : size text.toList = text.utf8ByteSize := by
  rw [size_eq_utf8ByteSize, String.ofList_toList]

@[simp]
theorem length_placesFrom (start : Nat) (text : List Char) :
    (placesFrom start text).length = text.length := by
  induction text generalizing start with
  | nil => rfl
  | cons c rest lengthOfRest => simp [placesFrom, lengthOfRest]

theorem size_pos {text : List Char} (nonempty : text ≠ []) : 0 < size text := by
  cases text with
  | nil => exact absurd rfl nonempty
  | cons c rest => exact Nat.add_pos_left c.utf8Size_pos _

theorem length_le_size (text : List Char) : text.length ≤ size text := by
  induction text with
  | nil => exact Nat.le_refl 0
  | cons c rest lengthOfRest =>
      have someByte := c.utf8Size_pos
      rw [List.length_cons, size_cons]
      omega

@[simp]
theorem map_snd_placesFrom (start : Nat) (text : List Char) :
    (placesFrom start text).map Prod.snd = text := by
  induction text generalizing start with
  | nil => rfl
  | cons c rest charsOfRest => simp [placesFrom, charsOfRest]

/-- What stands before a character puts it as many bytes further on. -/
theorem placesFrom_append (start : Nat) (left right : List Char) :
    placesFrom start (left ++ right) =
      placesFrom start left ++ placesFrom (start + size left) right := by
  induction left generalizing start with
  | nil => rfl
  | cons c rest placesOfRest => simp [placesFrom, placesOfRest, Nat.add_assoc]

/-- A character stands at the bytes of those before it. -/
theorem getElem?_placesFrom (start : Nat) (text : List Char) (place : Nat) :
    (placesFrom start text)[place]? =
      text[place]?.map fun c => (start + size (text.take place), c) := by
  induction text generalizing start place with
  | nil => rfl
  | cons c rest placesOfRest =>
      cases place with
      | zero => rfl
      | succ place => simp [placesFrom, placesOfRest, Nat.add_assoc]

theorem getElem?_places (text : List Char) (place : Nat) :
    (places text)[place]? = text[place]?.map fun c => (size (text.take place), c) := by
  simp [places, getElem?_placesFrom]

/-- A character stands before all later ones, and before the end. -/
theorem size_take_lt {text : List Char} {first last : Nat}
    (before : first < last)
    (inRange : last ≤ text.length) :
    size (text.take first) < size (text.take last) := by
  induction text generalizing first last with
  | nil => exact absurd inRange (by simp; omega)
  | cons c rest before_of_rest =>
      cases last with
      | zero => exact absurd before (Nat.not_lt_zero _)
      | succ last =>
          cases first with
          | zero => exact size_pos (by simp)
          | succ first =>
              simp only [List.take_succ_cons, size_cons, Nat.add_lt_add_iff_left]
              exact before_of_rest (Nat.lt_of_succ_lt_succ before)
                (Nat.le_of_succ_le_succ inRange)

/-! ## Slices -/

theorem drop?_cons
    {count : Nat}
    {c : Char}
    (reaches : c.utf8Size ≤ count)
    (rest : List Char) :
    drop? count (c :: rest) = drop? (count - c.utf8Size) rest := by
  cases count with
  | zero => exact absurd c.utf8Size_pos (Nat.not_lt.mpr reaches)
  | succ count => simp [drop?, reaches]

theorem take?_cons
    {count : Nat}
    {c : Char}
    (reaches : c.utf8Size ≤ count)
    (rest : List Char) :
    take? count (c :: rest) = (take? (count - c.utf8Size) rest).map (c :: ·) := by
  cases count with
  | zero => exact absurd c.utf8Size_pos (Nat.not_lt.mpr reaches)
  | succ count => simp [take?, reaches]

/-- The bytes of the characters in front lead to those behind. -/
theorem drop?_size_append (left right : List Char) :
    drop? (size left) (left ++ right) = some right := by
  induction left with
  | nil => simp [drop?]
  | cons c rest dropRest =>
      rw [List.cons_append, size_cons, drop?_cons (Nat.le_add_right _ _),
        Nat.add_sub_cancel_left]
      exact dropRest

theorem take?_size_append (left right : List Char) :
    take? (size left) (left ++ right) = some left := by
  induction left with
  | nil => cases right <;> rfl
  | cons c rest takeRest =>
      rw [List.cons_append, size_cons, take?_cons (Nat.le_add_right _ _),
        Nat.add_sub_cancel_left, takeRest]
      rfl

/-- The characters between two others are found at the bytes in front of them. -/
theorem slice?_append (before inside after : List Char) :
    slice? (before ++ inside ++ after) (size before) (size before + size inside) =
      some inside := by
  have found := drop?_size_append before (inside ++ after)
  simp [slice?, found, take?_size_append]

end Folio.Utf8
