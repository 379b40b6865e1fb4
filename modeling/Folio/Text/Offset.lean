/-!
# Offsets

Offsets into a text have 64 bits.  Their sums and differences are not checked: past the last
offset they go on at the first one.  Between places of one text that never happens, since a text
has an offset for each of its places.
-/

namespace Folio

namespace Offset

/-- The number of offsets. -/
def count : Nat := UInt64.size

/-- The sum of two offsets. -/
def add (left right : Nat) : Nat :=
  (left + right) % count

/-- The difference of two offsets. -/
def sub (left right : Nat) : Nat :=
  (left + count - right % count) % count

theorem add_lt_count (left right : Nat) : add left right < count :=
  Nat.mod_lt _ (by decide)

/-- A sum is exact if it is an offset. -/
theorem add_of_lt {left right : Nat} (inRange : left + right < count) :
    add left right = left + right :=
  Nat.mod_eq_of_lt inRange

/-- The difference of an offset and one that is not after it is exact. -/
theorem sub_of_le {left right : Nat} (inRange : left < count) (inOrder : right ≤ left) :
    sub left right = left - right := by
  simp only [sub, count, UInt64.size] at inRange ⊢
  omega

/-- The difference of two offsets that are moved on by the same distance stays the same. -/
theorem sub_add_right (left right distance : Nat) :
    sub (left + distance) (right + distance) = sub left right := by
  simp only [sub, count, UInt64.size]
  omega

/-- To add a difference again leads to the offset that was subtracted from. -/
theorem add_sub {left : Nat} (inRange : left < count) (right : Nat) :
    add right (sub left right) = left := by
  simp only [add, sub, count, UInt64.size] at inRange ⊢
  omega

end Offset

end Folio
