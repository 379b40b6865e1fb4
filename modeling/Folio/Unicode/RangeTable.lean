/-!
# Tables of code point ranges

A property of characters is given as lists of ranges, written the way the Unicode character
database prints them: `0041-005A` for a range, `00AA` for a single code point.  The table
keeps the ranges of all values in one sorted array, so that a look-up is a binary search.
-/

namespace Folio

/-- The code points from `first` to `last` share `value`. -/
structure CodeRange (α : Type) where
  first : Nat
  last : Nat
  value : α
  deriving Repr

/-- Disjoint ranges in increasing order. -/
structure RangeTable (α : Type) where
  ranges : Array (CodeRange α)

namespace RangeTable

/-! ## Reading ranges -/

/-- The value of a hexadecimal digit; other characters count as zero. -/
def digitValue (c : Char) : Nat :=
  if c.isDigit then
    c.toNat - '0'.toNat
  else if 'A' ≤ c ∧ c ≤ 'F' then
    c.toNat - 'A'.toNat + 10
  else
    0

/-- The code point written in hexadecimal. -/
def readCode (digits : String) : Nat :=
  digits.toList.foldl (fun code digit => 16 * code + digitValue digit) 0

/-- The range written as one code point or as two with a dash between them. -/
def readRange (text : String) : Nat × Nat :=
  match text.splitOn "-" with
  | [code] => (readCode code, readCode code)
  | first :: last :: _ => (readCode first, readCode last)
  | [] => (0, 0)

/-- The ranges of one value, several to a line. -/
def readRanges {α : Type} (value : α) (lines : List String) : List (CodeRange α) :=
  (lines.flatMap (·.splitOn " ")).map fun text =>
    let (first, last) := readRange text
    ⟨first, last, value⟩

/-- The table of several values, each given with its ranges. -/
def ofRanges {α : Type} (rows : List (α × List String)) : RangeTable α where
  ranges :=
    ((rows.flatMap fun row => readRanges row.1 row.2).mergeSort
      fun left right => left.first ≤ right.first).toArray

/-! ## Looking up a code point -/

/--
Search the ranges with indices from `low` below `high`, where the range that holds `code`
lies if there is one.
-/
def findBetween? {α : Type}
    (table : RangeTable α)
    (code low high : Nat) :
    Option α :=
  if low < high then
    let middle := low + (high - low) / 2
    match table.ranges[middle]? with
    | none => none
    | some range =>
        if code < range.first then
          findBetween? table code low middle
        else if range.last < code then
          findBetween? table code (middle + 1) high
        else
          some range.value
  else
    none
termination_by high - low
decreasing_by all_goals omega

/-- The value of the range that holds `code`. -/
def find? {α : Type} (table : RangeTable α) (code : Nat) : Option α :=
  table.findBetween? code 0 table.ranges.size

end RangeTable

end Folio
