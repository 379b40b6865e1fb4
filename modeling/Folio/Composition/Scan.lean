import Folio.Composition.Analysis
import Folio.Element.Basic

/-!
# Words and spaces of a run

An analyzed run is scanned once.  A word ends where spacing begins, where the level changes,
and where a line may end, unless a hyphen stands just before.  A stretch of spacing becomes
one space: a line may end at it if it has an ordinary blank and a line may end before the
character after it, again unless a hyphen stands just before the stretch.

Between two characters of different levels the markers that raise or lower the level are put
in.  A word that ends at such a place still belongs to the level before it.
-/

namespace Folio

/-- The markers that lead from one level to another. -/
def levelShift (start finish : Bidi.Level) : List Element :=
  List.replicate (start - finish) (.marker .endReversed) ++
    List.replicate (finish - start) (.marker .startReversed)

/-- What has been read but not yet put out. -/
inductive Pending where
  /-- The letters of a word, the last one first, and the offset of its first letter. -/
  | word (start : Nat) (letters : List Char)
  /-- Spacing, whether there is an ordinary blank in it, and the character before it. -/
  | gap (hasBlank : Bool) (before : Option Char)
  deriving DecidableEq, Repr

namespace Scan

/-- At the start of a run nothing has been read. -/
def initial : Pending :=
  .word 0 []

/-- A hyphen, after which no line ends inside a run. -/
def holdsLine (previous : Option Char) : Bool :=
  previous == some '-'

/-- The space for a stretch of spacing before a character with the given boundary. -/
def spaceBefore (hasBlank : Bool) (before : Option Char) (boundary : Boundary) : Marker :=
  if hasBlank ∧ boundary ≠ .closed ∧ ¬ holdsLine before then .space else .noBreakSpace

/-- The space for a stretch of spacing at the end of the run. -/
def spaceAtEnd (hasBlank : Bool) : Marker :=
  if hasBlank then .space else .noBreakSpace

/-- Put out the letters of a word, if there are any. -/
def flushWord (shift : Nat) (level : Bidi.Level) (start : Nat) (letters : List Char) :
    List Element :=
  if letters.isEmpty then
    []
  else
    [.word ⟨String.ofList letters.reverse, shift + start, level, []⟩]

/-- Whether a word ends between its last letter and the next. -/
def cutsBefore (level : Bidi.Level) (letters : List Char) (c : AnalyzedChar) : Bool :=
  (c.boundary ≠ .closed ∧ ¬ holdsLine letters.head?) ∨ level ≠ c.level

/--
Read a character.  `level` is the level of the character before it, and `shift` the offset of
the run in its paragraph.
-/
def step
    (shift : Nat)
    (level : Bidi.Level)
    (pending : Pending)
    (c : AnalyzedChar) :
    List Element × Pending :=
  if isSpacing c.char then
    match pending with
    | .word start letters =>
        (flushWord shift level start letters, .gap (isBlank c.char) letters.head?)
    | .gap hasBlank before => ([], .gap (hasBlank || isBlank c.char) before)
  else
    match pending with
    | .word start letters =>
        if !letters.isEmpty && cutsBefore level letters c then
          (flushWord shift level start letters, .word c.offset [c.char])
        else
          ([], .word start (c.char :: letters))
    | .gap hasBlank before =>
        ([.marker (spaceBefore hasBlank before c.boundary)], .word c.offset [c.char])

/-- Put out what is left at the end of the run. -/
def finish (shift : Nat) (level : Bidi.Level) : Pending → List Element
  | .word start letters => flushWord shift level start letters
  | .gap hasBlank _ => [.marker (spaceAtEnd hasBlank)]

/-- The elements of the rest of a run. -/
def elements (shift : Nat) (level : Bidi.Level) (pending : Pending) :
    List AnalyzedChar → List Element
  | [] => finish shift level pending
  | c :: rest =>
      let (out, next) := step shift level pending c
      out ++ levelShift level c.level ++ elements shift c.level next rest

end Scan

end Folio
