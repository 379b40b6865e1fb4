import Folio.Bidi.Resolve
import Folio.LineBreak.Opportunity
import Folio.Text.Blank

/-!
# Analysis of a run of text

Before a run is taken apart into words, each of its characters gets the kind of line break
that may stand before it and its bidi level.  Where breaks and levels come from is left open:
the rules are a parameter, of which the Unicode rules are the standard instance.

Blanks at the edges of a run have no direction of their own.  The blanks at its start stay on
the level on which the text before the run ended, those at its end on the level of the last
character before them, and only what lies between is resolved.

Breaks come as byte offsets and levels as one level for each byte, while a run is a list of
characters.  The places of one kind are looked up by those of the other, so that analysis has no
result where such a place is out of range or inside a character.
-/

namespace Folio

/-- Where lines may end in a text, and on which levels its characters are. -/
structure TextRules where
  /-- The byte offsets of the line break opportunities, in increasing order. -/
  breaks : List Char → List Nat
  /--
  The levels of the characters of a text with a base level.  What they are over a base level
  above the highest is up to the rules; languages have the base levels 0 and 1.
  -/
  levels : Bidi.Level → List Char → List Bidi.Level
  length_levels : ∀ base text, (levels base text).length = text.length

/-- The Unicode rules under a word break option. -/
def TextRules.standard (option : WordBreak) : TextRules where
  breaks := LineBreak.opportunities option
  levels := Bidi.levels
  length_levels := Bidi.length_levels

/-- Whether a line may end before a character. -/
inductive Boundary where
  | closed
  | optional
  | mandatory
  deriving DecidableEq, Repr, Inhabited

/-- A character of a run with what is known about it. -/
structure AnalyzedChar where
  offset : Nat
  char : Char
  boundary : Boundary
  level : Bidi.Level
  deriving DecidableEq, Repr

namespace Analysis

/-! ## Boundaries -/

/-- The boundary at an opportunity after a character. -/
def openBoundary (previous : Char) : Boundary :=
  if endsLine previous then .mandatory else .optional

/-- The boundaries of a run so far, and the character at which the next opportunity is sought. -/
structure BreakScan where
  boundaries : Array Boundary
  place : Nat
  deriving DecidableEq, Repr

/-- The next place, within a distance, of a character that does not stand before an offset. -/
def seek (places : Array (Nat × Char)) (position place : Nat) : (distance : Nat) → Nat
  | 0 => place
  | distance + 1 =>
      match places[place]? with
      | some (offset, _) =>
          if offset < position then seek places position (place + 1) distance else place
      | none => place

/-- Write an entry of an array, if the array has it. -/
def write? {α : Type} (entries : Array α) (place : Nat) (entry : α) : Option (Array α) :=
  if place < entries.size then some (entries.setIfInBounds place entry) else none

/--
Open the boundary before a character of a run, if there is one at the place, it is not the first
and it stands at the offset.
-/
def openAt?
    (places : Array (Nat × Char))
    (position place : Nat)
    (boundaries : Array Boundary) :
    Option (Array Boundary) :=
  if place = 0 ∨ place = places.size then
    some boundaries
  else do
    let (offset, _) ← places[place]?
    if offset = position then
      let (_, previous) ← places[place - 1]?
      write? boundaries place (openBoundary previous)
    else
      some boundaries

/-- The character to which an opportunity leads a scan. -/
def BreakScan.found (places : Array (Nat × Char)) (position : Nat) (scan : BreakScan) : Nat :=
  seek places position scan.place (places.size - scan.place)

/-- Mark the opportunity at an offset.  Those at the two ends of a run are of no use. -/
def markBreak?
    (size : Nat)
    (places : Array (Nat × Char))
    (scan : BreakScan)
    (position : Nat) :
    Option BreakScan :=
  if position = 0 ∨ size ≤ position then
    some scan
  else
    let place := scan.found places position
    (openAt? places position place scan.boundaries).map fun boundaries => ⟨boundaries, place⟩

/-- Before the first opportunity no boundary of a run is open. -/
def BreakScan.initial (count : Nat) : BreakScan :=
  ⟨Array.replicate count .closed, 0⟩

/-- The boundary before each character of a run, found in one pass over the opportunities. -/
def boundaries? (breaks : List Nat) (places : List (Nat × Char)) : Option (List Boundary) :=
  let cells := places.toArray
  let size := Utf8.size (places.map Prod.snd)
  (breaks.foldlM (markBreak? size cells) (.initial cells.size)).map
    fun scan => scan.boundaries.toList

/-- The boundary before each character of a run; there is none before the first. -/
def boundaries (breaks : List Nat) (places : List (Nat × Char)) : List Boundary :=
  (boundaries? breaks places).getD []

/-! ## Levels -/

/-- The classes of characters that can put text on other levels than an even base level. -/
def leavesBase : BidiClass → Bool
  | .rightToLeft => true
  | .arabicLetter => true
  | .arabicNumber => true
  | .rightToLeftEmbedding => true
  | .rightToLeftOverride => true
  | .rightToLeftIsolate => true
  | .leftToRightEmbedding => true
  | .leftToRightOverride => true
  | .leftToRightIsolate => true
  | .firstStrongIsolate => true
  | _ => false

/-- Whether a text can have characters on other levels than the base level. -/
def needsResolution (base : Bidi.Level) (text : List Char) : Bool :=
  Bidi.isRightToLeft base || text.any fun c => leavesBase (BidiClass.ofChar c)

/-- The blanks at the start of a run. -/
def leadingBlanks (text : List Char) : List Char :=
  text.takeWhile isBlank

/-- A run without the blanks at its two ends. -/
def core (text : List Char) : List Char :=
  ((text.dropWhile isBlank).reverse.dropWhile isBlank).reverse

/-- The blanks at the end of a run that has other characters too. -/
def trailingBlanks (text : List Char) : List Char :=
  ((text.dropWhile isBlank).reverse.takeWhile isBlank).reverse

/-- The levels of a text without blanks at its ends. -/
def coreLevels (rules : TextRules) (base : Bidi.Level) (text : List Char) : List Bidi.Level :=
  if needsResolution base text then
    rules.levels base text
  else
    List.replicate text.length base

/-- The levels of a run, where the text before it ended on the level `latest`. -/
def levels
    (rules : TextRules)
    (base latest : Bidi.Level)
    (text : List Char) :
    List Bidi.Level :=
  let inner := coreLevels rules base (core text)
  List.replicate (leadingBlanks text).length latest ++ inner ++
    List.replicate (trailingBlanks text).length (inner.getLast?.getD latest)

/-! ### Levels by place -/

/-- The places of the first and the last character of a run that are not blank. -/
def edges? (text : List Char) : Option (Nat × Nat) :=
  (text.findIdx? (!isBlank ·)).map fun first =>
    (first, ((text.reverse.findIdx? (!isBlank ·)).map (text.length - 1 - ·)).getD first)

/-- The entries from a place up to another, if the two are in order and in range. -/
def span? {α : Type} (entries : List α) (first last : Nat) : Option (List α) :=
  if first ≤ last ∧ last ≤ entries.length then
    some ((entries.take last).drop first)
  else
    none

/-- Put new entries in place of those from a place on, if there are as many. -/
def replaceFrom? {α : Type} (entries : List α) (first : Nat) (fresh : List α) :
    Option (List α) :=
  if first + fresh.length ≤ entries.length then
    some (entries.take first ++ fresh ++ entries.drop (first + fresh.length))
  else
    none

/-- The levels of the bytes of a text: each byte has that of its character. -/
def byteLevels (levels : List Bidi.Level) (text : List Char) : List Bidi.Level :=
  (levels.zip text).flatMap fun (level, c) => List.replicate c.utf8Size level

/-- The level at an offset, where the first byte with a level stands at `start`. -/
def levelAt? (bytes : Array Bidi.Level) (start offset : Nat) : Option Bidi.Level :=
  if start ≤ offset then bytes[offset - start]? else none

/-- The levels at places in a run, if the text that begins at `start` is what is resolved. -/
def resolve?
    (rules : TextRules)
    (base : Bidi.Level)
    (text : List Char)
    (start : Nat)
    (places : List (Nat × Char)) :
    Option (List Bidi.Level) :=
  if needsResolution base text then
    let bytes := (byteLevels (rules.levels base text) text).toArray
    places.mapM fun place => levelAt? bytes start place.1
  else
    some (places.map fun _ => base)

/--
Put levels in place of those that a run was begun with.  The characters behind them are on the
last of these levels, and so the run ends on it.
-/
def settle? (carried resolved : List Bidi.Level) (first last : Nat) :
    Option (List Bidi.Level × Bidi.Level) := do
  let inner ← replaceFrom? carried first resolved
  let finish ← inner[last]?
  let rest := List.replicate (inner.length - (last + 1)) finish
  let whole ← replaceFrom? inner (last + 1) rest
  return (whole, finish)

/-- The levels of a run, and the one on which it ends. -/
def levels?
    (rules : TextRules)
    (base latest : Bidi.Level)
    (text : List Char) :
    Option (List Bidi.Level × Bidi.Level) :=
  let carried := List.replicate text.length latest
  match edges? text with
  | none => some (carried, latest)
  | some (first, last) => do
      let places := Utf8.places text
      let (start, _) ← places[first]?
      let (offset, c) ← places[last]?
      let trimmed ← Utf8.slice? text start (offset + c.utf8Size)
      let inside ← span? places first (last + 1)
      let resolved ← resolve? rules base trimmed start inside
      settle? carried resolved first last

end Analysis

/-- What is known about the characters of a run, and the level on which it ends. -/
def analyze?
    (rules : TextRules)
    (base latest : Bidi.Level)
    (text : List Char) :
    Option (List AnalyzedChar × Bidi.Level) := do
  let places := Utf8.places text
  let boundaries ← Analysis.boundaries? (rules.breaks text) places
  let (levels, finish) ← Analysis.levels? rules base latest text
  let chars :=
    (places.zip (boundaries.zip levels)).map fun ((offset, char), boundary, level) =>
      { offset, char, boundary, level : AnalyzedChar }
  return (chars, finish)

/-- What is known about the characters of a run. -/
def analyze
    (rules : TextRules)
    (base latest : Bidi.Level)
    (text : List Char) :
    List AnalyzedChar :=
  ((analyze? rules base latest text).map Prod.fst).getD []

end Folio
