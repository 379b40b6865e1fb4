import Folio.Unicode.BidiClass.Table
import Folio.Unicode.Bracket

/-!
# What bidirectional resolution sees of a text

The algorithm of Unicode Standard Annex #9 looks only at the bidirectional class of each
character and at the bracket pair it belongs to.  Levels are natural numbers: characters on
even levels run from left to right, those on odd levels from right to left.
-/

namespace Folio.Bidi

/-- A bidi embedding level. -/
abbrev Level := Nat

/-- The class and the bracket of a character. -/
structure Glyph where
  cls : BidiClass
  bracket : Option Bracket
  deriving DecidableEq, Repr

/-- The glyph of a character. -/
def Glyph.ofChar (c : Char) : Glyph where
  cls := BidiClass.ofChar c
  bracket := Bracket.ofChar? c

/-- Whether text on this level runs from right to left. -/
def isRightToLeft (level : Level) : Bool :=
  level % 2 == 1

/-- The strong class of the direction of a level. -/
def directionOf (level : Level) : BidiClass :=
  if isRightToLeft level then .rightToLeft else .leftToRight

/-- The deepest level that an embedding or isolate may open. -/
def maxDepth : Level := 125

/-- The least odd level above a level. -/
def nextOdd (level : Level) : Level :=
  if isRightToLeft level then level + 2 else level + 1

/-- The least even level above a level. -/
def nextEven (level : Level) : Level :=
  if isRightToLeft level then level + 1 else level + 2

end Folio.Bidi
