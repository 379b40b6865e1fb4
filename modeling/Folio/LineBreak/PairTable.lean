import Folio.Unicode.LineClass

/-!
# The pair table

The rules of Unicode Standard Annex #14 as a table.  A row is the context to the left of a
place between two characters, a column is the class of the character to its right or the
end of the text.  The first rows are the classes themselves, in the order of `LineClass`.
The rows after them are longer contexts, such as quotation marks followed by spaces, which
are entered only while looking ahead.

A row is written with one letter a column: `B` allows a break, `K` forbids one and `N` gives
up the context.  A small letter looks ahead in the context it names, and a capital letter
does the same but also moves the fallback place.
-/

namespace Folio.LineBreak

/-- A row of the pair table. -/
abbrev Context := Nat

/-- What the table says about the place between a context and the next character. -/
inductive Verdict where
  | allow
  | forbid
  | giveUp
  | lookAhead (context : Context) (movesFallback : Bool)
  deriving DecidableEq, Repr, Inhabited

/-- The number of classes, and so the first row that is not a class. -/
def classCount : Nat := 54

/-- The context of a single character. -/
def contextOf (cls : LineClass) : Context := cls.ctorIdx

/-- The column of a class. -/
def columnOf (cls : LineClass) : Nat := cls.ctorIdx

/-- The column of the end of the text. -/
def endColumn : Nat := classCount

/-- Whether the context is that of a single character. -/
def isSingleClass (context : Context) : Bool :=
  context < classCount

/-- The rows of the table, with their letters. -/
def rows : List String := [
    "KBKKBBBKBKBKKBKKBBKKBBKKBBKKBBBKKKKBKKKKKKKaBKKKBBKKKBB",
    "BmBmBmBKBKBKKBKKBBKKBBBKBBKKBBBKKKBBBBBBBKKaBBKKKlKBKBB",
    "KBKKBBBKBKBKKBKKBBKKBBKKBBKKBBBKKKKBKKKKKKKaBKKKBBKKKBB",
    "KmKnBmBKBKBKKBKKBBKKBBKKBBKKBBBKKKKBKKKKKKKaBKKKKlKKKBB",
    "BKBKBKBKBKBKKBKKBBKKBBBKBBKKBBBKKKBBBBBBBKKaBBKKBBKBKBB",
    "BmBmBmBKBKBKKBKKBBKKBBBKBBKKBBBKKKBBBBBBBKKaBBKKKlKBKBB",
    "BBBBBBKKBKBKKBKKBBKKBBBKBBKKBBBKKKBBBBBBBKKaBBjKBBKBKBB",
    "BBBBBBBKBKBKKBKKBBKBBBBKBBKKBBBKKKBBBBBBBKKaBBKKBBKBKBB",
    "KKKKKKKKKKBKKKKKKKKKKKKKKKKKKKKKKKKKKKKKKKKaKKKKKKKKKKB",
    "BBBBBBBBBBBBBBBBBBBBBBBBBBBBBBBBBBBBBBBBBBBBBBBBBBBBBBB",
    "BBBBBBBBBKBBKBKKBBKKBBBBBBBKBBBKKBBBBBBBBKHaBBKKBBKBKBB",
    "BBBBBBBKBKBKKBKKBBKKBBBKBBKKBBBKKKBBBBBBBKKaBBKKBBKBKBB",
    "BBBBBBBKBKBKKBKKBBKKBBBKBBKKBBBKKKBBBKKKKKKaBBiKBBKBKBB",
    "KBKKBBBKBKBKKBKKBBKKBBKKBBKKBBBKKKKBKKKKKKKaBKKKBBKKKBB",
    "KBKKBBBKBKBKKBKKBBKKBBKKBBKKBBBKKKKBBKKKKKKaBKiKBBKKKBB",
    "BBBBBBBBBBBBBBBBBBBBBBBBBBBBBBBKBBBBBBBBBBBBBBBBBBBBBBB",
    "BBBBBBBKBKBKKBKKBKKKBBBKBBKKBBBKKKBBBKKBBKKaBBKKBBKBKBB",
    "BBBBBBBKBKBKKBKKBBKKBBBKBBKKBBBKKKBBBKKBBKKaBBKKBBKBKBB",
    "BBBBBBBKBKBKKBKKBBKKBBBKBBKKBBBKKKBBBBBBBKKaBBKKBBKBKBB",
    "KKKKKKKKKKKKKKKKKKKKKKKKKKKKKKKKKKKKKKKKKKKKKKKKKKKKKKB",
    "BBBBBBBKBKBKKBKKBBKKBBBKBBKKBKKKKKBBBKKBBKKaBBKKBBKBKBB",
    "BBBBBBBKBKBKKBKKBBKKBBBKBBKKBKBKKKBBBKKBBKKaBBKKBBKBKBB",
    "KBKKBBBkBKBKKBKKBBKKBBKkBBKKBBBKKKKBKKKKKKKaBKKKBBKKKBB",
    "BBBBBBBKBKBKKBKKBBKBBBBKBBKKBBBKKKKBBBBBBKKaBBKKBBKBKBB",
    "BBBBBBBKBKBKKBKKBBKKBBBKBBKKBBBKKKBBBKKBBKKaBBKKBBKBKBB",
    "BBBBBBBKBKBKKBKKBKKKBBBKBBKKBBBKKKBBBKKBBKKaBBKKBBKBKBB",
    "BBBBBBBKBKBKKBKKBBKKBBBKBBKKBBBKKKBBBBBBBKKaBBKKBBKBKBB",
    "KBKKBBBKBKBKKBKKBBKKBBKKBBKKBBBKKKKBBBBBBKKaBKKKBBKKKBB",
    "BBBBBBBKBKBKKBKKBBKKKKBKBBKKKBKKKKBBBKKBBKKaBBKKBBKBKBB",
    "BBBBBBBKBKBKKBKKBBKKBBBKBBKKBKBKKKBBBKKBBKKaBBKKBBKBKBB",
    "BBBBBBBKBKBKKBKKBBKKBBBKBBKKBKKKKKBBBKKBBKKaBBKKBBKBKBB",
    "BBBBBBBBBBBBBBBBBBBBBBBBBBBBBBBBBBBBBBBBBBBBBBBBBBBBBBB",
    "BBBBBBBBBBBBBBBBBBBBBBBBBBBBBBBBBBBBBBBBBBBBBBBBBBBBBBB",
    "BBBBBBBKBKBKKBKKBBKKBBBKBBKKBBBKKKBBBBBBBKKaBBKKBBKBKBB",
    "KBKKBBBKBKBKKBKKBBKKBBKKBBKKBBBKKKKBKKKKKKKaBKKKBBKKKBB",
    "KKKKKKKKKKKKKKKKKKKKKKKKKKKKKKKKKKKKKKKKKKKKKKeKKKKKKKB",
    "KKKKKKKKKKKKKKKKKKKKKKKKKKKKKKKKKKKKKKKKKKKKKKeKKKKKKKB",
    "KBKKBBBKBKBKKBKKBBKKBBKKBBKKBBBKKKKKKBBBBKKaBKKKBBKKKBB",
    "KBKKBBBKBKBKKBKKBBKKBBKKBBKKBBBKKKKKKBBBBKKaBKKKBBKKKBB",
    "KBKKBBBKBKBKKBKKKKKKKKKKKKKKKKKKKKKKKBBBBKKaBKKKBBKKKBB",
    "KBKKBBBKBKBKKBKKKKKKKKKKKKKKKKKKKKKKKBBBBKKaBKKKBBKKKBB",
    "KKKKKKKKKKKKKKKKKKKKKKKKKKKKKKKKKKKKKKKKKKKKKKKKKKKKKKB",
    "KKKKKKKKKKKKKbKKKKKKKKKKKKKKKKKKKKKKKKKKKKKKKKKKKKKKKKB",
    "KKKKKKKKKKKKKcKKKKKKKKKKKKKKKKKKKKKKKKKKKKKKKKfKKKKKKKB",
    "BBBBBBBKBKBKKBKKBBKKBBBKBBKKBBBKKKBBBBBBBKKaoBKKBBKBKBB",
    "KBKKBBBKBKBKKBKKBBKKBBKKBBKKBBBKKKKBKKKKKKKaBKKKBBKKKBB",
    "BBBBBBBBBKBBKBKKBBKBBBBBBBBKBBBKKBBBBBBBBBgBBBKKBBKBKBB",
    "BBBBBBBKBKBKKBKKBBKKBBKKBBKKBBBKKKKBBBBBBKKaBBKKBBKBKBB",
    "BBBBBBBKBKBKKBKKBBKKBBBKBBKKBBBKKKBBBBBBBKKaBBKKBBKBKBB",
    "BBBBBBBKBKBKKBKKBBKKBBBKBBKKBBBKKKBBBBBBBKKaBBKKBBKBKBB",
    "KKKKKKKKKKKKKKKKKKKKKKKKKKKKKKKKKKKKKKKKKKKaKKKKKKKKKKB",
    "KBKKBBBKBKBKKBKKBBKKBBKKBBKKBBBKKKKBKKKKKKKaBKKKBBKKKBB",
    "BBBBBBBBBKBBBBBKBBBBBBBBBBBBBBBKKBBBBBBBBBBBBBdBBBBBKBB",
    "KBKKBBBKBKBKKBKKBBKKBBKKBBKKBBBKKKKBKKKKKKKaBKKKBBKKKBB",
    "KKKKKKKKKKKKKKKKKKKKKKKKKKKKKKKKKKKKKKKKKKbKKKeKKKKKKKB",
    "KKKKKKKKKKKKKKKKKKKKKKKKKKKKKKKKKKKKKKKKKKKKKKfKKKKKKKB",
    "NNNNNNNNNKNNKNKKNNKKNNNNNNNKNNNKKNNNNNNNNKKKNNKKNNKNKNB",
    "KKKKKKKKKKKKKKKKKKKKKKKKKKKKKKKKKKKKKKKKKKKKKKKKKKKKKKB",
    "BBBBBBBBBKBKKBKKBBKBBBBBBBBKBBBKKKBBBBBBBBGBBBiKBBKBKBB",
    "BBBBBBKBBKBBKBKKBBKBBBBBBBBKBBBKKBBBBBBBBBGBBBjKBBKBKBB",
    "KKKKKKKKKKBKKKKKKKKKKKKKKKKKKKKKKKKKKKKKKKKaKKKKKKKKKKB",
    "BKBKBBBKBKBKKBKKBBKKBBBKBBKKBBBKKKBBBBBBBKKaBBKKBBKBKBB",
    "NNNNNNNNNNNNNNNNNNNNNNNNNNNNNNNNNNNNNNNNNNNNNNNNKNNNNNN",
    "KBKBBBBBBBBBBBBBBBBBBBKBBBBBBBBBBBBBKBBBBBBaBKBBKBBKBBB",
    "BBBBBBBKBKBKKBKKBBKKBBBKBBKKBBBKKKBBBBBBBKKaBBKKBBKBKBB"]

/-- The contexts of the letters `a` to `o`: three kinds of quotation marks, the zero width
space, and the rows after the classes. -/
def letterContexts : List Context :=
  [contextOf .quotation, contextOf .finalQuotation, contextOf .initialQuotation,
    contextOf .zeroWidthSpace, 54, 55, 56, 57, 58, 59, 60, 61, 62, 63, 64]

/-- The context that a letter names. -/
def contextOfLetter (letter : Char) : Context :=
  letterContexts.getD (letter.toNat - 'a'.toNat) 0

/-- The verdict that a letter of the table stands for. -/
def Verdict.ofLetter (letter : Char) : Verdict :=
  if letter == 'B' then
    .allow
  else if letter == 'K' then
    .forbid
  else if letter == 'N' then
    .giveUp
  else if letter.isUpper then
    .lookAhead (contextOfLetter letter.toLower) true
  else
    .lookAhead (contextOfLetter letter) false

/-- The table, row by row. -/
def table : Array (Array Verdict) :=
  (rows.map fun row => (row.toList.map Verdict.ofLetter).toArray).toArray

/-- The verdict for a context and a column. -/
def verdict (context : Context) (column : Nat) : Verdict :=
  ((table[context]?).bind (·[column]?)).getD .allow

/-- The verdict when a character of the given class follows. -/
def verdictBefore (context : Context) (cls : LineClass) : Verdict :=
  verdict context (columnOf cls)

/-- The verdict when the text ends. -/
def verdictAtEnd (context : Context) : Verdict :=
  verdict context endColumn

end Folio.LineBreak
