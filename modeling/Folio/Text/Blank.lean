/-!
# Blanks and line ends

Three small classes of characters: the ordinary blanks between words, the spaces that hold
their neighbours together, and the characters that end a line.
-/

namespace Folio

/-- An ordinary blank: space, tab, line feed or carriage return. -/
def isBlank (c : Char) : Bool :=
  c == ' ' || c == '\t' || c == '\n' || c == '\r'

/-- A space at which no line ends: no-break, figure or narrow no-break space. -/
def isNoBreakSpace (c : Char) : Bool :=
  c == '\u00a0' || c == '\u2007' || c == '\u202f'

/-- A character that stands between words rather than in one. -/
def isSpacing (c : Char) : Bool :=
  isBlank c || isNoBreakSpace c

/-- A character after which the line must end. -/
def endsLine (c : Char) : Bool :=
  c == '\n' || c == '\r' || c == '\u000b' || c == '\u000c' || c == '\u0085' ||
    c == '\u2028' || c == '\u2029'

end Folio
