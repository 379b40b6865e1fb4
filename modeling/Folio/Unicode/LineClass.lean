/-!
# Line breaking classes

Every character has one class that decides where a line may end beside it (Unicode Standard
Annex #14).  Four classes of the annex are refined here: opening punctuation and the signs
around numbers by their East Asian width, quotation marks by the side they open to, and the
dotted circle apart from the other letters.

The order of the constructors is the order of the rows and columns of the pair table.
-/

namespace Folio

/-- The class of a character in line breaking. -/
inductive LineClass where
  /-- Ideographic or alphabetic, by context. -/
  | ambiguous
  /-- Consonant letter of a script whose syllables stay together. -/
  | aksara
  /-- Ordinary letter or symbol. -/
  | alphabetic
  /-- The circle that carries a sign in isolation. -/
  | dottedCircle
  /-- Sign written before an aksara. -/
  | aksaraPrebase
  /-- Aksara that opens an orthographic syllable. -/
  | aksaraStart
  /-- Dash that may end or start a line. -/
  | breakBoth
  /-- Break opportunity after it. -/
  | breakAfter
  /-- Break opportunity before it. -/
  | breakBefore
  /-- Ends its line. -/
  | mandatoryBreak
  /-- Embedded object. -/
  | contingentBreak
  /-- Small kana. -/
  | conditionalStarter
  /-- Closing punctuation. -/
  | closePunctuation
  /-- Attached to the character before it. -/
  | combiningMark
  /-- Closing parenthesis or bracket. -/
  | closeParenthesis
  /-- Ends its line, alone or before a line feed. -/
  | carriageReturn
  /-- Takes a skin tone. -/
  | emojiBase
  /-- Skin tone. -/
  | emojiModifier
  /-- Exclamation or interrogation. -/
  | exclamation
  /-- Keeps both neighbours on its line. -/
  | glue
  /-- Hangul syllable without a final consonant. -/
  | hangulOpenSyllable
  /-- Hangul syllable with a final consonant. -/
  | hangulClosedSyllable
  /-- Hebrew letter. -/
  | hebrewLetter
  /-- Hyphen-minus. -/
  | hyphen
  /-- Ideograph, kana or pictograph. -/
  | ideograph
  /-- Pictograph code that is not assigned. -/
  | unassignedPictograph
  /-- Leader dots. -/
  | inseparable
  /-- Comma, period or colon between digits. -/
  | numericSeparator
  /-- Leading consonant. -/
  | leadingJamo
  /-- Trailing consonant. -/
  | trailingJamo
  /-- Vowel. -/
  | vowelJamo
  /-- Ends its line. -/
  | lineFeed
  /-- Ends its line. -/
  | nextLine
  /-- May not start a line. -/
  | nonstarter
  /-- Digit. -/
  | numeric
  /-- Opening punctuation of East Asian width. -/
  | wideOpenPunctuation
  /-- Opening punctuation. -/
  | openPunctuation
  /-- Percent and similar signs. -/
  | afterNumeric
  /-- Such a sign of East Asian width. -/
  | wideAfterNumeric
  /-- Currency and similar signs. -/
  | beforeNumeric
  /-- Such a sign of East Asian width. -/
  | wideBeforeNumeric
  /-- Quotation mark that opens or closes. -/
  | quotation
  /-- Closing quotation mark. -/
  | finalQuotation
  /-- Opening quotation mark. -/
  | initialQuotation
  /-- Half of a flag. -/
  | regionalIndicator
  /-- Needs a dictionary; treated as a letter. -/
  | complexContext
  /-- The space character. -/
  | space
  /-- Slash. -/
  | solidus
  /-- Virama at the end of an aksara. -/
  | viramaFinal
  /-- Virama that joins two aksaras. -/
  | virama
  /-- Forbids a break on both sides. -/
  | wordJoiner
  /-- Code without an assigned character. -/
  | unassigned
  /-- Allows a break after it. -/
  | zeroWidthSpace
  /-- Joins the pictographs on its sides. -/
  | zeroWidthJoiner
  deriving DecidableEq, Repr, Inhabited

end Folio
