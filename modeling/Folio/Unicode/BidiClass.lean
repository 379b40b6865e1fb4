/-!
# Bidirectional classes

Every character has one class that decides how it takes part in bidirectional text (Unicode
Standard Annex #9).
-/

namespace Folio

/-- The class of a character in bidirectional text. -/
inductive BidiClass where
  | leftToRight
  | rightToLeft
  | arabicLetter
  | europeanNumber
  | europeanSeparator
  | europeanTerminator
  | arabicNumber
  | commonSeparator
  | nonspacingMark
  | boundaryNeutral
  | paragraphSeparator
  | segmentSeparator
  | whiteSpace
  | otherNeutral
  | leftToRightEmbedding
  | leftToRightOverride
  | rightToLeftEmbedding
  | rightToLeftOverride
  | popDirectionalFormat
  | leftToRightIsolate
  | rightToLeftIsolate
  | firstStrongIsolate
  | popDirectionalIsolate
  deriving DecidableEq, Repr, Inhabited

namespace BidiClass

/-- The classes of letters. -/
def isStrong : BidiClass → Bool
  | leftToRight => true
  | rightToLeft => true
  | arabicLetter => true
  | _ => false

/-- The classes that open an isolate. -/
def opensIsolate : BidiClass → Bool
  | leftToRightIsolate => true
  | rightToLeftIsolate => true
  | firstStrongIsolate => true
  | _ => false

/-- The classes whose characters take no part in resolution once levels are explicit. -/
def isRemoved : BidiClass → Bool
  | leftToRightEmbedding => true
  | rightToLeftEmbedding => true
  | leftToRightOverride => true
  | rightToLeftOverride => true
  | popDirectionalFormat => true
  | boundaryNeutral => true
  | _ => false

/-- The classes that take their direction from what surrounds them. -/
def isNeutral : BidiClass → Bool
  | paragraphSeparator => true
  | segmentSeparator => true
  | whiteSpace => true
  | otherNeutral => true
  | leftToRightIsolate => true
  | rightToLeftIsolate => true
  | firstStrongIsolate => true
  | popDirectionalIsolate => true
  | _ => false

end BidiClass

end Folio
