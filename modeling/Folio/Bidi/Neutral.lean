import Folio.Bidi.BracketPair

/-!
# Neutral types

Blanks, punctuation and isolates between directed text (rules N1 and N2 of Unicode Standard
Annex #9).  A stretch of neutrals with one direction on both sides takes that direction, and
any other stretch the direction of its level.
-/

namespace Folio.Bidi

/-- The direction after a stretch of neutrals at the start of these classes. -/
def directionAfterNeutrals (finish : BidiClass) (classes : List BidiClass) : BidiClass :=
  match classes.dropWhile BidiClass.isNeutral with
  | [] => finish
  | cls :: _ => (strongDirection? cls).getD finish

/--
Resolve the neutrals.  `resolved?` is what the stretch of neutrals in which the first class
stands has come to, if it has begun.
-/
def resolveNeutrals
    (embedding finish : BidiClass)
    (before : BidiClass)
    (resolved? : Option BidiClass) :
    List BidiClass → List BidiClass
  | [] => []
  | cls :: rest =>
      if cls.isNeutral then
        let resolved :=
          resolved?.getD <|
            if before = directionAfterNeutrals finish rest then before else embedding
        resolved :: resolveNeutrals embedding finish before (some resolved) rest
      else
        cls :: resolveNeutrals embedding finish ((strongDirection? cls).getD before) none rest

end Folio.Bidi
