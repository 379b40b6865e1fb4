import Folio.Bidi.RunSequence

/-!
# Weak types

Marks, numbers and the signs around numbers (rules W1 to W7 of Unicode Standard Annex #9).
Each rule is a pass over the classes of one isolating run sequence.
-/

namespace Folio.Bidi

/-- A mark takes the class before it, but isolates are neutral to it. -/
def resolveMarks (previous : BidiClass) : List BidiClass → List BidiClass
  | [] => []
  | .nonspacingMark :: rest =>
      let cls :=
        if previous.opensIsolate ∨ previous = .popDirectionalIsolate then
          .otherNeutral
        else
          previous
      cls :: resolveMarks cls rest
  | cls :: rest => cls :: resolveMarks cls rest

/-- European numbers after an Arabic letter are Arabic numbers. -/
def resolveNumbers (strong : BidiClass) : List BidiClass → List BidiClass
  | [] => []
  | cls :: rest =>
      if cls.isStrong then
        cls :: resolveNumbers cls rest
      else if cls = .europeanNumber ∧ strong = .arabicLetter then
        .arabicNumber :: resolveNumbers strong rest
      else
        cls :: resolveNumbers strong rest

/-- Arabic letters run from right to left. -/
def resolveArabicLetters (classes : List BidiClass) : List BidiClass :=
  classes.map fun cls => if cls = .arabicLetter then .rightToLeft else cls

/-- What a single separator becomes between two numbers. -/
def betweenNumbers (before separator after : BidiClass) : BidiClass :=
  match before, separator, after with
  | .europeanNumber, .europeanSeparator, .europeanNumber => .europeanNumber
  | .europeanNumber, .commonSeparator, .europeanNumber => .europeanNumber
  | .arabicNumber, .commonSeparator, .arabicNumber => .arabicNumber
  | _, _, _ => separator

/-- A single separator between two numbers of one kind joins them. -/
def resolveSeparators (previous : BidiClass) : List BidiClass → List BidiClass
  | [] => []
  | [cls] => [cls]
  | cls :: next :: rest =>
      let resolved := betweenNumbers previous cls next
      resolved :: resolveSeparators resolved (next :: rest)

/--
A stretch of terminators next to a European number belongs to it.  `joined` tells whether a
European number or a terminator of one stands directly before.
-/
def resolveTerminators (joined : Bool) : List BidiClass → List BidiClass
  | [] => []
  | cls :: rest =>
      if cls = .europeanTerminator then
        let following := rest.dropWhile (· == .europeanTerminator)
        if joined ∨ following.head? = some .europeanNumber then
          .europeanNumber :: resolveTerminators true rest
        else
          cls :: resolveTerminators false rest
      else
        cls :: resolveTerminators (cls == .europeanNumber) rest

/-- Separators and terminators that belong to no number are neutral. -/
def neutralizeSeparators (classes : List BidiClass) : List BidiClass :=
  classes.map fun cls =>
    match cls with
    | .europeanSeparator => .otherNeutral
    | .europeanTerminator => .otherNeutral
    | .commonSeparator => .otherNeutral
    | _ => cls

/-- European numbers in left-to-right surroundings run with them. -/
def absorbNumbers (strong : BidiClass) : List BidiClass → List BidiClass
  | [] => []
  | cls :: rest =>
      if cls.isStrong then
        cls :: absorbNumbers cls rest
      else if cls = .europeanNumber ∧ strong = .leftToRight then
        .leftToRight :: absorbNumbers strong rest
      else
        cls :: absorbNumbers strong rest

/-- All the rules for weak types, in order. -/
def resolveWeak (start : BidiClass) (classes : List BidiClass) : List BidiClass :=
  let numbered := resolveNumbers start (resolveMarks start classes)
  let separated := resolveSeparators start (resolveArabicLetters numbered)
  absorbNumbers start (neutralizeSeparators (resolveTerminators false separated))

end Folio.Bidi
