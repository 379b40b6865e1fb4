import Folio.Bidi.Neutral
import Folio.Bidi.Weak

/-!
# Resolved levels

The level of every character of a text, from the base level of its paragraphs (Unicode
Standard Annex #9 up to rule I2).  A text is resolved paragraph by paragraph; a paragraph
separator stands at the base level.  A character that takes no part in resolution is on the
level of the character before it.
-/

namespace Folio.Bidi

/-- The level of a character of a resolved class on a level. -/
def implicitLevel (level : Level) (cls : BidiClass) : Level :=
  if isRightToLeft level then
    match cls with
    | .leftToRight => level + 1
    | .europeanNumber => level + 1
    | .arabicNumber => level + 1
    | _ => level
  else
    match cls with
    | .rightToLeft => level + 1
    | .europeanNumber => level + 2
    | .arabicNumber => level + 2
    | _ => level

namespace RunSequence

/-- The classes of a sequence when all rules for them are applied. -/
def resolvedClasses (sequence : RunSequence) : List BidiClass :=
  let weak := resolveWeak sequence.startClass (sequence.cells.map Cell.cls)
  resolveNeutrals (directionOf sequence.level) sequence.endClass sequence.startClass none
    (resolveBrackets sequence weak)

/-- The levels of a sequence, with the indices of its characters. -/
def resolvedLevels (sequence : RunSequence) : List (Nat × Level) :=
  sequence.cells.zipWith
    (fun cell cls => (cell.index, implicitLevel sequence.level cls))
    sequence.resolvedClasses

end RunSequence

/-- Give each place that has no level the one before it. -/
def fillGaps (previous : Level) : List (Option Level) → List Level
  | [] => []
  | some level :: rest => level :: fillGaps level rest
  | none :: rest => previous :: fillGaps previous rest

@[simp]
theorem length_fillGaps (previous : Level) (levels : List (Option Level)) :
    (fillGaps previous levels).length = levels.length := by
  induction levels generalizing previous with
  | nil => rfl
  | cons level rest lengthOfRest => cases level <;> simp [fillGaps, lengthOfRest]

/-- Write levels to the places with these indices. -/
def placeLevels
    (places : Array (Option Level))
    (levels : List (Nat × Level)) :
    Array (Option Level) :=
  levels.foldl (fun places (index, level) => places.setIfInBounds index (some level)) places

@[simp]
theorem size_placeLevels
    (places : Array (Option Level))
    (levels : List (Nat × Level)) :
    (placeLevels places levels).size = places.size := by
  induction levels generalizing places with
  | nil => rfl
  | cons entry rest sizeOfRest =>
      simp only [placeLevels, List.foldl_cons] at sizeOfRest ⊢
      simp [sizeOfRest]

/-- The levels of a paragraph without its separator. -/
def bodyLevels (base : Level) (body : List Glyph) : List Level :=
  let sequences := runSequences base ((cells base body).filter Cell.isKept)
  fillGaps base
    (placeLevels (Array.replicate body.length none)
      (sequences.flatMap RunSequence.resolvedLevels)).toList

@[simp]
theorem length_bodyLevels (base : Level) (body : List Glyph) :
    (bodyLevels base body).length = body.length := by
  simp [bodyLevels]

/-- Whether the glyph ends its paragraph. -/
def Glyph.isSeparator (glyph : Glyph) : Bool :=
  glyph.cls == .paragraphSeparator

/-- The levels of a text's characters, `body` being read so far of the present paragraph. -/
def levelsFrom (base : Level) (body : List Glyph) : List Glyph → List Level
  | [] => bodyLevels base body.reverse
  | glyph :: rest =>
      if glyph.isSeparator then
        bodyLevels base body.reverse ++ base :: levelsFrom base [] rest
      else
        levelsFrom base (glyph :: body) rest

theorem length_levelsFrom (base : Level) (body rest : List Glyph) :
    (levelsFrom base body rest).length = body.length + rest.length := by
  induction rest generalizing body with
  | nil => simp [levelsFrom]
  | cons glyph rest lengthOfRest =>
      simp only [levelsFrom]
      split
      · simp [lengthOfRest]
      · simp only [lengthOfRest, List.length_cons]
        omega

/-- The level of every character of a text whose paragraphs start at the base level. -/
def levels (base : Level) (text : List Char) : List Level :=
  levelsFrom base [] (text.map Glyph.ofChar)

@[simp]
theorem length_levels (base : Level) (text : List Char) :
    (levels base text).length = text.length := by
  simp [levels, length_levelsFrom]

end Folio.Bidi
