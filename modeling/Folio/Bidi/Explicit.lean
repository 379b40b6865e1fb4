import Folio.Bidi.Glyph

/-!
# Explicit levels

The first stage of bidirectional resolution (rules X1 to X8 of Unicode Standard Annex #9):
each character gets the level of the embeddings and isolates around it, and inside an
override the class that the override imposes.
-/

namespace Folio.Bidi

/-- A character after the first stage, with its index in the paragraph. -/
structure Cell where
  index : Nat
  glyph : Glyph
  level : Level
  cls : BidiClass
  deriving DecidableEq, Repr

/-- Whether the character takes part in the later stages. -/
def Cell.isKept (cell : Cell) : Bool :=
  !cell.glyph.cls.isRemoved

/-- An embedding, override or isolate that is open. -/
structure Frame where
  level : Level
  override : Option BidiClass
  isIsolate : Bool
  deriving DecidableEq, Repr

/-- What is open at a place of the paragraph, the innermost frame first. -/
structure Surroundings where
  base : Level
  frames : List Frame
  overflowIsolates : Nat
  overflowEmbeddings : Nat
  validIsolates : Nat
  deriving DecidableEq, Repr

namespace Surroundings

/-- At the start of a paragraph nothing is open. -/
def start (base : Level) : Surroundings where
  base := base
  frames := []
  overflowIsolates := 0
  overflowEmbeddings := 0
  validIsolates := 0

/-- The level of a character that stands here. -/
def level (here : Surroundings) : Level :=
  (here.frames.head?.map Frame.level).getD here.base

/-- The class that an override imposes here. -/
def override (here : Surroundings) : Option BidiClass :=
  here.frames.head?.bind Frame.override

/-- The class of a character that stands here. -/
def impose (here : Surroundings) (cls : BidiClass) : BidiClass :=
  here.override.getD cls

/-- Whether a frame on this level may be opened here. -/
def hasRoom (here : Surroundings) (level : Level) : Bool :=
  level ≤ maxDepth && here.overflowIsolates == 0 && here.overflowEmbeddings == 0

/-- Open an embedding or override. -/
def openEmbedding
    (here : Surroundings)
    (level : Level)
    (override : Option BidiClass) :
    Surroundings :=
  if here.hasRoom level then
    { here with frames := ⟨level, override, false⟩ :: here.frames }
  else if here.overflowIsolates = 0 then
    { here with overflowEmbeddings := here.overflowEmbeddings + 1 }
  else
    here

/-- Open an isolate. -/
def openIsolate (here : Surroundings) (level : Level) : Surroundings :=
  if here.hasRoom level then
    { here with
      frames := ⟨level, none, true⟩ :: here.frames
      validIsolates := here.validIsolates + 1 }
  else
    { here with overflowIsolates := here.overflowIsolates + 1 }

/-- Close the innermost isolate, with the embeddings opened inside it. -/
def closeIsolate (here : Surroundings) : Surroundings :=
  if here.overflowIsolates > 0 then
    { here with overflowIsolates := here.overflowIsolates - 1 }
  else if here.validIsolates = 0 then
    here
  else
    { here with
      frames := (here.frames.dropWhile fun frame => !frame.isIsolate).tail
      overflowEmbeddings := 0
      validIsolates := here.validIsolates - 1 }

/-- Close the innermost embedding, but never an isolate. -/
def closeEmbedding (here : Surroundings) : Surroundings :=
  if here.overflowIsolates > 0 then
    here
  else if here.overflowEmbeddings > 0 then
    { here with overflowEmbeddings := here.overflowEmbeddings - 1 }
  else
    match here.frames with
    | ⟨_, _, false⟩ :: outer => { here with frames := outer }
    | _ => here

end Surroundings

/--
The first strong class before the end of the isolate in which these glyphs stand, isolates
inside it passed over.  `depth` counts the isolates that are open within it.
-/
def firstStrong? (depth : Nat) : List Glyph → Option BidiClass
  | [] => none
  | glyph :: rest =>
      if glyph.cls.opensIsolate then
        firstStrong? (depth + 1) rest
      else if glyph.cls = .popDirectionalIsolate then
        if depth = 0 then none else firstStrong? (depth - 1) rest
      else if depth = 0 ∧ glyph.cls.isStrong then
        some glyph.cls
      else
        firstStrong? depth rest

/-- Whether an isolate that takes its direction from this content runs right to left. -/
def isolatesRightToLeft (content : List Glyph) : Bool :=
  match firstStrong? 0 content with
  | some .rightToLeft => true
  | some .arabicLetter => true
  | _ => false

/-- What is open after a glyph. -/
def Surroundings.after
    (here : Surroundings)
    (cls : BidiClass)
    (following : List Glyph) :
    Surroundings :=
  match cls with
  | .rightToLeftEmbedding => here.openEmbedding (nextOdd here.level) none
  | .leftToRightEmbedding => here.openEmbedding (nextEven here.level) none
  | .rightToLeftOverride => here.openEmbedding (nextOdd here.level) (some .rightToLeft)
  | .leftToRightOverride => here.openEmbedding (nextEven here.level) (some .leftToRight)
  | .rightToLeftIsolate => here.openIsolate (nextOdd here.level)
  | .leftToRightIsolate => here.openIsolate (nextEven here.level)
  | .firstStrongIsolate =>
      if isolatesRightToLeft following then
        here.openIsolate (nextOdd here.level)
      else
        here.openIsolate (nextEven here.level)
  | .popDirectionalIsolate => here.closeIsolate
  | .popDirectionalFormat => here.closeEmbedding
  | _ => here

/-- The cells of the glyphs from an index on; a closing isolate stands outside what it closes. -/
def cellsFrom (index : Nat) (here : Surroundings) : List Glyph → List Cell
  | [] => []
  | glyph :: rest =>
      let next := here.after glyph.cls rest
      let place := if glyph.cls = .popDirectionalIsolate then next else here
      ⟨index, glyph, place.level, place.impose glyph.cls⟩ :: cellsFrom (index + 1) next rest

/-- The cells of a paragraph. -/
def cells (base : Level) (glyphs : List Glyph) : List Cell :=
  cellsFrom 0 (.start base) glyphs

end Folio.Bidi
