import Folio.Bidi.Explicit

/-!
# Isolating run sequences

The characters of one level that are resolved together.  A level run is a stretch of
neighbours on one level.  A run that ends by opening an isolate goes on in the run that
starts by closing it, and runs so connected form a sequence.
-/

namespace Folio.Bidi

/-- A level run, with the levels of the characters on its two sides. -/
structure LevelRun where
  cells : List Cell
  levelBefore : Level
  levelAfter : Level
  deriving Repr

/--
Level runs resolved together, with the strong classes that stand for what surrounds them.
-/
structure RunSequence where
  runs : List (List Cell)
  level : Level
  startClass : BidiClass
  endClass : BidiClass
  deriving Repr

/-- The characters of a sequence. -/
def RunSequence.cells (sequence : RunSequence) : List Cell :=
  sequence.runs.flatten

/-- The level of a stretch of cells on one level. -/
def levelOf (base : Level) (cells : List Cell) : Level :=
  (cells.head?.map Cell.level).getD base

/-- The runs made of these stretches, where `before` is the level to their left. -/
def runsOf (base before : Level) : List (List Cell) → List LevelRun
  | [] => []
  | stretch :: rest =>
      ⟨stretch, before, levelOf base rest.head?.toList.flatten⟩ ::
        runsOf base (levelOf base stretch) rest

/-- The level runs of the characters that are kept. -/
def levelRuns (base : Level) (kept : List Cell) : List LevelRun :=
  runsOf base base (kept.splitBy fun left right => left.level == right.level)

namespace LevelRun

/-- Whether the run starts by closing an isolate. -/
def closesIsolate (run : LevelRun) : Bool :=
  (run.cells.head?.map fun cell => cell.glyph.cls == .popDirectionalIsolate).getD false

/-- Whether the run ends by opening an isolate. -/
def opensIsolate (run : LevelRun) : Bool :=
  (run.cells.getLast?.map fun cell => cell.glyph.cls.opensIsolate).getD false

end LevelRun

/--
Connect the runs.  The connected runs that wait for their isolate to be closed are kept with
the innermost first.
-/
def connectRuns (waiting : List (List LevelRun)) : List LevelRun → List (List LevelRun)
  | [] => waiting
  | run :: rest =>
      let (connected, outer) :=
        match run.closesIsolate, waiting with
        | true, inner :: outer => (inner ++ [run], outer)
        | _, _ => ([run], waiting)
      if run.opensIsolate then
        connectRuns (connected :: outer) rest
      else
        connected :: connectRuns outer rest

/-- The level after connected runs; an isolate that is never closed meets the base level. -/
def levelAfter (base : Level) (connected : List LevelRun) : Level :=
  match connected.getLast? with
  | some run => if run.opensIsolate then base else run.levelAfter
  | none => base

/--
The sequence of connected runs.  Its sides take the direction of the higher of the two levels
that meet there.
-/
def RunSequence.ofRuns (base : Level) (connected : List LevelRun) : RunSequence :=
  let runs := connected.map LevelRun.cells
  let level := levelOf base (runs.head?.getD [])
  let levelBefore := (connected.head?.map LevelRun.levelBefore).getD base
  { runs := runs
    level := level
    startClass := directionOf (max level levelBefore)
    endClass := directionOf (max level (levelAfter base connected)) }

/-- The isolating run sequences of a paragraph. -/
def runSequences (base : Level) (kept : List Cell) : List RunSequence :=
  (connectRuns [] (levelRuns base kept)).map (RunSequence.ofRuns base)

end Folio.Bidi
