import Folio.Element.Basic

/-!
# The element pool

Words and controls that are no longer shown are kept for reuse.  The pool counts how many it
has created and how many it has handed out again.  A recycled element keeps what it last held
until it is handed out; every field is then written anew.
-/

namespace Folio

/-- Free words and controls, with the counts of those created and reused. -/
structure Pool where
  freeWords : List Word
  freeControls : List Control
  /-- How many words, and how many controls, may be free at a time. -/
  maxFree : Nat
  wordsAllocated : Nat
  wordsReused : Nat
  controlsAllocated : Nat
  controlsReused : Nat
  deriving DecidableEq, Repr

namespace Pool

/-- A pool that has created nothing. -/
def empty (maxFree : Nat) : Pool where
  freeWords := []
  freeControls := []
  maxFree := maxFree
  wordsAllocated := 0
  wordsReused := 0
  controlsAllocated := 0
  controlsReused := 0

/-! ## Acquiring -/

/-- A word without marks: a recycled one if one is free, and a new one otherwise. -/
def acquireWord
    (pool : Pool)
    (text : String)
    (offset : Nat)
    (level : Bidi.Level) :
    Word × Pool :=
  match pool.freeWords with
  | [] =>
      ({ text, offset, level, marks := [] },
        { pool with wordsAllocated := pool.wordsAllocated + 1 })
  | recycled :: free =>
      ({ recycled with text, offset, level, marks := [] },
        { pool with freeWords := free, wordsReused := pool.wordsReused + 1 })

/-- A control: a recycled one if one is free, and a new one otherwise. -/
def acquireControl
    (pool : Pool)
    (kind : TextKind)
    (isStart : Bool)
    (target : Option String) :
    Control × Pool :=
  match pool.freeControls with
  | [] =>
      ({ kind, isStart, target },
        { pool with controlsAllocated := pool.controlsAllocated + 1 })
  | recycled :: free =>
      ({ recycled with kind, isStart, target },
        { pool with freeControls := free, controlsReused := pool.controlsReused + 1 })

/-- An element like the given one, its word or control acquired from the pool. -/
def supply (pool : Pool) : Element → Element × Pool
  | .word word =>
      let (acquired, pool) := pool.acquireWord word.text word.offset word.level
      (.word acquired, pool)
  | .control control =>
      let (acquired, pool) := pool.acquireControl control.kind control.isStart control.target
      (.control acquired, pool)
  | element => (element, pool)

/-- Elements like the given ones, acquired in their order. -/
def supplyAll (pool : Pool) : List Element → List Element × Pool
  | [] => ([], pool)
  | element :: rest =>
      let (supplied, pool) := pool.supply element
      let (suppliedRest, pool) := pool.supplyAll rest
      (supplied :: suppliedRest, pool)

/-! ## Releasing -/

/-- A free word keeps its place and level but neither text nor marks. -/
def detachWord (word : Word) : Word :=
  { word with text := "", marks := [] }

/-- A free control keeps its kind but no target. -/
def detachControl (control : Control) : Control :=
  { control with target := none }

/-- Take back an element: a word or control is kept where there is room, all else is dropped. -/
def release (pool : Pool) : Element → Pool
  | .word word =>
      if pool.freeWords.length < pool.maxFree then
        { pool with freeWords := detachWord word :: pool.freeWords }
      else
        pool
  | .control control =>
      if pool.freeControls.length < pool.maxFree then
        { pool with freeControls := detachControl control :: pool.freeControls }
      else
        pool
  | _ => pool

/-- Take back elements in their order. -/
def releaseAll (pool : Pool) (elements : List Element) : Pool :=
  elements.foldl release pool

/-- Drop everything that is free; the counts of what was created and reused stay. -/
def shrink (pool : Pool) : Pool :=
  { pool with freeWords := [], freeControls := [] }

/-! ## Counters -/

/-- What the pool has created, reused and kept. -/
structure Counters where
  wordsAllocated : Nat
  wordsReused : Nat
  controlsAllocated : Nat
  controlsReused : Nat
  freeWords : Nat
  freeControls : Nat
  deriving DecidableEq, Repr

/-- The counters of the pool. -/
def counters (pool : Pool) : Counters where
  wordsAllocated := pool.wordsAllocated
  wordsReused := pool.wordsReused
  controlsAllocated := pool.controlsAllocated
  controlsReused := pool.controlsReused
  freeWords := pool.freeWords.length
  freeControls := pool.freeControls.length

end Pool

end Folio
