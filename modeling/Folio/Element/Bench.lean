import Folio.Element.Pool
import Folio.Table
import Folio.Text.Utf8

/-!
# A bench for single elements

Elements are made from a pool one at a time, laid down in named slots, marked, and given
back.  The bench shows the pool at work apart from any document.
-/

namespace Folio

/-- A pool and the elements that lie in slots. -/
structure Bench where
  pool : Pool
  slots : Table String Element

namespace Bench

/-- An empty bench with an unused pool. -/
def empty (maxFree : Nat) : Bench where
  pool := .empty maxFree
  slots := .empty

/-- What is done at the bench. -/
inductive Command where
  /-- Make a word of the bytes of a text between two offsets. -/
  | word (slot text : String) (first last offset : Nat) (level : Bidi.Level)
  | control (slot : String) (kind : TextKind) (isStart : Bool)
  | link (slot : String) (kind : TextKind) (target : String)
  | marker (slot : String) (marker : Marker)
  | addMark (slot : String) (offset length : Nat)
  | inspect (slot : String)
  | release (slot : String)
  | shrink

/-- What the bench answers. -/
inductive Reply where
  | element (element : Element)
  | nothing
  | inspected (element : Element)
  | released (found : Bool)
  /-- A range that is no stretch of whole characters. -/
  | badRange
  deriving Repr

/-- Lay an element down in a slot; what lay there is dropped. -/
def lay (bench : Bench) (slot : String) (element : Element) (pool : Pool) : Bench where
  pool := pool
  slots := bench.slots.insert slot element

/-- Carry out a command. -/
def step (bench : Bench) : Command → Bench × Reply
  | .word slot text first last offset level =>
      match Utf8.slice? text.toList first last with
      | none => (bench, .badRange)
      | some letters =>
          let (word, pool) := bench.pool.acquireWord (String.ofList letters) offset level
          (bench.lay slot (.word word) pool, .element (.word word))
  | .control slot kind isStart =>
      let (control, pool) := bench.pool.acquireControl kind isStart none
      (bench.lay slot (.control control) pool, .element (.control control))
  | .link slot kind target =>
      let (control, pool) := bench.pool.acquireControl kind true (some target)
      (bench.lay slot (.control control) pool, .element (.control control))
  | .marker slot marker =>
      (bench.lay slot (.marker marker) bench.pool, .element (.marker marker))
  | .addMark slot offset length =>
      match (bench.slots.get? slot).bind Element.word? with
      | some word =>
          let marked := .word (word.addMarkAnywhere offset length)
          (bench.lay slot marked bench.pool, .element marked)
      | none => (bench, .nothing)
  | .inspect slot =>
      match bench.slots.get? slot with
      | some element => (bench, .inspected element)
      | none => (bench, .nothing)
  | .release slot =>
      match bench.slots.get? slot with
      | some element =>
          ({ pool := bench.pool.release element
             slots := bench.slots.erase slot },
            .released true)
      | none => (bench, .released false)
  | .shrink => ({ bench with pool := bench.pool.shrink }, .nothing)

/-- Carry out commands until one names a bad range; each answer comes with the counters. -/
def run (bench : Bench) : List Command → List (Reply × Pool.Counters)
  | [] => []
  | command :: rest =>
      match bench.step command with
      | (next, .badRange) => [(.badRange, next.pool.counters)]
      | (next, reply) => (reply, next.pool.counters) :: next.run rest

end Bench

end Folio
