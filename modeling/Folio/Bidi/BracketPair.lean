import Folio.Bidi.RunSequence

/-!
# Bracket pairs

A pair of brackets runs in one direction (rule N0 of Unicode Standard Annex #9).  It takes
the direction of its surroundings if its content has any of that direction; failing that, the
other direction if that is also the direction before the pair.

Both the search for pairs and the look back from a pair go by level runs.  A run with too many
open brackets is left at that point, and the search goes on in the next run of the sequence.
The look back goes through the pair's own run from the pair to the start of the run, and then
through the earlier runs, the latest first, each from its start.
-/

namespace Folio.Bidi

/-- The indices of an opening bracket and of the bracket that closes it. -/
structure BracketPair where
  opening : Nat
  closing : Nat
  deriving DecidableEq, Repr

/-- How many opening brackets may wait for their partners. -/
def maxOpenBrackets : Nat := 63

/-- The opening brackets that wait for a partner, the innermost first, and the pairs found. -/
structure PairSearch where
  waiting : List (Nat × Nat)
  pairs : List BracketPair
  deriving Repr

namespace PairSearch

/-- Search a level run, whose first character has this index, until too many brackets wait. -/
def searchRun (index : Nat) (search : PairSearch) : List (Option Bracket) → PairSearch
  | [] => search
  | none :: rest => searchRun (index + 1) search rest
  | some (.opening pair) :: rest =>
      if search.waiting.length < maxOpenBrackets then
        searchRun (index + 1) { search with waiting := (pair, index) :: search.waiting } rest
      else
        search
  | some (.closing pair) :: rest =>
      match search.waiting.dropWhile fun candidate => candidate.1 != pair with
      | [] => searchRun (index + 1) search rest
      | (_, opening) :: outer =>
          searchRun (index + 1) ⟨outer, ⟨opening, index⟩ :: search.pairs⟩ rest

/-- Search the level runs of a sequence from an index on. -/
def searchRuns (index : Nat) (search : PairSearch) : List (List (Option Bracket)) → PairSearch
  | [] => search
  | run :: runs => searchRuns (index + run.length) (search.searchRun index run) runs

end PairSearch

/-- Cut a list at the ends of runs of these lengths.  The last piece may be a part of a run. -/
def cutRuns {α : Type} : List Nat → List α → List (List α)
  | [], _ => []
  | length :: lengths, items =>
      let piece := items.take length
      if piece.length < length then
        [piece]
      else
        piece :: cutRuns lengths (items.drop length)

/-- The bracket of a cell, unless an override took it out of play. -/
def activeBracket (cell : Cell) (cls : BidiClass) : Option Bracket :=
  if cls = .otherNeutral then cell.glyph.bracket else none

/-- The lengths of the level runs of a sequence. -/
def RunSequence.runLengths (sequence : RunSequence) : List Nat :=
  sequence.runs.map List.length

/-- The bracket pairs of a sequence in the order of their opening brackets. -/
def bracketPairs (sequence : RunSequence) (classes : List BidiClass) : List BracketPair :=
  let brackets := sequence.cells.zipWith activeBracket classes
  let search := PairSearch.searchRuns 0 ⟨[], []⟩ (cutRuns sequence.runLengths brackets)
  search.pairs.mergeSort fun left right => left.opening ≤ right.opening

/-- The direction of a class that has one, where numbers run from right to left. -/
def strongDirection? : BidiClass → Option BidiClass
  | .leftToRight => some .leftToRight
  | .rightToLeft => some .rightToLeft
  | .europeanNumber => some .rightToLeft
  | .arabicNumber => some .rightToLeft
  | _ => none

/-- The other of the two directions. -/
def opposite (direction : BidiClass) : BidiClass :=
  if direction = .leftToRight then .rightToLeft else .leftToRight

/-- The direction before a pair, given the classes before it and the start of the sequence. -/
def directionBefore
    (runLengths : List Nat)
    (start : BidiClass)
    (before : List BidiClass) :
    BidiClass :=
  match (cutRuns runLengths before).reverse with
  | [] => start
  | run :: earlier =>
      ((run.reverse ++ earlier.flatten).findSome? strongDirection?).getD start

/-- The direction of a pair whose content has strong characters. -/
def pairDirection?
    (sequence : RunSequence)
    (classes : Array BidiClass)
    (pair : BracketPair) :
    Option BidiClass :=
  let embedding := directionOf sequence.level
  let content := (classes.extract (pair.opening + 1) pair.closing).toList
  let directions := content.filterMap strongDirection?
  if directions.contains embedding then
    some embedding
  else if directions.contains (opposite embedding) then
    let before := (classes.extract 0 pair.opening).toList
    if directionBefore sequence.runLengths sequence.startClass before = opposite embedding then
      some (opposite embedding)
    else
      some embedding
  else
    none

/-- How many marks stand directly after an index. -/
def marksAfter (cells : List Cell) (index : Nat) : Nat :=
  ((cells.drop (index + 1)).takeWhile fun cell => cell.glyph.cls == .nonspacingMark).length

/-- Give a bracket and the marks after it a class. -/
def setBracket
    (cells : List Cell)
    (index : Nat)
    (cls : BidiClass)
    (classes : Array BidiClass) :
    Array BidiClass :=
  (List.range (marksAfter cells index + 1)).foldl
    (fun classes offset => classes.setIfInBounds (index + offset) cls) classes

/-- Resolve one pair of a sequence, whose characters are `cells`. -/
def resolvePair
    (sequence : RunSequence)
    (cells : List Cell)
    (classes : Array BidiClass)
    (pair : BracketPair) :
    Array BidiClass :=
  match pairDirection? sequence classes pair with
  | some direction =>
      setBracket cells pair.closing direction
        (setBracket cells pair.opening direction classes)
  | none => classes

/-- Resolve the pairs of a sequence from left to right. -/
def resolveBrackets
    (sequence : RunSequence)
    (classes : List BidiClass) :
    List BidiClass :=
  let pairs := bracketPairs sequence classes
  (pairs.foldl (resolvePair sequence sequence.cells) classes.toArray).toList

end Folio.Bidi
