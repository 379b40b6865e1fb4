import Folio.LineBreak.PairTable
import Folio.Text.Utf8
import Folio.Unicode.LineClass.Table

/-!
# Line break opportunities

The places of a text at which a line may end.  The text is scanned from one opportunity to
the next: the pair table is asked about each pair of neighbours, and where one pair does not
decide, the scan looks ahead in a longer context and falls back if that context fails.

Combining marks and joiners belong to the character before them, so the scan passes over
them; a place directly after a zero width joiner is never an opportunity on its own.
-/

namespace Folio

/-- Where lines may end inside words. -/
inductive WordBreak where
  /-- Where the pair table allows it. -/
  | normal
  /-- Also between any two letters. -/
  | breakAll
  /-- Not between letters, ideographs included. -/
  | keepAll
  deriving DecidableEq, Repr, Inhabited

namespace LineBreak

/-- A character of the text: its byte offset and its class. -/
structure Place where
  offset : Nat
  cls : LineClass
  deriving DecidableEq, Repr

/-- Whether the class is that of a mark or joiner, which joins what precedes it. -/
def attaches (cls : LineClass) : Bool :=
  cls == .combiningMark || cls == .zeroWidthJoiner

/-- Whether marks and joiners join a character of this class. -/
def acceptsMarks : LineClass → Bool
  | .mandatoryBreak => false
  | .carriageReturn => false
  | .lineFeed => false
  | .nextLine => false
  | .space => false
  | .zeroWidthSpace => false
  | _ => true

/-- Whether the class counts as a letter where letters are kept together. -/
def isKeptTogether : LineClass → Bool
  | .ambiguous => true
  | .alphabetic => true
  | .ideograph => true
  | .numeric => true
  | .hyphen => true
  | .hangulOpenSyllable => true
  | .hangulClosedSyllable => true
  | .leadingJamo => true
  | .vowelJamo => true
  | .trailingJamo => true
  | .conditionalStarter => true
  | _ => false

/-- The class of a character under a word break option. -/
def classUnder (option : WordBreak) (c : Char) : LineClass :=
  let cls := LineClass.ofChar c
  if option = .breakAll ∧
      (cls = .conditionalStarter ∨ cls = .alphabetic ∨ cls = .numeric) then
    .ideograph
  else
    cls

/-- What looking ahead comes to. -/
inductive Outcome where
  /-- The text from the next opportunity on. -/
  | breakBefore (rest : List Place)
  /-- No opportunity yet: go on with the first of these characters. -/
  | continueAt (rest : List Place)

/-- The characters that an outcome leaves to be read. -/
def Outcome.rest : Outcome → List Place
  | .breakBefore rest => rest
  | .continueAt rest => rest

/--
Look ahead in a context that one pair did not decide.  The fallback is the text from the
last place where the context may still end, with whether a joiner stands before that place.
-/
def lookAhead
    (entered : Context)
    (context : Context)
    (fallback : List Place)
    (fallbackJoined : Bool)
    (previous : LineClass) :
    List Place → Outcome
  | [] =>
      if verdictAtEnd context = .giveUp then
        if fallbackJoined then .continueAt fallback else .breakBefore fallback
      else
        .breakBefore []
  | next :: rest =>
      let joined := previous == .zeroWidthJoiner
      if attaches next.cls && acceptsMarks previous then
        lookAhead entered context fallback fallbackJoined next.cls rest
      else
        match verdictBefore context next.cls with
        | .forbid => .continueAt (next :: rest)
        | .allow =>
            if joined then .continueAt (next :: rest) else .breakBefore (next :: rest)
        | .giveUp =>
            if fallbackJoined || (joined && isSingleClass entered) then
              .continueAt fallback
            else
              .breakBefore fallback
        | .lookAhead further movesFallback =>
            if movesFallback || isSingleClass context then
              lookAhead entered further (next :: rest) joined next.cls rest
            else
              lookAhead entered further fallback fallbackJoined next.cls rest

/-- Looking ahead never goes back past its fallback. -/
theorem length_rest_lookAhead
    (entered context : Context)
    (fallback : List Place)
    (fallbackJoined : Bool)
    (previous : LineClass)
    (rest : List Place)
    (bound : Nat)
    (fallbackBound : fallback.length ≤ bound)
    (restBound : rest.length ≤ bound) :
    (lookAhead entered context fallback fallbackJoined previous rest).rest.length ≤ bound := by
  induction rest generalizing context fallback fallbackJoined previous with
  | nil =>
      simp only [lookAhead]
      split
      · split <;> simpa [Outcome.rest] using fallbackBound
      · simp [Outcome.rest]
  | cons next rest lookAheadRest =>
      have shorter : rest.length ≤ bound := by
        simp only [List.length_cons] at restBound
        omega
      simp only [lookAhead]
      split
      · exact lookAheadRest _ _ _ _ fallbackBound shorter
      · split
        · simpa [Outcome.rest] using restBound
        · split <;> simpa [Outcome.rest] using restBound
        · split <;> simpa [Outcome.rest] using fallbackBound
        · split
          · exact lookAheadRest _ _ _ _ restBound shorter
          · exact lookAheadRest _ _ _ _ fallbackBound shorter

/--
The text from the next opportunity on, where a character of class `left` has just been read
and `joined` tells whether the last character read is a joiner.
-/
def fromNextOpportunity
    (option : WordBreak)
    (left : LineClass)
    (joined : Bool) :
    List Place → List Place
  | [] => []
  | right :: rest =>
      if attaches right.cls && acceptsMarks left then
        fromNextOpportunity option left (right.cls == .zeroWidthJoiner) rest
      else if option = .keepAll ∧ isKeptTogether left ∧ isKeptTogether right.cls then
        fromNextOpportunity option right.cls (right.cls == .zeroWidthJoiner) rest
      else
        match verdictBefore (contextOf left) right.cls with
        | .forbid =>
            fromNextOpportunity option right.cls (right.cls == .zeroWidthJoiner) rest
        | .allow | .giveUp =>
            if joined then
              fromNextOpportunity option right.cls (right.cls == .zeroWidthJoiner) rest
            else
              right :: rest
        | .lookAhead context _ =>
            match outcome :
                lookAhead context context (right :: rest) joined right.cls rest with
            | .breakBefore later => later
            | .continueAt [] => []
            | .continueAt (next :: later) =>
                have shorter : later.length < rest.length + 1 := by
                  have bound :=
                    length_rest_lookAhead context context (right :: rest) joined right.cls
                      rest (rest.length + 1) (by simp) (by simp)
                  simp only [outcome, Outcome.rest, List.length_cons] at bound
                  omega
                fromNextOpportunity option next.cls (next.cls == .zeroWidthJoiner) later
termination_by places => places.length

/-- The scan for the next opportunity never goes back. -/
theorem length_fromNextOpportunity
    (option : WordBreak)
    (left : LineClass)
    (joined : Bool)
    (places : List Place) :
    (fromNextOpportunity option left joined places).length ≤ places.length := by
  fun_induction fromNextOpportunity option left joined places with
  | case1 => simp
  | case9 left joined right rest _ _ context _ _ later outcome =>
      have bound :=
        length_rest_lookAhead context context (right :: rest) joined right.cls rest
          (rest.length + 1) (by simp) (by simp)
      simpa [outcome, Outcome.rest] using bound
  | case11 left joined right rest _ _ context _ _ next later _ shorter ofLater =>
      exact Nat.le_trans ofLater (Nat.le_of_lt shorter)
  | _ => simp_all <;> omega

/-- The byte offsets of the opportunities after the first of these characters. -/
def opportunitiesFrom (option : WordBreak) : List Place → List Nat
  | [] => []
  | first :: rest =>
      match found :
          fromNextOpportunity option first.cls (first.cls == .zeroWidthJoiner) rest with
      | [] => []
      | next :: later =>
          have shorter : later.length < rest.length := by
            have bound :=
              length_fromNextOpportunity option first.cls (first.cls == .zeroWidthJoiner) rest
            simpa [found, Nat.succ_le_iff] using bound
          next.offset :: opportunitiesFrom option (next :: later)
termination_by places => places.length

/-- The classes of a text's characters, with their offsets. -/
def placesOf (option : WordBreak) (text : List Char) : List Place :=
  (Utf8.places text).map fun (offset, c) => ⟨offset, classUnder option c⟩

/-- The byte offsets inside a text at which a line may end, in increasing order. -/
def opportunities (option : WordBreak) (text : List Char) : List Nat :=
  opportunitiesFrom option (placesOf option text)

end LineBreak

end Folio
