import Folio.Document.Mark
import Folio.Document.Paragraph
import Folio.Text.Lowercase
import Folio.Text.Utf8

/-!
# Searching text

The occurrences of a pattern in the runs of a paragraph.  A run is read from its start; an
occurrence is taken as soon as one begins, and the reading goes on after it.  So occurrences
never overlap, and never reach from one run into the next.
-/

namespace Folio

/-- Which characters count as equal in a search. -/
inductive CaseMode where
  | respect
  | ignore
  deriving DecidableEq, Repr, Inhabited

namespace CaseMode

/-- Whether two characters count as equal. -/
def agree (mode : CaseMode) (left right : Char) : Bool :=
  match mode with
  | respect => left == right
  | ignore => left == right || Lowercase.ofChar left == Lowercase.ofChar right

end CaseMode

namespace Search

/-- The text after the pattern, where the text starts with it. -/
def afterPattern? (mode : CaseMode) : List Char → List Char → Option (List Char)
  | [], text => some text
  | _ :: _, [] => none
  | p :: pattern, c :: text =>
      if mode.agree c p then afterPattern? mode pattern text else none

theorem length_afterPattern?
    {mode : CaseMode}
    {pattern text rest : List Char}
    (found : afterPattern? mode pattern text = some rest) :
    rest.length + pattern.length = text.length := by
  induction pattern generalizing text with
  | nil => simp_all [afterPattern?]
  | cons p pattern lengthOfRest =>
      cases text with
      | nil => simp [afterPattern?] at found
      | cons c text =>
          simp only [afterPattern?] at found
          split at found
          · have := lengthOfRest found
            simp only [List.length_cons]
            omega
          · simp at found

/-- The stretches of a text, from an offset on, that the pattern `first :: pattern` covers. -/
def stretches
    (mode : CaseMode)
    (first : Char)
    (pattern : List Char)
    (offset : Nat) :
    List Char → List (Nat × Nat)
  | [] => []
  | c :: text =>
      match found : afterPattern? mode (first :: pattern) (c :: text) with
      | some rest =>
          have shorter : rest.length < text.length + 1 := by
            have := length_afterPattern? found
            simp only [List.length_cons] at this
            omega
          let length := Utf8.size (c :: text) - Utf8.size rest
          (offset, length) :: stretches mode first pattern (offset + length) rest
      | none => stretches mode first pattern (offset + c.utf8Size) text
termination_by text => text.length

/-- The occurrences in the runs of a paragraph, the first of which starts at an offset. -/
def marksInRuns
    (mode : CaseMode)
    (first : Char)
    (pattern : List Char)
    (paragraph offset : Nat) :
    List String → Marks
  | [] => []
  | run :: runs =>
      (stretches mode first pattern offset run.toList).map
          (fun (start, length) => ⟨paragraph, start, length⟩) ++
        marksInRuns mode first pattern paragraph (offset + run.utf8ByteSize) runs

/-- The occurrences in paragraphs that are numbered from an index on. -/
def marksFrom
    (mode : CaseMode)
    (first : Char)
    (pattern : List Char)
    (index : Nat) :
    List Paragraph → Marks
  | [] => []
  | paragraph :: rest =>
      marksInRuns mode first pattern index 0 paragraph.runs ++
        marksFrom mode first pattern (index + 1) rest

/-- The occurrences of a pattern in a document; an empty pattern has none. -/
def marks (mode : CaseMode) (pattern : String) (paragraphs : List Paragraph) : Marks :=
  match pattern.toList with
  | [] => []
  | first :: pattern => marksFrom mode first pattern 0 paragraphs

end Search

end Folio
