import Folio.Composition.Paragraph
import Folio.Proofs.Composition.Segmentation

/-!
# What the entries of a paragraph leave

The elements that a paragraph has after some of its entries, and what is carried on to the
next: how far the text has come, and on which level it stands.
-/

namespace Folio.Composition

section

variable
    (rules : TextRules)
    (base : Bidi.Level)

/-! ## Runs -/

theorem analyze_eq_nil_iff (latest : Bidi.Level) (text : List Char) :
    analyze rules base latest text = [] ↔ text = [] := by
  rw [← List.map_eq_nil_iff (f := AnalyzedChar.char), map_char_analyze]

/-- Each run moves the offset on by its bytes. -/
theorem offset_composeRun (carry : Carry) (run : String) :
    (composeRun rules base carry run).2.offset = carry.offset + run.utf8ByteSize := by
  cases analyzed : analyze rules base carry.level run.toList with
  | nil =>
      have empty := (analyze_eq_nil_iff rules base carry.level run.toList).1 analyzed
      have noBytes : run.utf8ByteSize = 0 := by
        rw [← Utf8.size_toList, empty, Utf8.size_nil]
      simp [composeRun, analyzed, noBytes]
  | cons first rest => simp [composeRun, analyzed]

/-- The words and spaces of a run show its characters. -/
theorem tiling_composeRun (carry : Carry) (run : String) :
    Tiling (Scan.Shows carry.offset) [] (analyze rules base carry.level run.toList)
      ((composeRun rules base carry run).1.filter Element.isTextual) := by
  cases analyzed : analyze rules base carry.level run.toList with
  | nil =>
      simp only [composeRun, analyzed]
      exact .done []
  | cons first rest =>
      have tiling :=
        tiling_elements_analyze rules base carry.level first.level carry.offset run.toList
      simpa [composeRun, analyzed] using tiling

/-! ## Entries -/

variable
    (image? : String → Option ImageData)

/-- The elements that entries leave, and what is carried on after them. -/
def passEntries (carry : Carry) : List Entry → List Element × Carry
  | [] => ([], carry)
  | entry :: rest =>
      let (elements, next) := composeEntry rules image? base carry entry
      let (more, last) := passEntries next rest
      (elements ++ more, last)

theorem composeEntries_cons (carry : Carry) (entry : Entry) (rest : List Entry) :
    composeEntries rules image? base carry (entry :: rest) =
      (composeEntry rules image? base carry entry).1 ++
        composeEntries rules image? base (composeEntry rules image? base carry entry).2 rest :=
  rfl

/-- A paragraph ends with the return from the last level to the base level. -/
theorem composeEntries_eq (carry : Carry) (entries : List Entry) :
    composeEntries rules image? base carry entries =
      (passEntries rules base image? carry entries).1 ++
        levelShift (passEntries rules base image? carry entries).2.level base := by
  induction entries generalizing carry with
  | nil => rfl
  | cons entry rest restEq => simp [composeEntries, passEntries, restEq]

theorem passEntries_append (carry : Carry) (first later : List Entry) :
    passEntries rules base image? carry (first ++ later) =
      ((passEntries rules base image? carry first).1 ++
          (passEntries rules base image?
            (passEntries rules base image? carry first).2 later).1,
        (passEntries rules base image?
          (passEntries rules base image? carry first).2 later).2) := by
  induction first generalizing carry with
  | nil => rfl
  | cons entry rest restEq => simp [passEntries, restEq]

theorem composeEntries_append (carry : Carry) (first later : List Entry) :
    composeEntries rules image? base carry (first ++ later) =
      (passEntries rules base image? carry first).1 ++
        composeEntries rules image? base (passEntries rules base image? carry first).2 later := by
  rw [composeEntries_eq, composeEntries_eq, passEntries_append, List.append_assoc]

theorem eq_text_of_run?_eq_some
    {entry : Entry}
    {run : String}
    (isRun : entry.run? = some run) :
    entry = .text run := by
  cases entry <;> simp_all [Entry.run?]

/-- An entry that is no run shows no text and leaves the offset where it is. -/
theorem composeEntry_of_run?_eq_none
    (carry : Carry)
    {entry : Entry}
    (noRun : entry.run? = none) :
    (composeEntry rules image? base carry entry).1.filter Element.isTextual = [] ∧
      (composeEntry rules image? base carry entry).2.offset = carry.offset := by
  cases entry with
  | text run => exact absurd noRun (by simp [Entry.run?])
  | style style => exact ⟨rfl, rfl⟩
  | fixedSpace width => exact ⟨rfl, rfl⟩
  | control kind isStart => exact ⟨rfl, rfl⟩
  | link kind target => exact ⟨rfl, rfl⟩
  | image id => cases found : image? id <;> simp [composeEntry, found, Element.isTextual]
  | resetBidi => simp [composeEntry]

end

end Folio.Composition
