import Folio.Proofs.Bidi.Floor
import Folio.Proofs.Composition.Lookups

/-!
# What analysis knows about a run

Analysis has one answer for each character of a run: the characters come back in their order,
each at its byte offset, with its boundary and its level.  Levels never fall below the base
level, provided that the rules resolve none that does.
-/

namespace Folio

open Analysis

/-! ## One answer for each character -/

namespace Analysis

@[simp]
theorem length_levels
    (rules : TextRules)
    (base latest : Bidi.Level)
    (text : List Char) :
    (levels rules base latest text).length = text.length := by
  have parts := congrArg List.length (leadingBlanks_append_core_append_trailingBlanks text)
  simpa [levels, Nat.add_assoc] using parts

end Analysis

section

variable
    (rules : TextRules)
    (base latest : Bidi.Level)
    (text : List Char)

/-- Analysis has a result for every run. -/
theorem analyze?_eq :
    analyze? rules base latest text =
      some (analyze rules base latest text,
        lastLevel latest (levels rules base latest text)) := by
  have breaksFound := boundaries?_eq (rules.breaks text) (Utf8.places text)
  simp only [analyze, analyze?, breaksFound, levels?_eq, Option.bind_eq_bind, Option.bind_some]
  rfl

/-- Analysis puts together what is known of the places, the boundaries and the levels. -/
theorem analyze_eq :
    analyze rules base latest text =
      ((Utf8.places text).zip
          ((boundaries (rules.breaks text) (Utf8.places text)).zip
            (levels rules base latest text))).map
        fun ((offset, char), boundary, level) => { offset, char, boundary, level } := by
  have breaksFound := boundaries?_eq (rules.breaks text) (Utf8.places text)
  simp only [analyze, analyze?, breaksFound, levels?_eq, Option.bind_eq_bind, Option.bind_some]
  rfl

theorem map_place_analyze :
    (analyze rules base latest text).map (fun c => (c.offset, c.char)) =
      Utf8.places text := by
  rw [analyze_eq, List.map_map]
  exact List.map_fst_zip (by simp [Utf8.places])

@[simp]
theorem map_char_analyze :
    (analyze rules base latest text).map AnalyzedChar.char = text := by
  have places := congrArg (List.map Prod.snd) (map_place_analyze rules base latest text)
  simpa [Utf8.places, Function.comp_def] using places

@[simp]
theorem map_level_analyze :
    (analyze rules base latest text).map AnalyzedChar.level =
      levels rules base latest text := by
  rw [analyze_eq, List.map_map]
  have answers :
      (Utf8.places text).length =
        ((boundaries (rules.breaks text) (Utf8.places text)).zip
          (levels rules base latest text)).length := by
    simp [Utf8.places]
  calc
    _ = (((Utf8.places text).zip
          ((boundaries (rules.breaks text) (Utf8.places text)).zip
            (levels rules base latest text))).map Prod.snd).map Prod.snd := by
        rw [List.map_map]
        rfl
    _ = _ := by
        rw [List.map_snd_zip (Nat.le_of_eq answers.symm),
          List.map_snd_zip (by simp [Utf8.places])]

end

/-! ## The base level as the lowest -/

/-- The rules resolve no character of any text to a level below this base level. -/
def TextRules.StaysAbove (rules : TextRules) (base : Bidi.Level) : Prop :=
  ∀ text, ∀ level ∈ rules.levels base text, base ≤ level

theorem TextRules.staysAbove_standard (option : WordBreak) (base : Bidi.Level) :
    (TextRules.standard option).StaysAbove base :=
  fun _ _ member => Bidi.le_of_mem_levels member

namespace Analysis

variable
    {rules : TextRules}
    {base latest : Bidi.Level}
    {text : List Char}
    {level : Bidi.Level}

theorem le_of_mem_coreLevels
    (above : rules.StaysAbove base)
    (member : level ∈ coreLevels rules base text) :
    base ≤ level := by
  unfold coreLevels at member
  split at member
  · exact above text level member
  · exact Nat.le_of_eq (List.eq_of_mem_replicate member).symm

/-- The blanks at the ends of a run stand on levels that are met elsewhere. -/
theorem le_of_mem_levels
    (above : rules.StaysAbove base)
    (aboveLatest : base ≤ latest)
    (member : level ∈ levels rules base latest text) :
    base ≤ level := by
  unfold levels at member
  rcases List.mem_append.1 member with inFront | atEnd
  · rcases List.mem_append.1 inFront with atStart | between
    · exact List.eq_of_mem_replicate atStart ▸ aboveLatest
    · exact le_of_mem_coreLevels above between
  · rw [List.eq_of_mem_replicate atEnd]
    cases isLast : (coreLevels rules base (core text)).getLast? with
    | none => exact aboveLatest
    | some last => exact le_of_mem_coreLevels above (List.mem_of_getLast? isLast)

end Analysis

theorem le_level_of_mem_analyze
    {rules : TextRules}
    {base latest : Bidi.Level}
    {text : List Char}
    (above : rules.StaysAbove base)
    (aboveLatest : base ≤ latest)
    {c : AnalyzedChar}
    (member : c ∈ analyze rules base latest text) :
    base ≤ c.level := by
  have inLevels : c.level ∈ Analysis.levels rules base latest text := by
    rw [← map_level_analyze]
    exact List.mem_map_of_mem member
  exact Analysis.le_of_mem_levels above aboveLatest inLevels

end Folio
