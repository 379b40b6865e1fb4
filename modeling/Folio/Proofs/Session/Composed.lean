import Folio.Proofs.Session.History
import Folio.Proofs.Session.Keys

/-!
# Elements of one fill

But for the marks of words, every fill of a paragraph builds the same elements, for nothing
that is done to a workspace changes what is composed.  A paragraph is built with the elements
of one fill, and it is built anew with those of one fill.  So it holds them as long as it is
neither cleared nor filled in between, and then building it anew changes nothing but marks.
-/

namespace Folio

namespace Composition

@[simp]
theorem unmarked_marked (marks : Marks) (element : Element) :
    (marked marks element).unmarked = element.unmarked := by
  cases element <;> rfl

/-- Marks aside, a fill shows what is composed. -/
theorem map_unmarked_shown
    (rules : TextRules)
    (document : Document)
    (language : Language)
    (index : Nat) :
    (shown rules document language index).map Element.unmarked =
      (ofDocument rules document language index).map Element.unmarked := by
  rw [shown, List.map_map]
  apply List.map_congr_left
  intro element _
  exact unmarked_marked _ element

end Composition

namespace Workspace

/-! ## What every fill builds -/

/-- What every fill of a paragraph builds, but for the marks of words. -/
def bare (workspace : Workspace) (key : ParagraphKey) : List Element :=
  (Composition.ofDocument (workspace.rules key.language workspace.config.wordBreak)
    (workspace.document key.document) key.language key.index).map Element.unmarked

/-- Commands change neither the paragraphs of a document nor its images. -/
theorem image?_runDocument (document : Document) (command : Session.DocumentCommand) :
    (Session.runDocument document command).1.image? = document.image? := by
  cases command with
  | paragraphKind index =>
      simp only [Session.runDocument]
      split <;> rfl
  | _ => rfl

theorem ofDocument_runDocument
    (rules : TextRules)
    (document : Document)
    (command : Session.DocumentCommand)
    (language : Language)
    (index : Nat) :
    Composition.ofDocument rules (Session.runDocument document command).1 language index =
      Composition.ofDocument rules document language index := by
  rw [Composition.ofDocument, Document.paragraph?, Session.paragraphs_runDocument,
    image?_runDocument]
  rfl

theorem Change.bare_eq
    {before later : Workspace}
    (change : Change before later)
    (key : ParagraphKey) :
    later.bare key = before.bare key := by
  cases change with
  | command number command =>
      change
        (Composition.ofDocument _ ((before.setDocument number _).document key.document) _ _).map
            _ =
          _
      rw [document_setDocument]
      split
      · rename_i isChanged
        rw [← isChanged.1, ofDocument_runDocument]
        rfl
      · rfl
  | _ => rfl

/-- Nothing that is done to a workspace changes what is composed. -/
theorem bare_after (workspace : Workspace) (operations : List Operation) (key : ParagraphKey) :
    (workspace.after operations).bare key = workspace.bare key := by
  let SameBare (later : Workspace) : Prop := later.bare key = workspace.bare key
  have ofChange : ∀ {before later}, Change before later → SameBare before → SameBare later := by
    intro before later change same
    exact (change.bare_eq key).trans same
  have holds : SameBare workspace := rfl
  exact after_induction ofChange (fun _ same => same) holds operations fun _ _ same => same

section

variable
    {workspace : Workspace}
    {rules : Language → WordBreak → TextRules}
    {option : WordBreak}
    (isSetUp : workspace.IsSetUp rules option)

include isSetUp

theorem IsSetUp.map_unmarked_shown (key : ParagraphKey) :
    (Composition.shown (rules key.language option) (workspace.document key.document)
        key.language key.index).map Element.unmarked =
      workspace.bare key := by
  rw [Composition.map_unmarked_shown, bare, isSetUp.rules_eq, isSetUp.wordBreak_eq]

theorem IsSetUp.map_unmarked_compose (key : ParagraphKey) :
    (workspace.compose key).1.map Element.unmarked = workspace.bare key := by
  rw [isSetUp.fst_compose, isSetUp.map_unmarked_shown]

theorem IsSetUp.map_unmarked_rebuild
    {id : ParagraphId}
    {paragraph : BuiltParagraph}
    (isAlive : workspace.paragraph? id = some paragraph) :
    ((workspace.rebuild id).elements id).map Element.unmarked = workspace.bare paragraph.key := by
  rw [isSetUp.elements_rebuild isAlive, isSetUp.map_unmarked_shown]

end

/-! ## Whole steps -/

/--
One thing that is done to a workspace as a whole.  Only the paragraphs that are handled are
cleared, or filled further.
-/
inductive Turn (handled : ParagraphId → Prop) (workspace : Workspace) : Workspace → Prop where
  | ask (document : Nat) (language : Language) (index : Nat) :
      Turn handled workspace (workspace.cursor document language index).2
  | rebuild (id : ParagraphId) : Turn handled workspace (workspace.rebuild id)
  | clear (id : ParagraphId) (isHandled : handled id) : Turn handled workspace (workspace.clear id)
  | discard (id : ParagraphId) (isHandled : handled id) :
      Turn handled workspace (workspace.discard id)
  | fill (id : ParagraphId) (isHandled : handled id) : Turn handled workspace (workspace.fill id)
  | cleanupCache : Turn handled workspace workspace.cleanupCache
  | clearCache : Turn handled workspace workspace.clearCache
  | shrinkPool : Turn handled workspace workspace.shrinkPool
  | command (document : Nat) (command : Session.DocumentCommand) :
      Turn handled workspace (workspace.apply (.command document command))
  | letGo (isHeld : ParagraphId → Bool) : Turn handled workspace (workspace.sweep isHeld)

/-- Any number of whole steps. -/
abbrev Turns (handled : ParagraphId → Prop) : Workspace → Workspace → Prop :=
  Relation.ReflTransGen (Turn handled)

section

variable
    {handled : ParagraphId → Prop}
    {before later : Workspace}

theorem Turn.exists_after
    (turn : Turn handled before later) :
    ∃ operations, later = before.after operations := by
  cases turn with
  | ask document language index => exact ⟨[.cursor document language index], rfl⟩
  | rebuild id => exact ⟨[.clear id, .fill id], rfl⟩
  | clear id => exact ⟨[.clear id], rfl⟩
  | discard id => exact ⟨[.discard id], rfl⟩
  | fill id => exact ⟨[.fill id], rfl⟩
  | cleanupCache => exact ⟨[.cleanupCache], rfl⟩
  | clearCache => exact ⟨[.clearCache], rfl⟩
  | shrinkPool => exact ⟨[.shrinkPool], rfl⟩
  | command document command => exact ⟨[.command document command], rfl⟩
  | letGo isHeld => exact ⟨[.letGo isHeld], rfl⟩

theorem Turn.isSetUp
    {rules : Language → WordBreak → TextRules}
    {option : WordBreak}
    (turn : Turn handled before later)
    (isSetUp : before.IsSetUp rules option) :
    later.IsSetUp rules option := by
  obtain ⟨operations, rfl⟩ := turn.exists_after
  exact isSetUp.after operations

theorem Turn.bare_eq
    (turn : Turn handled before later)
    (key : ParagraphKey) :
    later.bare key = before.bare key := by
  obtain ⟨operations, rfl⟩ := turn.exists_after
  exact bare_after before operations key

end

/-! ### Paragraphs that are not meant -/

section

variable
    {workspace : Workspace}
    {id other : ParagraphId}
    (isOther : other ≠ id)

include isOther

theorem paragraph?_setElements_of_ne
    (paragraph : BuiltParagraph)
    (elements : List Element)
    (pool : Pool) :
    (workspace.setElements id paragraph elements pool).paragraph? other =
      workspace.paragraph? other := by
  rw [paragraph?_setElements, if_neg isOther]

theorem paragraph?_clear_of_ne :
    (workspace.clear id).paragraph? other = workspace.paragraph? other := by
  rw [clear]
  split
  · rfl
  · exact paragraph?_setElements_of_ne isOther ..

theorem paragraph?_discard_of_ne :
    (workspace.discard id).paragraph? other = workspace.paragraph? other := by
  rw [discard]
  split
  · rfl
  · exact paragraph?_setElements_of_ne isOther ..

theorem paragraph?_fill_of_ne :
    (workspace.fill id).paragraph? other = workspace.paragraph? other := by
  rw [fill]
  split
  · rfl
  · rename_i paragraph _
    let pool := (workspace.compose paragraph.key).2.1
    exact paragraph?_setElements_of_ne isOther paragraph _ pool

theorem paragraph?_rebuild_of_ne :
    (workspace.rebuild id).paragraph? other = workspace.paragraph? other := by
  rw [rebuild, paragraph?_fill_of_ne isOther, paragraph?_clear_of_ne isOther]

end

/-- A paragraph that is built anew keeps its key. -/
theorem exists_of_rebuild
    {workspace : Workspace}
    {id : ParagraphId}
    {paragraph : BuiltParagraph}
    (found : (workspace.rebuild id).paragraph? id = some paragraph) :
    ∃ old, workspace.paragraph? id = some old ∧ old.key = paragraph.key := by
  cases isAlive : workspace.paragraph? id with
  | none =>
      rw [rebuild, clear_of_dead isAlive, fill_of_dead isAlive, isAlive] at found
      exact absurd found (by simp)
  | some old =>
      rw [rebuild, paragraph?_fill (paragraph?_clear isAlive)] at found
      exact ⟨old, rfl, by rw [← Option.some.inj found]⟩

/-- Who is asked for is there, or is built. -/
theorem snd_cursor_eq
    (workspace : Workspace)
    (document : Nat)
    (language : Language)
    (index : Nat) :
    (workspace.cursor document language index).2 = workspace ∨
      ∃ key, (workspace.cursor document language index).2 = (workspace.build key).2 := by
  by_cases isEmpty : (workspace.document document).size = 0
  · rw [cursor_of_empty isEmpty]
    exact Or.inl rfl
  · rw [cursor_of_nonempty isEmpty]
    split
    · exact Or.inl rfl
    · exact Or.inr ⟨_, rfl⟩

/-! ## Holding the elements of one fill -/

/-- If a paragraph is alive, its elements are those of one fill, but for the marks of words. -/
def HoldsOneFill (workspace : Workspace) (id : ParagraphId) : Prop :=
  ∀ paragraph, workspace.paragraph? id = some paragraph →
    paragraph.elements.map Element.unmarked = workspace.bare paragraph.key

namespace HoldsOneFill

variable
    {workspace : Workspace}
    {id : ParagraphId}

theorem congr
    {later : Workspace}
    (holds : workspace.HoldsOneFill id)
    (sameBare : ∀ key, later.bare key = workspace.bare key)
    (wasAlive :
      ∀ paragraph, later.paragraph? id = some paragraph →
        workspace.paragraph? id = some paragraph) :
    later.HoldsOneFill id := by
  intro paragraph found
  rw [sameBare]
  exact holds paragraph (wasAlive paragraph found)

theorem map_unmarked_elements
    (holds : workspace.HoldsOneFill id)
    {paragraph : BuiltParagraph}
    (found : workspace.paragraph? id = some paragraph) :
    (workspace.elements id).map Element.unmarked = workspace.bare paragraph.key := by
  rw [elements_of_paragraph? found]
  exact holds paragraph found

end HoldsOneFill

/-- Who is not handled holds the elements of one fill after every step, and so does who is new. -/
theorem Turn.holdsOneFill
    {handled : ParagraphId → Prop}
    {before later : Workspace}
    {rules : Language → WordBreak → TextRules}
    {option : WordBreak}
    (turn : Turn handled before later)
    (isSetUp : before.IsSetUp rules option)
    {id : ParagraphId}
    (notHandled : ¬ handled id)
    (holds : before.HoldsOneFill id) :
    later.HoldsOneFill id := by
  have sameBare := turn.bare_eq
  have isOther : ∀ other, handled other → id ≠ other := by
    rintro other isHandled rfl
    exact notHandled isHandled
  cases turn with
  | ask document language index =>
      rcases snd_cursor_eq before document language index with same | ⟨key, isBuild⟩
      · rwa [same]
      · rw [isBuild] at sameBare ⊢
        intro paragraph found
        rw [paragraph?_build] at found
        rw [sameBare]
        split at found
        · obtain rfl := Option.some.inj found
          exact isSetUp.map_unmarked_compose key
        · exact holds paragraph found
  | rebuild other =>
      by_cases same : id = other
      · subst same
        intro paragraph found
        obtain ⟨old, wasFound, sameKey⟩ := exists_of_rebuild found
        rw [← elements_of_paragraph? found, isSetUp.map_unmarked_rebuild wasFound, sameBare,
          sameKey]
      · apply holds.congr sameBare
        intro paragraph found
        rwa [paragraph?_rebuild_of_ne same] at found
  | clear other isHandled =>
      apply holds.congr sameBare
      intro paragraph found
      rwa [paragraph?_clear_of_ne (isOther other isHandled)] at found
  | discard other isHandled =>
      apply holds.congr sameBare
      intro paragraph found
      rwa [paragraph?_discard_of_ne (isOther other isHandled)] at found
  | fill other isHandled =>
      apply holds.congr sameBare
      intro paragraph found
      rwa [paragraph?_fill_of_ne (isOther other isHandled)] at found
  | letGo isHeld =>
      apply holds.congr sameBare
      exact fun paragraph found => paragraph?_of_sweep found
  | _ =>
      apply holds.congr sameBare
      exact fun _ found => found

theorem Turns.holdsOneFill
    {handled : ParagraphId → Prop}
    {before later : Workspace}
    {rules : Language → WordBreak → TextRules}
    {option : WordBreak}
    (turns : Turns handled before later)
    (isSetUp : before.IsSetUp rules option)
    {id : ParagraphId}
    (notHandled : ¬ handled id)
    (holds : before.HoldsOneFill id) :
    later.IsSetUp rules option ∧ later.HoldsOneFill id := by
  induction turns with
  | refl => exact ⟨isSetUp, holds⟩
  | tail _ turn ofBefore =>
      exact ⟨turn.isSetUp ofBefore.1, turn.holdsOneFill ofBefore.1 notHandled ofBefore.2⟩

/-- A paragraph is alive at two times, with one key and with the same elements but for marks. -/
structure AgreesOn (id : ParagraphId) (before later : Workspace) : Prop where
  exists_key :
    ∃ paragraph laterParagraph,
      before.paragraph? id = some paragraph ∧
        later.paragraph? id = some laterParagraph ∧ laterParagraph.key = paragraph.key
  elements :
    (later.elements id).map Element.unmarked = (before.elements id).map Element.unmarked

/-- A paragraph that holds the elements of one fill at two times holds the same but for marks. -/
theorem agreesOn_of_after
    {before later : Workspace}
    (isAfter : ∃ operations, later = before.after operations)
    (remembers : before.RemembersKeys)
    {id : ParagraphId}
    (wasAlive : before.isAlive id = true)
    (holds : before.HoldsOneFill id)
    (isAlive : later.isAlive id = true)
    (holdsAfter : later.HoldsOneFill id) :
    AgreesOn id before later := by
  obtain ⟨operations, rfl⟩ := isAfter
  obtain ⟨paragraph, wasFound⟩ := isAlive_iff.1 wasAlive
  obtain ⟨later, found, sameKey⟩ := remembers.exists_of_isAlive_after wasFound isAlive
  refine ⟨⟨paragraph, later, wasFound, found, sameKey⟩, ?_⟩
  rw [holdsAfter.map_unmarked_elements found, holds.map_unmarked_elements wasFound, bare_after,
    sameKey]

theorem AgreesOn.length_eq
    {id : ParagraphId}
    {before later : Workspace}
    (agrees : AgreesOn id before later) :
    later.length id = before.length id := by
  have lengths := congrArg List.length agrees.elements
  rwa [List.length_map, List.length_map] at lengths

end Workspace

end Folio
