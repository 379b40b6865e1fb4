import Mathlib.Logic.Relation
import Folio.Proofs.Session.StoredMarks
import Folio.Session.Workspace

/-!
# What is done to a workspace

The callers of a workspace ask for paragraphs, change their elements, use the pool, clean the
cache, send commands to the documents, and let go of what they hold, in any order.  But for
letting go and emptying the cache, all of this comes down to a few changes of one or two
fields each.  A run keeps what these changes keep, if letting go and emptying the cache keep it
too.
-/

namespace Folio.Workspace

/-- What a caller may do. -/
inductive Operation where
  | cursor (document : Nat) (language : Language) (index : Nat)
  | next (id : ParagraphId)
  | previous (id : ParagraphId)
  | clear (id : ParagraphId)
  | discard (id : ParagraphId)
  | fill (id : ParagraphId)
  | cleanupCache
  | clearCache
  | shrinkPool
  /-- Acquire elements from the pool and release others into it, in whatever way. -/
  | usePool (pool : Pool)
  | command (document : Nat) (command : Session.DocumentCommand)
  /-- Go on without the paragraphs that are not held. -/
  | letGo (isHeld : ParagraphId → Bool)

/-- Whether an operation neither empties the cache nor lets go of anything. -/
def Operation.isChange : Operation → Bool
  | .clearCache => false
  | .letGo _ => false
  | _ => true

/-- The workspace after an operation. -/
def apply (workspace : Workspace) : Operation → Workspace
  | .cursor document language index => (workspace.cursor document language index).2
  | .next id => (workspace.next id).2
  | .previous id => (workspace.previous id).2
  | .clear id => workspace.clear id
  | .discard id => workspace.discard id
  | .fill id => workspace.fill id
  | .cleanupCache => workspace.cleanupCache
  | .clearCache => workspace.clearCache
  | .shrinkPool => workspace.shrinkPool
  | .usePool pool => { workspace with pool }
  | .command document command =>
      workspace.setDocument document
        (Session.runDocument (workspace.document document) command).1
  | .letGo isHeld => workspace.sweep isHeld

/-- The workspace after a run of operations. -/
def after (workspace : Workspace) (operations : List Operation) : Workspace :=
  operations.foldl apply workspace

/-- A workspace that may come of any operations. -/
def Reached
    (workspace : Workspace)
    (rules : Language → WordBreak → TextRules)
    (option : WordBreak) :
    Prop :=
  ∃ config documents operations,
    config.wordBreak = option ∧
      workspace = (createWith rules config documents).after operations

/-! ## Changes -/

/-- The changes that most operations are made of. -/
inductive Change (workspace : Workspace) : Workspace → Prop where
  | setUp (key : ParagraphKey) :
      Change workspace { workspace with segmenters := (workspace.rulesFor key).2 }
  | supply (pool : Pool) : Change workspace { workspace with pool }
  | add
      (key : ParagraphKey)
      (elements : List Element)
      (inRange : key.index < (workspace.document key.document).size)
      (missing : workspace.cache.get? workspace.isAlive key = none) :
      Change workspace
        { workspace with
          cache := workspace.cache.put key workspace.fresh
          live := workspace.live.insert workspace.fresh { key, elements }
          fresh := workspace.fresh + 1 }
  | rewrite
      (id : ParagraphId)
      (paragraph : BuiltParagraph)
      (elements : List Element)
      (isAlive : workspace.paragraph? id = some paragraph) :
      Change workspace
        { workspace with live := workspace.live.insert id { paragraph with elements } }
  | cleanup : Change workspace workspace.cleanupCache
  | command (document : Nat) (command : Session.DocumentCommand) :
      Change workspace
        (workspace.setDocument document
          (Session.runDocument (workspace.document document) command).1)

/-- Any number of changes. -/
abbrev Changes : Workspace → Workspace → Prop :=
  Relation.ReflTransGen Change

section

variable (workspace : Workspace)

theorem changes_build
    {key : ParagraphKey}
    (inRange : key.index < (workspace.document key.document).size)
    (missing : workspace.cache.get? workspace.isAlive key = none) :
    Changes workspace (workspace.build key).2 := by
  let setUp : Workspace := { workspace with segmenters := (workspace.rulesFor key).2 }
  let supplied : Workspace := { setUp with pool := (workspace.compose key).2.1 }
  have first : Change workspace setUp := .setUp key
  have second : Change setUp supplied := .supply _
  have third : Change supplied (workspace.build key).2 := .add key _ inRange missing
  exact .head first (.head second (.single third))

theorem changes_cursor (document : Nat) (language : Language) (index : Nat) :
    Changes workspace (workspace.cursor document language index).2 := by
  unfold cursor
  split
  · exact .refl
  · rename_i last size
    dsimp only
    split
    · exact .refl
    · rename_i missing
      refine changes_build workspace ?_ missing
      change min index last < (workspace.document document).size
      omega

theorem changes_moveFrom
    (id : ParagraphId)
    (target : Document → Nat → Option Nat) :
    Changes workspace (workspace.moveFrom id target).2 := by
  unfold moveFrom
  split
  · exact .refl
  · dsimp only
    split
    · exact .refl
    · exact changes_cursor ..

theorem changes_setElements
    {id : ParagraphId}
    {paragraph : BuiltParagraph}
    (isAlive : workspace.paragraph? id = some paragraph)
    (elements : List Element)
    (pool : Pool) :
    Changes workspace (workspace.setElements id paragraph elements pool) :=
  .head (.supply pool) (.single (.rewrite id paragraph elements isAlive))

theorem changes_clear (id : ParagraphId) : Changes workspace (workspace.clear id) := by
  unfold clear
  split
  · exact .refl
  · rename_i isAlive
    exact changes_setElements workspace isAlive ..

theorem changes_discard (id : ParagraphId) : Changes workspace (workspace.discard id) := by
  unfold discard
  split
  · exact .refl
  · rename_i isAlive
    exact changes_setElements workspace isAlive ..

theorem changes_fill (id : ParagraphId) : Changes workspace (workspace.fill id) := by
  unfold fill
  split
  · exact .refl
  · rename_i paragraph isAlive
    let setUp : Workspace :=
      { workspace with segmenters := (workspace.rulesFor paragraph.key).2 }
    have first : Change workspace setUp := .setUp paragraph.key
    exact .head first (changes_setElements setUp isAlive ..)

theorem changes_apply
    {operation : Operation}
    (isChange : operation.isChange = true) :
    Changes workspace (workspace.apply operation) := by
  cases operation with
  | cursor document language index => exact changes_cursor ..
  | next id => exact changes_moveFrom ..
  | previous id => exact changes_moveFrom ..
  | clear id => exact changes_clear ..
  | discard id => exact changes_discard ..
  | fill id => exact changes_fill ..
  | cleanupCache => exact .single .cleanup
  | clearCache => exact absurd isChange Bool.false_ne_true
  | shrinkPool => exact .single (.supply _)
  | usePool pool => exact .single (.supply pool)
  | command document command => exact .single (.command document command)
  | letGo isHeld => exact absurd isChange Bool.false_ne_true

end

section

variable
    {invariant : Workspace → Prop}
    (ofChange : ∀ {before later}, Change before later → invariant before → invariant later)

include ofChange

theorem Changes.induction
    {before later : Workspace}
    (changes : Changes before later)
    (holds : invariant before) :
    invariant later := by
  induction changes with
  | refl => exact holds
  | tail _ change ofBefore => exact ofChange change ofBefore

/-- Emptying the cache has to keep the invariant only of those runs that empty it. -/
theorem after_induction
    (ofSweep : ∀ {before} isHeld, invariant before → invariant (before.sweep isHeld))
    {workspace : Workspace}
    (holds : invariant workspace)
    (operations : List Operation)
    (ofClear :
      .clearCache ∈ operations → ∀ {before}, invariant before → invariant before.clearCache) :
    invariant (workspace.after operations) := by
  induction operations generalizing workspace with
  | nil => exact holds
  | cons operation rest ofRest =>
      refine ofRest ?_ fun inRest => ofClear (List.mem_cons_of_mem operation inRest)
      cases operation with
      | clearCache => exact ofClear List.mem_cons_self holds
      | letGo isHeld => exact ofSweep isHeld holds
      | _ => exact Changes.induction ofChange (changes_apply workspace rfl) holds

end

/-! ## Built paragraphs -/

section

variable
    {workspace : Workspace}
    {id : ParagraphId}

theorem isAlive_iff :
    workspace.isAlive id = true ↔ ∃ paragraph, workspace.paragraph? id = some paragraph := by
  rw [isAlive, Table.contains_eq_isSome, Option.isSome_iff_exists, paragraph?]

theorem elements_of_paragraph?
    {paragraph : BuiltParagraph}
    (found : workspace.paragraph? id = some paragraph) :
    workspace.elements id = paragraph.elements := by
  rw [elements, found, Option.map_some, Option.getD_some]

theorem elements_of_dead
    (isDead : workspace.paragraph? id = none) :
    workspace.elements id = [] := by
  rw [elements, isDead]
  rfl

theorem clear_of_dead
    (isDead : workspace.paragraph? id = none) :
    workspace.clear id = workspace := by
  rw [clear, isDead]

theorem discard_of_dead
    (isDead : workspace.paragraph? id = none) :
    workspace.discard id = workspace := by
  rw [discard, isDead]

theorem fill_of_dead
    (isDead : workspace.paragraph? id = none) :
    workspace.fill id = workspace := by
  rw [fill, isDead]

theorem paragraph?_build (workspace : Workspace) (key : ParagraphKey) (id : ParagraphId) :
    (workspace.build key).2.paragraph? id =
      if id = workspace.fresh then
        some { key, elements := (workspace.compose key).1 }
      else
        workspace.paragraph? id := by
  rw [paragraph?]
  exact Table.get?_insert ..

theorem paragraph?_setElements
    (workspace : Workspace)
    (id other : ParagraphId)
    (paragraph : BuiltParagraph)
    (elements : List Element)
    (pool : Pool) :
    (workspace.setElements id paragraph elements pool).paragraph? other =
      if other = id then some { paragraph with elements } else workspace.paragraph? other := by
  rw [paragraph?]
  exact Table.get?_insert ..

theorem paragraph?_sweep (isHeld : ParagraphId → Bool) :
    (workspace.sweep isHeld).paragraph? id =
      (workspace.paragraph? id).filter fun _ => isHeld id := by
  rw [paragraph?]
  exact Table.get?_filter ..

theorem paragraph?_clear
    {paragraph : BuiltParagraph}
    (found : workspace.paragraph? id = some paragraph) :
    (workspace.clear id).paragraph? id = some { paragraph with elements := [] } := by
  simp only [clear, found, paragraph?_setElements, if_true]

theorem paragraph?_fill
    {paragraph : BuiltParagraph}
    (found : workspace.paragraph? id = some paragraph) :
    (workspace.fill id).paragraph? id =
      some { paragraph with
        elements := paragraph.elements ++ (workspace.compose paragraph.key).1 } := by
  have elementsSet :=
    paragraph?_setElements workspace id id paragraph
      (paragraph.elements ++ (workspace.compose paragraph.key).1)
      (workspace.compose paragraph.key).2.1
  rw [if_pos rfl] at elementsSet
  rw [fill, found]
  exact elementsSet

end

/-! ## Documents -/

theorem document_setDocument
    (workspace : Workspace)
    (number : Nat)
    (document : Document)
    (other : Nat) :
    (workspace.setDocument number document).document other =
      if other = number ∧ number < workspace.documents.size then
        document
      else
        workspace.document other := by
  simp only [Workspace.document, setDocument, Array.getD_eq_getD_getElem?,
    Array.getElem?_setIfInBounds]
  by_cases same : number = other
  · subst same
    by_cases inRange : number < workspace.documents.size
    · simp [inRange]
    · simp [inRange]
  · simp [same, Ne.symm same]

/-- Nothing changes the paragraphs of a document. -/
theorem Change.paragraphs_document
    {before later : Workspace}
    (change : Change before later)
    (number : Nat) :
    (later.document number).paragraphs = (before.document number).paragraphs := by
  cases change with
  | command document command =>
      rw [document_setDocument]
      split
      · rename_i isChanged
        rw [isChanged.1, Session.paragraphs_runDocument]
      · rfl
  | _ => rfl

/-- The paragraphs that are built are paragraphs of their documents. -/
def KeysInRange (workspace : Workspace) : Prop :=
  ∀ id paragraph, workspace.paragraph? id = some paragraph →
    paragraph.key.index < (workspace.document paragraph.key.document).size

theorem Change.keysInRange
    {before later : Workspace}
    (change : Change before later)
    (inRange : before.KeysInRange) :
    later.KeysInRange := by
  intro id paragraph found
  rw [Document.size, change.paragraphs_document, ← Document.size]
  cases change with
  | add key elements keyInRange missing =>
      rw [paragraph?, Table.get?_insert] at found
      split at found
      · obtain rfl := Option.some.inj found
        exact keyInRange
      · exact inRange id paragraph found
  | rewrite changed old elements isAlive =>
      rw [paragraph?, Table.get?_insert] at found
      split at found
      · obtain rfl := Option.some.inj found
        exact inRange changed old isAlive
      · exact inRange id paragraph found
  | _ => exact inRange id paragraph found

theorem KeysInRange.sweep
    {workspace : Workspace}
    (inRange : workspace.KeysInRange)
    (isHeld : ParagraphId → Bool) :
    (workspace.sweep isHeld).KeysInRange := by
  intro id paragraph found
  rw [paragraph?_sweep, Option.filter_eq_some_iff] at found
  exact inRange id paragraph found.1

end Folio.Workspace
