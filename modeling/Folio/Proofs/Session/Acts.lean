import Folio.Proofs.Element.Turnover
import Folio.Proofs.Session.Composed

/-!
# Turnovers of a workspace

In a workspace, the elements in use are those of the paragraphs that are alive.  What is built
is acquired from the pool, what is cleared or let go is given back, and what is discarded is
lost.  Nothing else that is done to a workspace touches the pool, but for shrinking it.
-/

namespace Folio.Workspace

/-- How many elements of a kind are in paragraphs that are alive. -/
def inUse (workspace : Workspace) (kind : Recyclable) : Nat :=
  workspace.live.total fun paragraph => kind.count paragraph.elements

/-- The elements of the paragraphs that are not held. -/
def unheld (workspace : Workspace) (isHeld : ParagraphId → Bool) : List Element :=
  (workspace.live.filter fun id _ => !isHeld id).entries.flatMap fun entry => entry.2.elements

/-- What is done to a workspace as a whole. -/
inductive Act where
  | ask (document : Nat) (language : Language) (index : Nat)
  | rebuild (id : ParagraphId)
  | clear (id : ParagraphId)
  /-- Clear while the pool is in use elsewhere and takes nothing back. -/
  | discard (id : ParagraphId)
  | fill (id : ParagraphId)
  | letGo (isHeld : ParagraphId → Bool)
  | cleanupCache
  | clearCache
  | shrinkPool
  | command (document : Nat) (command : Session.DocumentCommand)

/-- The workspace after an act. -/
def perform (workspace : Workspace) : Act → Workspace
  | .ask document language index => (workspace.cursor document language index).2
  | .rebuild id => workspace.rebuild id
  | .clear id => workspace.clear id
  | .discard id => workspace.discard id
  | .fill id => workspace.fill id
  | .letGo isHeld => workspace.sweep isHeld
  | .cleanupCache => workspace.cleanupCache
  | .clearCache => workspace.clearCache
  | .shrinkPool => workspace.shrinkPool
  | .command document command => workspace.apply (.command document command)

/-- What an act does with the elements of paragraphs. -/
def turnover (workspace : Workspace) : Act → Turnover
  -- If anything is built, it is the paragraph of the next identity.
  | .ask document language index =>
      { acquired :=
          (workspace.cursor document language index).2.elements workspace.fresh }
  | .rebuild id =>
      { released := workspace.elements id
        acquired := (workspace.rebuild id).elements id }
  | .clear id => { released := workspace.elements id }
  | .discard id => { lost := workspace.elements id }
  | .fill id => { acquired := ((workspace.fill id).elements id).drop (workspace.length id) }
  | .letGo isHeld => { released := workspace.unheld isHeld }
  | .shrinkPool => { isShrunk := true }
  | .cleanupCache => {}
  | .clearCache => {}
  | .command _ _ => {}

/-- Acts are the whole steps in which any paragraph may be handled. -/
theorem turn_perform (workspace : Workspace) (act : Act) :
    Turn (fun _ => True) workspace (workspace.perform act) := by
  cases act with
  | ask document language index => exact .ask document language index
  | rebuild id => exact .rebuild id
  | clear id => exact .clear id trivial
  | discard id => exact .discard id trivial
  | fill id => exact .fill id trivial
  | letGo isHeld => exact .letGo isHeld
  | cleanupCache => exact .cleanupCache
  | clearCache => exact .clearCache
  | shrinkPool => exact .shrinkPool
  | command document command => exact .command document command

theorem Turn.exists_perform
    {handled : ParagraphId → Prop}
    {before later : Workspace}
    (turn : Turn handled before later) :
    ∃ act, later = before.perform act := by
  cases turn with
  | ask document language index => exact ⟨.ask document language index, rfl⟩
  | rebuild id => exact ⟨.rebuild id, rfl⟩
  | clear id => exact ⟨.clear id, rfl⟩
  | discard id => exact ⟨.discard id, rfl⟩
  | fill id => exact ⟨.fill id, rfl⟩
  | letGo isHeld => exact ⟨.letGo isHeld, rfl⟩
  | cleanupCache => exact ⟨.cleanupCache, rfl⟩
  | clearCache => exact ⟨.clearCache, rfl⟩
  | shrinkPool => exact ⟨.shrinkPool, rfl⟩
  | command document command => exact ⟨.command document command, rfl⟩

section

variable
    (workspace : Workspace)
    (kind : Recyclable)

theorem pool_sweep (isHeld : ParagraphId → Bool) :
    (workspace.sweep isHeld).pool = workspace.pool.releaseAll (workspace.unheld isHeld) :=
  List.foldl_flatMap.symm

theorem inUse_sweep (isHeld : ParagraphId → Bool) :
    (workspace.sweep isHeld).inUse kind + kind.count (workspace.unheld isHeld) =
      workspace.inUse kind := by
  rw [unheld, Recyclable.count, List.countP_flatMap]
  exact Table.total_filter_add_total_filter_not _ (fun id _ => isHeld id) workspace.live

variable {workspace}

/-- Other elements of a paragraph are in use in the place of those that it had. -/
theorem inUse_setElements
    {id : ParagraphId}
    {paragraph : BuiltParagraph}
    (found : workspace.paragraph? id = some paragraph)
    (elements : List Element)
    (pool : Pool) :
    (workspace.setElements id paragraph elements pool).inUse kind +
        kind.count paragraph.elements =
      workspace.inUse kind + kind.count elements := by
  let weight (paragraph : BuiltParagraph) : Nat := kind.count paragraph.elements
  have before : workspace.inUse kind = _ :=
    Table.total_eq_of_get?_eq_some weight found
  have later : (workspace.setElements id paragraph elements pool).inUse kind = _ :=
    Table.total_insert weight workspace.live id { paragraph with elements }
  rw [before, later]
  dsimp only [weight]
  omega

theorem inUse_build
    (isNew : workspace.paragraph? workspace.fresh = none)
    (key : ParagraphKey) :
    (workspace.build key).2.inUse kind =
      workspace.inUse kind + kind.count (workspace.compose key).1 := by
  let weight (paragraph : BuiltParagraph) : Nat := kind.count paragraph.elements
  have built : (workspace.build key).2.inUse kind = _ :=
    Table.total_insert weight workspace.live workspace.fresh
      { key, elements := (workspace.compose key).1 }
  rw [built, Table.total_eq_of_get?_eq_none weight isNew, Nat.add_comm]
  rfl

theorem account_compose (key : ParagraphKey) :
    (workspace.compose key).2.1.account kind =
      (workspace.pool.account kind).take (kind.count (workspace.compose key).1) :=
  Composition.account_fill ..

theorem maxFree_compose (key : ParagraphKey) :
    (workspace.compose key).2.1.maxFree = workspace.pool.maxFree :=
  Pool.maxFree_supplyAll ..

/-! ## Each act -/

/-- The pool and the elements in use change as a turnover says. -/
abbrev Exchanges
    (turnover : Turnover)
    (kind : Recyclable)
    (before later : Workspace) :
    Prop :=
  turnover.Settles kind before.pool later.pool (before.inUse kind) (later.inUse kind)

variable {kind}

theorem settles_ask
    (remembers : workspace.RemembersKeys)
    (document : Nat)
    (language : Language)
    (index : Nat) :
    Exchanges (workspace.turnover (.ask document language index)) kind workspace
      (workspace.cursor document language index).2 := by
  rw [turnover]
  rcases workspace.snd_cursor_eq document language index with same | ⟨key, isBuild⟩
  · rw [same, elements_of_dead remembers.paragraph?_fresh]
    exact Turnover.settles_refl _
  · have built :
        (workspace.build key).2.paragraph? workspace.fresh =
          some { key, elements := (workspace.compose key).1 } := by
      rw [paragraph?_build, if_pos rfl]
    rw [isBuild, elements_of_paragraph? built]
    apply Turnover.settles_acquired
    · exact inUse_build kind remembers.paragraph?_fresh key
    · exact account_compose kind key
    · exact maxFree_compose key

theorem settles_clear (id : ParagraphId) :
    Exchanges (workspace.turnover (.clear id)) kind workspace (workspace.clear id) := by
  rw [turnover]
  cases found : workspace.paragraph? id with
  | none =>
      rw [elements_of_dead found, clear_of_dead found]
      exact Turnover.settles_refl _
  | some paragraph =>
      rw [elements_of_paragraph? found, clear, found]
      exact Turnover.settles_releaseAll (inUse_setElements kind found [] _)

theorem settles_discard (id : ParagraphId) :
    Exchanges (workspace.turnover (.discard id)) kind workspace (workspace.discard id) := by
  rw [turnover]
  cases found : workspace.paragraph? id with
  | none =>
      rw [elements_of_dead found, discard_of_dead found]
      exact Turnover.settles_refl _
  | some paragraph =>
      rw [elements_of_paragraph? found, discard, found]
      exact Turnover.settles_lost (inUse_setElements kind found [] _)

theorem settles_fill (id : ParagraphId) :
    Exchanges (workspace.turnover (.fill id)) kind workspace (workspace.fill id) := by
  rw [turnover]
  cases found : workspace.paragraph? id with
  | none =>
      rw [fill_of_dead found, elements_of_dead found, List.drop_nil]
      exact Turnover.settles_refl _
  | some paragraph =>
      have added :
          ((workspace.fill id).elements id).drop (workspace.length id) =
            (workspace.compose paragraph.key).1 := by
        rw [elements_of_paragraph? (paragraph?_fill found), Workspace.length,
          elements_of_paragraph? found, List.drop_left]
      have inUse_fill :
          (workspace.fill id).inUse kind + kind.count paragraph.elements =
            workspace.inUse kind +
              kind.count (paragraph.elements ++ (workspace.compose paragraph.key).1) := by
        rw [fill, found]
        exact inUse_setElements kind found _ (workspace.compose paragraph.key).2.1
      have pool_fill : (workspace.fill id).pool = (workspace.compose paragraph.key).2.1 := by
        rw [fill, found]
        rfl
      rw [kind.count_append] at inUse_fill
      rw [added, Exchanges, pool_fill]
      apply Turnover.settles_acquired
      · omega
      · exact account_compose kind paragraph.key
      · exact maxFree_compose paragraph.key

theorem settles_rebuild (id : ParagraphId) :
    Exchanges (workspace.turnover (.rebuild id)) kind workspace (workspace.rebuild id) := by
  have cleared : (workspace.clear id).length id = 0 := by
    rw [Workspace.length, List.length_eq_zero_iff]
    cases found : workspace.paragraph? id with
    | none => rw [clear_of_dead found, elements_of_dead found]
    | some paragraph => rw [elements_of_paragraph? (paragraph?_clear found)]
  have filled := @settles_fill (workspace.clear id) kind id
  rw [turnover, cleared] at filled
  exact (settles_clear id).trans filled

/-- What an act does with elements is what it changes of the pool and of what is in use. -/
theorem settles_perform
    (remembers : workspace.RemembersKeys)
    (act : Act) :
    Exchanges (workspace.turnover act) kind workspace (workspace.perform act) := by
  cases act with
  | ask document language index => exact settles_ask remembers document language index
  | rebuild id => exact settles_rebuild id
  | clear id => exact settles_clear id
  | discard id => exact settles_discard id
  | fill id => exact settles_fill id
  | letGo isHeld =>
      rw [turnover, perform, Exchanges, pool_sweep]
      exact Turnover.settles_releaseAll (inUse_sweep workspace kind isHeld)
  | shrinkPool => exact Turnover.settles_shrink _
  | cleanupCache => exact Turnover.settles_refl _
  | clearCache => exact Turnover.settles_refl _
  | command document command => exact Turnover.settles_refl _

end

end Folio.Workspace
