import Folio.Proofs.Table
import Folio.Session.Cache

/-!
# The history of a cache

A paragraph is alive as long as the cache holds it or somebody else does.  What others hold
changes freely, except that nobody can take hold of a paragraph that has died.  What a cache
answers is then told by its history: which paragraph was put last under a key since the cache
was last cleared, and whether it is alive.

Histories have the latest event first, so that what they tell is shown by induction on them,
one case for each kind of event.
-/

namespace Folio.Cache

/-! ## Histories -/

/-- What happens to a cache and around it. -/
inductive Event where
  | put (key : ParagraphKey) (id : ParagraphId)
  | get (key : ParagraphKey)
  | cleanup
  | clear
  /-- The others take hold of paragraphs and let go of them, until these are what they hold. -/
  | hold (others : ParagraphId → Bool)

/-- A cache, and the paragraphs that others hold. -/
structure Scene where
  cache : Cache
  others : ParagraphId → Bool

namespace Scene

/-- Nothing is in the cache, and nobody holds anything. -/
def start : Scene where
  cache := .empty
  others _ := false

/-- A paragraph is alive if anybody holds it. -/
def isAlive (scene : Scene) (id : ParagraphId) : Bool :=
  scene.others id || scene.cache.holds id

/-- The answer of the cache. -/
def get? (scene : Scene) (key : ParagraphKey) : Option ParagraphId :=
  scene.cache.get? scene.isAlive key

/-- The scene after an event. -/
def act (scene : Scene) : Event → Scene
  | .put key id => { scene with cache := scene.cache.put key id }
  | .get _ => scene
  | .cleanup => { scene with cache := scene.cache.cleanup scene.isAlive }
  | .clear => { scene with cache := scene.cache.clear }
  | .hold others => { scene with others }

/-- The scene after a history, of which the latest event comes first. -/
def after : List Event → Scene
  | [] => start
  | event :: past => (after past).act event

theorem isAlive_iff {scene : Scene} {id : ParagraphId} :
    scene.isAlive id = true ↔
      scene.others id = true ∨ scene.cache.lastAdded = some id := by
  rw [isAlive, Bool.or_eq_true, holds, beq_iff_eq]

theorem get?_eq_some_iff
    {scene : Scene}
    {key : ParagraphKey}
    {id : ParagraphId} :
    scene.get? key = some id ↔
      scene.cache.entries.get? key = some id ∧ scene.isAlive id = true :=
  Option.filter_eq_some_iff

end Scene

/-- Whoever puts a paragraph has it, and others take hold of what is alive or is new. -/
def Event.CanFollow (past : List Event) : Event → Prop
  | .put _ id => (Scene.after past).isAlive id = true
  | .hold others =>
      ∀ id,
        others id = true →
          (Scene.after past).isAlive id = true ∨ ∀ key, .put key id ∉ past
  | _ => True

/-- A history in which nothing is taken hold of that has died. -/
def IsPossible : List Event → Prop
  | [] => True
  | event :: past => event.CanFollow past ∧ IsPossible past

/-! ## What histories tell -/

/-- An event has happened, and nothing has undone it since. -/
inductive Stands (undoes : List Event → Event → Prop) (event : Event) : List Event → Prop where
  | happens (past : List Event) : Stands undoes event (event :: past)
  | stays {past : List Event} {other : Event} :
      Stands undoes event past → ¬ undoes past other → Stands undoes event (other :: past)

/-- Whether an event takes a key away from what was put under it. -/
def Event.Replaces (key : ParagraphKey) : Event → Prop
  | .put other _ => other = key
  | .clear => True
  | _ => False

/-- Whether an event makes the cache let go of what it holds. -/
def Event.Releases : Event → Prop
  | .put _ _ => True
  | .clear => True
  | _ => False

/-- Whether an event takes the entry of a key and a paragraph out of the cache. -/
def Event.Removes
    (key : ParagraphKey)
    (id : ParagraphId)
    (past : List Event)
    (event : Event) :
    Prop :=
  event.Replaces key ∨ event = .cleanup ∧ (Scene.after past).isAlive id = false

/-- A paragraph is what was put last under a key since the cache was last cleared. -/
def LastPut (key : ParagraphKey) (id : ParagraphId) : List Event → Prop :=
  Stands (fun _ event => event.Replaces key) (.put key id)

/-- Nothing has been put since a paragraph was, and the cache has not been cleared. -/
def IsRetained (id : ParagraphId) (history : List Event) : Prop :=
  ∃ key, Stands (fun _ event => event.Releases) (.put key id) history

/-- A paragraph was put last under a key, and every cleanup since has found it alive. -/
def Lists (key : ParagraphKey) (id : ParagraphId) : List Event → Prop :=
  Stands (Event.Removes key id) (.put key id)

/-- A key has been put since the last clear, and not been cleaned up since it was last put. -/
def IsListed (key : ParagraphKey) (history : List Event) : Prop :=
  ∃ id, Lists key id history

namespace Stands

variable
    {undoes : List Event → Event → Prop}
    {event other : Event}
    {past : List Event}

theorem cons_iff :
    Stands undoes event (other :: past) ↔
      other = event ∨ Stands undoes event past ∧ ¬ undoes past other := by
  constructor
  · rintro (_ | ⟨stands, notUndone⟩)
    · exact Or.inl rfl
    · exact Or.inr ⟨stands, notUndone⟩
  · rintro (rfl | ⟨stands, notUndone⟩)
    · exact .happens past
    · exact .stays stands notUndone

theorem mem (stands : Stands undoes event past) : event ∈ past := by
  induction stands with
  | happens past => exact List.mem_cons_self
  | stays _ _ happened => exact List.mem_cons_of_mem _ happened

theorem mono
    {undoesLess : List Event → Event → Prop}
    (stands : Stands undoes event past)
    (implies : ∀ past other, undoesLess past other → undoes past other) :
    Stands undoesLess event past := by
  induction stands with
  | happens past => exact .happens past
  | stays _ notUndone standsStill =>
      exact .stays standsStill fun undone => notUndone (implies _ _ undone)

end Stands

theorem not_stands_nil {undoes : List Event → Event → Prop} {event : Event} :
    ¬ Stands undoes event [] :=
  nofun

theorem isRetained_cons_iff {id : ParagraphId} {event : Event} {past : List Event} :
    IsRetained id (event :: past) ↔
      (∃ key, event = .put key id) ∨ IsRetained id past ∧ ¬ event.Releases := by
  simp only [IsRetained, Stands.cons_iff, exists_or, exists_and_right]

/-! ## What the cache keeps -/

/-- The entries of a cache are those that its history lists. -/
theorem get?_entries_iff (key : ParagraphKey) (id : ParagraphId) (history : List Event) :
    (Scene.after history).cache.entries.get? key = some id ↔ Lists key id history := by
  induction history with
  | nil => exact iff_of_false (by simp [Scene.after, Scene.start, empty]) not_stands_nil
  | cons event past ofPast =>
      rw [Lists, Stands.cons_iff, ← Lists, ← ofPast]
      cases event with
      | put other added =>
          simp only [Scene.after, Scene.act, put, Table.get?_insert, Event.Removes,
            Event.Replaces, Event.put.injEq]
          split
          · rename_i same
            simp [same]
          · rename_i differs
            simp [Ne.symm differs]
      | cleanup =>
          simp [Scene.after, Scene.act, cleanup, Table.get?_filter, Option.filter_eq_some_iff,
            Event.Removes, Event.Replaces]
      | clear => simp [Scene.after, Scene.act, clear, empty, Event.Removes, Event.Replaces]
      | _ => simp [Scene.after, Scene.act, Event.Removes, Event.Replaces]

theorem lastAdded_iff (id : ParagraphId) (history : List Event) :
    (Scene.after history).cache.lastAdded = some id ↔ IsRetained id history := by
  induction history with
  | nil =>
      refine iff_of_false (by simp [Scene.after, Scene.start, empty]) ?_
      rintro ⟨_, stands⟩
      exact not_stands_nil stands
  | cons event past ofPast =>
      rw [isRetained_cons_iff, ← ofPast]
      cases event with
      | put key added => simp [Scene.after, Scene.act, put, Event.Releases]
      | clear => simp [Scene.after, Scene.act, clear, empty, Event.Releases]
      | _ => simp [Scene.after, Scene.act, cleanup, Event.Releases]

/-! ## Who is alive -/

/-- What has been put and is alive has been alive all the time. -/
theorem isAlive_of_cons
    {event : Event}
    {past : List Event}
    (possible : IsPossible (event :: past))
    {key : ParagraphKey}
    {id : ParagraphId}
    (wasPut : .put key id ∈ past)
    (isAlive : (Scene.after (event :: past)).isAlive id = true) :
    (Scene.after past).isAlive id = true := by
  obtain ⟨canFollow, -⟩ := possible
  rw [Scene.isAlive_iff] at isAlive
  cases event with
  | put other added =>
      rcases isAlive with held | isLast
      · exact Scene.isAlive_iff.2 (Or.inl held)
      · obtain rfl := Option.some.inj isLast
        exact canFollow
  | get other => exact Scene.isAlive_iff.2 isAlive
  | cleanup => exact Scene.isAlive_iff.2 isAlive
  | clear =>
      rcases isAlive with held | isLast
      · exact Scene.isAlive_iff.2 (Or.inl held)
      · exact absurd isLast (by simp [Scene.after, Scene.act, clear, empty])
  | hold others =>
      rcases isAlive with held | isLast
      · exact (canFollow id held).resolve_right fun neverPut => neverPut key wasPut
      · exact Scene.isAlive_iff.2 (Or.inr isLast)

/-- No cleanup has removed what was put last under a key, if it is alive. -/
theorem lists_iff_lastPut
    {history : List Event}
    (possible : IsPossible history)
    {key : ParagraphKey}
    {id : ParagraphId}
    (isAlive : (Scene.after history).isAlive id = true) :
    Lists key id history ↔ LastPut key id history := by
  refine ⟨fun lists => lists.mono fun _ _ => Or.inl, fun lastPut => ?_⟩
  induction lastPut with
  | happens past => exact .happens past
  | @stays past other lastPut notReplaced ofPast =>
      -- What is alive now was so at every cleanup since it was put.
      have wasAlive := isAlive_of_cons possible lastPut.mem isAlive
      refine .stays (ofPast possible.2 wasAlive) ?_
      rintro (isReplaced | ⟨rfl, isDead⟩)
      · exact notReplaced isReplaced
      · exact absurd wasAlive (by simp [isDead])

/-- The cache answers with what was put last under a key, if that is alive. -/
theorem get?_iff_lastPut
    {history : List Event}
    (possible : IsPossible history)
    (key : ParagraphKey)
    (id : ParagraphId) :
    (Scene.after history).get? key = some id ↔
      LastPut key id history ∧ (Scene.after history).isAlive id = true := by
  rw [Scene.get?_eq_some_iff, get?_entries_iff]
  exact and_congr_left (lists_iff_lastPut possible)

theorem isAlive_iff_retained (id : ParagraphId) (history : List Event) :
    (Scene.after history).isAlive id = true ↔
      (Scene.after history).others id = true ∨ IsRetained id history := by
  rw [Scene.isAlive_iff, lastAdded_iff]

/-! ## Cleaning up -/

section

variable (scene : Scene)

/-- The cache alone keeps at most one paragraph alive. -/
theorem subsingleton_alone :
    {id | scene.isAlive id = true ∧ scene.others id = false}.Subsingleton := by
  rintro id ⟨isAlive, notHeld⟩ other ⟨otherIsAlive, otherNotHeld⟩
  rw [Scene.isAlive_iff, notHeld] at isAlive
  rw [Scene.isAlive_iff, otherNotHeld] at otherIsAlive
  simp_all

theorem isAlive_cleanup : (scene.act .cleanup).isAlive = scene.isAlive := rfl

/-- A cleanup changes no answer. -/
theorem get?_cleanup (key : ParagraphKey) :
    (scene.act .cleanup).get? key = scene.get? key := by
  apply Option.ext
  intro id
  rw [Scene.get?_eq_some_iff, Scene.get?_eq_some_iff, isAlive_cleanup]
  simp only [Scene.act, cleanup, Table.get?_filter, Option.filter_eq_some_iff, and_assoc,
    and_self]

/-- A cleanup leaves the keys that have an answer. -/
theorem size_cleanup :
    (scene.act .cleanup).cache.size = {key | (scene.get? key).isSome = true}.ncard := by
  rw [size, Scene.act, cleanup, Table.size_filter_eq_ncard]
  congr 1
  ext key
  simp only [Set.mem_ofPred_eq, Option.isSome_iff_exists, Scene.get?_eq_some_iff]

/-- A cleanup drops the keys that have no answer. -/
theorem size_sub_size_cleanup :
    scene.cache.size - (scene.act .cleanup).cache.size =
      {key | (∃ id, scene.cache.entries.get? key = some id) ∧
        scene.get? key = none}.ncard := by
  have parts :=
    Table.size_filter_add_size_filter_not (fun _ id => scene.isAlive id) scene.cache.entries
  rw [size, size, Scene.act, cleanup]
  rw [← parts, Nat.add_sub_cancel_left, Table.size_filter_eq_ncard]
  congr 1
  ext key
  simp only [Set.mem_ofPred_eq, Option.eq_none_iff_forall_ne_some, ne_eq,
    Scene.get?_eq_some_iff, Bool.not_eq_true']
  constructor
  · rintro ⟨id, listed, isDead⟩
    refine ⟨⟨id, listed⟩, ?_⟩
    rintro other ⟨otherListed, isAlive⟩
    obtain rfl := Option.some.inj (listed.symm.trans otherListed)
    exact absurd isAlive (by simp [isDead])
  · rintro ⟨⟨id, listed⟩, noAnswer⟩
    refine ⟨id, listed, ?_⟩
    rw [Bool.eq_false_iff]
    exact fun isAlive => noAnswer id ⟨listed, isAlive⟩

end

theorem size_after (history : List Event) :
    (Scene.after history).cache.size = {key | IsListed key history}.ncard := by
  rw [size, Table.size_eq_ncard]
  congr 1
  ext key
  simp only [Set.mem_ofPred_eq, Option.isSome_iff_exists, get?_entries_iff, IsListed]

/-! ## Weak maps -/

/-- After a history the cache answers, holds and counts as the history tells. -/
structure IsWeakMap (history : List Event) : Prop where
  get?_iff :
    ∀ key id,
      (Scene.after history).get? key = some id ↔
        LastPut key id history ∧ (Scene.after history).isAlive id = true
  isAlive_iff :
    ∀ id,
      (Scene.after history).isAlive id = true ↔
        (Scene.after history).others id = true ∨ IsRetained id history
  /-- The cache alone keeps at most one paragraph alive. -/
  alone :
    {id | (Scene.after history).isAlive id = true ∧
      (Scene.after history).others id = false}.Subsingleton
  /-- A cleanup changes no answer. -/
  get?_cleanup :
    ∀ key, (Scene.after (.cleanup :: history)).get? key = (Scene.after history).get? key
  /-- A cleanup drops the keys whose paragraph has died. -/
  dropped :
    (Scene.after history).cache.size - (Scene.after (.cleanup :: history)).cache.size =
      {key | IsListed key history ∧ (Scene.after history).get? key = none}.ncard
  /-- A cleanup leaves the keys whose paragraph is alive. -/
  left :
    (Scene.after (.cleanup :: history)).cache.size =
      {key | ((Scene.after history).get? key).isSome = true}.ncard
  size_eq : (Scene.after history).cache.size = {key | IsListed key history}.ncard

theorem isWeakMap_of_isPossible
    {history : List Event}
    (possible : IsPossible history) :
    IsWeakMap history where
  get?_iff := get?_iff_lastPut possible
  isAlive_iff id := isAlive_iff_retained id history
  alone := subsingleton_alone (Scene.after history)
  get?_cleanup := get?_cleanup (Scene.after history)
  dropped := by
    simp only [IsListed, ← get?_entries_iff]
    exact size_sub_size_cleanup (Scene.after history)
  left := size_cleanup (Scene.after history)
  size_eq := size_after history

end Folio.Cache
