import Folio.Proofs.Document.Reading
import Folio.Proofs.Session.Operations

/-!
# Identities stay with their keys

No identity is given out twice, so whatever is done, what the cache still knows about a
paragraph that is alive is right.  An answer of the cache is therefore a paragraph of the key
that was asked for, and so is a paragraph that is built because the cache has no answer.
-/

namespace Folio.Workspace

/-- What the cache knows of paragraphs that are alive is so, and what is new is not known yet. -/
structure RemembersKeys (workspace : Workspace) : Prop where
  keysInRange : workspace.KeysInRange
  alive_lt :
    ∀ id paragraph, workspace.paragraph? id = some paragraph → id < workspace.fresh
  cached_lt :
    ∀ key id, workspace.cache.entries.get? key = some id → id < workspace.fresh
  key_of_cached :
    ∀ key id paragraph,
      workspace.cache.entries.get? key = some id →
        workspace.paragraph? id = some paragraph → paragraph.key = key

theorem remembersKeys_createWith
    (rules : Language → WordBreak → TextRules)
    (config : Config)
    (documents : List Document) :
    (createWith rules config documents).RemembersKeys where
  keysInRange := by simp [KeysInRange, createWith, paragraph?]
  alive_lt := by simp [createWith, paragraph?]
  cached_lt := by simp [createWith, Cache.empty]
  key_of_cached := by simp [createWith, paragraph?]

namespace RemembersKeys

variable {workspace : Workspace}

/-- The identity of the next paragraph is not alive yet. -/
theorem paragraph?_fresh
    (remembers : workspace.RemembersKeys) :
    workspace.paragraph? workspace.fresh = none := by
  cases found : workspace.paragraph? workspace.fresh with
  | none => rfl
  | some paragraph =>
      exact absurd (remembers.alive_lt _ paragraph found) (Nat.lt_irrefl _)

theorem add
    (remembers : workspace.RemembersKeys)
    {key : ParagraphKey}
    (elements : List Element)
    (inRange : key.index < (workspace.document key.document).size)
    (missing : workspace.cache.get? workspace.isAlive key = none) :
    RemembersKeys
      { workspace with
        cache := workspace.cache.put key workspace.fresh
        live := workspace.live.insert workspace.fresh { key, elements }
        fresh := workspace.fresh + 1 } where
  keysInRange := (Change.add key elements inRange missing).keysInRange remembers.keysInRange
  alive_lt := by
    intro id paragraph found
    rw [paragraph?, Table.get?_insert] at found
    split at found
    · rename_i isNew
      exact isNew ▸ Nat.lt_succ_self _
    · exact Nat.lt_succ_of_lt (remembers.alive_lt id paragraph found)
  cached_lt := by
    intro other id cached
    rw [Cache.put, Table.get?_insert] at cached
    split at cached
    · exact Option.some.inj cached ▸ Nat.lt_succ_self _
    · exact Nat.lt_succ_of_lt (remembers.cached_lt other id cached)
  key_of_cached := by
    intro other id paragraph cached found
    rw [Cache.put, Table.get?_insert] at cached
    rw [paragraph?, Table.get?_insert] at found
    split at cached
    · rename_i isKey
      rw [if_pos (Option.some.inj cached).symm] at found
      rw [isKey, ← Option.some.inj found]
    · have isOld := remembers.cached_lt other id cached
      rw [if_neg (Nat.ne_of_lt isOld)] at found
      exact remembers.key_of_cached other id paragraph cached found

/-- Every paragraph that is alive afterwards was alive before under its key. -/
theorem congr_live
    (remembers : workspace.RemembersKeys)
    {later : Workspace}
    (keysInRange : later.KeysInRange)
    (sameFresh : later.fresh = workspace.fresh)
    (cached :
      ∀ key id, later.cache.entries.get? key = some id →
        workspace.cache.entries.get? key = some id)
    (wasAlive :
      ∀ id paragraph, later.paragraph? id = some paragraph →
        ∃ old, workspace.paragraph? id = some old ∧ old.key = paragraph.key) :
    later.RemembersKeys where
  keysInRange := keysInRange
  alive_lt := by
    intro id paragraph found
    obtain ⟨old, wasFound, -⟩ := wasAlive id paragraph found
    exact sameFresh ▸ remembers.alive_lt id old wasFound
  cached_lt := by
    intro key id isCached
    exact sameFresh ▸ remembers.cached_lt key id (cached key id isCached)
  key_of_cached := by
    intro key id paragraph isCached found
    obtain ⟨old, wasFound, sameKey⟩ := wasAlive id paragraph found
    exact sameKey ▸ remembers.key_of_cached key id old (cached key id isCached) wasFound

end RemembersKeys

/-- A paragraph that is rewritten has the key that it had before. -/
theorem exists_of_rewrite
    {workspace : Workspace}
    {id other : ParagraphId}
    {paragraph changed : BuiltParagraph}
    {elements : List Element}
    (isAlive : workspace.paragraph? id = some paragraph)
    (found :
      (workspace.live.insert id { paragraph with elements }).get? other = some changed) :
    ∃ old, workspace.paragraph? other = some old ∧ old.key = changed.key := by
  rw [Table.get?_insert] at found
  split at found
  · rename_i same
    exact ⟨paragraph, same ▸ isAlive, by rw [← Option.some.inj found]⟩
  · exact ⟨changed, found, rfl⟩

theorem paragraph?_of_sweep
    {workspace : Workspace}
    {isHeld : ParagraphId → Bool}
    {id : ParagraphId}
    {paragraph : BuiltParagraph}
    (found : (workspace.sweep isHeld).paragraph? id = some paragraph) :
    workspace.paragraph? id = some paragraph := by
  rw [paragraph?_sweep, Option.filter_eq_some_iff] at found
  exact found.1

theorem get?_of_cleanupCache
    {workspace : Workspace}
    {key : ParagraphKey}
    {id : ParagraphId}
    (cached : workspace.cleanupCache.cache.entries.get? key = some id) :
    workspace.cache.entries.get? key = some id := by
  rw [cleanupCache, Cache.cleanup, Table.get?_filter, Option.filter_eq_some_iff] at cached
  exact cached.1

theorem Change.remembersKeys
    {before later : Workspace}
    (change : Change before later)
    (remembers : before.RemembersKeys) :
    later.RemembersKeys := by
  have keysInRange := change.keysInRange remembers.keysInRange
  cases change with
  | add key elements inRange missing => exact remembers.add elements inRange missing
  | rewrite id paragraph elements isAlive =>
      apply remembers.congr_live keysInRange rfl
      · exact fun _ _ cached => cached
      · exact fun _ _ found => exists_of_rewrite isAlive found
  | cleanup =>
      apply remembers.congr_live keysInRange rfl
      · exact fun _ _ cached => get?_of_cleanupCache cached
      · exact fun _ paragraph found => ⟨paragraph, found, rfl⟩
  | _ =>
      exact ⟨keysInRange, remembers.alive_lt, remembers.cached_lt, remembers.key_of_cached⟩

theorem Changes.remembersKeys
    {before later : Workspace}
    (changes : Changes before later)
    (remembers : before.RemembersKeys) :
    later.RemembersKeys :=
  changes.induction Change.remembersKeys remembers

theorem RemembersKeys.sweep
    {workspace : Workspace}
    (remembers : workspace.RemembersKeys)
    (isHeld : ParagraphId → Bool) :
    (workspace.sweep isHeld).RemembersKeys := by
  apply remembers.congr_live (remembers.keysInRange.sweep isHeld) rfl
  · exact fun _ _ cached => cached
  · exact fun _ paragraph found => ⟨paragraph, paragraph?_of_sweep found, rfl⟩

theorem RemembersKeys.clearCache
    {workspace : Workspace}
    (remembers : workspace.RemembersKeys) :
    workspace.clearCache.RemembersKeys := by
  have keysInRange : workspace.clearCache.KeysInRange := remembers.keysInRange
  apply remembers.congr_live keysInRange rfl
  · intro key id cached
    exact absurd cached (by simp [Workspace.clearCache, Cache.clear, Cache.empty])
  · exact fun _ paragraph found => ⟨paragraph, found, rfl⟩

theorem RemembersKeys.after
    {workspace : Workspace}
    (remembers : workspace.RemembersKeys)
    (operations : List Operation) :
    (workspace.after operations).RemembersKeys := by
  apply after_induction Change.remembersKeys _ remembers operations
  · intro _ before remembers
    exact remembers.clearCache
  · intro before isHeld remembers
    exact remembers.sweep isHeld

/-! ## What stays alive -/

/-- Whoever is alive after a run and is not new was alive before, with the same key. -/
structure Follows (before later : Workspace) : Prop where
  fresh_le : before.fresh ≤ later.fresh
  wasAlive :
    ∀ id paragraph,
      id < before.fresh →
        later.paragraph? id = some paragraph →
          ∃ old, before.paragraph? id = some old ∧ old.key = paragraph.key

theorem Follows.refl (workspace : Workspace) : Follows workspace workspace :=
  ⟨Nat.le_refl _, fun _ paragraph _ found => ⟨paragraph, found, rfl⟩⟩

theorem Follows.change
    {start before later : Workspace}
    (change : Change before later)
    (follows : Follows start before) :
    Follows start later := by
  cases change with
  | add key elements inRange missing =>
      refine ⟨Nat.le_succ_of_le follows.fresh_le, fun id paragraph isOld found => ?_⟩
      have notNew : id ≠ before.fresh := Nat.ne_of_lt (Nat.lt_of_lt_of_le isOld follows.fresh_le)
      rw [paragraph?, Table.get?_insert, if_neg notNew] at found
      exact follows.wasAlive id paragraph isOld found
  | rewrite changed paragraph elements isAlive =>
      refine ⟨follows.fresh_le, fun id found isOld isFound => ?_⟩
      rw [paragraph?, Table.get?_insert] at isFound
      split at isFound
      · rename_i same
        obtain rfl := Option.some.inj isFound
        exact follows.wasAlive id paragraph isOld (same ▸ isAlive)
      · exact follows.wasAlive id found isOld isFound
  | _ => exact ⟨follows.fresh_le, follows.wasAlive⟩

theorem follows_after (workspace : Workspace) (operations : List Operation) :
    Follows workspace (workspace.after operations) := by
  refine after_induction Follows.change ?_ (.refl workspace) operations ?_
  · intro before isHeld follows
    refine ⟨follows.fresh_le, fun id paragraph isOld found => ?_⟩
    rw [paragraph?_sweep, Option.filter_eq_some_iff] at found
    exact follows.wasAlive id paragraph isOld found.1
  · intro _ before follows
    exact ⟨follows.fresh_le, follows.wasAlive⟩

/-- Whoever is alive after a run has the key that it had before. -/
theorem RemembersKeys.exists_of_isAlive_after
    {workspace : Workspace}
    (remembers : workspace.RemembersKeys)
    {id : ParagraphId}
    {paragraph : BuiltParagraph}
    (found : workspace.paragraph? id = some paragraph)
    {operations : List Operation}
    (isAlive : (workspace.after operations).isAlive id = true) :
    ∃ later,
      (workspace.after operations).paragraph? id = some later ∧
        later.key = paragraph.key := by
  obtain ⟨later, foundLater⟩ := isAlive_iff.1 isAlive
  obtain ⟨old, foundOld, sameKey⟩ :=
    (follows_after workspace operations).wasAlive id later
      (remembers.alive_lt id paragraph found) foundLater
  obtain rfl : old = paragraph := Option.some.inj (foundOld.symm.trans found)
  exact ⟨later, foundLater, sameKey.symm⟩

/-! ## The way through the documents -/

theorem isNavigable_createWith
    (rules : Language → WordBreak → TextRules)
    (config : Config)
    {documents : List Document}
    (navigable : ∀ document ∈ documents, document.IsNavigable)
    (number : Nat) :
    ((createWith rules config documents).document number).IsNavigable := by
  rw [document, createWith, Array.getD_eq_getD_getElem?, List.getElem?_toArray]
  cases found : documents[number]? with
  | none => exact Document.isNavigable_plain []
  | some document => exact navigable document (List.mem_of_getElem? found)

theorem Change.isNavigable
    {before later : Workspace}
    (change : Change before later)
    (navigable : ∀ number, (before.document number).IsNavigable)
    (number : Nat) :
    (later.document number).IsNavigable := by
  cases change with
  | command document command =>
      rw [document_setDocument]
      split
      · exact (navigable document).runDocument command
      · exact navigable number
  | _ => exact navigable number

theorem isNavigable_after
    {workspace : Workspace}
    (navigable : ∀ number, (workspace.document number).IsNavigable)
    (operations : List Operation)
    (number : Nat) :
    ((workspace.after operations).document number).IsNavigable := by
  revert number
  apply after_induction Change.isNavigable _ navigable operations
  · exact fun _ _ navigable => navigable
  · exact fun _ navigable => navigable

/-- Documents that were built can be read there and back, whatever is done in between. -/
theorem isNavigable_after_createWith
    (rules : Language → WordBreak → TextRules)
    (config : Config)
    (sources : List DocumentSource)
    (operations : List Operation)
    (number : Nat) :
    (((createWith rules config (sources.map fun source => source.build.1)).after
        operations).document number).IsNavigable := by
  apply isNavigable_after
  apply isNavigable_createWith
  intro document member
  obtain ⟨source, -, rfl⟩ := List.mem_map.1 member
  exact Document.isNavigable_build source

/-! ## Asking for a paragraph -/

/-- The key that is asked for: an index past the end means the last paragraph. -/
def requested
    (workspace : Workspace)
    (document : Nat)
    (language : Language)
    (index : Nat) :
    ParagraphKey where
  document := document
  index := min index ((workspace.document document).size - 1)
  language := language

section

variable
    {workspace : Workspace}
    {document : Nat}
    {language : Language}
    {index : Nat}

theorem requested_of_lt
    (inRange : index < (workspace.document document).size) :
    workspace.requested document language index = ⟨document, index, language⟩ := by
  have least : min index ((workspace.document document).size - 1) = index :=
    Nat.min_eq_left (Nat.le_sub_one_of_lt inRange)
  rw [requested, least]

theorem cursor_of_empty (isEmpty : (workspace.document document).size = 0) :
    workspace.cursor document language index = (none, workspace) := by
  simp [cursor, isEmpty]

theorem cursor_of_nonempty (nonempty : (workspace.document document).size ≠ 0) :
    workspace.cursor document language index =
      match workspace.cache.get? workspace.isAlive
          (workspace.requested document language index) with
      | some id => (some id, workspace)
      | none =>
          (some (workspace.build (workspace.requested document language index)).1,
            (workspace.build (workspace.requested document language index)).2) := by
  unfold cursor requested
  split
  · rename_i isEmpty
    exact absurd isEmpty nonempty
  · rename_i last size
    have isLast : (workspace.document document).size - 1 = last := by omega
    exact isLast ▸ rfl

/-- Asking for a paragraph that is there answers with one of its key. -/
theorem RemembersKeys.exists_of_cursor
    (remembers : workspace.RemembersKeys)
    (language : Language)
    (inRange : index < (workspace.document document).size) :
    ∃ id later paragraph,
      workspace.cursor document language index = (some id, later) ∧
        later.documents = workspace.documents ∧
        later.paragraph? id = some paragraph ∧
        paragraph.key = ⟨document, index, language⟩ := by
  rw [cursor_of_nonempty (Nat.ne_of_gt (Nat.zero_lt_of_lt inRange)), requested_of_lt inRange]
  cases cached : workspace.cache.get? workspace.isAlive ⟨document, index, language⟩ with
  | some id =>
      obtain ⟨known, isAlive⟩ := Option.filter_eq_some_iff.1 cached
      obtain ⟨paragraph, found⟩ := isAlive_iff.1 isAlive
      exact ⟨id, workspace, paragraph, rfl, rfl, found,
        remembers.key_of_cached _ id paragraph known found⟩
  | none =>
      have built := paragraph?_build workspace ⟨document, index, language⟩ workspace.fresh
      rw [if_pos rfl] at built
      exact ⟨workspace.fresh, _, _, rfl, rfl, built, rfl⟩

theorem moveFrom_of_found
    {id : ParagraphId}
    {paragraph : BuiltParagraph}
    (found : workspace.paragraph? id = some paragraph)
    {target : Document → Nat → Option Nat}
    (isTarget :
      target (workspace.document paragraph.key.document) paragraph.key.index = some index) :
    workspace.moveFrom id target =
      workspace.cursor paragraph.key.document paragraph.key.language index := by
  simp only [moveFrom, found, isTarget]

theorem moveFrom_of_end
    {id : ParagraphId}
    {paragraph : BuiltParagraph}
    (found : workspace.paragraph? id = some paragraph)
    {target : Document → Nat → Option Nat}
    (isEnd : target (workspace.document paragraph.key.document) paragraph.key.index = none) :
    workspace.moveFrom id target = (none, workspace) := by
  simp only [moveFrom, found, isEnd]

/-- A move to a paragraph that is there leads to it. -/
theorem RemembersKeys.exists_of_moveFrom
    (remembers : workspace.RemembersKeys)
    {id : ParagraphId}
    {paragraph : BuiltParagraph}
    (found : workspace.paragraph? id = some paragraph)
    {target : Document → Nat → Option Nat}
    (isTarget :
      target (workspace.document paragraph.key.document) paragraph.key.index = some index)
    (inRange : index < (workspace.document paragraph.key.document).size) :
    ∃ other later following,
      workspace.moveFrom id target = (some other, later) ∧
        later.documents = workspace.documents ∧
        later.paragraph? other = some following ∧
        following.key = ⟨paragraph.key.document, index, paragraph.key.language⟩ := by
  rw [moveFrom_of_found found isTarget]
  exact remembers.exists_of_cursor paragraph.key.language inRange

end

end Folio.Workspace
