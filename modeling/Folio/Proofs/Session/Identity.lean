import Folio.Proofs.Session.Holders
import Folio.Proofs.Session.Keys

/-!
# One paragraph for each key

Unless the cache is emptied, the cache knows every paragraph that is alive by its key.  The
entries of dead paragraphs stay behind, but no identity is given out twice, so they never
point to a paragraph with another key.  Hence a paragraph that is asked for while it is alive
is the one that is alive, and nothing changes.
-/

namespace Folio.Workspace

/-- The cache knows what is alive, and what is new is not known yet. -/
structure Registers (workspace : Workspace) : Prop where
  keysInRange : workspace.KeysInRange
  isNavigable : ∀ number, (workspace.document number).IsNavigable
  alive_lt :
    ∀ id paragraph, workspace.paragraph? id = some paragraph → id < workspace.fresh
  cached_lt :
    ∀ key id, workspace.cache.entries.get? key = some id → id < workspace.fresh
  key_of_cached :
    ∀ key id paragraph,
      workspace.cache.entries.get? key = some id →
        workspace.paragraph? id = some paragraph → paragraph.key = key
  cached_of_alive :
    ∀ id paragraph,
      workspace.paragraph? id = some paragraph →
        workspace.cache.entries.get? paragraph.key = some id

theorem Registers.remembersKeys
    {workspace : Workspace}
    (registers : workspace.Registers) :
    workspace.RemembersKeys :=
  ⟨registers.keysInRange, registers.alive_lt, registers.cached_lt, registers.key_of_cached⟩

/-- Beyond what is remembered anyway, the cache knows every paragraph that is alive. -/
theorem RemembersKeys.registers
    {workspace : Workspace}
    (remembers : workspace.RemembersKeys)
    (isNavigable : ∀ number, (workspace.document number).IsNavigable)
    (cached_of_alive :
      ∀ id paragraph,
        workspace.paragraph? id = some paragraph →
          workspace.cache.entries.get? paragraph.key = some id) :
    workspace.Registers :=
  ⟨remembers.keysInRange, isNavigable, remembers.alive_lt, remembers.cached_lt,
    remembers.key_of_cached, cached_of_alive⟩

theorem registers_createWith
    (rules : Language → WordBreak → TextRules)
    (config : Config)
    {documents : List Document}
    (navigable : ∀ document ∈ documents, document.IsNavigable) :
    (createWith rules config documents).Registers := by
  apply (remembersKeys_createWith rules config documents).registers
  · exact isNavigable_createWith rules config navigable
  · simp [createWith, paragraph?]

theorem Registers.add
    {workspace : Workspace}
    (registers : workspace.Registers)
    {key : ParagraphKey}
    (elements : List Element)
    (inRange : key.index < (workspace.document key.document).size)
    (missing : workspace.cache.get? workspace.isAlive key = none) :
    Registers
      { workspace with
        cache := workspace.cache.put key workspace.fresh
        live := workspace.live.insert workspace.fresh { key, elements }
        fresh := workspace.fresh + 1 } := by
  apply (registers.remembersKeys.add elements inRange missing).registers registers.isNavigable
  intro id paragraph found
  rw [paragraph?, Table.get?_insert] at found
  rw [Cache.put, Table.get?_insert]
  split at found
  · rename_i isNew
    rw [← Option.some.inj found, if_pos rfl, isNew]
  · have cached := registers.cached_of_alive id paragraph found
    -- A paragraph with the key was not alive, or it would not have been missing.
    have otherKey : paragraph.key ≠ key := by
      rintro rfl
      rw [Cache.get?, cached, Option.filter_some,
        if_pos (isAlive_iff.2 ⟨paragraph, found⟩)] at missing
      exact absurd missing (by simp)
    rw [if_neg otherKey, cached]

theorem Change.registers
    {before later : Workspace}
    (change : Change before later)
    (registers : before.Registers) :
    later.Registers := by
  have isNavigable := change.isNavigable registers.isNavigable
  have remembers := change.remembersKeys registers.remembersKeys
  cases change with
  | add key elements inRange missing => exact registers.add elements inRange missing
  | rewrite id paragraph elements isAlive =>
      apply remembers.registers isNavigable
      intro other changed found
      obtain ⟨old, wasFound, sameKey⟩ := exists_of_rewrite isAlive found
      exact sameKey ▸ registers.cached_of_alive other old wasFound
  | cleanup =>
      apply remembers.registers isNavigable
      intro id paragraph found
      rw [Workspace.cleanupCache, Cache.cleanup, Table.get?_filter, Option.filter_eq_some_iff]
      exact ⟨registers.cached_of_alive id paragraph found, isAlive_iff.2 ⟨paragraph, found⟩⟩
  | _ => exact remembers.registers isNavigable registers.cached_of_alive

theorem Registers.sweep
    {workspace : Workspace}
    (registers : workspace.Registers)
    (isHeld : ParagraphId → Bool) :
    (workspace.sweep isHeld).Registers := by
  apply (registers.remembersKeys.sweep isHeld).registers registers.isNavigable
  intro id paragraph found
  exact registers.cached_of_alive id paragraph (paragraph?_of_sweep found)

theorem Registers.after
    {workspace : Workspace}
    (registers : workspace.Registers)
    {operations : List Operation}
    (keepsCache : .clearCache ∉ operations) :
    (workspace.after operations).Registers := by
  refine after_induction Change.registers ?_ registers operations ?_
  · intro before isHeld registers
    exact registers.sweep isHeld
  · intro clears
    exact absurd clears keepsCache

/-! ## Asking for a paragraph -/

section

variable
    {workspace : Workspace}
    {document : Nat}
    {language : Language}
    {index : Nat}

theorem Registers.get?_eq_some_iff
    (registers : workspace.Registers)
    (key : ParagraphKey)
    (id : ParagraphId) :
    workspace.cache.get? workspace.isAlive key = some id ↔
      ∃ paragraph, workspace.paragraph? id = some paragraph ∧ paragraph.key = key := by
  rw [Cache.get?, Option.filter_eq_some_iff, isAlive_iff]
  constructor
  · rintro ⟨cached, paragraph, found⟩
    exact ⟨paragraph, found, registers.key_of_cached key id paragraph cached found⟩
  · rintro ⟨paragraph, found, rfl⟩
    exact ⟨registers.cached_of_alive id paragraph found, paragraph, found⟩

theorem Registers.eq_of_key_eq
    (registers : workspace.Registers)
    {left right : ParagraphId}
    {leftParagraph rightParagraph : BuiltParagraph}
    (leftFound : workspace.paragraph? left = some leftParagraph)
    (rightFound : workspace.paragraph? right = some rightParagraph)
    (sameKey : leftParagraph.key = rightParagraph.key) :
    left = right := by
  have leftCached := registers.cached_of_alive left leftParagraph leftFound
  have rightCached := registers.cached_of_alive right rightParagraph rightFound
  rw [sameKey, rightCached] at leftCached
  exact (Option.some.inj leftCached).symm

/-- What asking for a paragraph of a key leads to. -/
structure Answers
    (workspace : Workspace)
    (key : ParagraphKey)
    (id : ParagraphId)
    (later : Workspace) :
    Prop where
  hasKey : ∃ paragraph, later.paragraph? id = some paragraph ∧ paragraph.key = key
  same :
    ∀ other paragraph,
      workspace.paragraph? other = some paragraph →
        paragraph.key = key → id = other ∧ later = workspace
  new :
    (∀ other paragraph, workspace.paragraph? other = some paragraph → paragraph.key ≠ key) →
      workspace.paragraph? id = none ∧
        ∀ other, other ≠ id → later.paragraph? other = workspace.paragraph? other

theorem Registers.answers_cursor
    (registers : workspace.Registers)
    (nonempty : (workspace.document document).size ≠ 0) :
    ∃ id later,
      workspace.cursor document language index = (some id, later) ∧
        workspace.Answers (workspace.requested document language index) id later := by
  let key := workspace.requested document language index
  rw [cursor_of_nonempty nonempty]
  cases found : workspace.cache.get? workspace.isAlive key with
  | some id =>
      obtain ⟨paragraph, isAlive, hasKey⟩ := (registers.get?_eq_some_iff key id).1 found
      refine ⟨id, workspace, rfl, ⟨paragraph, isAlive, hasKey⟩, ?_, ?_⟩
      · intro other otherParagraph otherAlive otherKey
        exact ⟨registers.eq_of_key_eq isAlive otherAlive (hasKey.trans otherKey.symm), rfl⟩
      · intro noneAlive
        exact absurd hasKey (noneAlive id paragraph isAlive)
  | none =>
      refine ⟨_, _, rfl, ?_, ?_, ?_⟩
      · exact ⟨_, (paragraph?_build workspace key _).trans (if_pos rfl), rfl⟩
      · intro other paragraph isAlive hasKey
        have known := (registers.get?_eq_some_iff key other).2 ⟨paragraph, isAlive, hasKey⟩
        exact absurd (found.symm.trans known) (by simp)
      · intro _
        refine ⟨registers.remembersKeys.paragraph?_fresh, fun other isOther => ?_⟩
        exact (paragraph?_build workspace key other).trans (if_neg isOther)

end

/-! ## There and back -/

theorem Registers.cursor_of_alive
    {workspace : Workspace}
    (registers : workspace.Registers)
    {id : ParagraphId}
    {paragraph : BuiltParagraph}
    (found : workspace.paragraph? id = some paragraph) :
    workspace.cursor paragraph.key.document paragraph.key.language paragraph.key.index =
      (some id, workspace) := by
  have inRange := registers.keysInRange id paragraph found
  rw [cursor_of_nonempty (Nat.ne_of_gt (Nat.zero_lt_of_lt inRange)), requested_of_lt inRange,
    (registers.get?_eq_some_iff paragraph.key id).2 ⟨paragraph, found, rfl⟩]

/-- The next paragraph has the next index. -/
theorem Registers.exists_of_next
    {workspace stepped : Workspace}
    (registers : workspace.Registers)
    {id next : ParagraphId}
    {paragraph : BuiltParagraph}
    (found : workspace.paragraph? id = some paragraph)
    (isNext : workspace.next id = (some next, stepped)) :
    ∃ index following,
      (workspace.document paragraph.key.document).next? paragraph.key.index = some index ∧
        stepped.paragraph? next = some following ∧
        following.key = ⟨paragraph.key.document, index, paragraph.key.language⟩ := by
  cases isTarget :
      (workspace.document paragraph.key.document).next? paragraph.key.index with
  | none => simp [Workspace.next, moveFrom, found, isTarget] at isNext
  | some index =>
      have inRange := registers.keysInRange id paragraph found
      have nextInRange :=
        (registers.isNavigable paragraph.key.document).next?_lt_size inRange isTarget
      have least :
          min index ((workspace.document paragraph.key.document).size - 1) = index := by
        omega
      obtain ⟨other, later, isCursor, answers⟩ :=
        registers.answers_cursor (Nat.ne_of_gt (Nat.zero_lt_of_lt inRange))
      obtain ⟨rfl, rfl⟩ : next = other ∧ stepped = later := by
        have isMove := (moveFrom_of_found found isTarget).symm.trans isNext
        simpa using isMove.symm.trans isCursor
      obtain ⟨following, isAlive, hasKey⟩ := answers.hasKey
      exact ⟨index, following, rfl, isAlive, by rw [hasKey, requested, least]⟩

theorem Registers.previous_of_next
    {workspace stepped : Workspace}
    (registers : workspace.Registers)
    {id next : ParagraphId}
    {paragraph : BuiltParagraph}
    (found : workspace.paragraph? id = some paragraph)
    (reversible :
      (workspace.document paragraph.key.document).IsReversible paragraph.key.index)
    (isNext : workspace.next id = (some next, stepped))
    {operations : List Operation}
    (keepsCache : .clearCache ∉ operations)
    (idAlive : (stepped.after operations).isAlive id = true)
    (nextAlive : (stepped.after operations).isAlive next = true)
    (sameDocument :
      (stepped.after operations).document paragraph.key.document =
        workspace.document paragraph.key.document) :
    (stepped.after operations).previous next = (some id, stepped.after operations) := by
  have isRun : workspace.after (.next id :: operations) = stepped.after operations := by
    change (workspace.next id).2.after operations = stepped.after operations
    rw [isNext]
  have steppedRegisters : stepped.Registers := by
    have ofNext : (workspace.after [.next id]).Registers := registers.after (by simp)
    change (workspace.next id).2.Registers at ofNext
    rwa [isNext] at ofNext
  obtain ⟨index, following, isTarget, followingFound, followingKey⟩ :=
    registers.exists_of_next found isNext
  obtain ⟨nextLater, nextFound, nextKey⟩ :=
    steppedRegisters.remembersKeys.exists_of_isAlive_after followingFound nextAlive
  obtain ⟨later, laterFound, sameKey⟩ :=
    registers.remembersKeys.exists_of_isAlive_after found (isRun ▸ idAlive)
  rw [isRun] at laterFound
  have back :
      ((stepped.after operations).document nextLater.key.document).previous?
          nextLater.key.index =
        some later.key.index := by
    rw [nextKey, followingKey, sameDocument, sameKey]
    exact (registers.isNavigable _).previous?_of_next? reversible isTarget
  rw [previous, moveFrom_of_found nextFound back, nextKey, followingKey, ← sameKey]
  exact (steppedRegisters.after keepsCache).cursor_of_alive laterFound

/-! ## Runs -/

/--
Through every run that does not empty the cache at most one paragraph is alive for each key.
Asking for a paragraph answers none only if the document is empty.  Else it answers with the
paragraph of the requested key: the one that is alive, if there is one, without any change, and
a new one otherwise.  Hence reading on from a paragraph and back again leads to the same
paragraph, as long as it is alive.  In the sessions that start so, what is alive is what is held.
-/
theorem one_live_paragraph_for_each_key
    (rules : Language → WordBreak → TextRules)
    (config : Config)
    (sources : List DocumentSource) :
    let start := createWith rules config (sources.map fun source => source.build.1)
    (∀ operations, .clearCache ∉ operations →
      let workspace := start.after operations
      (∀ left right leftParagraph rightParagraph,
          workspace.paragraph? left = some leftParagraph →
            workspace.paragraph? right = some rightParagraph →
              leftParagraph.key = rightParagraph.key → left = right) ∧
        (∀ document language index,
          if (workspace.document document).isEmpty then
            workspace.cursor document language index = (none, workspace)
          else
            ∃ id later,
              workspace.cursor document language index = (some id, later) ∧
                workspace.Answers (workspace.requested document language index) id later) ∧
        ∀ id next paragraph stepped between,
          workspace.paragraph? id = some paragraph ∧
              (workspace.document paragraph.key.document).IsReversible paragraph.key.index ∧
              workspace.next id = (some next, stepped) ∧ .clearCache ∉ between →
            let later := stepped.after between
            later.isAlive id = true ∧ later.isAlive next = true ∧
                later.document paragraph.key.document =
                  workspace.document paragraph.key.document →
              later.previous next = (some id, later)) ∧
      ∀ commands, .cache .clear ∉ commands →
        let session := (Session.ofWorkspace start).after commands
        (∃ operations, .clearCache ∉ operations ∧ session.workspace = start.after operations) ∧
          ∀ id, session.workspace.isAlive id = session.holds id := by
  intro start
  have navigable :
      ∀ document ∈ sources.map fun source => source.build.1, document.IsNavigable := by
    intro document member
    obtain ⟨source, -, rfl⟩ := List.mem_map.1 member
    exact Document.isNavigable_build source
  have startRegisters : start.Registers := registers_createWith rules config navigable
  refine ⟨fun operations keepsCache => ?_, fun commands keepsCache => ⟨?_, ?_⟩⟩
  · intro workspace
    have registers : workspace.Registers := startRegisters.after keepsCache
    refine ⟨?_, ?_, ?_⟩
    · intro left right leftParagraph rightParagraph leftFound rightFound
      exact registers.eq_of_key_eq leftFound rightFound
    · intro document language index
      split
      · rename_i isEmpty
        exact cursor_of_empty (by simpa [Document.isEmpty] using isEmpty)
      · rename_i nonempty
        exact registers.answers_cursor (by simpa [Document.isEmpty] using nonempty)
    · rintro id next paragraph stepped between ⟨found, reversible, isNext, betweenKeeps⟩ later
        ⟨idAlive, nextAlive, sameDocument⟩
      exact registers.previous_of_next found reversible isNext betweenKeeps idAlive nextAlive
        sameDocument
  · obtain ⟨operations, clears, isAfter⟩ := (Session.performs_after _ commands).runsTo
    exact ⟨operations, fun member => keepsCache (clears member), isAfter⟩
  · exact Session.isAlive_after (Session.holdsAlive_ofWorkspace rfl) (fun _ => rfl) commands

/-- From a node into its first child and back, with the cache cleaned up between. -/
theorem one_live_paragraph_there_and_back :
    let source : DocumentSource :=
      ⟨.tree [(none, ⟨.tree, []⟩), (some 0, ⟨.tree, []⟩), (none, ⟨.tree, []⟩)], [], [], .all⟩
    let workspace := (create default [source.build.1]).after [.cursor 0 .undetermined 0]
    let later := (workspace.next 0).2.after [.cleanupCache]
    .clearCache ∉ [Operation.cursor 0 .undetermined 0] ∧
      (workspace.next 0).1 = some 1 ∧
      later.previous 1 = (some 0, later) := by
  intro source workspace later
  have found : workspace.paragraph? 0 = some ⟨⟨0, 0, .undetermined⟩, []⟩ := by decide +kernel
  have isNext : (workspace.next 0).1 = some 1 := by decide +kernel
  have reversible : (workspace.document 0).IsReversible 0 := by decide +kernel
  have isNextPair : workspace.next 0 = (some 1, (workspace.next 0).2) := by
    rw [← isNext]
  have run := (one_live_paragraph_for_each_key (fun _ option => .standard option) default
    [source]).1 [.cursor 0 .undetermined 0] (by simp)
  refine ⟨by simp, isNext, ?_⟩
  exact run.2.2 0 1 ⟨⟨0, 0, .undetermined⟩, []⟩ (workspace.next 0).2 [.cleanupCache]
    ⟨found, reversible, isNextPair, by simp⟩
    ⟨by decide +kernel, by decide +kernel, by decide +kernel⟩

end Folio.Workspace
