import Folio.Proofs.Session.CacheHistory
import Folio.Proofs.Session.Holders
import Folio.Proofs.Session.Keys

/-!
# The reader's own cache

The reader puts paragraphs into a cache of their own, while slots, word cursors and the cache of
the workspace hold paragraphs and let go of them.  What happens to this cache in a run is
therefore a history among other holders, and it is a possible one, since nobody in a session can
take hold of a paragraph that has died.
-/

namespace Folio.Session

open Workspace

/-- The key that is asked for, if the language tag is well formed. -/
def Request.key? (request : Request) : Option ParagraphKey :=
  match request.tag with
  | none => some ⟨request.document, request.index, .undetermined⟩
  | some tag =>
      match Language.parse tag with
      | .error _ => none
      | .ok language => some ⟨request.document, request.index, language⟩

/-- Whether a paragraph is held outside of the reader's own cache. -/
def heldByOthers (session : Session) (id : ParagraphId) : Bool :=
  ({ session with ownCache := .empty } : Session).holds id

/-- The reader's own cache among the other holders. -/
def ownScene (session : Session) : Cache.Scene where
  cache := session.ownCache
  others := session.heldByOthers

/-- What a command does to the reader's own cache. -/
def ownEvent? (session : Session) : Command → Option Cache.Event
  | .cache (.ownPut slot request) => do
      let key ← request.key?
      let id ← session.slots.get? slot
      return .put key id
  | .cache (.ownGet request) => request.key?.map .get
  | .cache .ownCleanup => some .cleanup
  | .cache .ownClear => some .clear
  | _ => none

/--
What happens to the reader's own cache in a run after a past: after what a command does to it,
the others hold what they hold after the step.
-/
def ownHistory (session : Session) (past : List Cache.Event) :
    List Command → List Cache.Event
  | [] => past
  | command :: rest =>
      let later := (session.step command).1
      let events := (session.ownEvent? command).toList
      later.ownHistory (.hold later.heldByOthers :: (events ++ past)) rest

/-! ## Who holds a paragraph -/

theorem isAlive_ownScene (session : Session) (id : ParagraphId) :
    session.ownScene.isAlive id = session.holds id := by
  simp [Cache.Scene.isAlive, ownScene, heldByOthers, holds, Cache.holds, Cache.empty]

theorem holds_of_heldByOthers
    {session : Session}
    {id : ParagraphId}
    (held : session.heldByOthers id = true) :
    session.holds id = true := by
  rw [← isAlive_ownScene, Cache.Scene.isAlive_iff]
  exact Or.inl held

/-! ## What a command does -/

theorem withKey_of_key?
    (session : Session)
    {request : Request}
    {key : ParagraphKey}
    (isKey : request.key? = some key)
    (proceed : ParagraphKey → Session × Reply) :
    session.withKey request proceed = proceed key := by
  cases hasTag : request.tag with
  | none =>
      simp only [Request.key?, hasTag, Option.some.injEq] at isKey
      simp only [withKey, hasTag, isKey]
  | some tag =>
      cases parses : Language.parse tag with
      | error error => simp [Request.key?, hasTag, parses] at isKey
      | ok language =>
          simp only [Request.key?, hasTag, parses, Option.some.injEq] at isKey
          simp only [withKey, hasTag, parses, isKey]

theorem fst_withKey_of_key?
    (session : Session)
    {request : Request}
    (noKey : request.key? = none)
    (proceed : ParagraphKey → Session × Reply) :
    (session.withKey request proceed).1 = session := by
  cases hasTag : request.tag with
  | none => simp [Request.key?, hasTag] at noKey
  | some tag =>
      cases parses : Language.parse tag with
      | error error => simp only [withKey, hasTag, parses]
      | ok language => simp [Request.key?, hasTag, parses] at noKey

section

variable
    {session : Session}
    {command : Command}

/-- A command to the reader's own cache does to it what its event does, and nothing else. -/
theorem perform_of_ownEvent?
    (isAlive : ∀ id, session.workspace.isAlive id = session.holds id)
    {event : Cache.Event}
    (isEvent : session.ownEvent? command = some event) :
    (session.perform command).1 =
      { session with ownCache := (session.ownScene.act event).cache } := by
  have sameAlive : session.workspace.isAlive = session.ownScene.isAlive := by
    funext id
    rw [isAlive, isAlive_ownScene]
  unfold ownEvent? at isEvent
  split at isEvent
  · rename_i slot request
    obtain ⟨key, isKey, isEvent⟩ := Option.bind_eq_some_iff.1 isEvent
    obtain ⟨id, held, isEvent⟩ := Option.bind_eq_some_iff.1 isEvent
    obtain rfl := Option.some.inj isEvent
    simp only [perform, runCache, withKey_of_key? session isKey, withSlot, held]
    rfl
  · rename_i request
    obtain ⟨key, isKey, rfl⟩ := Option.map_eq_some_iff.1 isEvent
    simp only [perform, runCache, withKey_of_key? session isKey]
    rfl
  · obtain rfl := Option.some.inj isEvent
    simp only [perform, runCache, sameAlive]
    rfl
  · obtain rfl := Option.some.inj isEvent
    rfl
  · exact absurd isEvent (by simp)

theorem ownCache_keepFound (session : Session) (slot : String) (found : Option ParagraphId) :
    (session.keepFound slot found).1.ownCache = session.ownCache := by
  cases found <;> rfl

theorem ownCache_walk
    (step : Workspace → ParagraphId → Option ParagraphId × Workspace)
    (session : Session)
    (id : ParagraphId)
    (remaining : Nat) :
    (session.walk step id remaining).1.ownCache = session.ownCache := by
  induction remaining generalizing session id with
  | zero => rfl
  | succ remaining ofRest =>
      unfold walk
      dsimp only
      split
      · rfl
      · exact ofRest ..

theorem ownCache_runParagraph (session : Session) (command : ParagraphCommand) :
    (session.runParagraph command).1.ownCache = session.ownCache := by
  let Same (later : Session) : Prop := later.ownCache = session.ownCache
  have unchanged : Same session := rfl
  cases command with
  | drop slot => rfl
  | describe slot =>
      refine withSlot_induction (motive := Same) unchanged fun id _ => ?_
      split <;> exact unchanged
  | element slot index =>
      refine withSlot_induction (motive := Same) unchanged fun id _ => ?_
      split <;> exact unchanged
  | next slot target =>
      exact withSlot_induction (motive := Same) unchanged fun _ _ => ownCache_keepFound ..
  | previous slot target =>
      exact withSlot_induction (motive := Same) unchanged fun _ _ => ownCache_keepFound ..
  | walk slot isBackward remaining =>
      exact withSlot_induction (motive := Same) unchanged fun _ _ => ownCache_walk ..
  | same left right =>
      exact withSlot_induction (motive := Same) unchanged fun _ _ =>
        withSlot_induction (motive := Same) unchanged fun _ _ => unchanged
  | _ => exact withSlot_induction (motive := Same) unchanged fun _ _ => rfl

theorem ownCache_runWord (session : Session) (command : WordCommand) :
    (session.runWord command).1.ownCache = session.ownCache := by
  let Same (later : Session) : Prop := later.ownCache = session.ownCache
  have unchanged : Same session := rfl
  cases command with
  | new name slot => exact withSlot_induction (motive := Same) unchanged fun _ _ => rfl
  | null name => rfl
  | drop name => rfl
  | sort => rfl
  | setParagraph name slot =>
      exact withCursor_induction (motive := Same) unchanged fun _ _ =>
        withSlot_induction (motive := Same) unchanged fun _ _ => rfl
  | compare left right =>
      exact withCursor_induction (motive := Same) unchanged fun _ _ =>
        withCursor_induction (motive := Same) unchanged fun _ _ => rfl
  | keep name slot =>
      exact withCursor_induction (motive := Same) unchanged fun _ _ => ownCache_keepFound ..
  | _ => exact withCursor_induction (motive := Same) unchanged fun _ _ => rfl

/-- A command that does nothing to the reader's own cache leaves it as it is. -/
theorem ownCache_perform
    (noEvent : session.ownEvent? command = none) :
    (session.perform command).1.ownCache = session.ownCache := by
  let Same (later : Session) : Prop := later.ownCache = session.ownCache
  have unchanged : Same session := rfl
  cases command with
  | cache command =>
      cases command with
      | cursor slot request =>
          refine withKey_induction (motive := Same) unchanged (fun key => ?_) request
          exact ownCache_keepFound ..
      | ownPut slot request =>
          cases isKey : request.key? with
          | none => simp only [perform, runCache, fst_withKey_of_key? session isKey]
          | some key =>
              cases held : session.slots.get? slot with
              | none => simp only [perform, runCache, withKey_of_key? session isKey, withSlot, held]
              | some id => simp [ownEvent?, isKey, held] at noEvent
      | ownCleanup => simp [ownEvent?] at noEvent
      | ownClear => simp [ownEvent?] at noEvent
      | get request =>
          exact withKey_induction (motive := Same) unchanged (fun _ => unchanged) request
      | ownGet request =>
          exact withKey_induction (motive := Same) unchanged (fun _ => unchanged) request
      | _ => rfl
  | paragraph command => exact ownCache_runParagraph session command
  | word command => exact ownCache_runWord session command
  | _ => rfl

end

/-! ## Runs -/

/-- A session in which a history has happened to the reader's own cache. -/
structure Records (session : Session) (history : List Cache.Event) : Prop where
  holdsAlive : session.HoldsAlive
  remembersKeys : session.workspace.RemembersKeys
  isAlive : ∀ id, session.workspace.isAlive id = session.holds id
  isPossible : Cache.IsPossible history
  scene : Cache.Scene.after history = session.ownScene
  put_lt : ∀ key id, .put key id ∈ history → id < session.workspace.fresh

theorem records_ofWorkspace
    (rules : Language → WordBreak → TextRules)
    (config : Config)
    (documents : List Document) :
    (ofWorkspace (createWith rules config documents)).Records [] where
  holdsAlive := holdsAlive_ofWorkspace rfl
  remembersKeys := remembersKeys_createWith rules config documents
  isAlive _ := rfl
  isPossible := True.intro
  scene := rfl
  put_lt := by simp

namespace Records

variable
    {session : Session}
    {history : List Cache.Event}

theorem isAlive_after
    (records : session.Records history)
    (id : ParagraphId) :
    (Cache.Scene.after history).isAlive id = session.workspace.isAlive id := by
  rw [records.scene, isAlive_ownScene, records.isAlive]

/-- The event of a command can follow what has happened, and leaves the others as they are. -/
theorem event
    (records : session.Records history)
    {command : Command}
    {event : Cache.Event}
    (isEvent : session.ownEvent? command = some event) :
    event.CanFollow history ∧
      (session.ownScene.act event).others = session.heldByOthers ∧
      ∀ key id, event = .put key id → id < session.workspace.fresh := by
  unfold ownEvent? at isEvent
  split at isEvent
  · rename_i slot request
    obtain ⟨key, isKey, isEvent⟩ := Option.bind_eq_some_iff.1 isEvent
    obtain ⟨id, held, isEvent⟩ := Option.bind_eq_some_iff.1 isEvent
    obtain rfl := Option.some.inj isEvent
    have isAlive := records.holdsAlive.slots slot id held
    obtain ⟨paragraph, found⟩ := isAlive_iff.1 isAlive
    refine ⟨(records.isAlive_after id).trans isAlive, rfl, ?_⟩
    rintro _ _ ⟨⟩
    exact records.remembersKeys.alive_lt id paragraph found
  · rename_i request
    obtain ⟨key, isKey, rfl⟩ := Option.map_eq_some_iff.1 isEvent
    exact ⟨True.intro, rfl, nofun⟩
  · obtain rfl := Option.some.inj isEvent
    exact ⟨True.intro, rfl, nofun⟩
  · obtain rfl := Option.some.inj isEvent
    exact ⟨True.intro, rfl, nofun⟩
  · exact absurd isEvent (by simp)

/-- Whatever is alive after a command was alive before it, or has not been known before it. -/
theorem wasAlive
    (records : session.Records history)
    {command : Command}
    {id : ParagraphId}
    (isAlive : (session.perform command).1.workspace.isAlive id = true) :
    (Cache.Scene.after history).isAlive id = true ∨ ∀ key, .put key id ∉ history := by
  rw [records.isAlive_after]
  by_cases isOld : id < session.workspace.fresh
  · obtain ⟨operations, -, isAfter⟩ := (performs_perform session command).runsTo
    obtain ⟨paragraph, found⟩ := isAlive_iff.1 isAlive
    rw [isAfter] at found
    obtain ⟨old, wasFound, -⟩ :=
      (follows_after session.workspace operations).wasAlive id paragraph isOld found
    exact Or.inl (isAlive_iff.2 ⟨old, wasFound⟩)
  · exact Or.inr fun key wasPut => isOld (records.put_lt key id wasPut)

/-- What a command does to the reader's own cache can happen, and does not matter to others. -/
theorem perform
    (records : session.Records history)
    (command : Command) :
    let events := (session.ownEvent? command).toList ++ history
    let later := (session.perform command).1
    Cache.IsPossible events ∧
      (Cache.Scene.after events).cache = later.ownCache ∧
      (∀ key id, .put key id ∈ events → id < session.workspace.fresh) ∧
      (Cache.Event.hold later.heldByOthers).CanFollow events := by
  have performed := (performs_perform session command).holdsAlive records.holdsAlive
  cases isEvent : session.ownEvent? command with
  -- The cache is left alone, and whoever is held by others afterwards was alive or is new.
  | none =>
      refine ⟨records.isPossible, ?_, records.put_lt, fun id held => ?_⟩
      · rw [ownCache_perform isEvent]
        exact congrArg Cache.Scene.cache records.scene
      · exact records.wasAlive (performed.isAlive_of_holds (holds_of_heldByOthers held))
  -- Nothing but the cache changes, so that the others hold what they held before.
  | some event =>
      obtain ⟨canFollow, sameOthers, isKnown⟩ := records.event isEvent
      have performs := perform_of_ownEvent? records.isAlive isEvent
      refine ⟨⟨canFollow, records.isPossible⟩, ?_, ?_, fun id held => Or.inl ?_⟩
      · rw [performs, ← records.scene]
        rfl
      · intro key id wasPut
        rcases List.mem_cons.1 wasPut with isNow | before
        · exact isKnown key id isNow.symm
        · exact records.put_lt key id before
      · have stillHeld : session.heldByOthers id = true := by
          rw [performs] at held
          exact held
        change ((Cache.Scene.after history).act event).isAlive id = true
        rw [records.scene, Cache.Scene.isAlive_iff, sameOthers]
        exact Or.inl stillHeld

theorem step
    (records : session.Records history)
    (command : Command) :
    let later := (session.step command).1
    let events := (session.ownEvent? command).toList ++ history
    later.Records (.hold later.heldByOthers :: events) := by
  intro later events
  obtain ⟨isPossible, sameCache, put_lt, canFollow⟩ := records.perform command
  have performed := (performs_perform session command).holdsAlive records.holdsAlive
  obtain ⟨operations, -, isAfter⟩ := (performs_step session command).runsTo
  have follows := isAfter ▸ follows_after session.workspace operations
  exact {
    holdsAlive := performed.sweepBut []
    remembersKeys := isAfter ▸ records.remembersKeys.after operations
    isAlive := performed.isAlive_sweep
    isPossible := ⟨canFollow, isPossible⟩
    scene := congrArg (Cache.Scene.mk · later.heldByOthers) sameCache
    put_lt := by
      intro key id wasPut
      rcases List.mem_cons.1 wasPut with isNow | before
      · exact absurd isNow nofun
      · exact Nat.lt_of_lt_of_le (put_lt key id before) follows.fresh_le }

theorem after
    (records : session.Records history)
    (commands : List Command) :
    (session.after commands).Records (session.ownHistory history commands) := by
  induction commands generalizing session history with
  | nil => exact records
  | cons command rest ofRest => exact ofRest (records.step command)

/-- The reader's own cache answers as it does in its history. -/
theorem get?_eq
    (records : session.Records history)
    (key : ParagraphKey) :
    session.ownCache.get? session.workspace.isAlive key =
      (Cache.Scene.after history).get? key := by
  have sameAlive : (Cache.Scene.after history).isAlive = session.workspace.isAlive :=
    funext records.isAlive_after
  rw [Cache.Scene.get?, sameAlive, records.scene]
  rfl

/-- The answer to a cleanup tells how many keys are dropped and how many are left. -/
theorem reply_cleanup (records : session.Records history) :
    let cleaned := (Cache.Scene.after (.cleanup :: history)).cache
    (session.step (.cache .ownCleanup)).2 =
      .cleaned ((Cache.Scene.after history).cache.size - cleaned.size) cleaned.size
        (cleaned.size == 0) := by
  intro cleaned
  have sameAlive : session.workspace.isAlive = session.ownScene.isAlive := by
    funext id
    rw [← records.isAlive_after, records.scene]
  have isCleaned : session.ownCache.cleanup session.workspace.isAlive = cleaned := by
    have inScene : cleaned = (session.ownScene.act .cleanup).cache := by
      rw [← records.scene]
      rfl
    rw [inScene, sameAlive]
    rfl
  have isEmpty : cleaned.isEmpty = (cleaned.size == 0) := by
    simp only [Cache.isEmpty, Table.isEmpty, Cache.size, Table.size]
    cases cleaned.entries.entries <;> rfl
  simp only [Session.step, Session.perform, runCache, isCleaned, isEmpty, records.scene, ownScene]

end Records

/--
However paragraphs are put into a cache, looked up, cleaned up and cleared, and whatever others
take hold of and let go of in between, the cache is a weak map that holds at most the paragraph
put last.  The reader's own cache is one in every run of a session, among all other holders of
the session, and it answers to a cleanup with the number of keys whose paragraph has died and the
number of those that are left.
-/
theorem caches_are_weak_maps :
    (∀ history, Cache.IsPossible history → Cache.IsWeakMap history) ∧
      ∀ (rules : Language → WordBreak → TextRules) (config : Config) (documents : List Document)
        (commands : List Command),
        let start := ofWorkspace (createWith rules config documents)
        let session := start.after commands
        let history := start.ownHistory [] commands
        let answer (key : ParagraphKey) :=
          session.ownCache.get? session.workspace.isAlive key
        let dead := {key | Cache.IsListed key history ∧ answer key = none}
        let alive := {key | (answer key).isSome = true}
        Cache.IsPossible history ∧
          Cache.Scene.after history = session.ownScene ∧
          (∀ id, (Cache.Scene.after history).isAlive id = session.workspace.isAlive id) ∧
          (∀ key, (Cache.Scene.after history).get? key = answer key) ∧
          (session.step (.cache .ownCleanup)).2 =
            .cleaned dead.ncard alive.ncard (alive.ncard == 0) := by
  refine ⟨fun history possible => Cache.isWeakMap_of_isPossible possible, ?_⟩
  intro rules config documents commands start session history answer dead alive
  have records : session.Records history :=
    (records_ofWorkspace rules config documents).after commands
  have weakMap := Cache.isWeakMap_of_isPossible records.isPossible
  refine ⟨records.isPossible, records.scene, records.isAlive_after,
    fun key => (records.get?_eq key).symm, ?_⟩
  rw [records.reply_cleanup, weakMap.dropped, weakMap.left]
  simp only [← records.get?_eq]
  rfl

/-- The second of two paragraphs is put, and the first, which nobody else holds any more, dies. -/
theorem caches_are_weak_maps_of_two_paragraphs :
    let documents : List Document := [.plain [⟨.text, [.text "a"]⟩, ⟨.text, [.text "b"]⟩]]
    let commands : List Command :=
      [.cache (.cursor "page" ⟨0, 0, none⟩), .cache (.ownPut "page" ⟨0, 0, none⟩),
        .cache (.cursor "page" ⟨0, 1, none⟩), .cache (.ownPut "page" ⟨0, 1, none⟩)]
    let start := ofWorkspace (createWith (fun _ option => .standard option) default documents)
    let session := start.after commands
    let history := start.ownHistory [] commands
    let answer (key : ParagraphKey) := session.ownCache.get? session.workspace.isAlive key
    answer ⟨0, 0, .undetermined⟩ = none ∧
      answer ⟨0, 1, .undetermined⟩ = some 1 ∧
      Cache.IsPossible history ∧
      Cache.LastPut ⟨0, 1, .undetermined⟩ 1 history ∧
      (session.step (.cache .ownCleanup)).2 = .cleaned 1 1 false ∧
      {key | Cache.IsListed key history ∧ answer key = none}.ncard = 1 := by
  intro documents commands start session history answer
  obtain ⟨areWeakMaps, ofSession⟩ := caches_are_weak_maps
  obtain ⟨isPossible, -, -, sameAnswer, isReply⟩ :=
    ofSession (fun _ option => .standard option) default documents commands
  have first : answer ⟨0, 0, .undetermined⟩ = none := by decide +kernel
  have second : answer ⟨0, 1, .undetermined⟩ = some 1 := by decide +kernel
  have reply : (session.step (.cache .ownCleanup)).2 = .cleaned 1 1 false := by
    let cleaned := session.ownCache.cleanup session.workspace.isAlive
    have sizes : session.ownCache.size = 2 ∧ cleaned.size = 1 ∧ cleaned.isEmpty = false := by
      decide +kernel
    obtain ⟨before, left, notEmpty⟩ := sizes
    simp only [cleaned] at left notEmpty
    simp only [Session.step, Session.perform, runCache, before, left, notEmpty]
  refine ⟨first, second, isPossible, ?_, reply, ?_⟩
  · have inHistory := (sameAnswer ⟨0, 1, .undetermined⟩).trans second
    exact (((areWeakMaps history isPossible).get?_iff _ 1).1 inHistory).1
  · exact (Reply.cleaned.inj (isReply.symm.trans reply)).1

end Folio.Session
