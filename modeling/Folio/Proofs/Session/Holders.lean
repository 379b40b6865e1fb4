import Folio.Proofs.Session.Operations
import Folio.Session.Run

/-!
# Sessions hold what is alive

A command of a session does operations to the workspace, and what the session holds after it
is alive.  A step then lets go of everything that is not held, so that after it the paragraphs
that are alive are those that are held.
-/

namespace Folio

/-! ## What operations keep alive -/

namespace Workspace

/-- Operations lead from one workspace to another, and empty the cache only if they may. -/
def RunsTo (mayClear : Prop) (before later : Workspace) : Prop :=
  ∃ operations, (.clearCache ∈ operations → mayClear) ∧ later = before.after operations

namespace RunsTo

variable
    {mayClear : Prop}
    {before between later : Workspace}

theorem refl (mayClear : Prop) (workspace : Workspace) : RunsTo mayClear workspace workspace :=
  ⟨[], by simp, rfl⟩

theorem trans
    (first : RunsTo mayClear before between)
    (second : RunsTo mayClear between later) :
    RunsTo mayClear before later := by
  obtain ⟨early, earlyKeeps, rfl⟩ := first
  obtain ⟨late, lateKeeps, rfl⟩ := second
  refine ⟨early ++ late, ?_, by rw [after, after, after, List.foldl_append]⟩
  intro member
  exact (List.mem_append.1 member).elim earlyKeeps lateKeeps

theorem single
    (workspace : Workspace)
    (operation : Operation)
    (clears : operation = .clearCache → mayClear) :
    RunsTo mayClear workspace (workspace.apply operation) :=
  ⟨[operation], fun member => clears (List.mem_singleton.1 member).symm, rfl⟩

theorem change
    (workspace : Workspace)
    (operation : Operation)
    (isChange : operation.isChange = true) :
    RunsTo mayClear workspace (workspace.apply operation) := by
  refine .single workspace operation ?_
  rintro rfl
  exact absurd isChange Bool.false_ne_true

end RunsTo

/-- Nothing has died, and what the cache holds and did not hold before is alive. -/
structure Keeps (before later : Workspace) : Prop where
  isAlive : ∀ id, before.isAlive id = true → later.isAlive id = true
  lastAdded :
    ∀ id, later.cache.lastAdded = some id →
      before.cache.lastAdded = some id ∨ later.isAlive id = true

namespace Keeps

theorem refl (workspace : Workspace) : Keeps workspace workspace :=
  ⟨fun _ isAlive => isAlive, fun _ isLast => Or.inl isLast⟩

theorem trans
    {before between later : Workspace}
    (first : Keeps before between)
    (second : Keeps between later) :
    Keeps before later where
  isAlive id isAlive := second.isAlive id (first.isAlive id isAlive)
  lastAdded := by
    intro id isLast
    rcases second.lastAdded id isLast with wasLast | isAlive
    · exact (first.lastAdded id wasLast).imp_right (second.isAlive id)
    · exact Or.inr isAlive

end Keeps

theorem isAlive_of_insert
    {workspace later : Workspace}
    {id : ParagraphId}
    {paragraph : BuiltParagraph}
    (isInsert : later.live = workspace.live.insert id paragraph)
    (other : ParagraphId) :
    later.isAlive other = true ↔ other = id ∨ workspace.isAlive other = true := by
  simp only [isAlive, Table.contains_eq_isSome, isInsert, Table.get?_insert]
  split
  · rename_i same
    simp [same]
  · rename_i differs
    simp [differs]

theorem Change.keeps
    {before later : Workspace}
    (change : Change before later) :
    Keeps before later := by
  cases change with
  | add key elements inRange missing =>
      refine ⟨fun id isAlive => ?_, fun id isLast => Or.inr ?_⟩
      · exact (isAlive_of_insert rfl id).2 (Or.inr isAlive)
      · exact (isAlive_of_insert rfl id).2 (Or.inl (Option.some.inj isLast).symm)
  | rewrite changed paragraph elements isAlive =>
      refine ⟨fun id isAlive => ?_, fun _ isLast => Or.inl isLast⟩
      exact (isAlive_of_insert rfl id).2 (Or.inr isAlive)
  | _ => exact ⟨fun _ isAlive => isAlive, fun _ isLast => Or.inl isLast⟩

theorem Changes.keeps
    {before later : Workspace}
    (changes : Changes before later) :
    Keeps before later := by
  induction changes with
  | refl => exact .refl before
  | tail _ change keeps => exact keeps.trans change.keeps

theorem runsTo_rebuild
    {mayClear : Prop}
    (workspace : Workspace)
    (id : ParagraphId) :
    RunsTo mayClear workspace (workspace.rebuild id) :=
  (RunsTo.change workspace (.clear id) rfl).trans (.change _ (.fill id) rfl)

theorem keeps_rebuild (workspace : Workspace) (id : ParagraphId) :
    Keeps workspace (workspace.rebuild id) :=
  (changes_clear workspace id).keeps.trans (changes_fill _ id).keeps

theorem isAlive_sweep
    (workspace : Workspace)
    (isHeld : ParagraphId → Bool)
    (id : ParagraphId) :
    (workspace.sweep isHeld).isAlive id = true ↔
      workspace.isAlive id = true ∧ isHeld id = true := by
  simp only [isAlive_iff, paragraph?_sweep, Option.filter_eq_some_iff]
  constructor
  · rintro ⟨paragraph, found, held⟩
    exact ⟨⟨paragraph, found⟩, held⟩
  · rintro ⟨⟨paragraph, found⟩, held⟩
    exact ⟨paragraph, found, held⟩

/-! ## Asking for paragraphs -/

/-- A paragraph that was asked for, if there is one, is alive. -/
structure Finds (before : Workspace) (answer : Option ParagraphId × Workspace) : Prop where
  runsTo : ∀ mayClear, RunsTo mayClear before answer.2
  keeps : Keeps before answer.2
  isAlive : ∀ id, answer.1 = some id → answer.2.isAlive id = true

section

variable (workspace : Workspace)

theorem finds_nothing : Finds workspace (none, workspace) :=
  ⟨fun mayClear => .refl mayClear workspace, .refl workspace, by simp⟩

theorem finds_cursor (document : Nat) (language : Language) (index : Nat) :
    Finds workspace (workspace.cursor document language index) where
  runsTo mayClear := .change workspace (.cursor document language index) rfl
  keeps := Changes.keeps (changes_cursor ..)
  isAlive := by
    intro id isAnswer
    unfold cursor at isAnswer ⊢
    split at isAnswer
    · exact absurd isAnswer (by simp)
    · dsimp only at isAnswer ⊢
      split at isAnswer
      · rename_i found isCached
        obtain rfl := Option.some.inj isAnswer
        exact (Option.filter_eq_some_iff.1 isCached).2
      · obtain rfl := Option.some.inj isAnswer
        exact (isAlive_of_insert rfl _).2 (Or.inl rfl)

theorem finds_moveFrom (id : ParagraphId) (target : Document → Nat → Option Nat) :
    Finds workspace (workspace.moveFrom id target) := by
  unfold moveFrom
  split
  · exact finds_nothing workspace
  · dsimp only
    split
    · exact finds_nothing workspace
    · exact finds_cursor ..

end

end Workspace

/-! ## Commands -/

namespace Session

/-! ### What a command names -/

section

variable
    {session : Session}
    {motive : Session → Prop}
    (unchanged : motive session)

include unchanged

theorem withKey_induction
    {proceed : ParagraphKey → Session × Reply}
    (proceeds : ∀ key, motive (proceed key).1)
    (request : Request) :
    motive (session.withKey request proceed).1 := by
  unfold withKey
  split
  · exact proceeds _
  · split
    · exact unchanged
    · exact proceeds _

theorem withSlot_induction
    {proceed : ParagraphId → Session × Reply}
    {slot : String}
    (proceeds : ∀ id, session.slots.get? slot = some id → motive (proceed id).1) :
    motive (session.withSlot slot proceed).1 := by
  unfold withSlot
  split
  · rename_i id held
    exact proceeds id held
  · exact unchanged

theorem withCursor_induction
    {proceed : WordCursor → Session × Reply}
    {name : String}
    (proceeds :
      ∀ cursor, session.wordCursors.get? name = some cursor → motive (proceed cursor).1) :
    motive (session.withCursor name proceed).1 := by
  unfold withCursor
  split
  · rename_i cursor found
    exact proceeds cursor found
  · exact unchanged

end

open Workspace

/-- What a session holds is alive. -/
structure HoldsAlive (session : Session) : Prop where
  slots :
    ∀ name id, session.slots.get? name = some id → session.workspace.isAlive id = true
  wordCursors :
    ∀ name cursor id,
      session.wordCursors.get? name = some cursor →
        cursor.paragraph? = some id → session.workspace.isAlive id = true
  lastAdded :
    ∀ id, session.workspace.cache.lastAdded = some id → session.workspace.isAlive id = true
  ownLastAdded :
    ∀ id, session.ownCache.lastAdded = some id → session.workspace.isAlive id = true

theorem holdsAlive_ofWorkspace
    {workspace : Workspace}
    (holdsNothing : workspace.cache.lastAdded = none) :
    (ofWorkspace workspace).HoldsAlive where
  slots := by simp [ofWorkspace]
  wordCursors := by simp [ofWorkspace]
  lastAdded := by simp [ofWorkspace, holdsNothing]
  ownLastAdded := by simp [ofWorkspace, Cache.empty]

/-- A command has done operations, and what is held after it is alive if this was so before. -/
structure Performs (mayClear : Prop) (before later : Session) : Prop where
  runsTo : RunsTo mayClear before.workspace later.workspace
  holdsAlive : before.HoldsAlive → later.HoldsAlive

section

variable
    {mayClear : Prop}
    (session : Session)

theorem performs_nothing : Performs mayClear session session :=
  ⟨.refl mayClear session.workspace, id⟩

variable {session}

theorem holds_iff (id : ParagraphId) :
    session.holds id = true ↔
      (∃ name, session.slots.get? name = some id) ∨
        (∃ name cursor,
          session.wordCursors.get? name = some cursor ∧ cursor.paragraph? = some id) ∨
        session.workspace.cache.lastAdded = some id ∨ session.ownCache.lastAdded = some id := by
  simp only [holds, Bool.or_eq_true, List.any_eq_true, beq_iff_eq, Prod.exists, Cache.holds,
    Table.get?_eq_some_iff, or_assoc]
  constructor
  · rintro (⟨name, other, member, rfl⟩ | ⟨name, cursor, member, within⟩ | held)
    · exact Or.inl ⟨name, member⟩
    · exact Or.inr (Or.inl ⟨name, cursor, member, within⟩)
    · exact Or.inr (Or.inr held)
  · rintro (⟨name, member⟩ | ⟨name, cursor, member, within⟩ | held)
    · exact Or.inl ⟨name, id, member, rfl⟩
    · exact Or.inr (Or.inl ⟨name, cursor, member, within⟩)
    · exact Or.inr (Or.inr held)

theorem HoldsAlive.isAlive_of_holds
    (holdsAlive : session.HoldsAlive)
    {id : ParagraphId}
    (held : session.holds id = true) :
    session.workspace.isAlive id = true := by
  rcases (holds_iff id).1 held with ⟨name, inSlot⟩ | ⟨name, cursor, found, within⟩ | isLast | isLast
  · exact holdsAlive.slots name id inSlot
  · exact holdsAlive.wordCursors name cursor id found within
  · exact holdsAlive.lastAdded id isLast
  · exact holdsAlive.ownLastAdded id isLast

/-- Sweeping leaves what is held. -/
theorem HoldsAlive.sweepBut
    (holdsAlive : session.HoldsAlive)
    (inHand : List ParagraphId) :
    (session.sweepBut inHand).HoldsAlive := by
  have stays :
      ∀ id, session.holds id = true →
        (session.sweepBut inHand).workspace.isAlive id = true := by
    intro id held
    exact (Workspace.isAlive_sweep ..).2 ⟨holdsAlive.isAlive_of_holds held, by simp [held]⟩
  refine ⟨?_, ?_, ?_, ?_⟩
  · intro name id inSlot
    exact stays id ((holds_iff id).2 (Or.inl ⟨name, inSlot⟩))
  · intro name cursor id found within
    exact stays id ((holds_iff id).2 (Or.inr (Or.inl ⟨name, cursor, found, within⟩)))
  · intro id isLast
    exact stays id ((holds_iff id).2 (Or.inr (Or.inr (Or.inl isLast))))
  · intro id isLast
    exact stays id ((holds_iff id).2 (Or.inr (Or.inr (Or.inr isLast))))

theorem HoldsAlive.isAlive_sweep
    (holdsAlive : session.HoldsAlive)
    (id : ParagraphId) :
    session.sweep.workspace.isAlive id = session.sweep.holds id := by
  have sameHolds : session.sweep.holds id = session.holds id := rfl
  rw [sameHolds]
  refine Bool.eq_iff_iff.2 ((Workspace.isAlive_sweep ..).trans ?_)
  constructor
  · rintro ⟨-, held⟩
    simpa using held
  · intro held
    exact ⟨holdsAlive.isAlive_of_holds held, by simp [held]⟩

theorem HoldsAlive.setWorkspace
    (holdsAlive : session.HoldsAlive)
    {later : Workspace}
    (keeps : Keeps session.workspace later) :
    HoldsAlive { session with workspace := later } where
  slots name id held := keeps.isAlive id (holdsAlive.slots name id held)
  wordCursors name cursor id held within :=
    keeps.isAlive id (holdsAlive.wordCursors name cursor id held within)
  lastAdded := by
    intro id isLast
    rcases keeps.lastAdded id isLast with wasLast | isAlive
    · exact keeps.isAlive id (holdsAlive.lastAdded id wasLast)
    · exact isAlive
  ownLastAdded id isLast := keeps.isAlive id (holdsAlive.ownLastAdded id isLast)

theorem HoldsAlive.keepFound
    (holdsAlive : session.HoldsAlive)
    (slot : String)
    {found : Option ParagraphId}
    (isAlive : ∀ id, found = some id → session.workspace.isAlive id = true) :
    (session.keepFound slot found).1.HoldsAlive := by
  cases found with
  | none => exact holdsAlive
  | some found =>
      refine ⟨?_, holdsAlive.wordCursors, holdsAlive.lastAdded, holdsAlive.ownLastAdded⟩
      intro name id held
      simp only [Session.keepFound, Table.get?_insert] at held
      split at held
      · exact isAlive id held
      · exact holdsAlive.slots name id held

theorem HoldsAlive.setCursor
    (holdsAlive : session.HoldsAlive)
    (name : String)
    {cursor : WordCursor}
    (isAlive : ∀ id, cursor.paragraph? = some id → session.workspace.isAlive id = true) :
    (session.setCursor name cursor).1.HoldsAlive := by
  refine ⟨holdsAlive.slots, ?_, holdsAlive.lastAdded, holdsAlive.ownLastAdded⟩
  intro other otherCursor id held within
  simp only [Session.setCursor, Table.get?_insert] at held
  split at held
  · obtain rfl := Option.some.inj held
    exact isAlive id within
  · exact holdsAlive.wordCursors other otherCursor id held within

theorem Performs.trans
    {between later : Session}
    (first : Performs mayClear session between)
    (second : Performs mayClear between later) :
    Performs mayClear session later where
  runsTo := first.runsTo.trans second.runsTo
  holdsAlive holdsAlive := second.holdsAlive (first.holdsAlive holdsAlive)

theorem Performs.mono
    {wider : Prop}
    {later : Session}
    (performs : Performs mayClear session later)
    (implies : mayClear → wider) :
    Performs wider session later := by
  obtain ⟨operations, clears, isAfter⟩ := performs.runsTo
  exact ⟨⟨operations, fun member => implies (clears member), isAfter⟩, performs.holdsAlive⟩

theorem Performs.sweepBut (inHand : List ParagraphId) :
    Performs mayClear session (session.sweepBut inHand) :=
  ⟨.single _ (.letGo _) (by simp), fun holdsAlive => holdsAlive.sweepBut inHand⟩

theorem Performs.setWorkspace
    {later : Workspace}
    (runsTo : RunsTo mayClear session.workspace later)
    (keeps : Keeps session.workspace later) :
    Performs mayClear session { session with workspace := later } :=
  ⟨runsTo, fun holdsAlive => holdsAlive.setWorkspace keeps⟩

theorem Performs.apply
    (operation : Operation)
    (isChange : operation.isChange = true) :
    Performs mayClear session
      { session with workspace := session.workspace.apply operation } :=
  .setWorkspace (.change _ operation isChange) (changes_apply _ isChange).keeps

theorem Performs.keepFound
    {answer : Option ParagraphId × Workspace}
    (finds : Finds session.workspace answer)
    (slot : String) :
    Performs mayClear session
      (Session.keepFound { session with workspace := answer.2 } slot answer.1).1 where
  runsTo := by
    cases answer with
    | mk found later => cases found <;> exact finds.runsTo mayClear
  holdsAlive holdsAlive := (holdsAlive.setWorkspace finds.keeps).keepFound slot finds.isAlive

theorem Performs.withKey
    {proceed : ParagraphKey → Session × Reply}
    (performs : ∀ key, Performs mayClear session (proceed key).1)
    (request : Request) :
    Performs mayClear session (session.withKey request proceed).1 :=
  withKey_induction (motive := Performs mayClear session) (performs_nothing session) performs
    request

theorem Performs.withSlot
    {proceed : ParagraphId → Session × Reply}
    {slot : String}
    (performs :
      ∀ id, session.slots.get? slot = some id → Performs mayClear session (proceed id).1) :
    Performs mayClear session (session.withSlot slot proceed).1 :=
  withSlot_induction (motive := Performs mayClear session) (performs_nothing session) performs

theorem Performs.withCursor
    {proceed : WordCursor → Session × Reply}
    {name : String}
    (performs :
      ∀ cursor, session.wordCursors.get? name = some cursor →
        Performs mayClear session (proceed cursor).1) :
    Performs mayClear session (session.withCursor name proceed).1 :=
  withCursor_induction (motive := Performs mayClear session) (performs_nothing session) performs

variable (session)

theorem performs_runCache (command : CacheCommand) :
    Performs (command = .clear) session (session.runCache command).1 := by
  cases command with
  | cursor slot request =>
      exact .withKey (fun key => .keepFound (finds_cursor ..) slot) request
  | get request => exact .withKey (fun _ => performs_nothing session) request
  | isEmpty => exact performs_nothing session
  | cleanup => exact .apply .cleanupCache rfl
  | clear =>
      refine ⟨.single _ .clearCache fun _ => rfl, fun holdsAlive => ?_⟩
      refine ⟨holdsAlive.slots, holdsAlive.wordCursors, ?_, holdsAlive.ownLastAdded⟩
      simp [runCache, clearCache, Cache.clear, Cache.empty]
  | shrinkPool => exact .apply .shrinkPool rfl
  | config => exact performs_nothing session
  | ownPut slot request =>
      refine .withKey (fun key => ?_) request
      refine .withSlot fun id held => ⟨.refl _ _, fun holdsAlive => ?_⟩
      refine ⟨holdsAlive.slots, holdsAlive.wordCursors, holdsAlive.lastAdded, ?_⟩
      intro other isLast
      exact holdsAlive.slots slot other (held.trans isLast)
  | ownGet request => exact .withKey (fun _ => performs_nothing session) request
  | ownCleanup =>
      exact ⟨.refl _ _, fun holdsAlive =>
        ⟨holdsAlive.slots, holdsAlive.wordCursors, holdsAlive.lastAdded,
          holdsAlive.ownLastAdded⟩⟩
  | ownClear =>
      refine ⟨.refl _ _, fun holdsAlive => ?_⟩
      refine ⟨holdsAlive.slots, holdsAlive.wordCursors, holdsAlive.lastAdded, ?_⟩
      simp [runCache, Cache.clear, Cache.empty]

theorem performs_changeParagraph
    {change : Workspace → ParagraphId → Workspace}
    (runsTo : ∀ id, RunsTo mayClear session.workspace (change session.workspace id))
    (keeps : ∀ id, Keeps session.workspace (change session.workspace id))
    (slot : String) :
    Performs mayClear session (session.changeParagraph slot change).1 :=
  .withSlot fun id _ => .setWorkspace (runsTo id) (keeps id)

theorem performs_walk
    {step : Workspace → ParagraphId → Option ParagraphId × Workspace}
    (finds : ∀ workspace id, Finds workspace (step workspace id))
    (id : ParagraphId)
    (remaining : Nat) :
    Performs mayClear session (session.walk step id remaining).1 := by
  induction remaining generalizing session id with
  | zero => exact performs_nothing session
  | succ remaining ofRest =>
      have found := finds session.workspace id
      unfold walk
      dsimp only
      split
      · rename_i later isAnswer
        rw [isAnswer] at found
        exact .setWorkspace (found.runsTo mayClear) found.keeps
      · rename_i next later isAnswer
        rw [isAnswer] at found
        have strides : Performs mayClear session { session with workspace := later } :=
          .setWorkspace (found.runsTo mayClear) found.keeps
        exact (strides.trans (.sweepBut [next])).trans (ofRest _ next)

theorem performs_runParagraph (command : ParagraphCommand) :
    Performs mayClear session (session.runParagraph command).1 := by
  cases command with
  | drop slot =>
      refine ⟨.refl _ _, fun holdsAlive => ⟨?_, holdsAlive.wordCursors, holdsAlive.lastAdded,
        holdsAlive.ownLastAdded⟩⟩
      intro name id held
      simp only [runParagraph, Table.get?_erase] at held
      split at held
      · exact absurd held (by simp)
      · exact holdsAlive.slots name id held
  | describe slot =>
      refine .withSlot fun id held => ?_
      split <;> exact performs_nothing session
  | elements slot => exact .withSlot fun _ _ => performs_nothing session
  | element slot index =>
      refine .withSlot fun id held => ?_
      split <;> exact performs_nothing session
  | next slot target =>
      exact .withSlot fun id _ => .keepFound (finds_moveFrom session.workspace id _) target
  | previous slot target =>
      exact .withSlot fun id _ => .keepFound (finds_moveFrom session.workspace id _) target
  | walk slot isBackward remaining =>
      refine .withSlot fun id _ => ?_
      cases isBackward with
      | true => exact performs_walk session (fun _ id => finds_moveFrom _ id _) id _
      | false => exact performs_walk session (fun _ id => finds_moveFrom _ id _) id _
  | same left right =>
      exact .withSlot fun _ _ => .withSlot fun _ _ => performs_nothing session
  | clear slot => exact .withSlot fun id _ => .apply (.clear id) rfl
  | fill slot =>
      refine performs_changeParagraph session (fun id => ?_) (fun id => ?_) slot
      · exact .change _ (.fill id) rfl
      · exact (changes_fill ..).keeps
  | rebuild slot =>
      refine performs_changeParagraph session (fun id => ?_) (fun id => ?_) slot
      · exact runsTo_rebuild session.workspace id
      · exact keeps_rebuild session.workspace id
  | discard slot => exact .withSlot fun id _ => .apply (.discard id) rfl

/-! ### Word cursors -/

/-- A word cursor goes to a paragraph that is alive, or stays in its own. -/
structure Travels
    (before : Workspace)
    (cursor : WordCursor)
    (answer : WordCursor × Workspace) :
    Prop where
  runsTo : ∀ mayClear, RunsTo mayClear before answer.2
  keeps : Keeps before answer.2
  isAlive :
    ∀ id, answer.1.paragraph? = some id →
      cursor.paragraph? = some id ∨ answer.2.isAlive id = true

theorem travels_nowhere (workspace : Workspace) (cursor : WordCursor) :
    Travels workspace cursor (cursor, workspace) :=
  ⟨fun mayClear => .refl mayClear workspace, .refl workspace, fun _ within => Or.inl within⟩

theorem Travels.start
    {before : Workspace}
    {answer : Option ParagraphId × Workspace}
    (finds : Finds before answer)
    (cursor : WordCursor) :
    Travels before cursor ((answer.1.map WordCursor.start).getD cursor, answer.2) := by
  refine ⟨finds.runsTo, finds.keeps, fun id within => ?_⟩
  cases isAnswer : answer.1 with
  | none =>
      simp only [isAnswer, Option.map_none, Option.getD_none] at within
      exact Or.inl within
  | some found =>
      simp only [isAnswer, Option.map_some, Option.getD_some, WordCursor.start,
        WordCursor.paragraph?] at within
      exact Or.inr (finds.isAlive id (isAnswer.trans within))

theorem paragraph?_moveTo
    (workspace : Workspace)
    (element character : Nat)
    (cursor : WordCursor) :
    (cursor.moveTo workspace element character).paragraph? = cursor.paragraph? := by
  cases cursor with
  | null => rfl
  | within id oldElement oldCharacter =>
      simp only [WordCursor.moveTo]
      split <;> rfl

/--
A travel stays, or goes where a move from a paragraph or a request leads, or comes back to the
paragraph when it has been built anew.
-/
theorem travel_induction
    {motive : WordCursor × Workspace → Prop}
    {workspace : Workspace}
    {cursor : WordCursor}
    (stays : motive (cursor, workspace))
    (follows :
      ∀ id target,
        motive
          (((workspace.moveFrom id target).1.map WordCursor.start).getD cursor,
            (workspace.moveFrom id target).2))
    (asks :
      ∀ document language index,
        motive
          (((workspace.cursor document language index).1.map WordCursor.start).getD cursor,
            (workspace.cursor document language index).2))
    (comesBack :
      ∀ id,
        motive
          (cursor.moveTo (workspace.rebuild id) cursor.elementIndex cursor.characterIndex,
            workspace.rebuild id))
    (travel : Travel) :
    motive ((travel.apply workspace cursor).1.1, (travel.apply workspace cursor).2) := by
  have ofStep :
      ∀ target : Document → Nat → Option Nat,
        let step := fun workspace id => Workspace.moveFrom workspace id target
        motive ((cursor.follow step workspace).1.1, (cursor.follow step workspace).2) := by
    intro target step
    unfold WordCursor.follow
    split
    · exact stays
    · rename_i id _
      have leads := follows id target
      split
      · rename_i other later isAnswer
        rwa [show workspace.moveFrom id target = (some other, later) from isAnswer] at leads
      · rename_i later isAnswer
        rwa [show workspace.moveFrom id target = (none, later) from isAnswer] at leads
  cases travel with
  | nextParagraph => exact ofStep Document.next?
  | previousParagraph => exact ofStep Document.previous?
  | toParagraph index =>
      simp only [Travel.apply, WordCursor.moveToParagraph]
      split
      · exact stays
      · rename_i paragraph _
        have leads := asks paragraph.key.document paragraph.key.language index
        split
        · exact stays
        · split
          · rename_i other later isAnswer
            rwa [isAnswer] at leads
          · rename_i later isAnswer
            rwa [isAnswer] at leads
  | rebuild =>
      simp only [Travel.apply, WordCursor.rebuild]
      split
      · exact stays
      · rename_i id _
        exact comesBack id

theorem travels_apply (workspace : Workspace) (cursor : WordCursor) (travel : Travel) :
    Travels workspace cursor
      ((travel.apply workspace cursor).1.1, (travel.apply workspace cursor).2) := by
  apply travel_induction (motive := Travels workspace cursor)
  · exact travels_nowhere workspace cursor
  · exact fun id target => .start (finds_moveFrom workspace id target) cursor
  · exact fun document language index =>
      .start (finds_cursor workspace document language index) cursor
  · intro id
    constructor
    · exact fun _ => runsTo_rebuild workspace id
    · exact keeps_rebuild workspace id
    · intro other isOther
      rw [paragraph?_moveTo] at isOther
      exact Or.inl isOther

theorem paragraph?_move (workspace : Workspace) (cursor : WordCursor) (move : Move) :
    (move.apply workspace cursor).paragraph? = cursor.paragraph? := by
  cases move with
  | moveTo element character => exact paragraph?_moveTo ..
  | nextWord =>
      cases cursor with
      | null => rfl
      | within id element character =>
          simp only [Move.apply, WordCursor.nextWord]
          split <;> rfl
  | _ => cases cursor <;> rfl

theorem Performs.setCursor
    (name : String)
    {cursor : WordCursor}
    (isAlive :
      session.HoldsAlive →
        ∀ id, cursor.paragraph? = some id → session.workspace.isAlive id = true) :
    Performs mayClear session (session.setCursor name cursor).1 :=
  ⟨.refl _ _, fun holdsAlive => holdsAlive.setCursor name (isAlive holdsAlive)⟩

theorem isAlive_of_start
    {slot : String}
    {held : ParagraphId}
    (inSlot : session.slots.get? slot = some held)
    (holdsAlive : session.HoldsAlive)
    (id : ParagraphId)
    (within : (WordCursor.start held).paragraph? = some id) :
    session.workspace.isAlive id = true :=
  holdsAlive.slots slot id (inSlot.trans within)

theorem performs_runWord (command : WordCommand) :
    Performs mayClear session (session.runWord command).1 := by
  cases command with
  | new name slot =>
      exact .withSlot fun id inSlot => .setCursor session name (isAlive_of_start session inSlot)
  | null name => exact .setCursor session name (by simp [WordCursor.paragraph?])
  | clone name copy =>
      refine .withCursor fun cursor found => .setCursor session copy fun holdsAlive id within => ?_
      exact holdsAlive.wordCursors name cursor id found within
  | setParagraph name slot =>
      refine .withCursor fun cursor found => ?_
      exact .withSlot fun id inSlot => .setCursor session name (isAlive_of_start session inSlot)
  | move name move =>
      refine .withCursor fun cursor found => .setCursor session name fun holdsAlive id within => ?_
      rw [paragraph?_move] at within
      exact holdsAlive.wordCursors name cursor id found within
  | travel name travel =>
      refine .withCursor fun cursor found => ?_
      have travels := travels_apply session.workspace cursor travel
      have moved : Performs mayClear session { session with workspace := _ } :=
        .setWorkspace (travels.runsTo mayClear) travels.keeps
      refine moved.trans (.setCursor _ name fun holdsAlive id within => ?_)
      rcases travels.isAlive id within with wasWithin | isAlive
      · exact holdsAlive.wordCursors name cursor id found wasWithin
      · exact isAlive
  | drop name =>
      refine ⟨.refl _ _, fun holdsAlive => ⟨holdsAlive.slots, ?_, holdsAlive.lastAdded,
        holdsAlive.ownLastAdded⟩⟩
      intro other cursor id found within
      simp only [runWord, Table.get?_erase] at found
      split at found
      · exact absurd found (by simp)
      · exact holdsAlive.wordCursors other cursor id found within
  | compare left right =>
      exact .withCursor fun _ _ => .withCursor fun _ _ => performs_nothing session
  | sort => exact performs_nothing session
  | keep name slot =>
      refine .withCursor fun cursor found => ⟨?_, fun holdsAlive => ?_⟩
      · cases cursor <;> exact .refl _ _
      · exact holdsAlive.keepFound slot (holdsAlive.wordCursors name cursor · found)

/-! ## Steps -/

theorem performs_perform (command : Command) :
    Performs (command = .cache .clear) session (session.perform command).1 := by
  cases command with
  | cache command =>
      simp only [Command.cache.injEq]
      exact performs_runCache session command
  | paragraph command => exact performs_runParagraph session command
  | document number command => exact .apply (.command number command) rfl
  | sameDocument left right => exact performs_nothing session
  | markFinish mark => exact performs_nothing session
  | word command => exact performs_runWord session command

theorem performs_step (command : Command) :
    Performs (command = .cache .clear) session (session.step command).1 :=
  (performs_perform session command).trans (.sweepBut [])

end

/-- The session after a run of commands. -/
def after (session : Session) (commands : List Command) : Session :=
  commands.foldl (fun session command => (session.step command).1) session

theorem performs_after (session : Session) (commands : List Command) :
    Performs (.cache .clear ∈ commands) session (session.after commands) := by
  induction commands generalizing session with
  | nil => exact performs_nothing session
  | cons command rest ofRest =>
      refine ((performs_step session command).mono ?_).trans ((ofRest _).mono ?_)
      · intro isClear
        exact List.mem_cons.2 (Or.inl isClear.symm)
      · exact List.mem_cons_of_mem command

theorem reached_after
    (rules : Language → WordBreak → TextRules)
    (config : Config)
    (documents : List Document)
    (commands : List Command) :
    ((ofWorkspace (createWith rules config documents)).after commands).workspace.Reached rules
      config.wordBreak := by
  obtain ⟨operations, -, isAfter⟩ := (performs_after _ commands).runsTo
  exact ⟨config, documents, operations, rfl, isAfter⟩

/-- After every step the paragraphs that are alive are those that are held. -/
theorem isAlive_after
    {session : Session}
    (holdsAlive : session.HoldsAlive)
    (isAlive : ∀ id, session.workspace.isAlive id = session.holds id)
    (commands : List Command)
    (id : ParagraphId) :
    (session.after commands).workspace.isAlive id = (session.after commands).holds id := by
  induction commands generalizing session with
  | nil => exact isAlive id
  | cons command rest ofRest =>
      have performed := (performs_perform session command).holdsAlive holdsAlive
      exact ofRest (performed.sweepBut []) performed.isAlive_sweep

end Session

end Folio
