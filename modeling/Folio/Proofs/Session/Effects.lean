import Folio.Proofs.Session.Composed
import Folio.Proofs.Session.Holders

/-!
# What commands do

A command takes whole steps in the workspace, and only the commands that clear, fill or
discard the paragraph in a slot handle this paragraph.  Of the word cursors, a command places
at most one: at the start of a paragraph, where another one is, where a move leads from there,
or at an element and character that it comes back to.
-/

namespace Folio.Session

open Workspace

/-- The paragraph whose elements a command changes other than by building it anew. -/
def handles (session : Session) : Command → ParagraphId → Prop
  | .paragraph (.clear slot), id => session.slots.get? slot = some id
  | .paragraph (.fill slot), id => session.slots.get? slot = some id
  | .paragraph (.discard slot), id => session.slots.get? slot = some id
  | _, _ => False

/-- Whether a command gives a place to the word cursor of a name, or takes it away. -/
def Command.places : Command → String → Prop
  | .word (.new name _), other => other = name
  | .word (.null name), other => other = name
  | .word (.clone _ copy), other => other = copy
  | .word (.setParagraph name _), other => other = name
  | .word (.move name _), other => other = name
  | .word (.travel name _), other => other = name
  | .word (.drop name), other => other = name
  | _, _ => False

/-! ## Steps in the workspace -/

/-- Keeping a paragraph that was found changes the slots alone. -/
theorem keepFound_eq (session : Session) (slot : String) (found : Option ParagraphId) :
    (session.keepFound slot found).1.workspace = session.workspace ∧
      (session.keepFound slot found).1.wordCursors = session.wordCursors := by
  cases found <;> exact ⟨rfl, rfl⟩

/-- A command took whole steps in the workspace and left the word cursors alone. -/
structure TakesTurns
    (handled : ParagraphId → Prop)
    (before later : Session) :
    Prop where
  turns : Turns handled before.workspace later.workspace
  wordCursors_eq : later.wordCursors = before.wordCursors

section

variable {handled : ParagraphId → Prop}

theorem turns_moveFrom
    (workspace : Workspace)
    (id : ParagraphId)
    (target : Document → Nat → Option Nat) :
    Turns handled workspace (workspace.moveFrom id target).2 := by
  unfold moveFrom
  split
  · exact .refl
  · dsimp only
    split
    · exact .refl
    · exact .single (.ask ..)

namespace TakesTurns

variable {session : Session}

theorem refl (session : Session) : TakesTurns handled session session :=
  ⟨.refl, rfl⟩

theorem trans
    {before between later : Session}
    (first : TakesTurns handled before between)
    (second : TakesTurns handled between later) :
    TakesTurns handled before later :=
  ⟨first.turns.trans second.turns, second.wordCursors_eq.trans first.wordCursors_eq⟩

theorem setWorkspace
    {later : Workspace}
    (turns : Turns handled session.workspace later) :
    TakesTurns handled session { session with workspace := later } :=
  ⟨turns, rfl⟩

theorem single
    {later : Workspace}
    (turn : Turn handled session.workspace later) :
    TakesTurns handled session { session with workspace := later } :=
  setWorkspace (.single turn)

theorem sweepBut (session : Session) (inHand : List ParagraphId) :
    TakesTurns handled session (session.sweepBut inHand) :=
  single (.letGo _)

theorem keepFound
    {later : Workspace}
    (turns : Turns handled session.workspace later)
    (slot : String)
    (found : Option ParagraphId) :
    TakesTurns handled session
      (Session.keepFound { session with workspace := later } slot found).1 := by
  have kept := keepFound_eq { session with workspace := later } slot found
  constructor
  · rw [kept.1]
    exact turns
  · exact kept.2

theorem walk
    {step : Workspace → ParagraphId → Option ParagraphId × Workspace}
    (turns : ∀ workspace id, Turns handled workspace (step workspace id).2)
    (session : Session)
    (id : ParagraphId)
    (remaining : Nat) :
    TakesTurns handled session (session.walk step id remaining).1 := by
  induction remaining generalizing session id with
  | zero => exact refl session
  | succ remaining ofRest =>
      have stepTurns := turns session.workspace id
      unfold Session.walk
      dsimp only
      split
      · rename_i later isAnswer
        rw [isAnswer] at stepTurns
        exact setWorkspace stepTurns
      · rename_i next later isAnswer
        rw [isAnswer] at stepTurns
        exact ((setWorkspace stepTurns).trans (sweepBut _ [next])).trans (ofRest _ next)

end TakesTurns

theorem takesTurns_runCache (session : Session) (command : CacheCommand) :
    TakesTurns handled session (session.runCache command).1 := by
  have unchanged : TakesTurns handled session session := .refl session
  cases command with
  | cursor slot request =>
      apply withKey_induction unchanged
      exact fun key => .keepFound (.single (.ask ..)) slot _
  | get request => exact withKey_induction unchanged (fun _ => unchanged) request
  | isEmpty => exact unchanged
  | cleanup => exact .single .cleanupCache
  | clear => exact .single .clearCache
  | shrinkPool => exact .single .shrinkPool
  | config => exact unchanged
  | ownPut slot request =>
      apply withKey_induction unchanged
      exact fun key => withSlot_induction unchanged fun id _ => ⟨.refl, rfl⟩
  | ownGet request => exact withKey_induction unchanged (fun _ => unchanged) request
  | ownCleanup => exact ⟨.refl, rfl⟩
  | ownClear => exact ⟨.refl, rfl⟩

theorem takesTurns_runParagraph (session : Session) (command : ParagraphCommand) :
    TakesTurns (session.handles (.paragraph command)) session
      (session.runParagraph command).1 := by
  have unchanged : TakesTurns (session.handles (.paragraph command)) session session :=
    .refl session
  cases command with
  | drop slot => exact ⟨.refl, rfl⟩
  | describe slot =>
      apply withSlot_induction unchanged
      intro id _
      split <;> exact unchanged
  | elements slot => exact withSlot_induction unchanged fun _ _ => unchanged
  | element slot index =>
      apply withSlot_induction unchanged
      intro id _
      split <;> exact unchanged
  | next slot target =>
      apply withSlot_induction unchanged
      exact fun id _ => .keepFound (turns_moveFrom _ id _) target _
  | previous slot target =>
      apply withSlot_induction unchanged
      exact fun id _ => .keepFound (turns_moveFrom _ id _) target _
  | walk slot isBackward remaining =>
      apply withSlot_induction unchanged
      intro id _
      cases isBackward with
      | true => exact .walk (fun _ id => turns_moveFrom _ id _) session id _
      | false => exact .walk (fun _ id => turns_moveFrom _ id _) session id _
  | same left right =>
      apply withSlot_induction unchanged
      exact fun _ _ => withSlot_induction unchanged fun _ _ => unchanged
  | clear slot => exact withSlot_induction unchanged fun id held => .single (.clear id held)
  | fill slot => exact withSlot_induction unchanged fun id held => .single (.fill id held)
  | rebuild slot => exact withSlot_induction unchanged fun id _ => .single (.rebuild id)
  | discard slot => exact withSlot_induction unchanged fun id held => .single (.discard id held)

/-! ## Places of word cursors -/

/-- Where a word cursor may be after a command that led to a later workspace. -/
inductive Places (session : Session) : Workspace → WordCursor → Prop where
  | null (later : Workspace) : Places session later .null
  | start (later : Workspace) (id : ParagraphId) : Places session later (.start id)
  | stays
      (later : Workspace)
      {name : String}
      {cursor : WordCursor}
      (found : session.wordCursors.get? name = some cursor) :
      Places session later cursor
  | moves
      {name : String}
      {cursor : WordCursor}
      (found : session.wordCursors.get? name = some cursor)
      (move : Move) :
      Places session session.workspace (move.apply session.workspace cursor)
  | comesBack
      (later : Workspace)
      (cursor : WordCursor)
      (element character : Nat) :
      Places session later (cursor.moveTo later element character)

/-- A command took whole steps, and every word cursor is in such a place. -/
structure Settles
    (handled : ParagraphId → Prop)
    (before later : Session) :
    Prop where
  turns : Turns handled before.workspace later.workspace
  places :
    ∀ name cursor, later.wordCursors.get? name = some cursor →
      Places before later.workspace cursor

theorem TakesTurns.settles
    {before later : Session}
    (takes : TakesTurns handled before later) :
    Settles handled before later where
  turns := takes.turns
  places := by
    intro name cursor found
    rw [takes.wordCursors_eq] at found
    exact .stays _ found

theorem Settles.setCursor
    {session : Session}
    {later : Workspace}
    (turns : Turns handled session.workspace later)
    (name : String)
    {cursor : WordCursor}
    (isPlace : Places session later cursor) :
    Settles handled session
      { session with
        workspace := later
        wordCursors := session.wordCursors.insert name cursor } where
  turns := turns
  places := by
    intro other otherCursor found
    rw [Table.get?_insert] at found
    split at found
    · obtain rfl := Option.some.inj found
      exact isPlace
    · exact .stays _ found

/-- A cursor that found a paragraph is at its start, and otherwise where it was. -/
theorem places_found
    {session : Session}
    {name : String}
    {cursor : WordCursor}
    (found : session.wordCursors.get? name = some cursor)
    (later : Workspace)
    (answer : Option ParagraphId) :
    Places session later ((answer.map WordCursor.start).getD cursor) := by
  cases answer with
  | none => exact .stays later found
  | some id => exact .start later id

theorem settles_travel
    {session : Session}
    {name : String}
    {cursor : WordCursor}
    (found : session.wordCursors.get? name = some cursor)
    (travel : Travel) :
    Turns handled session.workspace (travel.apply session.workspace cursor).2 ∧
      Places session (travel.apply session.workspace cursor).2
        (travel.apply session.workspace cursor).1.1 := by
  let IsSettled (answer : WordCursor × Workspace) : Prop :=
    Turns handled session.workspace answer.2 ∧ Places session answer.2 answer.1
  apply travel_induction (motive := IsSettled)
  · exact ⟨.refl, .stays _ found⟩
  · exact fun id target => ⟨turns_moveFrom session.workspace id target, places_found found ..⟩
  · exact fun document language index =>
      ⟨.single (.ask document language index), places_found found ..⟩
  · exact fun id => ⟨.single (.rebuild id), .comesBack _ cursor _ _⟩

theorem settles_runWord (session : Session) (command : WordCommand) :
    Settles handled session (session.runWord command).1 := by
  have unchanged : Settles handled session session :=
    ⟨.refl, fun name cursor found => .stays _ found⟩
  cases command with
  | new name slot =>
      exact withSlot_induction unchanged fun id _ => .setCursor .refl name (.start _ id)
  | null name => exact .setCursor .refl name (.null _)
  | clone name copy =>
      exact withCursor_induction unchanged fun _ found => .setCursor .refl copy (.stays _ found)
  | setParagraph name slot =>
      apply withCursor_induction unchanged
      exact fun _ _ => withSlot_induction unchanged fun id _ =>
        .setCursor .refl name (.start _ id)
  | move name move =>
      exact withCursor_induction unchanged fun _ found =>
        .setCursor .refl name (.moves found move)
  | travel name travel =>
      apply withCursor_induction unchanged
      intro cursor found
      obtain ⟨turns, isPlace⟩ := @settles_travel handled session name cursor found travel
      exact .setCursor turns name isPlace
  | drop name =>
      refine ⟨.refl, fun other cursor found => ?_⟩
      simp only [runWord, Table.get?_erase] at found
      split at found
      · exact absurd found (by simp)
      · exact .stays _ found
  | compare left right =>
      apply withCursor_induction unchanged
      exact fun _ _ => withCursor_induction unchanged fun _ _ => unchanged
  | sort => exact unchanged
  | keep name slot =>
      apply withCursor_induction unchanged
      intro cursor _
      exact (TakesTurns.keepFound .refl slot cursor.paragraph?).settles

end

/-- What every command does to the workspace and to the word cursors. -/
theorem settles_perform (session : Session) (command : Command) :
    Settles (session.handles command) session (session.perform command).1 := by
  cases command with
  | cache command => exact (takesTurns_runCache session command).settles
  | paragraph command => exact (takesTurns_runParagraph session command).settles
  | document number command => exact (TakesTurns.single (.command number command)).settles
  | sameDocument left right => exact (TakesTurns.refl session).settles
  | markFinish mark => exact (TakesTurns.refl session).settles
  | word command => exact settles_runWord session command

/-! ## Word cursors that are not meant -/

/-- A command leaves the word cursors that it does not place. -/
theorem get?_wordCursors_perform
    {session : Session}
    {command : Command}
    {name : String}
    (notPlaced : ¬ command.places name) :
    (session.perform command).1.wordCursors.get? name = session.wordCursors.get? name := by
  have inserted :
      ∀ {other : String} (cursor : WordCursor), ¬ name = other →
        (session.wordCursors.insert other cursor).get? name = session.wordCursors.get? name := by
    intro other cursor isOther
    rw [Table.get?_insert, if_neg isOther]
  let Same (later : Session) : Prop :=
    later.wordCursors.get? name = session.wordCursors.get? name
  have unchanged : Same session := rfl
  cases command with
  | cache command =>
      have takes := @takesTurns_runCache (fun _ => False) session command
      exact congrArg (Table.get? · name) takes.wordCursors_eq
  | paragraph command =>
      exact congrArg (Table.get? · name) (takesTurns_runParagraph session command).wordCursors_eq
  | document number command => rfl
  | sameDocument left right => rfl
  | markFinish mark => rfl
  | word command =>
      cases command with
      | new other slot =>
          exact withSlot_induction (motive := Same) unchanged fun _ _ => inserted _ notPlaced
      | null other => exact inserted _ notPlaced
      | clone other copy =>
          exact withCursor_induction (motive := Same) unchanged fun _ _ => inserted _ notPlaced
      | setParagraph other slot =>
          exact withCursor_induction (motive := Same) unchanged fun _ _ =>
            withSlot_induction (motive := Same) unchanged fun _ _ => inserted _ notPlaced
      | move other move =>
          exact withCursor_induction (motive := Same) unchanged fun _ _ => inserted _ notPlaced
      | travel other travel =>
          exact withCursor_induction (motive := Same) unchanged fun _ _ => inserted _ notPlaced
      | drop other =>
          change (session.wordCursors.erase other).get? name = _
          rw [Table.get?_erase]
          exact if_neg notPlaced
      | compare left right =>
          exact withCursor_induction (motive := Same) unchanged fun _ _ =>
            withCursor_induction (motive := Same) unchanged fun _ _ => unchanged
      | sort => rfl
      | keep other slot =>
          exact withCursor_induction (motive := Same) unchanged fun cursor _ =>
            congrArg (Table.get? · name) (keepFound_eq session slot cursor.paragraph?).2

end Folio.Session
