import Mathlib.Order.Bounds.Defs
import Folio.Proofs.Session.Acts
import Folio.Proofs.Session.Effects

/-!
# Elements in circulation

The words and controls that a pool has created are in use, in paragraphs that are alive or in
slots, or they are free, or they were dropped: thrown away where they lay, refused by a full
pool, or free when the pool was shrunk.  Every act is settled by its turnover.  A new element is
created only when none is free, so until the first is dropped, as many have been created as
were ever in use at once.

The paragraphs of a workspace and the slots of a bench use one pool here.  A session is a run
without a bench.
-/

namespace Folio

/-- A workspace, and slots in which single elements from its pool lie. -/
structure Circulation where
  workspace : Workspace
  slots : Table String Element

namespace Circulation

/-- Nothing has been built, and nothing lies in a slot. -/
def start
    (rules : Language → WordBreak → TextRules)
    (config : Config)
    (documents : List Document) :
    Circulation where
  workspace := .createWith rules config documents
  slots := .empty

/-- One thing that is done with paragraphs or with single elements. -/
inductive Act where
  | inWorkspace (act : Workspace.Act)
  | atBench (command : Bench.Command)

section

variable
    (circulation : Circulation)
    (kind : Recyclable)

/-- The slots as a bench that uses the pool of the workspace. -/
def bench : Bench where
  pool := circulation.workspace.pool
  slots := circulation.slots

/-- How many elements of a kind are in use. -/
def inUse : Nat :=
  circulation.workspace.inUse kind + circulation.bench.inUse kind

/-- The account of a kind. -/
def account : Account :=
  circulation.workspace.pool.account kind

/-- What is there after an act. -/
def perform : Act → Circulation
  | .inWorkspace act => { circulation with workspace := circulation.workspace.perform act }
  | .atBench command =>
      let bench := (circulation.bench.step command).1
      { workspace := circulation.workspace.apply (.usePool bench.pool)
        slots := bench.slots }

/-- What an act does with elements. -/
def turnover : Act → Turnover
  | .inWorkspace act => circulation.workspace.turnover act
  | .atBench command => circulation.bench.turnover command

/-- What is there after a run. -/
def after (acts : List Act) : Circulation :=
  acts.foldl perform circulation

/-- How many elements of a kind are acquired in a run. -/
def acquired (circulation : Circulation) : List Act → Nat
  | [] => 0
  | act :: rest =>
      kind.count (circulation.turnover act).acquired + (circulation.perform act).acquired rest

/-- How many elements of a kind go out of circulation in a run. -/
def dropped (circulation : Circulation) : List Act → Nat
  | [] => 0
  | act :: rest =>
      (circulation.turnover act).dropped kind circulation.workspace.pool +
        (circulation.perform act).dropped rest

end

/--
A number of elements that are in use at some time in a run.  In the course of an act, elements
are given back one after the other, and then others are acquired one after the other.
-/
inductive Passes (kind : Recyclable) : Circulation → List Act → Nat → Prop where
  | now (circulation : Circulation) (acts : List Act) :
      Passes kind circulation acts (circulation.inUse kind)
  | giving
      {circulation : Circulation}
      {act : Act}
      {gone : List Element}
      {number : Nat}
      (isGone : gone <+: (circulation.turnover act).released)
      (isLeft : number + kind.count gone = circulation.inUse kind)
      (rest : List Act) :
      Passes kind circulation (act :: rest) number
  | taking
      {circulation : Circulation}
      {act : Act}
      {come : List Element}
      {number : Nat}
      (isCome : come <+: (circulation.turnover act).acquired)
      (isLeft :
        number + kind.count (circulation.turnover act).released =
          circulation.inUse kind + kind.count come)
      (rest : List Act) :
      Passes kind circulation (act :: rest) number
  | later
      {circulation : Circulation}
      {act : Act}
      {rest : List Act}
      {number : Nat}
      (passes : Passes kind (circulation.perform act) rest number) :
      Passes kind circulation (act :: rest) number

section

variable
    {circulation : Circulation}
    {kind : Recyclable}

/-! ## One act -/

/-- An act is made up of operations on the workspace. -/
theorem exists_operations_perform (circulation : Circulation) (act : Act) :
    ∃ operations,
      (circulation.perform act).workspace = circulation.workspace.after operations := by
  cases act with
  | inWorkspace act => exact (circulation.workspace.turn_perform act).exists_after
  | atBench command => exact ⟨[.usePool _], rfl⟩

theorem remembersKeys_perform
    (remembers : circulation.workspace.RemembersKeys)
    (act : Act) :
    (circulation.perform act).workspace.RemembersKeys := by
  obtain ⟨operations, isAfter⟩ := circulation.exists_operations_perform act
  rw [isAfter]
  exact remembers.after operations

theorem settles_perform
    (remembers : circulation.workspace.RemembersKeys)
    (act : Act) :
    (circulation.turnover act).Settles kind circulation.workspace.pool
      (circulation.perform act).workspace.pool (circulation.inUse kind)
      ((circulation.perform act).inUse kind) := by
  cases act with
  | inWorkspace act =>
      have settles := @Workspace.settles_perform _ kind remembers act
      exact settles.add (circulation.bench.inUse kind)
  | atBench command =>
      have settles := @Bench.settles_step circulation.bench kind command
      have withWorkspace := settles.add (circulation.workspace.inUse kind)
      rw [Nat.add_comm, Nat.add_comm (Bench.inUse _ _)] at withWorkspace
      exact withWorkspace

/-- What was acquired and what was dropped so far fits the account. -/
structure Balanced
    (kind : Recyclable)
    (limit : Nat)
    (circulation : Circulation)
    (acquired dropped : Nat) :
    Prop where
  remembers : circulation.workspace.RemembersKeys
  maxFree : circulation.workspace.pool.maxFree = limit
  free_le : (circulation.account kind).free ≤ limit
  handedOut :
    (circulation.account kind).allocated + (circulation.account kind).reused = acquired
  allocated_eq :
    (circulation.account kind).allocated =
      circulation.inUse kind + (circulation.account kind).free + dropped

theorem balanced_start
    (rules : Language → WordBreak → TextRules)
    (config : Config)
    (documents : List Document)
    (kind : Recyclable) :
    Balanced kind config.maxPooled (start rules config documents) 0 0 := by
  constructor
  · exact Workspace.remembersKeys_createWith rules config documents
  · rfl
  · cases kind <;> exact Nat.zero_le _
  · cases kind <;> rfl
  · cases kind <;> rfl

section

variable
    {limit acquired dropped : Nat}
    (balanced : Balanced kind limit circulation acquired dropped)

include balanced

theorem Balanced.settles
    (act : Act) :
    (circulation.turnover act).Settles kind circulation.workspace.pool
      (circulation.perform act).workspace.pool (circulation.inUse kind)
      ((circulation.perform act).inUse kind) :=
  settles_perform balanced.remembers act

theorem Balanced.perform (act : Act) :
    Balanced kind limit (circulation.perform act)
      (acquired + kind.count (circulation.turnover act).acquired)
      (dropped + (circulation.turnover act).dropped kind circulation.workspace.pool) where
  remembers := remembersKeys_perform balanced.remembers act
  maxFree := (balanced.settles act).maxFree.trans balanced.maxFree
  free_le := by
    have within := (balanced.settles act).free_le (balanced.maxFree ▸ balanced.free_le)
    rwa [(balanced.settles act).maxFree, balanced.maxFree] at within
  handedOut := by
    rw [← balanced.handedOut]
    exact (balanced.settles act).handedOut
  allocated_eq := by
    have before := balanced.allocated_eq
    have conserved := (balanced.settles act).conserved
    rw [account] at before ⊢
    omega

end

/-! ## All acts -/

theorem Balanced.after
    {limit acquired dropped : Nat}
    (balanced : Balanced kind limit circulation acquired dropped)
    (acts : List Act) :
    Balanced kind limit (circulation.after acts) (acquired + circulation.acquired kind acts)
      (dropped + circulation.dropped kind acts) := by
  induction acts generalizing circulation acquired dropped with
  | nil => exact balanced
  | cons act rest ofRest =>
      have performed := ofRest (balanced.perform act)
      rwa [Nat.add_assoc, Nat.add_assoc] at performed

section

variable
    {limit acquired dropped : Nat}
    (balanced : Balanced kind limit circulation acquired dropped)

include balanced

/-- What was created stays created. -/
theorem Balanced.allocated_le_perform (act : Act) :
    (circulation.account kind).allocated ≤ ((circulation.perform act).account kind).allocated :=
  (balanced.settles act).allocated_le

theorem Balanced.allocated_le_after (acts : List Act) :
    (circulation.account kind).allocated ≤ ((circulation.after acts).account kind).allocated := by
  induction acts generalizing circulation acquired dropped with
  | nil => exact Nat.le_refl _
  | cons act rest ofRest =>
      exact Nat.le_trans (balanced.allocated_le_perform act) (ofRest (balanced.perform act))

theorem Balanced.inUse_le : circulation.inUse kind ≤ (circulation.account kind).allocated := by
  rw [balanced.allocated_eq]
  omega

end

/-- As long as nothing is dropped, no more are ever in use than have been created. -/
theorem Passes.le_allocated
    {limit acquired dropped number : Nat}
    {acts : List Act}
    (passes : Passes kind circulation acts number)
    (balanced : Balanced kind limit circulation acquired dropped)
    (isKept : circulation.dropped kind acts = 0) :
    number ≤ ((circulation.after acts).account kind).allocated := by
  induction passes generalizing acquired dropped with
  | now circulation acts =>
      exact Nat.le_trans balanced.inUse_le (balanced.allocated_le_after acts)
  | @giving circulation act gone number isGone isLeft rest =>
      have atFirst : number ≤ circulation.inUse kind := by omega
      have inUse_le := Nat.le_trans balanced.inUse_le (balanced.allocated_le_after (act :: rest))
      exact Nat.le_trans atFirst inUse_le
  | @taking circulation act come number isCome isLeft rest =>
      have noneLost : kind.count (circulation.turnover act).lost = 0 := by
        rw [Circulation.dropped, Turnover.dropped] at isKept
        omega
      have settled := (balanced.settles act).inUse
      have notAll : kind.count come ≤ kind.count (circulation.turnover act).acquired :=
        isCome.sublist.countP_le
      have atLast : number ≤ (circulation.perform act).inUse kind := by omega
      have performed := balanced.perform act
      exact Nat.le_trans atLast
        (Nat.le_trans performed.inUse_le (performed.allocated_le_after rest))
  | later _ ofRest =>
      exact ofRest (balanced.perform _) (Nat.eq_zero_of_add_eq_zero isKept).2

/-- As long as nothing is dropped, whatever is created adds to the highest number in use. -/
theorem Balanced.passes_allocated
    {limit acquired : Nat}
    (balanced : Balanced kind limit circulation acquired 0)
    {acts : List Act}
    (isKept : circulation.dropped kind acts = 0) :
    ((circulation.after acts).account kind).allocated = (circulation.account kind).allocated ∨
      Passes kind circulation acts ((circulation.after acts).account kind).allocated := by
  induction acts generalizing circulation acquired with
  | nil => exact Or.inl rfl
  | cons act rest ofRest =>
      rcases Nat.eq_zero_of_add_eq_zero isKept with ⟨keepsNow, keepsRest⟩
      have performed := balanced.perform act
      rw [keepsNow, Nat.add_zero] at performed
      rcases ofRest performed keepsRest with same | passes
      · rcases (balanced.settles act).allocated_or_free with noneNew | noneFree
        · exact Or.inl (same.trans noneNew)
        · have isPeak :
              ((circulation.perform act).account kind).allocated =
                (circulation.perform act).inUse kind :=
            performed.allocated_eq.trans (congrArg (_ + · + 0) noneFree)
          refine Or.inr (.later ?_)
          change Passes kind (circulation.perform act) rest
            (((circulation.perform act).after rest).account kind).allocated
          rw [same, isPeak]
          exact .now _ rest
      · exact Or.inr (.later passes)

end

/--
In every run, as many were created or reused as were acquired, no more are free than may be,
and what is in use or free was created.  If nothing was dropped, nothing else was created, and
as many as were ever in use at once.
-/
theorem created_elements_are_accounted_for
    (rules : Language → WordBreak → TextRules)
    (config : Config)
    (documents : List Document)
    (acts : List Act)
    (kind : Recyclable) :
    let before := start rules config documents
    let later := before.after acts
    (later.account kind).allocated + (later.account kind).reused = before.acquired kind acts ∧
      (later.account kind).free ≤ config.maxPooled ∧
      later.inUse kind + (later.account kind).free ≤ (later.account kind).allocated ∧
      (before.dropped kind acts = 0 →
        later.inUse kind + (later.account kind).free = (later.account kind).allocated ∧
          IsGreatest {number | before.Passes kind acts number}
            (later.account kind).allocated) := by
  intro before later
  have balanced : Balanced kind config.maxPooled before 0 0 :=
    balanced_start rules config documents kind
  have balancedAfter := balanced.after acts
  rw [Nat.zero_add, Nat.zero_add] at balancedAfter
  have allocated_eq := balancedAfter.allocated_eq
  refine ⟨balancedAfter.handedOut, balancedAfter.free_le, ?_, fun isKept => ⟨?_, ?_, ?_⟩⟩
  · exact allocated_eq ▸ Nat.le_add_right ..
  · rw [isKept, Nat.add_zero] at allocated_eq
    exact allocated_eq.symm
  · rcases balanced.passes_allocated isKept with same | passes
    · have noneCreated : (later.account kind).allocated = before.inUse kind := by
        cases kind <;> exact same
      change before.Passes kind acts _
      rw [noneCreated]
      exact .now before acts
    · exact passes
  · intro number passes
    exact passes.le_allocated balanced isKept

/-- A word that is let go is reused, and another one is given back at the end. -/
theorem created_elements_are_accounted_for_of_reuse :
    let before :=
      start (fun _ option => .standard option) ⟨.normal, 1⟩ [.plain [⟨.text, [.text "a"]⟩]]
    let acts : List Act :=
      [.inWorkspace (.ask 0 .undetermined 0),
        .atBench (.word "held" "b" 0 1 0 0),
        .inWorkspace (.letGo fun _ => false),
        .inWorkspace (.ask 0 .undetermined 0),
        .atBench (.release "held")]
    before.dropped .word acts = 0 ∧
      before.acquired .word acts = 3 ∧
      (before.after acts).account .word = ⟨2, 1, 1⟩ ∧
      IsGreatest {number | before.Passes .word acts number} 2 := by
  intro before acts
  have isKept : before.dropped .word acts = 0 := by decide +kernel
  have account : (before.after acts).account .word = ⟨2, 1, 1⟩ := by decide +kernel
  have balance :=
    created_elements_are_accounted_for (fun _ option => .standard option) ⟨.normal, 1⟩
      [.plain [⟨.text, [.text "a"]⟩]] acts .word
  have isPeak := (balance.2.2.2 isKept).2
  have handedOut := balance.1
  rw [account] at isPeak handedOut
  exact ⟨isKept, handedOut.symm, account, isPeak⟩

/-! ## Sessions -/

theorem after_append (circulation : Circulation) (first others : List Act) :
    circulation.after (first ++ others) = (circulation.after first).after others :=
  List.foldl_append

theorem exists_after_of_turns
    {handled : ParagraphId → Prop}
    {before later : Workspace}
    (turns : Workspace.Turns handled before later)
    (slots : Table String Element) :
    ∃ acts, mk later slots = (mk before slots).after acts := by
  induction turns with
  | refl => exact ⟨[], rfl⟩
  | tail _ turn ofBefore =>
      rcases ofBefore with ⟨acts, isAfter⟩
      rcases turn.exists_perform with ⟨act, rfl⟩
      refine ⟨acts ++ [.inWorkspace act], ?_⟩
      rw [after_append, ← isAfter]
      rfl

/-- Whatever is done in a session is such a run, in which nothing is done at the bench. -/
theorem exists_after_of_session
    (session : Session)
    (commands : List Session.Command)
    (slots : Table String Element) :
    ∃ acts,
      mk (session.after commands).workspace slots = (mk session.workspace slots).after acts := by
  induction commands generalizing session with
  | nil => exact ⟨[], rfl⟩
  | cons command rest ofRest =>
      have performs := (Session.settles_perform session command).turns
      have sweeps :
          Session.TakesTurns (session.handles command) (session.perform command).1
            (session.step command).1 :=
        .sweepBut _ []
      rcases exists_after_of_turns (performs.trans sweeps.turns) slots with ⟨first, isFirst⟩
      rcases ofRest (session.step command).1 with ⟨others, isAfter⟩
      refine ⟨first ++ others, ?_⟩
      rw [after_append, ← isFirst]
      exact isAfter

end Circulation

end Folio
