import Folio.Proofs.Element.Accounts
import Folio.Proofs.Table

/-!
# Turnovers

Whoever uses a pool gives elements back and acquires others.  What an act gives back, loses and
acquires, and whether it shrinks the pool, is its turnover: it settles what becomes of the
accounts and of the number of elements in use.  At a bench, the elements in use are those that
lie in slots.
-/

namespace Folio

/-- What an act does with elements. -/
structure Turnover where
  /-- What goes out of use and is given back to the pool, in this order. -/
  released : List Element := []
  /-- What goes out of use without being given back. -/
  lost : List Element := []
  /-- Whether what is free is dropped. -/
  isShrunk : Bool := false
  /-- What comes into use, acquired from the pool after that. -/
  acquired : List Element := []

namespace Turnover

section

variable
    (turnover : Turnover)
    (kind : Recyclable)
    (pool : Pool)

/-- The pool before anything is given back. -/
def opening : Pool :=
  if turnover.isShrunk then pool.shrink else pool

/-- The account after everything is given back and everything is acquired. -/
def settled : Account :=
  (((turnover.opening pool).releaseAll turnover.released).account kind).take
    (kind.count turnover.acquired)

/-- How many elements of a kind go out of circulation. -/
def dropped : Nat :=
  kind.count turnover.lost +
    (if turnover.isShrunk then (pool.account kind).free else 0) +
    (turnover.opening pool).refused kind turnover.released

/-- A pool, and the number of elements in use, change as the turnover says. -/
structure Settles
    (later : Pool)
    (inUse laterInUse : Nat) :
    Prop where
  inUse :
    laterInUse + kind.count turnover.released + kind.count turnover.lost =
      inUse + kind.count turnover.acquired
  account : later.account kind = turnover.settled kind pool
  maxFree : later.maxFree = pool.maxFree

end

section

variable
    {kind : Recyclable}
    {pool : Pool}

/-- Nothing is done with elements. -/
theorem settles_refl (inUse : Nat) : Settles {} kind pool pool inUse inUse where
  inUse := rfl
  account := (Account.take_zero _).symm
  maxFree := rfl

theorem settles_releaseAll
    {released : List Element}
    {inUse laterInUse : Nat}
    (goOut : laterInUse + kind.count released = inUse) :
    Settles { released } kind pool (pool.releaseAll released) inUse laterInUse where
  inUse := goOut
  account := (Account.take_zero _).symm
  maxFree := pool.maxFree_releaseAll released

theorem settles_lost
    {lost : List Element}
    {inUse laterInUse : Nat}
    (goOut : laterInUse + kind.count lost = inUse) :
    Settles { lost } kind pool pool inUse laterInUse where
  inUse := goOut
  account := (Account.take_zero _).symm
  maxFree := rfl

theorem settles_shrink (inUse : Nat) :
    Settles { isShrunk := true } kind pool pool.shrink inUse inUse where
  inUse := rfl
  account := (Account.take_zero _).symm
  maxFree := rfl

theorem settles_acquired
    {acquired : List Element}
    {later : Pool}
    {inUse laterInUse : Nat}
    (comeIn : laterInUse = inUse + kind.count acquired)
    (account : later.account kind = (pool.account kind).take (kind.count acquired))
    (maxFree : later.maxFree = pool.maxFree) :
    Settles { acquired } kind pool later inUse laterInUse where
  inUse := comeIn
  account := account
  maxFree := maxFree

/-- First some are given back, then others are acquired. -/
theorem Settles.trans
    {released acquired : List Element}
    {between later : Pool}
    {inUse betweenInUse laterInUse : Nat}
    (first : Settles { released } kind pool between inUse betweenInUse)
    (second : Settles { acquired } kind between later betweenInUse laterInUse) :
    Settles { released, acquired } kind pool later inUse laterInUse where
  inUse := by
    have goOut : betweenInUse + kind.count released = inUse := first.inUse
    have comeIn : laterInUse = betweenInUse + kind.count acquired := second.inUse
    change laterInUse + kind.count released = inUse + kind.count acquired
    rw [comeIn, ← goOut, Nat.add_right_comm]
  account := by
    have given : between.account kind = (pool.releaseAll released).account kind :=
      first.account.trans (Account.take_zero _)
    have taken : later.account kind = (between.account kind).take (kind.count acquired) :=
      second.account
    rw [taken, given]
    rfl
  maxFree := second.maxFree.trans first.maxFree

/-- What is in use elsewhere stays in use. -/
theorem Settles.add
    {turnover : Turnover}
    {later : Pool}
    {inUse laterInUse : Nat}
    (settles : turnover.Settles kind pool later inUse laterInUse)
    (elsewhere : Nat) :
    turnover.Settles kind pool later (inUse + elsewhere) (laterInUse + elsewhere) where
  inUse := by
    have balance := settles.inUse
    omega
  account := settles.account
  maxFree := settles.maxFree

/-! ### What a turnover keeps -/

section

variable
    {turnover : Turnover}
    {later : Pool}
    {inUse laterInUse : Nat}
    (settles : turnover.Settles kind pool later inUse laterInUse)

omit settles in
theorem account_opening (turnover : Turnover) (pool : Pool) (kind : Recyclable) :
    (turnover.opening pool).account kind =
      { pool.account kind with
        free := if turnover.isShrunk then 0 else (pool.account kind).free } := by
  rw [opening]
  split
  · exact pool.account_shrink kind
  · rfl

omit settles in
theorem maxFree_opening (turnover : Turnover) (pool : Pool) :
    (turnover.opening pool).maxFree = pool.maxFree := by
  rw [opening]
  split <;> rfl

/-- What is given back changes neither what was created nor what was reused. -/
theorem account_releaseAll_opening :
    ((turnover.opening pool).releaseAll turnover.released).account kind =
      { pool.account kind with
        free :=
          (((turnover.opening pool).releaseAll turnover.released).account kind).free } := by
  rw [Pool.account_releaseAll, account_opening]
  rfl

include settles

theorem Settles.handedOut :
    (later.account kind).allocated + (later.account kind).reused =
      (pool.account kind).allocated + (pool.account kind).reused +
        kind.count turnover.acquired := by
  rw [settles.account, settled, account_releaseAll_opening]
  exact Account.allocated_add_reused_take ..

/-- What was created is in use, or free, or was dropped. -/
theorem Settles.conserved :
    (later.account kind).allocated + (inUse + (pool.account kind).free) =
      (pool.account kind).allocated +
        (laterInUse + (later.account kind).free + turnover.dropped kind pool) := by
  have used := settles.inUse
  have given :=
    (turnover.opening pool).free_releaseAll_add_refused turnover.released kind
  have taken :=
    Account.allocated_add_free_take
      (((turnover.opening pool).releaseAll turnover.released).account kind)
      (kind.count turnover.acquired)
  rw [← settled, ← settles.account, account_releaseAll_opening] at taken
  rw [account_opening] at given
  dsimp only at given taken
  rw [dropped]
  cases isShrunk : turnover.isShrunk <;>
    simp only [isShrunk, Bool.false_eq_true, if_true, if_false] at given ⊢ <;>
    omega

theorem Settles.free_le
    (within : (pool.account kind).free ≤ pool.maxFree) :
    (later.account kind).free ≤ later.maxFree := by
  rw [settles.account, settles.maxFree, settled]
  apply Nat.le_trans (Account.free_take_le ..)
  rw [Pool.account_releaseAll, maxFree_opening]
  apply Account.free_give_le
  rw [account_opening]
  dsimp only
  split
  · exact Nat.zero_le _
  · exact within

theorem Settles.allocated_le :
    (pool.account kind).allocated ≤ (later.account kind).allocated := by
  rw [settles.account, settled, account_releaseAll_opening]
  exact Nat.le_add_right ..

/-- Something is created only when nothing stays free. -/
theorem Settles.allocated_or_free :
    (later.account kind).allocated = (pool.account kind).allocated ∨
      (later.account kind).free = 0 := by
  rw [settles.account, settled, account_releaseAll_opening]
  exact Account.allocated_take_or_free_take ..

end

end

end Turnover

/-! ## At a bench -/

namespace Bench

/-- How many elements of a kind lie in slots. -/
def inUse (bench : Bench) (kind : Recyclable) : Nat :=
  bench.slots.total fun element => kind.count [element]

/-- Something new comes to lie in a slot, and what lay there is lost. -/
def laying (bench : Bench) (slot : String) : Reply → Turnover
  | .element element =>
      { lost := (bench.slots.get? slot).toList
        acquired := [element] }
  | _ => {}

/-- What a command does with elements. -/
def turnover (bench : Bench) (command : Command) : Turnover :=
  let reply := (bench.step command).2
  match command with
  | .word slot _ _ _ _ _ => bench.laying slot reply
  | .control slot _ _ => bench.laying slot reply
  | .link slot _ _ => bench.laying slot reply
  | .marker slot _ => bench.laying slot reply
  | .addMark _ _ _ => {}
  | .inspect _ => {}
  | .release slot => { released := (bench.slots.get? slot).toList }
  | .shrink => { isShrunk := true }

variable
    (bench : Bench)
    (kind : Recyclable)

/-- What is in use lies in a slot or in the others. -/
theorem inUse_eq (slot : String) :
    bench.inUse kind =
      kind.count (bench.slots.get? slot).toList +
        (bench.slots.erase slot).total fun element => kind.count [element] := by
  cases found : bench.slots.get? slot with
  | none => exact ((Nat.zero_add _).trans (Table.total_eq_of_get?_eq_none _ found)).symm
  | some element => exact Table.total_eq_of_get?_eq_some _ found

theorem inUse_lay (slot : String) (element : Element) (pool : Pool) :
    (bench.lay slot element pool).inUse kind + kind.count (bench.slots.get? slot).toList =
      bench.inUse kind + kind.count [element] := by
  have laid : (bench.lay slot element pool).inUse kind = _ :=
    Table.total_insert (fun element => kind.count [element]) bench.slots slot element
  rw [laid, bench.inUse_eq kind slot]
  omega

variable {bench kind}

/-- What is laid down is acquired from the pool. -/
theorem settles_lay (slot : String) (drawn : Element) :
    (bench.laying slot (.element (bench.pool.supply drawn).1)).Settles kind bench.pool
      (bench.pool.supply drawn).2 (bench.inUse kind)
      ((bench.lay slot (bench.pool.supply drawn).1 (bench.pool.supply drawn).2).inUse
        kind) where
  inUse := bench.inUse_lay kind slot _ _
  account := by
    have sameCount : kind.count [(bench.pool.supply drawn).1] = kind.count [drawn] := by
      rw [Pool.fst_supply]
      exact kind.count_map kind.covers_unmarked [drawn]
    rw [Pool.account_supply, ← sameCount]
    rfl
  maxFree := bench.pool.maxFree_supply drawn

/-- A marked word is a word as before. -/
theorem inUse_addMarkAnywhere
    {slot : String}
    {word : Word}
    (found : (bench.slots.get? slot).bind Element.word? = some word)
    (offset length : Nat) :
    (bench.lay slot (.word (word.addMarkAnywhere offset length)) bench.pool).inUse kind =
      bench.inUse kind := by
  have laid := bench.inUse_lay kind slot (.word (word.addMarkAnywhere offset length)) bench.pool
  rcases Option.bind_eq_some_iff.1 found with ⟨element, lies, isWord⟩
  cases element <;> simp [Element.word?] at isWord
  rw [lies] at laid
  cases kind <;> exact Nat.add_right_cancel laid

/-- What a command does with elements is what it changes of the pool and of what is in use. -/
theorem settles_step (command : Command) :
    (bench.turnover command).Settles kind bench.pool (bench.step command).1.pool
      (bench.inUse kind) ((bench.step command).1.inUse kind) := by
  cases command with
  | word slot text first last offset level =>
      simp only [turnover, step]
      split
      · exact Turnover.settles_refl _
      · rename_i letters _
        exact settles_lay slot (.word ⟨String.ofList letters, offset, level, []⟩)
  | control slot textKind isStart =>
      exact settles_lay slot (.control ⟨textKind, isStart, none⟩)
  | link slot textKind target =>
      exact settles_lay slot (.control ⟨textKind, true, some target⟩)
  | marker slot marker => exact settles_lay slot (.marker marker)
  | addMark slot offset length =>
      simp only [turnover, step]
      split
      · rename_i word found
        rw [inUse_addMarkAnywhere found]
        exact Turnover.settles_refl _
      · exact Turnover.settles_refl _
  | inspect slot =>
      simp only [turnover, step]
      split <;> exact Turnover.settles_refl _
  | release slot =>
      have parted := bench.inUse_eq kind slot
      simp only [turnover, step]
      cases found : bench.slots.get? slot with
      | none => exact Turnover.settles_refl _
      | some element =>
          rw [found] at parted
          exact Turnover.settles_releaseAll ((Nat.add_comm ..).trans parted.symm)
  | shrink => exact Turnover.settles_shrink _

end Bench

end Folio
