import Folio.Element.Bench
import Folio.Proofs.Composition.Filling

/-!
# Accounts of a pool

A pool treats words and controls alike, and keeps an account of each kind: how many it has
created, how many it has handed out again, and how many are free.  Elements that are acquired
or given back enter the account by their number alone.  What it comes to does not depend on
whether they come one by one or together.
-/

namespace Folio

/-- The kinds of elements that a pool takes back. -/
inductive Recyclable where
  | word
  | control
  deriving DecidableEq, Repr

namespace Recyclable

/-- Whether an element is of the kind. -/
def covers : Recyclable → Element → Bool
  | .word, element => element.word?.isSome
  | .control, element => element.control?.isSome

/-- How many elements are of the kind. -/
def count (kind : Recyclable) (elements : List Element) : Nat :=
  elements.countP kind.covers

variable (kind : Recyclable)

@[simp]
theorem count_append (left right : List Element) :
    kind.count (left ++ right) = kind.count left + kind.count right :=
  List.countP_append

theorem count_cons (element : Element) (rest : List Element) :
    kind.count (element :: rest) = kind.count [element] + kind.count rest :=
  kind.count_append [element] rest

/-- Elements that are changed within their kinds are as many of each. -/
theorem count_map
    {change : Element → Element}
    (keepsKind : ∀ element, kind.covers (change element) = kind.covers element)
    (elements : List Element) :
    kind.count (elements.map change) = kind.count elements := by
  rw [count, List.countP_map]
  apply List.countP_congr
  intro element _
  rw [Function.comp_apply, keepsKind]

theorem covers_unmarked (element : Element) :
    kind.covers element.unmarked = kind.covers element := by
  cases kind <;> cases element <;> rfl

theorem covers_overlay (marks : Marks) (element : Element) :
    kind.covers (Composition.overlay marks element) = kind.covers element := by
  cases kind <;> cases element <;> rfl

end Recyclable

/-- What a pool has created and reused of a kind, and how much of it is free. -/
structure Account where
  allocated : Nat
  reused : Nat
  free : Nat
  deriving DecidableEq, Repr

namespace Account

/-- Some are acquired: what is free is reused, and the others are created. -/
def take (account : Account) (number : Nat) : Account where
  allocated := account.allocated + (number - account.free)
  reused := account.reused + min number account.free
  free := account.free - number

/-- Some are given back: as many as there is room for become free. -/
def give (limit : Nat) (account : Account) (number : Nat) : Account :=
  { account with free := account.free + min number (limit - account.free) }

/-- All that is free is dropped. -/
def shrink (account : Account) : Account :=
  { account with free := 0 }

@[simp]
theorem take_zero (account : Account) : account.take 0 = account := by
  simp [take]

theorem take_take (account : Account) (first second : Nat) :
    (account.take first).take second = account.take (first + second) := by
  simp only [take, mk.injEq]
  omega

@[simp]
theorem give_zero (limit : Nat) (account : Account) : account.give limit 0 = account := by
  simp [give]

theorem give_give (limit : Nat) (account : Account) (first second : Nat) :
    (account.give limit first).give limit second = account.give limit (first + second) := by
  simp only [give, mk.injEq, true_and]
  omega

theorem free_take_le (account : Account) (number : Nat) :
    (account.take number).free ≤ account.free :=
  Nat.sub_le ..

/-- Giving back keeps within the limit. -/
theorem free_give_le
    {limit : Nat}
    {account : Account}
    (within : account.free ≤ limit)
    (number : Nat) :
    (account.give limit number).free ≤ limit := by
  simp only [give]
  omega

theorem allocated_add_reused_take (account : Account) (number : Nat) :
    (account.take number).allocated + (account.take number).reused =
      account.allocated + account.reused + number := by
  simp only [take]
  omega

/-- Whatever is acquired is either newly created or no longer free. -/
theorem allocated_add_free_take (account : Account) (number : Nat) :
    (account.take number).allocated + account.free =
      account.allocated + (account.take number).free + number := by
  simp only [take]
  omega

/-- As long as something is free, nothing is created. -/
theorem allocated_take_or_free_take (account : Account) (number : Nat) :
    (account.take number).allocated = account.allocated ∨ (account.take number).free = 0 := by
  simp only [take]
  omega

end Account

namespace Pool

/-- The account of a kind, as the counters show it. -/
def account (pool : Pool) : Recyclable → Account
  | .word =>
      { allocated := pool.counters.wordsAllocated
        reused := pool.counters.wordsReused
        free := pool.counters.freeWords }
  | .control =>
      { allocated := pool.counters.controlsAllocated
        reused := pool.counters.controlsReused
        free := pool.counters.freeControls }

/-! ## Acquiring -/

theorem maxFree_supply (pool : Pool) (element : Element) :
    (pool.supply element).2.maxFree = pool.maxFree := by
  cases element with
  | word word =>
      simp only [supply, acquireWord]
      split <;> rfl
  | control control =>
      simp only [supply, acquireControl]
      split <;> rfl
  | _ => rfl

/-- Acquiring an element takes it from the account of its kind, and nothing from the other. -/
theorem account_supply (pool : Pool) (element : Element) (kind : Recyclable) :
    (pool.supply element).2.account kind = (pool.account kind).take (kind.count [element]) := by
  cases element with
  | word word =>
      simp only [supply, acquireWord]
      cases kind <;> cases isFree : pool.freeWords <;>
        simp [account, counters, Recyclable.count, Recyclable.covers, Element.word?,
          Element.control?, Account.take, isFree]
  | control control =>
      simp only [supply, acquireControl]
      cases kind <;> cases isFree : pool.freeControls <;>
        simp [account, counters, Recyclable.count, Recyclable.covers, Element.word?,
          Element.control?, Account.take, isFree]
  | _ => cases kind <;> exact (Account.take_zero _).symm

theorem maxFree_supplyAll (pool : Pool) (elements : List Element) :
    (pool.supplyAll elements).2.maxFree = pool.maxFree := by
  induction elements generalizing pool with
  | nil => rfl
  | cons element rest ofRest =>
      exact (ofRest (pool.supply element).2).trans (pool.maxFree_supply element)

theorem account_supplyAll (pool : Pool) (elements : List Element) (kind : Recyclable) :
    (pool.supplyAll elements).2.account kind =
      (pool.account kind).take (kind.count elements) := by
  induction elements generalizing pool with
  | nil => exact (Account.take_zero _).symm
  | cons element rest ofRest =>
      calc
        (pool.supplyAll (element :: rest)).2.account kind
          = ((pool.supply element).2.account kind).take (kind.count rest) := ofRest _
        _ = ((pool.account kind).take (kind.count [element])).take (kind.count rest) := by
            rw [account_supply]
        _ = (pool.account kind).take (kind.count (element :: rest)) := by
            rw [Account.take_take, ← kind.count_cons]

/-! ## Giving back -/

theorem maxFree_release (pool : Pool) (element : Element) :
    (pool.release element).maxFree = pool.maxFree := by
  cases element with
  | word word =>
      simp only [release]
      split <;> rfl
  | control control =>
      simp only [release]
      split <;> rfl
  | _ => rfl

/-- What is given back is free if there is room for it. -/
theorem account_release (pool : Pool) (element : Element) (kind : Recyclable) :
    (pool.release element).account kind =
      (pool.account kind).give pool.maxFree (kind.count [element]) := by
  cases element with
  | word word =>
      cases kind <;> by_cases hasRoom : pool.freeWords.length < pool.maxFree <;>
        simp [release, account, counters, Recyclable.count, Recyclable.covers, Element.word?,
          Element.control?, Account.give, hasRoom] <;>
        omega
  | control control =>
      cases kind <;> by_cases hasRoom : pool.freeControls.length < pool.maxFree <;>
        simp [release, account, counters, Recyclable.count, Recyclable.covers, Element.word?,
          Element.control?, Account.give, hasRoom] <;>
        omega
  | _ => cases kind <;> exact (Account.give_zero _ _).symm

theorem maxFree_releaseAll (pool : Pool) (elements : List Element) :
    (pool.releaseAll elements).maxFree = pool.maxFree := by
  induction elements generalizing pool with
  | nil => rfl
  | cons element rest ofRest =>
      exact (ofRest (pool.release element)).trans (pool.maxFree_release element)

theorem account_releaseAll (pool : Pool) (elements : List Element) (kind : Recyclable) :
    (pool.releaseAll elements).account kind =
      (pool.account kind).give pool.maxFree (kind.count elements) := by
  induction elements generalizing pool with
  | nil => exact (Account.give_zero _ _).symm
  | cons element rest ofRest =>
      calc
        (pool.releaseAll (element :: rest)).account kind
          = ((pool.release element).account kind).give (pool.release element).maxFree
              (kind.count rest) := ofRest _
        _ = ((pool.account kind).give pool.maxFree (kind.count [element])).give pool.maxFree
              (kind.count rest) := by
            rw [account_release, maxFree_release]
        _ = (pool.account kind).give pool.maxFree (kind.count (element :: rest)) := by
            rw [Account.give_give, ← kind.count_cons]

/-- Whether an element of the kind is dropped when it is given back, for want of room. -/
def refuses (pool : Pool) (kind : Recyclable) (element : Element) : Bool :=
  kind.covers element && pool.maxFree ≤ (pool.account kind).free

/-- Of the elements that are given back in their order, how many are dropped. -/
def refused (pool : Pool) (kind : Recyclable) : List Element → Nat
  | [] => 0
  | element :: rest =>
      (pool.refuses kind element).toNat + (pool.release element).refused kind rest

theorem free_release_add_refuses (pool : Pool) (element : Element) (kind : Recyclable) :
    ((pool.release element).account kind).free + (pool.refuses kind element).toNat =
      (pool.account kind).free + kind.count [element] := by
  rw [account_release, Account.give, refuses, Recyclable.count, List.countP_singleton]
  by_cases isMeant : kind.covers element
  · by_cases hasRoom : (pool.account kind).free < pool.maxFree
    · simp [isMeant, Nat.not_le_of_lt hasRoom]
      omega
    · simp [isMeant, Nat.le_of_not_lt hasRoom]
  · simp [isMeant]

/-- What is given back is free afterwards, or was dropped for want of room. -/
theorem free_releaseAll_add_refused
    (pool : Pool)
    (elements : List Element)
    (kind : Recyclable) :
    ((pool.releaseAll elements).account kind).free + pool.refused kind elements =
      (pool.account kind).free + kind.count elements := by
  induction elements generalizing pool with
  | nil => rfl
  | cons element rest ofRest =>
      have first := pool.free_release_add_refuses element kind
      have others := ofRest (pool.release element)
      rw [kind.count_cons, releaseAll, List.foldl_cons, refused]
      rw [releaseAll] at others
      omega

theorem account_shrink (pool : Pool) (kind : Recyclable) :
    pool.shrink.account kind = (pool.account kind).shrink := by
  cases kind <;> rfl

end Pool

namespace Composition

/-- A fill takes from the account what it builds. -/
theorem account_fill
    (rules : TextRules)
    (document : Document)
    (language : Language)
    (index : Nat)
    (pool : Pool)
    (kind : Recyclable) :
    (fill rules document language index pool).2.account kind =
      (pool.account kind).take
        (kind.count (fill rules document language index pool).1) := by
  rw [fill]
  dsimp only
  rw [kind.count_map (kind.covers_overlay _), Pool.fst_supplyAll,
    kind.count_map kind.covers_unmarked, Pool.account_supplyAll]

end Composition

end Folio
