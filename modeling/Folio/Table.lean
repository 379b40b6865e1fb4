/-!
# Tables

A finite table from keys to values.  No key occurs twice, and the keys keep the order in
which they were first entered.
-/

namespace Folio

/-- A finite table in which no key occurs twice. -/
structure Table (κ α : Type) where
  entries : List (κ × α)
  nodup : (entries.map Prod.fst).Nodup
  deriving DecidableEq

namespace Table

variable {κ α : Type}

/-- The table without entries. -/
def empty : Table κ α where
  entries := []
  nodup := .nil

instance : Inhabited (Table κ α) := ⟨empty⟩

/-- The number of entries. -/
def size (table : Table κ α) : Nat :=
  table.entries.length

/-- The keys in the order in which they were entered. -/
def keys (table : Table κ α) : List κ :=
  table.entries.map Prod.fst

/-- Whether there are no entries. -/
def isEmpty (table : Table κ α) : Bool :=
  table.entries.isEmpty

/-- The entries that satisfy a test. -/
def filter (keep : κ → α → Bool) (table : Table κ α) : Table κ α where
  entries := table.entries.filter fun entry => keep entry.1 entry.2
  nodup := table.nodup.sublist (List.filter_sublist.map Prod.fst)

variable [DecidableEq κ]

/-- The value of a key. -/
def get? (table : Table κ α) (key : κ) : Option α :=
  (table.entries.find? fun entry => entry.1 = key).map Prod.snd

/-- Whether a key has a value. -/
def contains (table : Table κ α) (key : κ) : Bool :=
  table.keys.contains key

/-- Give a key a value in place of any that it has. -/
def insert (key : κ) (value : α) (table : Table κ α) : Table κ α where
  entries :=
    if table.contains key then
      table.entries.map fun entry => if entry.1 = key then (key, value) else entry
    else
      table.entries ++ [(key, value)]
  nodup := by
    split
    · have sameKeys :
          (table.entries.map fun entry => if entry.1 = key then (key, value) else entry).map
              Prod.fst =
            table.entries.map Prod.fst := by
        rw [List.map_map]
        apply List.map_congr_left
        intro entry _
        simp only [Function.comp_apply]
        split
        · rename_i sameKey
          exact sameKey.symm
        · rfl
      rw [sameKeys]
      exact table.nodup
    · rename_i absent
      simp only [contains, keys, List.contains_eq_mem, decide_eq_true_eq] at absent
      rw [List.map_append, List.nodup_append]
      refine ⟨table.nodup, by simp, ?_⟩
      intro left leftIn right rightIn same
      simp only [List.map_cons, List.map_nil, List.mem_singleton] at rightIn
      exact absent (rightIn ▸ same ▸ leftIn)

/-- Remove a key. -/
def erase (key : κ) (table : Table κ α) : Table κ α :=
  table.filter fun other _ => other ≠ key

/-! ## What a key finds -/

@[simp]
theorem get?_empty (key : κ) : (empty : Table κ α).get? key = none := rfl

theorem contains_eq_isSome (table : Table κ α) (key : κ) :
    table.contains key = (table.get? key).isSome := by
  simp only [contains, keys, get?, Option.isSome_map, List.contains_eq_mem]
  rw [Bool.eq_iff_iff]
  simp only [decide_eq_true_eq, List.mem_map, List.find?_isSome]

theorem get?_eq_some_iff (table : Table κ α) (key : κ) (value : α) :
    table.get? key = some value ↔ (key, value) ∈ table.entries := by
  have nodup := table.nodup
  simp only [get?]
  generalize table.entries = entries at nodup
  induction entries with
  | nil => simp
  | cons entry rest ofRest =>
      obtain ⟨other, first⟩ := entry
      simp only [List.map_cons, List.nodup_cons] at nodup
      by_cases same : other = key
      · subst same
        simp only [List.find?_cons_of_pos, decide_true, Option.map_some, Option.some.injEq,
          List.mem_cons, Prod.mk.injEq, true_and]
        constructor
        · exact fun found => Or.inl found.symm
        · rintro (found | found)
          · exact found.symm
          · exact absurd (List.mem_map_of_mem found) nodup.1
      · simp only [List.find?_cons, same, decide_false, List.mem_cons, Prod.mk.injEq]
        refine (ofRest nodup.2).trans ?_
        constructor
        · exact Or.inr
        · rintro (⟨found, _⟩ | found)
          · exact absurd found.symm same
          · exact found

theorem get?_insert (table : Table κ α) (key other : κ) (value : α) :
    (table.insert key value).get? other =
      if other = key then some value else table.get? other := by
  apply Option.ext
  intro found
  rw [get?_eq_some_iff]
  simp only [insert]
  split
  · rename_i present
    rw [contains_eq_isSome, Option.isSome_iff_exists] at present
    obtain ⟨old, isOld⟩ := present
    rw [get?_eq_some_iff] at isOld
    simp only [List.mem_map]
    split
    · rename_i same
      subst same
      constructor
      · rintro ⟨entry, _, isFound⟩
        split at isFound
        · exact congrArg some (Prod.mk.inj isFound).2
        · rename_i differs
          exact absurd (Prod.mk.inj isFound).1 differs
      · intro isFound
        refine ⟨(other, old), isOld, ?_⟩
        simp [Option.some.inj isFound]
    · rename_i differs
      rw [get?_eq_some_iff]
      constructor
      · rintro ⟨entry, entryIn, isFound⟩
        split at isFound
        · exact absurd (Prod.mk.inj isFound).1.symm differs
        · exact isFound ▸ entryIn
      · intro isIn
        exact ⟨(other, found), isIn, by simp [differs]⟩
  · rename_i absent
    rw [contains_eq_isSome, Bool.not_eq_true, Option.isSome_eq_false_iff,
      Option.isNone_iff_eq_none] at absent
    simp only [List.mem_append, List.mem_singleton, Prod.mk.injEq]
    rw [← get?_eq_some_iff]
    split
    · rename_i same
      subst same
      simp [absent, eq_comm]
    · rename_i differs
      simp [differs]

theorem get?_filter (keep : κ → α → Bool) (table : Table κ α) (key : κ) :
    (table.filter keep).get? key = (table.get? key).filter (keep key) := by
  apply Option.ext
  intro value
  rw [get?_eq_some_iff, Option.filter_eq_some_iff, get?_eq_some_iff]
  simp [filter]

theorem get?_erase (table : Table κ α) (key other : κ) :
    (table.erase key).get? other = if other = key then none else table.get? other := by
  rw [erase, get?_filter]
  split
  · rename_i same
    subst same
    cases table.get? other <;> simp
  · rename_i differs
    cases table.get? other <;> simp [differs]

end Table

end Folio
