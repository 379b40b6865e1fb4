import Mathlib.Algebra.BigOperators.Group.List.Basic
import Mathlib.Algebra.GroupWithZero.Nat
import Mathlib.Data.List.Nodup
import Mathlib.Data.List.Perm.Basic
import Mathlib.Data.Set.Card
import Folio.Table

/-!
# Sums over tables, and their sizes

The entries of a table after an insertion are the new one and those under other keys, in some
order, and before it they were the old one, if there was one, and the same others.  So a sum
over the values changes by what the new value weighs more than the old.

The size of a table is the number of keys that find something in it.
-/

namespace Folio.Table

variable
    {κ α : Type}

/-- No entry occurs twice. -/
theorem nodup_entries (table : Table κ α) : table.entries.Nodup :=
  List.Nodup.of_map Prod.fst table.nodup

variable [DecidableEq κ]

/-- The entries of a table are that of a key and those that are left without it. -/
theorem perm_of_get?_eq_some
    {table : Table κ α}
    {key : κ}
    {value : α}
    (found : table.get? key = some value) :
    table.entries.Perm ((key, value) :: (table.erase key).entries) := by
  have absent : (key, value) ∉ (table.erase key).entries := by
    rw [← get?_eq_some_iff, get?_erase, if_pos rfl]
    simp
  apply (List.perm_ext_iff_of_nodup table.nodup_entries
    (List.nodup_cons.2 ⟨absent, nodup_entries _⟩)).2
  rintro ⟨other, entry⟩
  rw [List.mem_cons, ← get?_eq_some_iff, ← get?_eq_some_iff, get?_erase, Prod.mk.injEq]
  by_cases same : other = key
  · subst same
    rw [found, if_pos rfl]
    simp [eq_comm]
  · simp [same]

/-- What was inserted under a key is erased again. -/
theorem perm_erase_insert (table : Table κ α) (key : κ) (value : α) :
    ((table.insert key value).erase key).entries.Perm (table.erase key).entries := by
  apply (List.perm_ext_iff_of_nodup (nodup_entries _) (nodup_entries _)).2
  rintro ⟨other, entry⟩
  rw [← get?_eq_some_iff, ← get?_eq_some_iff, get?_erase, get?_erase, get?_insert]
  split <;> rfl

/-! ## Sums -/

/-- What the values of a table weigh together. -/
def total (weight : α → Nat) (table : Table κ α) : Nat :=
  (table.entries.map fun entry => weight entry.2).sum

variable
    (weight : α → Nat)
    {table : Table κ α}
    {key : κ}

theorem total_eq_of_get?_eq_some
    {value : α}
    (found : table.get? key = some value) :
    table.total weight = weight value + (table.erase key).total weight := by
  have sums := ((perm_of_get?_eq_some found).map fun entry => weight entry.2).sum_eq
  rwa [List.map_cons, List.sum_cons] at sums

theorem total_eq_of_get?_eq_none
    (missing : table.get? key = none) :
    (table.erase key).total weight = table.total weight := by
  have keepsAll : (table.erase key).entries = table.entries := by
    apply List.filter_eq_self.2
    rintro ⟨other, value⟩ member
    rw [decide_eq_true_eq]
    rintro rfl
    rw [(get?_eq_some_iff ..).2 member] at missing
    exact absurd missing (by simp)
  rw [total, keepsAll, total]

theorem total_insert (table : Table κ α) (key : κ) (value : α) :
    (table.insert key value).total weight = weight value + (table.erase key).total weight := by
  have found : (table.insert key value).get? key = some value := by
    rw [get?_insert, if_pos rfl]
  have sums := ((table.perm_erase_insert key value).map fun entry => weight entry.2).sum_eq
  rw [total_eq_of_get?_eq_some weight found]
  exact congrArg (weight value + ·) sums

omit [DecidableEq κ] in
/-- What is kept and what is left out weigh together what there was. -/
theorem total_filter_add_total_filter_not (keep : κ → α → Bool) (table : Table κ α) :
    (table.filter keep).total weight +
        (table.filter fun key value => !keep key value).total weight =
      table.total weight := by
  have parted :=
    List.filter_append_perm (fun entry : κ × α => keep entry.1 entry.2) table.entries
  have sums := (parted.map fun entry => weight entry.2).sum_eq
  rwa [List.map_append, List.sum_append] at sums

/-! ## Sizes -/

theorem size_eq_ncard (table : Table κ α) :
    table.size = {key | (table.get? key).isSome = true}.ncard := by
  have found : {key | (table.get? key).isSome = true} = table.keys.toFinset := by
    ext key
    rw [Set.mem_ofPred_eq, ← contains_eq_isSome, List.coe_toFinset, Set.mem_ofPred_eq, contains,
      List.contains_eq_mem, decide_eq_true_eq]
  have distinct : table.keys.Nodup := table.nodup
  rw [found, Set.ncard_coe_finset, List.toFinset_card_of_nodup distinct, keys,
    List.length_map, size]

theorem size_filter_eq_ncard (keep : κ → α → Bool) (table : Table κ α) :
    (table.filter keep).size =
      {key | ∃ value, table.get? key = some value ∧ keep key value = true}.ncard := by
  rw [size_eq_ncard]
  congr 1
  ext key
  rw [Set.mem_ofPred_eq, Set.mem_ofPred_eq, get?_filter, Option.isSome_iff_exists]
  simp only [Option.filter_eq_some_iff]

omit [DecidableEq κ] in
theorem size_filter_add_size_filter_not (keep : κ → α → Bool) (table : Table κ α) :
    (table.filter keep).size + (table.filter fun key value => !keep key value).size =
      table.size := by
  have parted :=
    List.filter_append_perm (fun entry : κ × α => keep entry.1 entry.2) table.entries
  have lengths := parted.length_eq
  rwa [List.length_append] at lengths

end Folio.Table
