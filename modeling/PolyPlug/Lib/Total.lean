import Mathlib.Algebra.BigOperators.Group.Finset.Basic
import Mathlib.Data.Finmap

/-!
# `PolyPlug.Lib.Total`: a sum over the keys of a finite map

`total g m` adds up `g k (m.lookup k)` over the keys of `m`. A key that is absent
counts as nothing (`g k none = 0`), so a change at one key changes the sum by that
key's summand (`total_add`). The summands can be numbers, or multisets of the things
a map holds.
-/

set_option autoImplicit false

namespace PolyPlug.Lib

section
variable {κ ν M : Type*} [DecidableEq κ] [AddCommMonoid M] (g : κ → Option ν → M)

/-- The sum of a map's entries. -/
def total (m : Finmap fun _ : κ => ν) : M := ∑ k ∈ m.keys, g k (m.lookup k)

variable {g} {m m' : Finmap fun _ : κ => ν}

/-- Keys outside the map add nothing. -/
theorem total_eq (hg : ∀ k, g k none = 0) {keys : Finset κ} (h : m.keys ⊆ keys) :
    total g m = ∑ k ∈ keys, g k (m.lookup k) :=
  Finset.sum_subset h fun k _ hk => by
    rw [Finmap.mem_keys, ← Finmap.lookup_eq_none] at hk
    rw [hk, hg]

/-- Two maps that count the same at every key but one. -/
theorem total_add (hg : ∀ k, g k none = 0) {k : κ}
    (h : ∀ j, j ≠ k → g j (m'.lookup j) = g j (m.lookup j)) :
    total g m' + g k (m.lookup k) = total g m + g k (m'.lookup k) := by
  have hmem : k ∈ insert k (m.keys ∪ m'.keys) := Finset.mem_insert_self _ _
  have hrest : ∑ j ∈ (insert k (m.keys ∪ m'.keys)).erase k, g j (m'.lookup j)
      = ∑ j ∈ (insert k (m.keys ∪ m'.keys)).erase k, g j (m.lookup j) :=
    Finset.sum_congr rfl fun j hj => h j (Finset.ne_of_mem_erase hj)
  calc total g m' + g k (m.lookup k)
      = g k (m'.lookup k) + ∑ j ∈ (insert k (m.keys ∪ m'.keys)).erase k, g j (m'.lookup j)
          + g k (m.lookup k) := by
        rw [total_eq hg ((Finset.subset_union_right).trans (Finset.subset_insert k _)),
          Finset.add_sum_erase _ (fun j => g j (m'.lookup j)) hmem]
    _ = g k (m.lookup k) + ∑ j ∈ (insert k (m.keys ∪ m'.keys)).erase k, g j (m.lookup j)
          + g k (m'.lookup k) := by
        rw [hrest, add_right_comm, add_comm (g k (m'.lookup k)), add_right_comm, add_comm
          (g k (m.lookup k))]
    _ = total g m + g k (m'.lookup k) := by
        rw [total_eq hg ((Finset.subset_union_left).trans (Finset.subset_insert k _)),
          Finset.add_sum_erase _ (fun j => g j (m.lookup j)) hmem]

end

end PolyPlug.Lib
