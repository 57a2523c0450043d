import Mathlib.Data.Finmap

/-!
# `PolyPlug.Lib.Map`: lookups in a finite map after one update

Mathlib states the lookup after `insert` and `erase` once for the same key and
once for a different one. The lemmas of this module join the two cases, for maps
whose value type does not depend on the key, and say what a loop of inserts leaves:
the value of the last one with the key.
-/

set_option autoImplicit false

namespace PolyPlug.Lib

section
variable {α β : Type*} [DecidableEq α] (m : Finmap fun _ : α => β) (k k' : α) (v : β)

/-- The lookup after an insert. -/
theorem lookup_insert_eq : (m.insert k v).lookup k' = if k' = k then some v else m.lookup k' := by
  by_cases h : k' = k
  · subst h
    rw [Finmap.lookup_insert, if_pos rfl]
  · rw [Finmap.lookup_insert_of_ne _ h, if_neg h]

/-- The lookup after an erase. -/
theorem lookup_erase_eq : (m.erase k).lookup k' = if k' = k then none else m.lookup k' := by
  by_cases h : k' = k
  · subst h
    rw [Finmap.lookup_erase, if_pos rfl]
  · rw [Finmap.lookup_erase_ne h, if_neg h]

end

/-- **The lookup after a loop of inserts.** The last insert with the key counts. -/
theorem lookup_foldl_insert {α β γ : Type*} [DecidableEq α] (key : γ → α) (value : γ → β) (k : α)
    (xs : List γ) (m : Finmap fun _ : α => β) :
    (xs.foldl (fun m x => m.insert (key x) (value x)) m).lookup k =
      ((xs.filter fun x => key x = k).getLast?.map value).or (m.lookup k) := by
  induction xs using List.reverseRecOn with
  | nil => rfl
  | append_singleton xs x ih =>
      rw [List.foldl_append, List.foldl_cons, List.foldl_nil, lookup_insert_eq, List.filter_append]
      by_cases h : k = key x
      · simp [h]
      · simp [h, Ne.symm h, ih]

/-- The lookup after a loop that inserts one value under several keys. -/
theorem lookup_foldl_insert_const {α β γ : Type*} [DecidableEq α] (key : γ → α) (v : β) (k : α)
    (xs : List γ) (m : Finmap fun _ : α => β) :
    (xs.foldl (fun m x => m.insert (key x) v) m).lookup k =
      if ∃ x ∈ xs, key x = k then some v else m.lookup k := by
  rw [lookup_foldl_insert key (fun _ => v)]
  cases hlast : (xs.filter fun x => key x = k).getLast? with
  | none =>
      rw [if_neg]
      · rfl
      · simpa [List.getLast?_eq_none_iff, List.filter_eq_nil_iff] using hlast
  | some x =>
      have hx := List.mem_filter.1 (List.mem_of_getLast? hlast)
      rw [if_pos ⟨x, hx.1, of_decide_eq_true hx.2⟩]
      rfl

end PolyPlug.Lib
