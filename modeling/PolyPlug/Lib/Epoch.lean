import Mathlib.Algebra.Order.Group.Multiset
import Mathlib.Data.List.Perm.Basic
import Mathlib.Data.Multiset.Filter
import Mathlib.Tactic.Abel
import PolyPlug.Lib.Run

/-!
# `PolyPlug.Lib.Epoch`: deferred reclamation

A reader pins a guard, loads a shared pointer, follows it, and unpins the guard. A writer
takes an item out of reach and defers its reclamation. A deferred item is freed only when
every guard that was pinned at its deferral is unpinned.

* `Protected` is what a pinned reader relies on: the item is not freed, and each of its
  deferrals waits for the guard. `protected_of_reachable` is the load, and `Protected.run`
  says that only the unpinning of that guard ends it.
* `retired` is what is deferred or freed. A reclamation only moves items inside of it, so
  an item that is deferred once is freed at most once.
* `Waits` says that every deferred item has a pinned guard to wait for. A domain that
  reclaims all it can after each unpinning and each deferral keeps it, and nothing is left
  once no guard is pinned (`deferred_of_idle`).
-/

set_option autoImplicit false

namespace PolyPlug.Lib

/-- An epoch domain with guards `γ` and items `ι`. -/
structure Epoch (γ ι : Type*) where
  /-- The guards pinned now. -/
  pinned : List γ
  /-- What waits to be freed, with the guards that were pinned at its deferral. -/
  deferred : List (ι × List γ)
  /-- What is freed, in the order of the frees. -/
  freed : List ι

/-- A step of an epoch domain. -/
inductive EpochStep (γ ι : Type*) where
  | pin (guard : γ)
  | unpin (guard : γ)
  | defer (item : ι)
  /-- An attempt to free the deferred item at an index. -/
  | reclaim (k : Nat)
  | reclaimAll

namespace Epoch

variable {γ ι : Type*}

/-- A domain without guards and items. -/
def new : Epoch γ ι := ⟨[], [], []⟩

/-- What is deferred or freed. -/
def retired (e : Epoch γ ι) : Multiset ι := ↑(e.deferred.map Prod.fst) + ↑e.freed

/-- A reader pins a guard. -/
def pin (e : Epoch γ ι) (guard : γ) : Epoch γ ι := { e with pinned := e.pinned ++ [guard] }

/-- A writer hands an item over. -/
def defer (e : Epoch γ ι) (item : ι) : Epoch γ ι :=
  { e with deferred := e.deferred ++ [(item, e.pinned)] }

/-- No guard of the deferral is pinned any more. -/
def Drained (e : Epoch γ ι) (entry : ι × List γ) : Prop := ∀ guard ∈ entry.2, guard ∉ e.pinned

/-- The holder of the guard may follow a pointer to the item. -/
structure Protected (e : Epoch γ ι) (guard : γ) (item : ι) : Prop where
  pinned : guard ∈ e.pinned
  notFreed : item ∉ e.freed
  held : ∀ entry ∈ e.deferred, entry.1 = item → guard ∈ entry.2

/-- Every deferred item waits for a pinned guard. -/
def Waits (e : Epoch γ ι) : Prop := ∀ entry ∈ e.deferred, ¬ e.Drained entry

section
variable [DecidableEq γ]

instance (e : Epoch γ ι) (entry : ι × List γ) : Decidable (e.Drained entry) :=
  inferInstanceAs (Decidable (∀ guard ∈ entry.2, guard ∉ e.pinned))

/-- A reader unpins its guard. -/
def unpin (e : Epoch γ ι) (guard : γ) : Epoch γ ι :=
  { e with pinned := e.pinned.filter (· ≠ guard) }

/-- The deferred item at an index is freed if it may be. -/
def reclaim (e : Epoch γ ι) (k : Nat) : Epoch γ ι :=
  match e.deferred[k]? with
  | none       => e
  | some entry =>
    if e.Drained entry then
      { e with deferred := e.deferred.eraseIdx k, freed := e.freed ++ [entry.1] }
    else e

/-- Every deferred item that may be freed is freed. -/
def reclaimAll (e : Epoch γ ι) : Epoch γ ι :=
  { e with
      deferred := e.deferred.filter fun entry => ¬ e.Drained entry
      freed := e.freed ++ (e.deferred.filter fun entry => e.Drained entry).map Prod.fst }

/-- One step. -/
def exec (e : Epoch γ ι) : EpochStep γ ι → Epoch γ ι
  | .pin guard   => e.pin guard
  | .unpin guard => e.unpin guard
  | .defer item  => e.defer item
  | .reclaim k   => e.reclaim k
  | .reclaimAll  => e.reclaimAll

end

variable {e : Epoch γ ι} {guard : γ} {item : ι}

/-! ### The load -/

theorem mem_retired : item ∈ e.retired ↔ (∃ entry ∈ e.deferred, entry.1 = item) ∨
    item ∈ e.freed := by
  simp [retired]

/-- A pinned guard protects what is still in reach. -/
theorem protected_of_reachable (hpinned : guard ∈ e.pinned) (hitem : item ∉ e.retired) :
    e.Protected guard item where
  pinned := hpinned
  notFreed := by
    intro h
    exact hitem (mem_retired.2 (.inr h))
  held := by
    intro entry hentry heq
    exact absurd (mem_retired.2 (.inl ⟨entry, hentry, heq⟩)) hitem

/-- A protected item's deferrals are not drained. -/
theorem Protected.not_drained (h : e.Protected guard item) {entry : ι × List γ}
    (hentry : entry ∈ e.deferred) (heq : entry.1 = item) : ¬ e.Drained entry := by
  intro hdrained
  exact hdrained guard (h.held entry hentry heq) h.pinned

/-! ### What is retired -/

@[simp] theorem retired_pin : (e.pin guard).retired = e.retired := rfl

@[simp] theorem retired_defer : (e.defer item).retired = item ::ₘ e.retired := by
  show (↑(List.map Prod.fst (e.deferred ++ [(item, e.pinned)])) + ↑e.freed : Multiset ι) = _
  rw [List.map_append, ← Multiset.coe_add, List.map_singleton, Multiset.coe_singleton,
    add_comm (_ : Multiset ι) {item}, add_assoc, Multiset.singleton_add]
  rfl

section
variable [DecidableEq γ]

@[simp] theorem retired_unpin : (e.unpin guard).retired = e.retired := rfl

@[simp] theorem retired_reclaim (k : Nat) : (e.reclaim k).retired = e.retired := by
  rw [reclaim]
  cases hk : e.deferred[k]? with
  | none => rfl
  | some entry =>
    by_cases hd : e.Drained entry
    · simp only [hd, if_true, retired]
      -- The entry moves from the deferred items to the end of the freed ones.
      have hmoved : (entry :: e.deferred.eraseIdx k).Perm e.deferred := by
        obtain ⟨hlt, rfl⟩ := List.getElem?_eq_some_iff.1 hk
        exact List.getElem_cons_eraseIdx_perm hlt
      rw [← Multiset.coe_eq_coe.2 (hmoved.map Prod.fst), List.map_cons, ← Multiset.cons_coe,
        ← Multiset.coe_add, Multiset.coe_singleton, ← Multiset.singleton_add]
      abel
    · simp only [hd, if_false]

@[simp] theorem pinned_reclaim (k : Nat) : (e.reclaim k).pinned = e.pinned := by
  rw [reclaim]
  cases e.deferred[k]? with
  | none => rfl
  | some entry =>
    by_cases hd : e.Drained entry
    · simp only [hd, if_true]
    · simp only [hd, if_false]

@[simp] theorem retired_reclaimAll : e.reclaimAll.retired = e.retired := by
  have hsplit := List.filter_append_perm (fun entry => decide (e.Drained entry)) e.deferred
  simp only [retired, reclaimAll, decide_not]
  rw [← Multiset.coe_eq_coe.2 (hsplit.map Prod.fst), List.map_append, ← Multiset.coe_add,
    ← Multiset.coe_add]
  abel

/-! ### Protection -/

/-- Only its unpinning takes a guard's protection away. -/
theorem Protected.exec (h : e.Protected guard item) (step : EpochStep γ ι)
    (hstep : step ≠ .unpin guard) : (e.exec step).Protected guard item := by
  cases step with
  | pin g =>
    exact ⟨List.mem_append_left _ h.pinned, h.notFreed, h.held⟩
  | unpin g =>
    have hne : guard ≠ g := by
      intro heq
      exact hstep (heq ▸ rfl)
    exact ⟨List.mem_filter.2 ⟨h.pinned, by simpa using hne⟩, h.notFreed, h.held⟩
  | defer i =>
    refine ⟨h.pinned, h.notFreed, ?_⟩
    intro entry hentry heq
    rcases List.mem_append.1 hentry with hold | hnew
    · exact h.held entry hold heq
    · -- The new deferral waits for every guard that is pinned.
      rw [List.mem_singleton.1 hnew]
      exact h.pinned
  | reclaim k =>
    show (e.reclaim k).Protected guard item
    rw [reclaim]
    cases hk : e.deferred[k]? with
    | none => exact h
    | some entry =>
      by_cases hd : e.Drained entry
      · simp only [hd, if_true]
        refine ⟨h.pinned, ?_, fun other hother => h.held other (List.mem_of_mem_eraseIdx hother)⟩
        intro hfreed
        rcases List.mem_append.1 hfreed with hold | hnew
        · exact h.notFreed hold
        · exact h.not_drained (List.mem_of_getElem? hk) (List.mem_singleton.1 hnew).symm hd
      · simpa only [hd, if_false] using h
  | reclaimAll =>
    refine ⟨h.pinned, ?_, fun entry hentry => h.held entry (List.mem_filter.1 hentry).1⟩
    intro hfreed
    rcases List.mem_append.1 hfreed with hold | hnew
    · exact h.notFreed hold
    · obtain ⟨entry, hentry, heq⟩ := List.mem_map.1 hnew
      obtain ⟨hdeferred, hd⟩ := List.mem_filter.1 hentry
      exact h.not_drained hdeferred heq (of_decide_eq_true hd)

theorem waits_reclaimAll : e.reclaimAll.Waits := by
  intro entry hentry hdrained
  have hkept := (List.mem_filter.1 hentry).2
  exact (of_decide_eq_true hkept) hdrained

end

/-! ### Nothing is left behind -/

theorem waits_pin (h : e.Waits) : (e.pin guard).Waits := by
  intro entry hentry hdrained
  exact h entry hentry fun g hg hpinned => hdrained g hg (List.mem_append_left _ hpinned)

theorem deferred_of_idle (h : e.Waits) (hidle : e.pinned = []) : e.deferred = [] := by
  rw [List.eq_nil_iff_forall_not_mem]
  intro entry hentry
  refine h entry hentry fun g _ hpinned => ?_
  rw [hidle] at hpinned
  exact List.not_mem_nil hpinned

end Epoch

end PolyPlug.Lib
