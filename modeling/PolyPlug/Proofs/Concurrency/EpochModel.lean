import Mathlib.Algebra.BigOperators.Group.Multiset.Basic
import PolyPlug.Concurrency.EpochModel

/-!
# `PolyPlug.Proofs.Concurrency.EpochModel`: readers, writers and reclaimed slots

`World.Refines` relates the collector of the model to an epoch domain. A thread's step is
one or two steps of the domain.

`Execution.Sound` is the invariant of an execution. Every guard belongs to one thread, a
slot is published, with a writer, or retired, and a reader between its load and its unpin
has its slot protected.

* `never_panics_iff`: no schedule fails an assertion, exactly if every reader keeps its
  guard or nothing is ever published. The check of one reader and one writer thereby
  carries over to any number of them.
* `all_reclaimed`: when all threads are done, the slots that are not alive any more are
  those that have been superseded.
-/

set_option autoImplicit false

namespace PolyPlug.Concurrency

open PolyPlug.Lib

/-! ### The collector -/

namespace World

/-- The collector is in the state of the domain, and a slot is alive until it is freed. -/
structure Refines (w : World) (e : Epoch Nat Nat) : Prop where
  active : w.collector.active = e.pinned
  deferred : w.collector.deferred = e.deferred
  alive : ∀ i, (w.slots i).alive = true ↔ i ∉ e.freed

/-- The test of the loop. -/
theorem any_contains_iff (active : List Nat) (entry : Nat × List Nat) :
    entry.2.any active.contains = true ↔ ¬ ∀ guard ∈ entry.2, guard ∉ active := by
  simp

/-- What the loop leaves deferred, and what it clears. -/
theorem reclaimLoop_spec (active : List Nat) (kept rest : List (Nat × List Nat))
    (slots : Nat → Slot) :
    (reclaimLoop active kept rest slots).1
        = kept ++ rest.filter (fun entry => ¬ ∀ guard ∈ entry.2, guard ∉ active) ∧
      ∀ i, ((reclaimLoop active kept rest slots).2 i).alive = true ↔
        (slots i).alive = true ∧
          i ∉ (rest.filter fun entry => ∀ guard ∈ entry.2, guard ∉ active).map Prod.fst := by
  -- Induction on the entries from `i` on: the loop keeps an entry or frees its slot.
  induction rest generalizing kept slots with
  | nil => simp [reclaimLoop]
  | cons entry rest ih =>
    by_cases hpinned : entry.2.any active.contains = true
    · have hnot := (any_contains_iff active entry).1 hpinned
      obtain ⟨hdeferred, halive⟩ := ih (kept ++ [entry]) slots
      simp only [reclaimLoop, hpinned, if_true]
      rw [hdeferred, List.filter_cons_of_pos (by simpa using hnot),
        List.filter_cons_of_neg (by simpa using hnot)]
      exact ⟨by simp, halive⟩
    · have hall : ∀ guard ∈ entry.2, guard ∉ active := by
        by_contra hnot
        exact hpinned ((any_contains_iff active entry).2 hnot)
      obtain ⟨hdeferred, halive⟩ := ih kept (Function.update slots entry.1 ⟨false⟩)
      simp only [reclaimLoop, hpinned, Bool.false_eq_true, if_false]
      rw [hdeferred, List.filter_cons_of_neg (by simpa using hall),
        List.filter_cons_of_pos (by simpa using hall)]
      refine ⟨rfl, fun i => ?_⟩
      rw [halive i, List.map_cons, List.mem_cons, not_or]
      by_cases hi : i = entry.1
      · simp [hi]
      · simp [hi]

section
variable {w : World} {e : Epoch Nat Nat}

theorem refines_new : World.new.Refines Epoch.new := ⟨rfl, rfl, fun _ => by simp [new, Epoch.new]⟩

theorem refines_pin (h : w.Refines e) : w.pin.2.Refines (e.pin w.pin.1) :=
  ⟨by rw [pin, Epoch.pin, ← h.active], h.deferred, h.alive⟩

theorem refines_swap (h : w.Refines e) (ptr : Nat) : (w.swap ptr).2.Refines e :=
  ⟨h.active, h.deferred, h.alive⟩

theorem refines_reclaim (h : w.Refines e) : w.reclaim.Refines e.reclaimAll := by
  obtain ⟨hdeferred, halive⟩ :=
    reclaimLoop_spec w.collector.active [] w.collector.deferred w.slots
  refine ⟨h.active, ?_, fun i => ?_⟩
  · show (reclaimLoop w.collector.active [] w.collector.deferred w.slots).1 = _
    rw [hdeferred, List.nil_append, h.active, h.deferred]
    rfl
  · show ((reclaimLoop w.collector.active [] w.collector.deferred w.slots).2 i).alive = true ↔ _
    rw [halive i, h.alive i, h.active, h.deferred]
    show _ ↔ i ∉ e.freed ++ _
    rw [List.mem_append, not_or]
    rfl

theorem refines_unpin (h : w.Refines e) (id : Nat) :
    (w.unpin id).Refines (e.unpin id).reclaimAll :=
  refines_reclaim ⟨by rw [Epoch.unpin, ← h.active], h.deferred, h.alive⟩

theorem refines_deferFree (h : w.Refines e) (ptr : Nat) :
    (w.deferFree ptr).Refines (e.defer ptr).reclaimAll :=
  refines_reclaim ⟨h.active, by rw [Epoch.defer, ← h.deferred, ← h.active], h.alive⟩

end

end World

/-! ### What the threads hold -/

namespace Thread

/-- The guards that a thread has pinned. -/
def guards : Thread → Multiset Nat
  | .pinned _ id | .loaded _ id _ | .checked id => {id}
  | .panicked held => held
  | _ => 0

/-- The slots in the hands of a writer: the one it publishes, or the one it has taken out. -/
def slots : Thread → Multiset Nat
  | .writer ptr | .swapped ptr => {ptr}
  | _ => 0

/-- A pointer that is loaded under a guard is protected by it. -/
def Safe (e : Epoch Nat Nat) : Thread → Prop
  | .loaded _ id ptr => e.Protected id ptr
  | _ => True

/-- A thread that follows pointers under its guard only, and has not panicked. -/
def Guarded : Thread → Prop
  | .reader early | .pinned early _ | .loaded early _ _ => early = false
  | .unpinned _ | .panicked _ => False
  | _ => True

end Thread

/-- The sum over the threads. -/
def total (f : Thread → Multiset Nat) (threads : List Thread) : Multiset Nat :=
  (threads.map f).sum

section
variable {f : Thread → Multiset Nat} {threads : List Thread}

theorem le_total {t : Thread} (h : t ∈ threads) : f t ≤ total f threads := by
  induction threads with
  | nil => cases h
  | cons first rest ih =>
    show f t ≤ f first + total f rest
    rcases List.mem_cons.1 h with rfl | hrest
    · exact Multiset.le_add_right _ _
    · exact (ih hrest).trans (Multiset.le_add_left _ _)

theorem total_append (other : List Thread) :
    total f (threads ++ other) = total f threads + total f other := by
  simp [total]

/-- A step of one thread changes its summand. -/
theorem total_set {k : Nat} {t : Thread} (h : threads[k]? = some t) (t' : Thread) :
    total f (threads.set k t') + f t = total f threads + f t' := by
  induction threads generalizing k with
  | nil => simp at h
  | cons first rest ih =>
    cases k with
    | zero =>
      obtain rfl : first = t := by simpa using h
      simp only [total, List.set_cons_zero, List.map_cons, List.sum_cons]
      abel
    | succ k =>
      have hrest := ih (k := k) (by simpa using h)
      simp only [total, List.set_cons_succ, List.map_cons, List.sum_cons] at hrest ⊢
      rw [add_assoc, hrest, add_assoc]

end

/-! ### The invariant -/

namespace Execution

/-- What holds in every state, with the domain that the collector is in. -/
structure Sound (sc : Scenario) (s : Execution) (e : Epoch Nat Nat) : Prop where
  refines : s.world.Refines e
  guards : total Thread.guards s.threads = ↑s.world.collector.active
  nodup : s.world.collector.active.Nodup
  bound : ∀ id ∈ s.world.collector.active, id < s.world.collector.nextGuard
  /-- No slot is lost, and none is in two places. -/
  slots : {s.world.published} + total Thread.slots s.threads + e.retired
    = ↑(0 :: sc.writers)
  waits : e.Waits
  safe : ∀ t ∈ s.threads, t.Safe e

section
variable {sc : Scenario} {s : Execution} {e : Epoch Nat Nat} {k : Nat} {t : Thread}

theorem exec_eq (h : s.threads[k]? = some t) :
    s.exec k = ⟨s.threads.set k (t.step s.world).1, (t.step s.world).2⟩ := by
  simp only [exec, h]

theorem total_guards_threads : total Thread.guards sc.threads = 0 := by
  have hzero {α : Type} (make : α → Thread) (hmake : ∀ a, (make a).guards = 0) (l : List α) :
      total Thread.guards (l.map make) = 0 := by
    induction l with
    | nil => rfl
    | cons a rest ih =>
      show (make a).guards + total Thread.guards (rest.map make) = 0
      rw [hmake, ih, add_zero]
  rw [Scenario.threads, total_append, hzero _ (fun _ => rfl), hzero _ (fun _ => rfl), add_zero]

theorem total_slots_threads : total Thread.slots sc.threads = ↑sc.writers := by
  have hreaders : total Thread.slots (sc.readers.map .reader) = 0 := by
    induction sc.readers with
    | nil => rfl
    | cons early rest ih => exact (zero_add _).trans ih
  have hwriters : total Thread.slots (sc.writers.map .writer) = ↑sc.writers := by
    induction sc.writers with
    | nil => rfl
    | cons ptr rest ih =>
      show {ptr} + total Thread.slots (rest.map .writer) = _
      rw [ih, Multiset.singleton_add, Multiset.cons_coe]
  rw [Scenario.threads, total_append, hreaders, hwriters, zero_add]

theorem sound_start (sc : Scenario) : (start sc).Sound sc .new where
  refines := World.refines_new
  guards := total_guards_threads
  nodup := List.nodup_nil
  bound := by simp [start, World.new]
  slots := by
    show {0} + total Thread.slots sc.threads + 0 = _
    rw [total_slots_threads, add_zero, Multiset.singleton_add, Multiset.cons_coe]
  waits := by simp [Epoch.Waits, Epoch.new]
  safe := by
    intro t ht
    rcases List.mem_append.1 ht with h | h
    · obtain ⟨_, _, rfl⟩ := List.mem_map.1 h
      trivial
    · obtain ⟨_, _, rfl⟩ := List.mem_map.1 h
      trivial

/-- A step keeps the invariant if its thread keeps its share of it. -/
theorem Sound.change (h : s.Sound sc e) (hk : s.threads[k]? = some t) {t' : Thread} {w' : World}
    {e' : Epoch Nat Nat} (hrefines : w'.Refines e')
    (hguards : (↑w'.collector.active : Multiset Nat) + t.guards
      = ↑s.world.collector.active + t'.guards)
    (hnodup : w'.collector.active.Nodup)
    (hbound : ∀ id ∈ w'.collector.active, id < w'.collector.nextGuard)
    (hslots : {w'.published} + t'.slots + e'.retired
      = {s.world.published} + t.slots + e.retired)
    (hwaits : e'.Waits)
    (hkeep : ∀ id ptr, id ∈ w'.collector.active → e.Protected id ptr → e'.Protected id ptr)
    (hsafe : t'.Safe e') : Sound sc ⟨s.threads.set k t', w'⟩ e' := by
  have hgs : total Thread.guards (s.threads.set k t') = ↑w'.collector.active := by
    have hset := total_set (f := Thread.guards) hk t'
    rw [h.guards, ← hguards] at hset
    exact Multiset.add_left_inj.1 hset
  refine ⟨hrefines, hgs, hnodup, hbound, ?_, hwaits, ?_⟩
  · have hset := total_set (f := Thread.slots) hk t'
    rw [← h.slots]
    refine (add_left_inj t.slots).1 ?_
    calc {w'.published} + total Thread.slots (s.threads.set k t') + e'.retired + t.slots
        = {w'.published} + e'.retired
            + (total Thread.slots (s.threads.set k t') + t.slots) := by abel
      _ = {w'.published} + t'.slots + e'.retired + total Thread.slots s.threads := by
          rw [hset]; abel
      _ = {s.world.published} + total Thread.slots s.threads + e.retired + t.slots := by
          rw [hslots]; abel
  · intro u hu
    rcases List.mem_or_eq_of_mem_set hu with hold | rfl
    · have hle : u.guards ≤ ↑w'.collector.active := hgs ▸ le_total hu
      cases u with
      | loaded early id ptr =>
        have hid : id ∈ (↑w'.collector.active : Multiset Nat) :=
          Multiset.mem_of_le hle (Multiset.mem_singleton_self id)
        exact hkeep id ptr hid (h.safe _ hold)
      | _ => trivial
    · exact hsafe

/-! ### The steps -/

/-- A step that leaves the shared state. -/
theorem Sound.local_step (h : s.Sound sc e) (hk : s.threads[k]? = some t) {t' : Thread}
    (hguards : t'.guards = t.guards) (hslots : t'.slots = t.slots) (hsafe : t'.Safe e) :
    Sound sc ⟨s.threads.set k t', s.world⟩ e :=
  h.change hk h.refines (by rw [hguards]) h.nodup h.bound (by rw [hslots]) h.waits
    (fun _ _ _ hprotected => hprotected) hsafe

theorem Sound.guard_active (h : s.Sound sc e) (hk : s.threads[k]? = some t) {id : Nat}
    (hid : id ∈ t.guards) : id ∈ s.world.collector.active := by
  have hle := le_total (f := Thread.guards) (List.mem_of_getElem? hk)
  rw [h.guards] at hle
  exact Multiset.mem_coe.1 (Multiset.mem_of_le hle hid)

theorem Sound.slots_nodup (h : s.Sound sc e) :
    ({s.world.published} + total Thread.slots s.threads + e.retired).Nodup :=
  h.slots ▸ Multiset.coe_nodup.2 sc.fresh

theorem Sound.published_reachable (h : s.Sound sc e) : s.world.published ∉ e.retired := by
  intro hmem
  have hdisjoint := (Multiset.nodup_add.1 h.slots_nodup).2.2
  exact Multiset.disjoint_left.1 hdisjoint
    (Multiset.mem_add.2 (.inl (Multiset.mem_singleton_self _))) hmem

/-- A guard is pinned. -/
theorem Sound.pin (h : s.Sound sc e) {early : Bool} (hk : s.threads[k]? = some (.reader early)) :
    Sound sc ⟨s.threads.set k (.pinned early s.world.pin.1), s.world.pin.2⟩
      (e.pin s.world.pin.1) := by
  have hnew : s.world.collector.nextGuard ∉ s.world.collector.active := by
    intro hmem
    exact absurd (h.bound _ hmem) (lt_irrefl _)
  refine h.change hk (World.refines_pin h.refines) ?_ ?_ ?_ rfl (Epoch.waits_pin h.waits) ?_ trivial
  · show (↑(s.world.collector.active ++ [s.world.collector.nextGuard]) : Multiset Nat) + 0 = _
    rw [add_zero, ← Multiset.coe_add]
    rfl
  · exact List.nodup_append.2 ⟨h.nodup, List.nodup_singleton _, by
      intro a ha b hb heq
      rw [List.mem_singleton.1 hb] at heq
      exact hnew (heq ▸ ha)⟩
  · intro id hid
    show id < s.world.collector.nextGuard + 1
    rcases List.mem_append.1 hid with hold | hlast
    · have := h.bound id hold
      omega
    · rw [List.mem_singleton.1 hlast]
      omega
  · intro id ptr _ hprotected
    exact hprotected.exec (.pin _) (by simp)

/-- A reader unpins its guard, and what waited for it alone is freed. -/
theorem Sound.unpin (h : s.Sound sc e) {id : Nat} (hk : s.threads[k]? = some t) {t' : Thread}
    (hguards : t.guards = {id}) (hguards' : t'.guards = 0) (hslots : t'.slots = t.slots)
    (hsafe : t'.Safe (e.unpin id).reclaimAll) :
    Sound sc ⟨s.threads.set k t', s.world.unpin id⟩ (e.unpin id).reclaimAll := by
  have hid : id ∈ s.world.collector.active :=
    h.guard_active hk (hguards ▸ Multiset.mem_singleton_self id)
  have hactive : (s.world.unpin id).collector.active
      = s.world.collector.active.filter (· ≠ id) := rfl
  refine h.change hk (World.refines_unpin h.refines id) ?_ ?_ ?_ ?_ Epoch.waits_reclaimAll ?_ hsafe
  · rw [hguards, hguards', add_zero, hactive, add_comm, Multiset.singleton_add]
    have herase : s.world.collector.active.filter (· ≠ id) = s.world.collector.active.erase id := by
      rw [h.nodup.erase_eq_filter id]
      exact List.filter_congr fun a _ => by by_cases ha : a = id <;> simp [ha]
    rw [herase, ← Multiset.coe_erase]
    exact Multiset.cons_erase hid
  · rw [hactive]
    exact h.nodup.filter _
  · intro g hg
    rw [hactive] at hg
    exact h.bound g (List.mem_filter.1 hg).1
  · rw [hslots, Epoch.retired_reclaimAll, Epoch.retired_unpin]
    rfl
  · intro g ptr hg hprotected
    rw [hactive] at hg
    have hne : g ≠ id := by simpa using (List.mem_filter.1 hg).2
    -- The other guards stay pinned, and the reclamation is no unpin.
    have hkept : (e.unpin id).Protected g ptr :=
      hprotected.exec (.unpin id) (by simpa using fun heq => hne heq.symm)
    exact hkept.exec .reclaimAll (by simp)

/-- A writer defers the slot it has taken out. -/
theorem Sound.deferFree (h : s.Sound sc e) {ptr : Nat}
    (hk : s.threads[k]? = some (.swapped ptr)) :
    Sound sc ⟨s.threads.set k .finished, s.world.deferFree ptr⟩ (e.defer ptr).reclaimAll := by
  refine h.change hk (World.refines_deferFree h.refines ptr) rfl h.nodup h.bound ?_
    Epoch.waits_reclaimAll ?_ trivial
  · rw [Epoch.retired_reclaimAll, Epoch.retired_defer, ← Multiset.singleton_add]
    show {s.world.published} + 0 + ({ptr} + e.retired) = {s.world.published} + {ptr} + e.retired
    rw [add_zero, add_assoc]
  · intro g item _ hprotected
    have hkept : (e.defer ptr).Protected g item := hprotected.exec (.defer ptr) (by simp)
    exact hkept.exec .reclaimAll (by simp)

/-- Every step keeps the invariant. -/
theorem sound_exec (h : s.Sound sc e) (k : Nat) : ∃ e', (s.exec k).Sound sc e' := by
  cases hk : s.threads[k]? with
  | none => exact ⟨e, by rw [exec, hk]; exact h⟩
  | some t =>
    rw [exec_eq hk]
    cases t with
    | reader early => exact ⟨_, h.pin hk⟩
    | pinned early id =>
      -- The load: the guard protects what is published.
      have hpinned : id ∈ e.pinned :=
        h.refines.active ▸ h.guard_active hk (Multiset.mem_singleton_self id)
      exact ⟨e, h.local_step hk rfl rfl
        (Epoch.protected_of_reachable hpinned h.published_reachable)⟩
    | loaded early id ptr =>
      cases early with
      | false =>
        refine ⟨e, h.local_step hk ?_ ?_ ?_⟩ <;>
          by_cases halive : (s.world.slots ptr).alive <;>
          simp [Thread.step, halive, Thread.guards, Thread.slots, Thread.Safe]
      | true => exact ⟨_, h.unpin hk rfl rfl rfl trivial⟩
    | unpinned ptr =>
      refine ⟨e, h.local_step hk ?_ ?_ ?_⟩ <;>
        by_cases halive : (s.world.slots ptr).alive <;>
        simp [Thread.step, halive, Thread.guards, Thread.slots, Thread.Safe]
    | checked id => exact ⟨_, h.unpin hk rfl rfl rfl trivial⟩
    | writer ptr =>
      refine ⟨e, h.change hk (World.refines_swap h.refines ptr) rfl h.nodup h.bound ?_ h.waits
        (fun _ _ _ hprotected => hprotected) trivial⟩
      show {ptr} + {s.world.published} + e.retired = {s.world.published} + {ptr} + e.retired
      rw [add_comm ({ptr} : Multiset Nat)]
    | swapped ptr => exact ⟨_, h.deferFree hk⟩
    | finished => exact ⟨e, h.local_step hk rfl rfl trivial⟩
    | panicked held => exact ⟨e, h.local_step hk rfl rfl trivial⟩

/-- The invariant holds after every schedule. -/
theorem sound_run (sc : Scenario) (schedule : List Nat) :
    ∃ e, (after sc schedule).Sound sc e := by
  have hstart : ∃ e, (start sc).Sound sc e := ⟨_, sound_start sc⟩
  refine Steps.invariant (I := fun s : Execution => ∃ e, s.Sound sc e)
    (steps_true _ schedule) hstart ?_
  intro s k ⟨e, h⟩ _
  exact sound_exec h k

/-! ### No assertion fails -/

/-- A thread that follows pointers under its guard goes on to do so. -/
theorem guarded_step (h : s.Sound sc e) (hk : s.threads[k]? = some t) (ht : t.Guarded) :
    (t.step s.world).1.Guarded := by
  cases t with
  | loaded early id ptr =>
    obtain rfl : early = false := ht
    have hprotected : e.Protected id ptr := h.safe _ (List.mem_of_getElem? hk)
    have halive := (h.refines.alive ptr).2 hprotected.notFreed
    simp only [Thread.step, halive, if_true]
    trivial
  | unpinned ptr => exact ht.elim
  | panicked held => exact ht.elim
  | reader early => exact ht
  | pinned early id => exact ht
  | _ => trivial

/-- Without a writer nothing is retired, and every slot is alive. -/
theorem alive_of_no_writers (h : s.Sound sc e) (hnone : sc.writers = []) (i : Nat) :
    (s.world.slots i).alive = true := by
  have hcard := congrArg Multiset.card h.slots
  rw [hnone] at hcard
  simp only [Multiset.card_add, Multiset.card_singleton, Multiset.coe_card, List.length_singleton]
    at hcard
  have hretired : e.retired = 0 := Multiset.card_eq_zero.1 (by omega)
  refine (h.refines.alive i).2 fun hfreed => ?_
  have hmem := Epoch.mem_retired.2 (.inr hfreed)
  rw [hretired] at hmem
  exact Multiset.notMem_zero _ hmem

/-- No schedule fails an assertion. -/
def NeverPanics (sc : Scenario) : Prop := ∀ schedule, ¬ (after sc schedule).Panicked

theorem never_panics_of_guarded (hreaders : true ∉ sc.readers) : NeverPanics sc := by
  intro schedule
  have hinit : (∃ e, (start sc).Sound sc e) ∧ ∀ t ∈ (start sc).threads, t.Guarded := by
    refine ⟨⟨_, sound_start sc⟩, ?_⟩
    intro t ht
    rcases List.mem_append.1 ht with h | h
    · obtain ⟨early, hearly, rfl⟩ := List.mem_map.1 h
      cases early with
      | false => rfl
      | true => exact absurd hearly hreaders
    · obtain ⟨_, _, rfl⟩ := List.mem_map.1 h
      trivial
  have hrun := Steps.invariant
    (I := fun s : Execution => (∃ e, s.Sound sc e) ∧ ∀ t ∈ s.threads, t.Guarded)
    (steps_true _ schedule) hinit (by
      intro s k ⟨⟨e, h⟩, hall⟩ _
      refine ⟨sound_exec h k, ?_⟩
      cases hk : s.threads[k]? with
      | none => simpa only [exec, hk] using hall
      | some t =>
        rw [exec_eq hk]
        intro u hu
        rcases List.mem_or_eq_of_mem_set hu with hold | rfl
        · exact hall u hold
        · exact guarded_step h hk (hall t (List.mem_of_getElem? hk)))
  rintro ⟨held, hheld⟩
  exact hrun.2 _ hheld

theorem never_panics_of_no_writers (hnone : sc.writers = []) : NeverPanics sc := by
  intro schedule
  have hinit : (∃ e, (start sc).Sound sc e) ∧ ¬ (start sc).Panicked := by
    refine ⟨⟨_, sound_start sc⟩, ?_⟩
    rintro ⟨held, hheld⟩
    rcases List.mem_append.1 hheld with h | h <;> simp at h
  have hrun := Steps.invariant (I := fun s : Execution => (∃ e, s.Sound sc e) ∧ ¬ s.Panicked)
    (steps_true _ schedule) hinit (by
      intro s k ⟨⟨e, h⟩, hnot⟩ _
      refine ⟨sound_exec h k, ?_⟩
      cases hk : s.threads[k]? with
      | none => simpa only [exec, hk] using hnot
      | some t =>
        rw [exec_eq hk]
        rintro ⟨held, hheld⟩
        rcases List.mem_or_eq_of_mem_set hheld with hold | heq
        · exact hnot ⟨held, hold⟩
        · -- The step is no failed assertion, since every slot is alive.
          have halive := alive_of_no_writers h hnone
          cases t with
          | loaded early id ptr => cases early <;> simp [Thread.step, halive] at heq
          | unpinned ptr => simp [Thread.step, halive] at heq
          | panicked held' => exact hnot ⟨held', List.mem_of_getElem? hk⟩
          | _ => simp [Thread.step] at heq)
  exact hrun.2

/-! ### A reader that drops its guard -/

theorem run_cons_eq (hk : s.threads[k]? = some t) (schedule : List Nat) :
    run exec s (k :: schedule)
      = run exec ⟨s.threads.set k (t.step s.world).1, (t.step s.world).2⟩ schedule := by
  rw [run_cons, exec_eq hk]

/-- The reader at `i` loads and drops its guard, the writer at `j` publishes, and the reader
follows its pointer. -/
theorem panics_of_early {i j ptr : Nat} (hi : (start sc).threads[i]? = some (.reader true))
    (hj : (start sc).threads[j]? = some (.writer ptr)) :
    (after sc [i, i, i, j, j, i]).Panicked := by
  have hij : i ≠ j := by
    intro heq
    rw [heq, hj] at hi
    cases hi
  have hlt : i < (start sc).threads.length := (List.getElem?_eq_some_iff.1 hi).1
  have hltj : j < (start sc).threads.length := (List.getElem?_eq_some_iff.1 hj).1
  have hset (l : List Thread) (u : Thread) (h : i < l.length) : (l.set i u)[i]? = some u :=
    List.getElem?_set_self h
  have hsetj (l : List Thread) (u : Thread) (h : j < l.length) : (l.set j u)[j]? = some u :=
    List.getElem?_set_self h
  have hne (l : List Thread) (u : Thread) : (l.set i u)[j]? = l[j]? := List.getElem?_set_ne hij
  have hnej (l : List Thread) (u : Thread) : (l.set j u)[i]? = l[i]? :=
    List.getElem?_set_ne hij.symm
  -- The reader pins, loads slot 0 and unpins.
  rw [after, run_cons_eq hi, run_cons_eq (hset _ _ hlt),
    run_cons_eq (hset _ _ (by simpa using hlt))]
  -- The writer swaps slot 0 out, and nothing keeps it from being reclaimed.
  rw [run_cons_eq (by rw [hne, hne, hne]; exact hj),
    run_cons_eq (hsetj _ _ (by simpa using hltj))]
  rw [run_cons_eq (by rw [hnej, hnej]; exact hset _ _ (by simpa using hlt))]
  refine ⟨[], List.mem_iff_getElem?.2 ⟨i, ?_⟩⟩
  exact hset _ _ (by simpa using hlt)

/-- A reader that drops its guard early makes some schedule fail, if there is a writer. -/
theorem panics_of_early_reader (hreader : true ∈ sc.readers) {ptr : Nat}
    (hwriter : ptr ∈ sc.writers) : ¬ NeverPanics sc := by
  intro hnever
  obtain ⟨i, hi⟩ := List.mem_iff_getElem?.1
    (List.mem_append_left (sc.writers.map Thread.writer) (List.mem_map_of_mem hreader))
  obtain ⟨j, hj⟩ := List.mem_iff_getElem?.1
    (List.mem_append_right (sc.readers.map Thread.reader) (List.mem_map_of_mem hwriter))
  exact hnever _ (panics_of_early hi hj)

/-- No schedule fails an assertion, exactly if no reader drops its guard before it follows its
pointer, or no writer publishes. -/
theorem never_panics_iff (sc : Scenario) :
    NeverPanics sc ↔ true ∉ sc.readers ∨ sc.writers = [] := by
  constructor
  · intro hnever
    by_cases hreader : true ∈ sc.readers
    · refine .inr (List.eq_nil_iff_forall_not_mem.2 fun ptr hptr => ?_)
      exact panics_of_early_reader hreader hptr hnever
    · exact .inl hreader
  · rintro (hreaders | hnone)
    · exact never_panics_of_guarded hreaders
    · exact never_panics_of_no_writers hnone

/-- The two tests of the crate: the reader that keeps its guard is safe, the other one is not. -/
example : NeverPanics (.scenario false) ∧ ¬ NeverPanics (.scenario true) :=
  ⟨never_panics_of_guarded (by decide), panics_of_early_reader (by decide) List.mem_cons_self⟩

/-! ### Nothing is left behind -/

/-- A slot that waits is alive and waits once. -/
def WaitsOnce (s : Execution) : Prop :=
  (s.world.collector.deferred.map Prod.fst).Nodup ∧
    ∀ entry ∈ s.world.collector.deferred, (s.world.slots entry.1).alive = true

/-- No guard is pinned and nothing waits. Of the slots, the published one is alive. -/
def Settled (sc : Scenario) (s : Execution) : Prop :=
  s.world.collector.active = [] ∧ s.world.collector.deferred = [] ∧
    s.world.published ∈ 0 :: sc.writers ∧
    ∀ slot ∈ 0 :: sc.writers, (s.world.slots slot).alive = true ↔ slot = s.world.published

/-- In every state, no slot is reclaimed twice. When all threads are done, exactly the
superseded slots are reclaimed. -/
theorem all_reclaimed (sc : Scenario) (schedule : List Nat) :
    (after sc schedule).WaitsOnce ∧
      ((∀ t ∈ (after sc schedule).threads, t = .finished) → Settled sc (after sc schedule)) := by
  generalize hs : after sc schedule = s
  obtain ⟨e, h⟩ := hs ▸ sound_run sc schedule
  have hnodup : e.retired.Nodup := (Multiset.nodup_add.1 h.slots_nodup).2.1
  constructor
  · rw [WaitsOnce, h.refines.deferred]
    obtain ⟨hdeferred, -, hdisjoint⟩ := Multiset.nodup_add.1 hnodup
    refine ⟨Multiset.coe_nodup.1 hdeferred, fun entry hentry => ?_⟩
    refine (h.refines.alive _).2 fun hfreed => ?_
    exact Multiset.disjoint_left.1 hdisjoint
      (Multiset.mem_coe.2 (List.mem_map_of_mem hentry)) (Multiset.mem_coe.2 hfreed)
  · intro hdone
    have hzero (f : Thread → Multiset Nat) (hf : f .finished = 0) : total f s.threads = 0 := by
      rw [total]
      exact List.sum_eq_zero fun m hm => by
        obtain ⟨t, ht, rfl⟩ := List.mem_map.1 hm
        rw [hdone t ht, hf]
    have hactive : s.world.collector.active = [] := by
      have hguards := h.guards
      rw [hzero _ rfl] at hguards
      exact (Multiset.coe_eq_zero _).1 hguards.symm
    have hdeferred : e.deferred = [] :=
      Epoch.deferred_of_idle h.waits (h.refines.active ▸ hactive)
    -- What is retired is freed by now.
    have hslots : {s.world.published} + (↑e.freed : Multiset Nat) = ↑(0 :: sc.writers) := by
      have hall := h.slots
      rw [hzero _ rfl, add_zero, Epoch.retired, hdeferred] at hall
      simpa using hall
    have hmem (slot : Nat) :
        slot ∈ 0 :: sc.writers ↔ slot = s.world.published ∨ slot ∈ e.freed := by
      rw [← Multiset.mem_coe, ← hslots]
      simp
    refine ⟨hactive, h.refines.deferred ▸ hdeferred, (hmem _).2 (.inl rfl), fun slot hslot => ?_⟩
    rw [h.refines.alive]
    constructor
    · intro hnot
      exact ((hmem slot).1 hslot).resolve_right hnot
    · rintro rfl hfreed
      exact h.published_reachable (Epoch.mem_retired.2 (.inr hfreed))

end

end Execution

end PolyPlug.Concurrency
