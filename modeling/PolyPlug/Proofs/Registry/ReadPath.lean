import Mathlib.Algebra.Order.Group.Multiset
import Mathlib.Data.Multiset.Range
import PolyPlug.Registry.ReadPath

/-!
# `PolyPlug.Proofs.Registry.ReadPath`: lock-free reads are linearizable

`SharedStore.Sound` relates the shared store to the store that takes each call for one
step. The pointer leads to the view of that store, and what the lock protects is its data
unless a mutator is on its way to the swap.

* `read_linearizable`: the answer of a lock-free reader is the answer of the one-step store
  at the load, which lies within the call. The view is not destroyed before the reader
  drops its guard.
* `views_destroyed_once`: no view is destroyed twice, and the published one never is.
* `revision_behind`: a load after a read of the revision gets no older view than the
  revision stands for.
-/

set_option autoImplicit false

namespace PolyPlug.Registry

open PolyPlug.Abi
open PolyPlug.Lib

/-! ### The calls of the one-step store -/

namespace RuntimeStore

/-- The readers look at the published view only. -/
theorem read_congr {s t : RuntimeStore} (h : s.published = t.published) (query : ReadQuery) :
    s.read query = t.read query := by
  cases query <;>
    simp only [read, findGuestContract, findAllGuestContracts, findAllGuestContractsPacked,
      countGuestContracts, collectGuestContracts, resolveGuestContract, forEachLiveProvider, h]

/-- A publish changes the revision. -/
theorem publish_revision_ne (s : RuntimeStore) (data : RuntimeStoreData) :
    (s.publish data).revision ≠ s.revision := by
  show (s.revision + 1) % 2 ^ 64 ≠ s.revision
  omega

/-- The two stores get to the same data, and either both publish it or neither does. -/
def Alike (s t s' t' : RuntimeStore) : Prop :=
  ∃ data, (s' = s.publish data ∧ t' = t.publish data) ∨
    (s' = s.unpublished data ∧ t' = t.unpublished data)

variable {s t : RuntimeStore}

theorem alike_publish (data : RuntimeStoreData) : Alike s t (s.publish data) (t.publish data) :=
  ⟨data, .inl ⟨rfl, rfl⟩⟩

theorem alike_unpublished (data : RuntimeStoreData) :
    Alike s t (s.unpublished data) (t.unpublished data) :=
  ⟨data, .inr ⟨rfl, rfl⟩⟩

theorem alike_same (h : s.data = t.data) : Alike s t s t :=
  ⟨s.data, .inr ⟨rfl, by rw [h]; rfl⟩⟩

/-- What a call does depends on the data only. -/
theorem alike_call (h : s.data = t.data) (call : StoreCall) :
    Alike s t (s.call call) (t.call call) := by
  cases call with
  | swapGuestContractInterface slotIndex newInterface =>
    -- Each call is followed to its end, which is the same write on both sides.
    simp only [RuntimeStore.call, swapGuestContractInterface, h]
    cases t.data.slots[slotIndex]? with
    | none => exact alike_same h
    | some slot =>
      simp only
      cases slot.interface with
      | none => exact alike_same h
      | some iface => exact alike_publish _
  | op op =>
    cases op with
    | registerGuestContract descriptor interface ptr contractName b =>
      simp only [RuntimeStore.call, RuntimeStore.exec, registerGuestContract, h]
      cases prepareGuestContract descriptor interface contractName interface.adapterContext ptr with
      | error e => exact alike_same h
      | ok contract =>
        simp only
        cases validateGuestContractRegistration t.data contract b
            (decide (b ∈ t.data.reloadingBundles)) with
        | error e => exact alike_same h
        | ok u =>
          simp only
          cases insertPreparedGuestContract (ensureDefaultBundleData t.data b) contract b
              (!decide (b ∈ t.data.reloadingBundles)) with
          | error e => exact alike_unpublished _
          | ok inserted => exact alike_publish _
    | registerPreparedBundle descriptor dependencies contracts =>
      simp only [RuntimeStore.call, RuntimeStore.exec, registerPreparedBundle, h]
      cases validatePreparedBundleContracts contracts with
      | error e => exact alike_same h
      | ok u =>
        simp only
        cases validateAll t.data descriptor.id (decide (descriptor.id ∈ t.data.reloadingBundles))
            contracts with
        | error e => exact alike_same h
        | ok u =>
          simp only
          by_cases hregistered : (t.data.bundleData.lookup descriptor.id).isSome = true
          · simp only [hregistered, if_true]
            exact alike_same h
          · simp only [hregistered, Bool.false_eq_true, if_false]
            rcases insertAll descriptor.id (!decide (descriptor.id ∈ t.data.reloadingBundles))
              contracts [] (insertBundle t.data descriptor dependencies) with ⟨_ | _, data⟩
            · exact alike_unpublished _
            · exact alike_publish _
    | declareBundleDependencies b contractIds =>
      simp only [RuntimeStore.call, RuntimeStore.exec, declareBundleDependencies, h]
      exact alike_publish _
    | registerBundleMetadata b bundleName version runtime origin dependencies =>
      simp only [RuntimeStore.call, RuntimeStore.exec, registerBundleMetadata, h]
      exact alike_publish _
    | beginReload b =>
      simp only [RuntimeStore.call, RuntimeStore.exec, beginReload, h]
      exact alike_publish _
    | abortReload b old =>
      simp only [RuntimeStore.call, RuntimeStore.exec, abortReload, h]
      exact alike_publish _
    | applyReloadSwap b old descriptor dependencies =>
      simp only [RuntimeStore.call, RuntimeStore.exec, applyReloadSwap, h]
      rcases swapOldSlots b (pendingSlots (closeWindow t.data b) b old) old
        (closeWindow t.data b) with ⟨_ | _, data⟩
      · exact alike_unpublished _
      · simp only
        cases ((pendingSlots (closeWindow t.data b) b old).foldl publishSlot
            data).bundleData.lookup b with
        | none => exact alike_unpublished _
        | some bd => exact alike_publish _
    | invalidateBundle b =>
      simp only [RuntimeStore.call, RuntimeStore.exec, invalidateBundle, h]
      cases t.data.bundleData.lookup b with
      | none => exact alike_same h
      | some bd => exact alike_publish _

end RuntimeStore

/-! ### Guards -/

namespace ReadPhase

/-- The guard that a call has pinned. -/
def guard : ReadPhase → Option Nat
  | .pinned _ g | .loaded _ g _ | .rebuilt _ _ g | .swapped g _ | .deferred g | .bumped g => some g
  | _ => none

/-- The call of a lock-free reader, or none. -/
def IsReader : ReadPhase → Prop
  | .idle | .pinned .. | .loaded .. => True
  | _ => False

/-- The view that a mutator has taken out of reach and not yet deferred. -/
def taken : ReadPhase → Multiset Nat
  | .swapped _ old => {old}
  | _ => 0

/-- The view that a reader holds a pointer to is protected by its guard. -/
def Safe (e : Epoch Nat Nat) : ReadPhase → Prop
  | .loaded _ g view => e.Protected g view
  | _ => True

end ReadPhase

/-- Every call has a pinned guard of its own, and every loaded view is protected. -/
structure Guarded (phase : ThreadId → ReadPhase) (e : Epoch Nat Nat) (nextGuard : Nat) :
    Prop where
  pinned : ∀ t g, (phase t).guard = some g → g ∈ e.pinned
  bound : ∀ t g, (phase t).guard = some g → g < nextGuard
  distinct : ∀ t t' g, (phase t).guard = some g → (phase t').guard = some g → t = t'
  safe : ∀ t, (phase t).Safe e

namespace Guarded

variable {phase : ThreadId → ReadPhase} {e : Epoch Nat Nat} {n : Nat}

/-- A collection, or any other step of the domain that unpins no guard of a call. -/
theorem exec (h : Guarded phase e n) (step : EpochStep Nat Nat)
    (hpinned : ∀ t g, (phase t).guard = some g → g ∈ (e.exec step).pinned)
    (hstep : ∀ t g, (phase t).guard = some g → step ≠ .unpin g) :
    Guarded phase (e.exec step) n := by
  refine ⟨hpinned, h.bound, h.distinct, fun t => ?_⟩
  have hsafe := h.safe t
  have hguard := hstep t
  cases hphase : phase t with
  | loaded q g view =>
    rw [hphase] at hsafe hguard
    exact Epoch.Protected.exec hsafe step (hguard g rfl)
  | _ => trivial

/-- A call goes on under the guard it has. -/
theorem set (h : Guarded phase e n) {t : ThreadId} {p : ReadPhase}
    (hguard : ∀ g, p.guard = some g → (phase t).guard = some g) (hsafe : p.Safe e) :
    Guarded (Function.update phase t p) e n := by
  have hold (t' : ThreadId) (g : Nat) (hg : (Function.update phase t p t').guard = some g) :
      (phase t').guard = some g := by
    by_cases ht : t' = t
    · rw [ht, Function.update_self] at hg
      exact ht ▸ hguard g hg
    · rwa [Function.update_of_ne ht] at hg
  refine ⟨fun t' g hg => h.pinned t' g (hold t' g hg), fun t' g hg => h.bound t' g (hold t' g hg),
    fun t' t'' g hg hg' => h.distinct t' t'' g (hold t' g hg) (hold t'' g hg'), fun t' => ?_⟩
  by_cases ht : t' = t
  · rw [ht, Function.update_self]
    exact hsafe
  · rw [Function.update_of_ne ht]
    exact h.safe t'

/-- A call without a guard pins the next one. -/
theorem pin (h : Guarded phase e n) {t : ThreadId} {p : ReadPhase} (hguard : p.guard = some n)
    (hsafe : p.Safe (e.pin n)) : Guarded (Function.update phase t p) (e.pin n) (n + 1) := by
  have hpin : Guarded phase (e.pin n) n :=
    h.exec (.pin n) (fun t' g hg => List.mem_append_left _ (h.pinned t' g hg))
      (fun _ _ _ => by simp)
  have hlast : n ∈ (e.pin n).pinned := List.mem_append_right _ (List.mem_singleton_self n)
  have hcases (t' : ThreadId) (g : Nat) (hg : (Function.update phase t p t').guard = some g) :
      (t' = t ∧ g = n) ∨ (t' ≠ t ∧ (phase t').guard = some g) := by
    by_cases ht : t' = t
    · rw [ht, Function.update_self, hguard] at hg
      exact .inl ⟨ht, (Option.some.inj hg).symm⟩
    · rw [Function.update_of_ne ht] at hg
      exact .inr ⟨ht, hg⟩
  refine ⟨fun t' g hg => ?_, fun t' g hg => ?_, fun t' t'' g hg hg' => ?_, fun t' => ?_⟩
  · rcases hcases t' g hg with ⟨-, rfl⟩ | ⟨-, hold⟩
    · exact hlast
    · exact hpin.pinned t' g hold
  · rcases hcases t' g hg with ⟨-, rfl⟩ | ⟨-, hold⟩
    · omega
    · have := h.bound t' g hold
      omega
  · rcases hcases t' g hg with ⟨rfl, rfl⟩ | ⟨-, hold⟩
    · rcases hcases t'' g hg' with ⟨rfl, -⟩ | ⟨-, hold'⟩
      · rfl
      · exact absurd (h.bound t'' g hold') (lt_irrefl _)
    · rcases hcases t'' g hg' with ⟨-, rfl⟩ | ⟨-, hold'⟩
      · exact absurd (h.bound t' g hold) (lt_irrefl _)
      · exact h.distinct t' t'' g hold hold'
  · by_cases ht : t' = t
    · rw [ht, Function.update_self]
      exact hsafe
    · rw [Function.update_of_ne ht]
      exact hpin.safe t'

/-- A call ends and drops its guard. -/
theorem unpin (h : Guarded phase e n) {t : ThreadId} {g : Nat} (hguard : (phase t).guard = some g) :
    Guarded (Function.update phase t .idle) (e.unpin g) n := by
  have hidle : Guarded (Function.update phase t .idle) e n :=
    h.set (fun _ hg => by cases hg) trivial
  -- No other call has this guard.
  have hother (t' : ThreadId) (g' : Nat)
      (hg : (Function.update phase t .idle t').guard = some g') : g' ≠ g := by
    intro heq
    by_cases ht : t' = t
    · rw [ht, Function.update_self] at hg
      cases hg
    · rw [Function.update_of_ne ht, heq] at hg
      exact ht (h.distinct t' t g hg hguard)
  refine hidle.exec (.unpin g) (fun t' g' hg => ?_) (fun t' g' hg heq => ?_)
  · exact List.mem_filter.2 ⟨hidle.pinned t' g' hg, by simpa using hother t' g' hg⟩
  · exact hother t' g' hg (EpochStep.unpin.inj heq).symm

end Guarded

/-! ### The invariant -/

namespace SharedStore

/-- Where the holder of the write lock is. -/
def holder (s : SharedStore) : Option ReadPhase := s.writer.map s.phase

/-- The view that the holder of the lock has taken out of reach and not yet deferred. -/
def inHand (s : SharedStore) : Multiset Nat := (s.holder.map ReadPhase.taken).getD 0

/-- The data is changed, and the change is to be published. -/
def Ahead (s : SharedStore) (call : StoreCall) : Prop :=
  s.atomic.call call = s.atomic.publish s.data ∧ s.revision = s.atomic.revision

/-- What the lock protects, against the one-step store. -/
def Locked (s : SharedStore) : Option ReadPhase → Prop
  | none | some (.bumped _) => s.data = s.atomic.data ∧ s.revision = s.atomic.revision
  | some (.mutated call) => s.Ahead call
  | some (.rebuilt call view _) => s.Ahead call ∧ view = ReadView.rebuild s.data
  | some (.swapped ..) | some (.deferred _) =>
    s.data = s.atomic.data ∧ (s.revision + 1) % 2 ^ 64 = s.atomic.revision ∧ 0 < s.published
  | _ => False

/-- What holds in every state. -/
structure Sound (s : SharedStore) : Prop where
  guarded : Guarded s.phase s.epoch s.nextGuard
  locked : s.Locked s.holder
  others : ∀ t, s.writer ≠ some t → (s.phase t).IsReader
  view : s.viewAt s.published = s.atomic.published
  /-- Every view is published, with the holder of the lock, or retired. -/
  owned : {s.published} + s.inHand + s.epoch.retired = Multiset.range s.views.length
  last : s.published + 1 = s.views.length
  counts : s.atomic.revision = s.published % 2 ^ 64
  bound : s.revision < 2 ^ 64

theorem sound_new : SharedStore.new.Sound where
  guarded :=
    { pinned := fun _ _ h => by cases h
      bound := fun _ _ h => by cases h
      distinct := fun _ _ _ h => by cases h
      safe := fun _ => trivial }
  locked := ⟨rfl, rfl⟩
  others := fun _ _ => trivial
  view := rfl
  owned := rfl
  last := rfl
  counts := rfl
  bound := by decide

section
variable {s : SharedStore} {t : ThreadId} {p : ReadPhase}

/-- The holder of the lock is past its first access, so a reader does not hold it. -/
theorem Sound.not_writer (h : s.Sound) (hreader : (s.phase t).IsReader) : s.writer ≠ some t := by
  intro heq
  have hlocked := h.locked
  rw [holder, heq] at hlocked
  show False
  cases hphase : s.phase t <;> rw [Option.map_some, hphase] at hlocked <;> rw [hphase] at hreader
  all_goals first
    | exact hlocked
    | exact hreader

theorem Sound.is_writer (h : s.Sound) (hnot : ¬ (s.phase t).IsReader) : s.writer = some t := by
  by_contra hne
  exact hnot (h.others t hne)

theorem Sound.published_reachable (h : s.Sound) : s.published ∉ s.epoch.retired := by
  intro hmem
  have hnodup : ({s.published} + s.inHand + s.epoch.retired).Nodup :=
    h.owned ▸ Multiset.nodup_range _
  exact Multiset.disjoint_left.1 (Multiset.nodup_add.1 hnodup).2.2
    (Multiset.mem_add.2 (.inl (Multiset.mem_singleton_self _))) hmem

/-- A step of a reader: the domain and its own call change. -/
theorem Sound.reader_step (h : s.Sound) (hreader : (s.phase t).IsReader) {e : Epoch Nat Nat}
    {n : Nat} (hguarded : Guarded (Function.update s.phase t p) e n) (hp : p.IsReader)
    (hretired : e.retired = s.epoch.retired) :
    ({ s with epoch := e, nextGuard := n }.setPhase t p).Sound := by
  have hne := h.not_writer hreader
  have hholder : ({ s with epoch := e, nextGuard := n }.setPhase t p).holder = s.holder := by
    show s.writer.map (Function.update s.phase t p) = s.writer.map s.phase
    cases hw : s.writer with
    | none => rfl
    | some w =>
      have hwt : w ≠ t := fun heq => hne (heq ▸ hw)
      rw [Option.map_some, Option.map_some, Function.update_of_ne hwt]
  refine ⟨hguarded, ?_, fun t' ht' => ?_, h.view, ?_, h.last, h.counts, h.bound⟩
  · rw [hholder]
    exact h.locked
  · show (Function.update s.phase t p t').IsReader
    by_cases htt : t' = t
    · rw [htt, Function.update_self]
      exact hp
    · rw [Function.update_of_ne htt]
      exact h.others t' ht'
  · rw [inHand, hholder]
    show {s.published} + s.inHand + e.retired = _
    rw [hretired]
    exact h.owned

/-- A collection. -/
theorem sound_collect (h : s.Sound) (k : Nat) :
    Sound { s with epoch := s.epoch.reclaim k } := by
  have hpinned : (s.epoch.reclaim k).pinned = s.epoch.pinned := by
    rw [Epoch.reclaim]
    cases s.epoch.deferred[k]? with
    | none => rfl
    | some entry =>
      by_cases hd : s.epoch.Drained entry
      · simp only [hd, if_true]
      · simp only [hd, if_false]
  refine ⟨?_, h.locked, h.others, h.view, ?_, h.last, h.counts, h.bound⟩
  · exact h.guarded.exec (.reclaim k)
      (fun t g hg => by
        show g ∈ (s.epoch.reclaim k).pinned
        rw [hpinned]
        exact h.guarded.pinned t g hg)
      (fun _ _ _ => by simp)
  · show {s.published} + s.inHand + (s.epoch.reclaim k).retired = _
    rw [Epoch.retired_reclaim]
    exact h.owned

/-- The phases of the other calls after a step of the holder of the lock. -/
theorem others_of_writer (hothers : ∀ t, s.writer ≠ some t → (s.phase t).IsReader)
    (hw : s.writer = some t) (t' : ThreadId) (ht' : some t ≠ some t') :
    (Function.update s.phase t p t').IsReader := by
  have hne : t' ≠ t := fun heq => ht' (heq ▸ rfl)
  rw [Function.update_of_ne hne]
  exact hothers t' (hw ▸ ht')

/-- A mutator changes the data. -/
theorem sound_mutate (h : s.Sound) (hw : s.writer = none) (call : StoreCall)
    : (s.mutate t call).Sound := by
  have hlocked := h.locked
  rw [holder, hw] at hlocked
  obtain ⟨hdata, hrevision⟩ : s.data = s.atomic.data ∧ s.revision = s.atomic.revision := hlocked
  have hhand : s.inHand = 0 := by
    rw [inHand, holder, hw]
    rfl
  have hheld : s.held.data = s.atomic.data := hdata
  obtain ⟨data, ⟨hs, ha⟩ | ⟨hs, ha⟩⟩ := RuntimeStore.alike_call hheld call
  · -- The call publishes: the change waits for the swap.
    have hne : (s.held.call call).revision ≠ s.revision := by
      rw [hs]
      exact RuntimeStore.publish_revision_ne s.held data
    rw [mutate, if_neg hne]
    refine ⟨h.guarded.set (fun _ hg => by cases hg) trivial, ?_, fun t' ht' => ?_, h.view, ?_,
      h.last, h.counts, h.bound⟩
    · show Locked _ (some (Function.update s.phase t (.mutated call) t))
      rw [Function.update_self]
      refine ⟨?_, hrevision⟩
      show s.atomic.call call = s.atomic.publish (s.held.call call).data
      rw [ha, hs]
      rfl
    · have hne' : t' ≠ t := fun heq => ht' (heq ▸ rfl)
      show (Function.update s.phase t (.mutated call) t').IsReader
      rw [Function.update_of_ne hne']
      exact h.others t' (by rw [hw]; simp)
    · have hhand' : inHand ({ s with data := (s.held.call call).data, writer := some t }.setPhase t
          (.mutated call)) = 0 := by
        show ReadPhase.taken (Function.update s.phase t (.mutated call) t) = 0
        rw [Function.update_self]
        rfl
      rw [hhand', ← hhand]
      exact h.owned
  · -- The call returns early.
    have heq : (s.held.call call).revision = s.revision := by
      rw [hs]
      rfl
    rw [mutate, if_pos heq]
    refine ⟨h.guarded, ?_, h.others, ?_, h.owned, h.last, ?_, h.bound⟩
    · show Locked _ (s.writer.map s.phase)
      rw [hw]
      show (s.held.call call).data = (s.atomic.call call).data ∧
        s.revision = (s.atomic.call call).revision
      rw [hs, ha]
      exact ⟨rfl, hrevision⟩
    · show s.viewAt s.published = (s.atomic.call call).published
      rw [ha]
      exact h.view
    · show (s.atomic.call call).revision = s.published % 2 ^ 64
      rw [ha]
      exact h.counts

/-- A step of the holder of the lock, which goes on holding it. -/
theorem Sound.writer_step (h : s.Sound) (hw : s.writer = some t) {s' : SharedStore}
    (hwriter : s'.writer = some t) (hphase : s'.phase = Function.update s.phase t p)
    (hguarded : Guarded s'.phase s'.epoch s'.nextGuard) (hlocked : s'.Locked (some p))
    (hview : s'.viewAt s'.published = s'.atomic.published)
    (howned : {s'.published} + p.taken + s'.epoch.retired = Multiset.range s'.views.length)
    (hlast : s'.published + 1 = s'.views.length)
    (hcounts : s'.atomic.revision = s'.published % 2 ^ 64) (hbound : s'.revision < 2 ^ 64) :
    s'.Sound := by
  have hholder : s'.holder = some p := by
    rw [holder, hwriter, hphase, Option.map_some, Function.update_self]
  refine ⟨hguarded, by rw [hholder]; exact hlocked, fun t' ht' => ?_, hview, ?_, hlast, hcounts,
    hbound⟩
  · rw [hphase]
    exact others_of_writer h.others hw t' (hwriter ▸ ht')
  · rw [inHand, hholder]
    exact howned

/-- The next access of a mutator. -/
theorem sound_advance_writer (h : s.Sound) (hw : s.writer = some t) : (s.advance t).Sound := by
  have hlocked := h.locked
  have howned := h.owned
  have hholder : s.holder = some (s.phase t) := by rw [holder, hw, Option.map_some]
  rw [inHand, hholder] at howned
  rw [hholder] at hlocked
  rw [advance]
  cases hphase : s.phase t with
  | idle => exact h
  | pinned query g => rw [hphase] at hlocked; exact hlocked.elim
  | loaded query g view => rw [hphase] at hlocked; exact hlocked.elim
  | mutated call =>
    rw [hphase] at hlocked howned
    exact h.writer_step hw hw rfl (h.guarded.pin rfl trivial) ⟨hlocked, rfl⟩ h.view howned h.last
      h.counts h.bound
  | rebuilt call view g =>
    rw [hphase] at hlocked howned
    obtain ⟨⟨hcall, hrevision⟩, rfl⟩ := hlocked
    refine h.writer_step hw hw rfl
      (h.guarded.set (fun g' hg => by rw [hphase]; exact hg) trivial) ⟨?_, ?_, ?_⟩ ?_ ?_ ?_ ?_
      h.bound
    · show s.data = (s.atomic.call call).data
      rw [hcall]
      rfl
    · show (s.revision + 1) % 2 ^ 64 = (s.atomic.call call).revision
      rw [hcall, hrevision]
      rfl
    · show 0 < s.views.length
      have := h.last
      omega
    · -- The new view is at the end of the allocations.
      show ((s.views ++ [ReadView.rebuild s.data])[s.views.length]?).getD .empty
        = (s.atomic.call call).published
      rw [hcall, List.getElem?_concat_length]
      rfl
    · show {s.views.length} + {s.published} + s.epoch.retired
        = Multiset.range (s.views ++ [ReadView.rebuild s.data]).length
      have hold : ({s.published} : Multiset Nat) + s.epoch.retired
          = Multiset.range s.views.length := by
        rw [← howned]
        show _ = {s.published} + 0 + s.epoch.retired
        rw [add_zero]
      rw [List.length_append, List.length_singleton, Multiset.range_succ, add_assoc, hold,
        Multiset.singleton_add]
    · show s.views.length + 1 = (s.views ++ [ReadView.rebuild s.data]).length
      rw [List.length_append, List.length_singleton]
    · -- The view is the next publish.
      show (s.atomic.call call).revision = s.views.length % 2 ^ 64
      rw [hcall, ← h.last]
      show (s.atomic.revision + 1) % 2 ^ 64 = _
      rw [h.counts, Nat.mod_add_mod]
  | swapped g old =>
    rw [hphase] at hlocked howned
    refine h.writer_step hw hw rfl ?_ hlocked h.view ?_ h.last h.counts h.bound
    · -- The writer has its own guard, so the old view waits for it at least.
      have hset : Guarded (Function.update s.phase t (.deferred g)) s.epoch s.nextGuard :=
        h.guarded.set (fun g' hg => by rw [hphase]; exact hg) trivial
      exact hset.exec (.defer old) (fun t' g' hg => hset.pinned t' g' hg)
        (fun _ _ _ => by simp)
    · show {s.published} + 0 + (s.epoch.defer old).retired = Multiset.range s.views.length
      rw [Epoch.retired_defer, ← howned, add_zero, ← Multiset.singleton_add, add_assoc]
      rfl
  | deferred g =>
    rw [hphase] at hlocked howned
    exact h.writer_step hw hw rfl (h.guarded.set (fun g' hg => by rw [hphase]; exact hg) trivial)
      ⟨hlocked.1, hlocked.2.1⟩ h.view howned h.last h.counts (Nat.mod_lt _ (by decide))
  | bumped g =>
    rw [hphase] at hlocked howned
    refine ⟨h.guarded.unpin (by rw [hphase]; rfl), hlocked, fun t' _ => ?_, h.view, howned, h.last,
      h.counts, h.bound⟩
    show (Function.update s.phase t .idle t').IsReader
    by_cases htt : t' = t
    · rw [htt, Function.update_self]
      trivial
    · rw [Function.update_of_ne htt]
      exact h.others t' (by rw [hw]; exact fun heq => htt (Option.some.inj heq).symm)

/-- The next access of a lock-free reader. -/
theorem sound_advance_reader (h : s.Sound) (hreader : (s.phase t).IsReader) :
    (s.advance t).Sound := by
  rw [advance]
  cases hphase : s.phase t with
  | idle => exact h
  | pinned query g =>
    -- The load: the guard protects what is published.
    have hg : (s.phase t).guard = some g := by rw [hphase]; rfl
    have hsafe : ReadPhase.Safe s.epoch (.loaded query g s.published) :=
      Epoch.protected_of_reachable (h.guarded.pinned t g hg) h.published_reachable
    exact h.reader_step (p := .loaded query g s.published) hreader
      (h.guarded.set (fun g' hg' => hg.trans hg') hsafe) trivial rfl
  | loaded query g view =>
    have hg : (s.phase t).guard = some g := by rw [hphase]; rfl
    exact h.reader_step (p := .idle) hreader (h.guarded.unpin hg) trivial Epoch.retired_unpin
  | _ => rw [hphase] at hreader; exact hreader.elim

/-- Every step keeps the invariant. -/
theorem sound_exec (h : s.Sound) (step : ReadStep) : (s.exec step).Sound := by
  cases step with
  | read t query =>
    simp only [exec]
    cases hphase : s.phase t with
    | idle =>
      exact h.reader_step (p := .pinned query s.nextGuard) (by rw [hphase]; trivial)
        (h.guarded.pin rfl trivial) trivial Epoch.retired_pin
    | _ => exact h
  | mutate t call =>
    simp only [exec]
    cases hphase : s.phase t with
    | idle =>
      cases hw : s.writer with
      | none => exact sound_mutate h hw call
      | some w => exact h
    | _ => exact h
  | advance t =>
    by_cases hreader : (s.phase t).IsReader
    · exact sound_advance_reader h hreader
    · exact sound_advance_writer h (h.is_writer hreader)
  | collect k => exact sound_collect h k

theorem sound_at (steps : List ReadStep) (k : Nat) : (stateAt exec new steps k).Sound :=
  (steps_true new steps).invariant_at sound_new (fun _ step h _ => sound_exec h step) k

/-! ### Reads are linearizable -/

/-- A step that ends with a loaded pointer is its load. -/
theorem load_of_exec {step : ReadStep} {query : ReadQuery} {g view : Nat}
    (hnot : s.phase t ≠ .loaded query g view)
    (hphase : (s.exec step).phase t = .loaded query g view) :
    s.phase t = .pinned query g ∧ view = s.published ∧ step = .advance t := by
  -- A phase that a thread gets to is the new one of that thread, or the old one.
  have hset (s' : SharedStore) {t' : ThreadId} {p : ReadPhase} (hs' : s'.phase = s.phase)
      (h : (s'.setPhase t' p).phase t = .loaded query g view) :
      t = t' ∧ p = .loaded query g view := by
    by_cases ht : t = t'
    · refine ⟨ht, ?_⟩
      have hp : Function.update s'.phase t' p t = p := by rw [ht, Function.update_self]
      exact hp.symm.trans h
    · have hold : Function.update s'.phase t' p t = s.phase t := by
        rw [Function.update_of_ne ht, hs']
      exact absurd (hold.symm.trans h) hnot
  cases step with
  | read t' query' =>
    simp only [exec] at hphase
    cases ht' : s.phase t' with
    | idle =>
      rw [ht'] at hphase
      have h := hset s.pin rfl hphase
      cases h.2
    | _ => rw [ht'] at hphase; exact absurd hphase hnot
  | mutate t' call =>
    simp only [exec] at hphase
    cases ht' : s.phase t' with
    | idle =>
      cases hw : s.writer with
      | none =>
        rw [ht', hw] at hphase
        simp only [mutate] at hphase
        by_cases hrevision : (s.held.call call).revision = s.revision
        · rw [if_pos hrevision] at hphase
          exact absurd hphase hnot
        · rw [if_neg hrevision] at hphase
          have h := hset { s with
            data := (s.held.call call).data, writer := some t' } rfl hphase
          cases h.2
      | some w => rw [ht', hw] at hphase; exact absurd hphase hnot
    | _ => rw [ht'] at hphase; exact absurd hphase hnot
  | advance t' =>
    simp only [exec, advance] at hphase
    cases ht' : s.phase t' with
    | idle => rw [ht'] at hphase; exact absurd hphase hnot
    | pinned query' g' =>
      rw [ht'] at hphase
      obtain ⟨rfl, heq⟩ := hset s rfl hphase
      cases heq
      exact ⟨ht', rfl, rfl⟩
    | bumped g' =>
      rw [ht'] at hphase
      cases (hset { s.unpin g' with writer := none } rfl hphase).2
    | loaded query' g' view' =>
      rw [ht'] at hphase
      cases (hset (s.unpin g') rfl hphase).2
    | mutated call =>
      rw [ht'] at hphase
      cases (hset s.pin rfl hphase).2
    | rebuilt call view' g' =>
      rw [ht'] at hphase
      cases (hset { s with
        views := s.views ++ [view'], published := s.views.length,
        atomic := s.atomic.call call } rfl hphase).2
    | swapped g' old =>
      rw [ht'] at hphase
      cases (hset { s with epoch := s.epoch.defer old } rfl hphase).2
    | deferred g' =>
      rw [ht'] at hphase
      cases (hset { s with revision := (s.revision + 1) % 2 ^ 64 } rfl hphase).2
  | collect k => exact absurd hphase hnot

/-- The allocations of a step begin with those before it. -/
theorem views_exec (s : SharedStore) (step : ReadStep) : s.views <+: (s.exec step).views := by
  cases step with
  | read t query =>
    simp only [exec]
    cases s.phase t <;> exact List.prefix_rfl
  | mutate t call =>
    simp only [exec]
    cases s.phase t with
    | idle =>
      cases s.writer with
      | none =>
        simp only [mutate]
        by_cases h : (s.held.call call).revision = s.revision
        · rw [if_pos h]
        · rw [if_neg h]
          exact List.prefix_rfl
      | some w => exact List.prefix_rfl
    | _ => exact List.prefix_rfl
  | advance t =>
    simp only [exec, advance]
    cases s.phase t with
    | rebuilt call view g => exact List.prefix_append _ _
    | _ => exact List.prefix_rfl
  | collect k => exact List.prefix_rfl

theorem viewAt_later {s' : SharedStore} (h : s.views <+: s'.views) {v : Nat}
    (hv : v < s.views.length) : s'.viewAt v = s.viewAt v := by
  obtain ⟨rest, hrest⟩ := h
  rw [viewAt, viewAt, ← hrest, List.getElem?_append_left hv]

/-- A lock-free reader that has loaded its pointer did so at a step of its call. From there on
the view is not destroyed, and what the reader finds in it is the answer that the one-step
store has at that step. -/
theorem read_linearizable {steps : List ReadStep} {k : Nat} {query : ReadQuery} {g view : Nat}
    (hphase : (stateAt exec new steps k).phase t = .loaded query g view) :
    ∃ j < k, (stateAt exec new steps j).phase t = .pinned query g ∧
      ∀ l, j < l → l ≤ k → (stateAt exec new steps l).phase t = .loaded query g view ∧
        view ∉ (stateAt exec new steps l).epoch.freed ∧
        (stateAt exec new steps l).answer query view
          = (stateAt exec new steps j).atomic.read query := by
  obtain ⟨j, step, -, hjk, hstep, hnot, hafter⟩ :=
    exists_rise (s := new) (Q := fun s => s.phase t = .loaded query g view) (Nat.zero_le k)
      (fun h => by cases h) hphase
  have hloaded := hafter (j + 1) (Nat.lt_succ_self j) hjk
  rw [stateAt_succ hstep] at hloaded
  obtain ⟨hpinned, rfl, -⟩ := load_of_exec hnot hloaded
  refine ⟨j, hjk, hpinned, fun l hjl hlk => ⟨hafter l hjl hlk, ?_, ?_⟩⟩
  · have hsafe := (sound_at steps l).guarded.safe t
    rw [hafter l hjl hlk] at hsafe
    exact hsafe.notFreed
  · -- The view does not change after the load.
    have hj := sound_at steps j
    have hlt : (stateAt exec new steps j).published < (stateAt exec new steps j).views.length := by
      have := hj.last
      omega
    have hprefix : (stateAt exec new steps j).views <+: (stateAt exec new steps l).views :=
      stateAt_mono (I := fun _ => True)
        (Q := fun s => (stateAt exec new steps j).views <+: s.views) (fun _ => trivial)
        (fun s step _ h => h.trans (views_exec s step)) (Nat.le_of_lt hjl) List.prefix_rfl
    refine RuntimeStore.read_congr ?_ query
    exact (viewAt_later hprefix hlt).trans hj.view

/-- A reader loads its pointer, and a mutator replaces the view and defers its destruction. -/
def publishesWhileRead : List ReadStep :=
  [.read 1 (.countGuestContracts ⟨0⟩ 0), .advance 1,
    .mutate 2 (.op (.declareBundleDependencies ⟨1⟩ ∅)), .advance 2, .advance 2, .advance 2,
    .advance 2, .advance 2, .collect 0]

/-- The collector leaves the view to the reader. -/
theorem read_linearizable_publishes :
    0 ∉ (stateAt exec new publishesWhileRead 9).epoch.freed := by
  have hloaded : (stateAt exec new publishesWhileRead 9).phase 1
      = .loaded (.countGuestContracts ⟨0⟩ 0) 0 0 := rfl
  obtain ⟨j, hj, -, hafter⟩ := read_linearizable hloaded
  exact (hafter 9 hj le_rfl).2.1

/-- While no mutator holds the lock, what it protects is that of the one-step store, so the
locked readers agree with the lock-free ones. -/
theorem unlocked_eq_atomic (steps : List ReadStep) (k : Nat)
    (hfree : (stateAt exec new steps k).writer = none) :
    (stateAt exec new steps k).held.data = (stateAt exec new steps k).atomic.data ∧
      (stateAt exec new steps k).held.published = (stateAt exec new steps k).atomic.published ∧
      (stateAt exec new steps k).held.revision = (stateAt exec new steps k).atomic.revision := by
  have h := sound_at steps k
  have hlocked := h.locked
  rw [holder, hfree] at hlocked
  exact ⟨hlocked.1, h.view, hlocked.2⟩

/-- The mutator has returned, and the reader still holds its view. -/
theorem unlocked_eq_atomic_publishes :
    (stateAt exec new publishesWhileRead 9).held.data
        = (stateAt exec new publishesWhileRead 9).atomic.data ∧
      (stateAt exec new publishesWhileRead 9).held.published
        = (stateAt exec new publishesWhileRead 9).atomic.published ∧
      (stateAt exec new publishesWhileRead 9).held.revision
        = (stateAt exec new publishesWhileRead 9).atomic.revision :=
  unlocked_eq_atomic publishesWhileRead 9 rfl

/-! ### The views -/

/-- No view is destroyed twice, and the published one is not destroyed. While no mutator holds
the lock, every other one is destroyed or waits to be. -/
theorem views_destroyed_once (steps : List ReadStep) (k : Nat) :
    (stateAt exec new steps k).epoch.freed.Nodup ∧
      (stateAt exec new steps k).published ∉ (stateAt exec new steps k).epoch.freed ∧
      ((stateAt exec new steps k).writer = none →
        ∀ v < (stateAt exec new steps k).views.length,
          v = (stateAt exec new steps k).published ∨
            v ∈ (stateAt exec new steps k).epoch.retired) := by
  generalize hs : stateAt exec new steps k = s
  have h : s.Sound := hs ▸ sound_at steps k
  have hnodup : ({s.published} + s.inHand + s.epoch.retired).Nodup :=
    h.owned ▸ Multiset.nodup_range _
  have hretired : s.epoch.retired.Nodup := (Multiset.nodup_add.1 hnodup).2.1
  refine ⟨Multiset.coe_nodup.1 (Multiset.nodup_add.1 hretired).2.1, ?_, fun hfree v hv => ?_⟩
  · intro hfreed
    exact h.published_reachable (Epoch.mem_retired.2 (.inr hfreed))
  · have hmem : v ∈ ({s.published} + s.inHand + s.epoch.retired : Multiset Nat) :=
      h.owned ▸ Multiset.mem_range.2 hv
    rw [inHand, holder, hfree] at hmem
    rcases Multiset.mem_add.1 hmem with hpublished | hold
    · exact .inl (by simpa using hpublished)
    · exact .inr hold

/-! ### The revision -/

/-- The revision counts the publishes, up to the one whose swap is made and whose bump is to
come. -/
theorem Sound.revision_counts (h : s.Sound) :
    ∃ b, s.revision = b % 2 ^ 64 ∧ b ≤ s.published ∧ s.published ≤ b + 1 := by
  have hlocked := h.locked
  have hcounts := h.counts
  have hbound := h.bound
  have hlevel (heq : s.revision = s.atomic.revision) :
      ∃ b, s.revision = b % 2 ^ 64 ∧ b ≤ s.published ∧ s.published ≤ b + 1 :=
    ⟨s.published, heq.trans hcounts, le_rfl, Nat.le_succ _⟩
  have hbehind (heq : (s.revision + 1) % 2 ^ 64 = s.atomic.revision)
      (hpos : 0 < s.published) :
      ∃ b, s.revision = b % 2 ^ 64 ∧ b ≤ s.published ∧ s.published ≤ b + 1 := by
    exact ⟨s.published - 1, by omega, by omega, by omega⟩
  cases hholder : s.holder with
  | none =>
    rw [hholder] at hlocked
    exact hlevel hlocked.2
  | some p =>
    rw [hholder] at hlocked
    cases p with
    | bumped g => exact hlevel hlocked.2
    | mutated call => exact hlevel hlocked.2
    | rebuilt call view g => exact hlevel hlocked.1.2
    | swapped g old => exact hbehind hlocked.2.1 hlocked.2.2
    | deferred g => exact hbehind hlocked.2.1 hlocked.2.2
    | _ => exact hlocked.elim

/-- The pointer goes to ever later views. -/
theorem Sound.published_exec (h : s.Sound) (step : ReadStep) :
    s.published ≤ (s.exec step).published := by
  cases step with
  | read t query =>
    simp only [exec]
    cases s.phase t <;> exact le_rfl
  | mutate t call =>
    simp only [exec]
    cases s.phase t with
    | idle =>
      cases s.writer with
      | none =>
        simp only [mutate]
        by_cases heq : (s.held.call call).revision = s.revision
        · rw [if_pos heq]
        · rw [if_neg heq]
          exact le_rfl
      | some w => exact le_rfl
    | _ => exact le_rfl
  | advance t =>
    simp only [exec, advance]
    cases s.phase t with
    | rebuilt call view g =>
      show s.published ≤ s.views.length
      have := h.last
      omega
    | _ => exact le_rfl
  | collect k => exact le_rfl

/-- A revision that is read stands for a number of publishes. It is at most one behind, and no
view that is loaded later is older. -/
theorem revision_behind (steps : List ReadStep) {j k : Nat} (hjk : j ≤ k) :
    ∃ b, (stateAt exec new steps j).revision = b % 2 ^ 64 ∧
      (stateAt exec new steps j).published ≤ b + 1 ∧
      b ≤ (stateAt exec new steps k).published := by
  obtain ⟨b, hrevision, hle, hbehind⟩ := (sound_at steps j).revision_counts
  refine ⟨b, hrevision, hbehind, ?_⟩
  exact stateAt_mono (Q := fun s => b ≤ s.published) (sound_at steps)
    (fun s step h hb => hb.trans (h.published_exec step)) hjk hle

/-- The revision is read after the swap and before its bump. -/
theorem revision_behind_publishes :
    ∃ b, (stateAt exec new publishesWhileRead 5).revision = b % 2 ^ 64 ∧
      (stateAt exec new publishesWhileRead 5).published ≤ b + 1 ∧
      b ≤ (stateAt exec new publishesWhileRead 7).published :=
  revision_behind publishesWhileRead (by decide)

end

end SharedStore

end PolyPlug.Registry
