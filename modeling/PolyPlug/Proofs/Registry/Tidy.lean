import PolyPlug.Proofs.Registry.Mirror

/-!
# `PolyPlug.Proofs.Registry.Tidy`: what one call does to each slot

`RuntimeStore.Tidy` is the invariant of the runs in which every swap is given
distinct live slots of its own bundle (`TidyStep`). All other calls have any
arguments: a window may be abandoned with any slots, a bundle may be unloaded
inside its window.

`SlotEffect` says what a call of such a run can do to a slot. A live slot keeps
its bundle and its contract or is emptied, a slot is never emptied and refilled
by one call, and a generation moves exactly when a live slot is emptied by
anything but the purge of `abort_reload`. The registrations a call leaves in the
slots were there before or are its own (`Provides`).
-/

set_option autoImplicit false

namespace PolyPlug.Registry

open PolyPlug.Abi
open PolyPlug.Lib
open PolyPlug.Lib.Catalog
open RuntimeStoreData RuntimeStore

/-! ### The invariant -/

/-- Slots, index and slot lists agree, and the published view is the one of the
locked data. -/
structure RuntimeStore.Tidy (s : RuntimeStore) : Prop where
  present : s.data.Present
  consistent : s.data.Consistent
  mirrors : s.Mirrors

/-- The condition on a call: a swap is given distinct live slots of its bundle,
and the slot indices fit 32 bits. -/
def TidyStep (s : RuntimeStore) (op : StoreOp) : Prop :=
  (match op with
    | .applyReloadSwap b old _ _ => OwnSlots s.data b old
    | _                          => True) ∧
  (s.exec op).data.slots.length ≤ 2 ^ 32

instance (s : RuntimeStore) : (op : StoreOp) → Decidable (TidyStep s op)
  | .applyReloadSwap b old _ _ => inferInstanceAs (Decidable (OwnSlots s.data b old ∧ _))
  | .registerGuestContract .. | .registerPreparedBundle .. | .declareBundleDependencies ..
  | .registerBundleMetadata .. | .beginReload _ | .abortReload .. | .invalidateBundle _ =>
    inferInstanceAs (Decidable (True ∧ _))

/-- The call purges the slot: `abort_reload` finds it among the pending ones. -/
def Purges (s : RuntimeStore) : StoreOp → Nat → Prop
  | .abortReload b old, i => i ∈ pendingSlots s.data b old
  | _, _                  => False

instance (s : RuntimeStore) : (op : StoreOp) → (i : Nat) → Decidable (Purges s op i)
  | .abortReload b old, i => inferInstanceAs (Decidable (i ∈ pendingSlots s.data b old))
  | .registerGuestContract .., _ | .registerPreparedBundle .., _
  | .declareBundleDependencies .., _ | .registerBundleMetadata .., _ | .beginReload _, _
  | .applyReloadSwap .., _ | .invalidateBundle _, _ => inferInstanceAs (Decidable False)

/-- The call registers the interface for the bundle. -/
def Provides (op : StoreOp) (b : BundleId) (arc : Arc GuestContractInterface) : Prop :=
  match op with
  | .registerGuestContract descriptor interface ptr contractName bundleId =>
    bundleId = b ∧ ∃ contract, prepareGuestContract descriptor interface contractName
      interface.adapterContext ptr = .ok contract ∧ contract.interface = arc
  | .registerPreparedBundle descriptor _ contracts =>
    descriptor.id = b ∧ ∃ contract ∈ contracts, contract.interface = arc
  | _ => False

/-- The slot is live. -/
def RuntimeStore.Live (s : RuntimeStore) (i : Nat) : Prop := s.data.catalog.content i ≠ none

instance (s : RuntimeStore) (i : Nat) : Decidable (s.Live i) :=
  inferInstanceAs (Decidable (_ ≠ _))

/-- What a call does to the slots. -/
structure SlotEffect (s : RuntimeStore) (op : StoreOp) (s' : RuntimeStore) : Prop where
  /-- A slot that stays live keeps its bundle and its contract. -/
  kept : ∀ i r r', s.data.catalog.content i = some r → s'.data.catalog.content i = some r' →
    r'.owner = r.owner ∧ r'.key = r.key
  /-- A generation is bumped when its slot is emptied by anything but a purge. -/
  generation : ∀ i, s'.data.generationAt i
    = if (s.Live i ∧ ¬ s'.Live i) ∧ ¬ Purges s op i
      then wrappingSucc (s.data.generationAt i) else s.data.generationAt i
  /-- A registration was in some slot before or is one of this call. -/
  source : ∀ i r, s'.data.catalog.content i = some r →
    (∃ j, s.data.catalog.content j = some r) ∨ Provides op r.owner r.arc

theorem tidy_new : RuntimeStore.new.Tidy := ⟨present_new, consistent_new, rfl⟩

/-! ### One call -/

section
variable {s s' : RuntimeStore} {op : StoreOp} {b : BundleId}

/-- A call that leaves the slots alone. -/
theorem SlotEffect.of_sameSlots (hsame : SameSlots s.data s'.data) : SlotEffect s op s' := by
  have hcat := hsame.catalog_eq
  refine ⟨fun i r r' hr hr' => ?_, fun i => ?_, fun i r hr => Or.inl ⟨i, ?_⟩⟩
  · rw [hcat, hr] at hr'
    cases hr'
    exact ⟨rfl, rfl⟩
  · rw [hsame.generationAt_eq, if_neg]
    rintro ⟨⟨hlive, hdead⟩, -⟩
    exact hdead (by rwa [Live, hcat])
  · rw [← hcat]
    exact hr

/-- A registration call that changed the store. -/
theorem SlotEffect.of_registers {rs : List Registration} {hs : List GuestContractHandle}
    {data' : RuntimeStoreData} (hreg : Registers s.data b rs hs data')
    (hprovides : ∀ r ∈ rs, Provides op r.owner r.arc) : SlotEffect s op (s.publish data') := by
  refine ⟨fun i r r' hr hr' => ?_, fun i => ?_, fun i r hr => ?_⟩
  · have hsame := hreg.content_kept hr
    rw [show data'.catalog.content i = some r' from hr'] at hsame
    cases hsame
    exact ⟨rfl, rfl⟩
  · rw [if_neg]
    · exact hreg.generationAt_eq i
    · rintro ⟨⟨hlive, hdead⟩, -⟩
      obtain ⟨r, hr⟩ := Option.ne_none_iff_exists'.mp hlive
      exact hdead (by simp [Live, RuntimeStore.publish, hreg.content_kept hr])
  · refine hreg.rule
      (I := fun d => ∀ i r, d.catalog.content i = some r →
        (∃ j, s.data.catalog.content j = some r) ∨ Provides op r.owner r.arc)
      (fun i r h => Or.inl ⟨i, h⟩) ?_ ?_ i r hr
    · intro d d' hsame _ hsource
      rw [hsame.catalog_eq]
      exact hsource
    · intro d g h d' hg _ _ hins hsource i r' hr'
      rw [hins.catalog_eq] at hr'
      by_cases hi : i = h.index
      · simp only [add, hi, if_true, Option.some.injEq] at hr'
        subst hr'
        exact Or.inr (hprovides g hg)
      · exact hsource i r' (by simpa [add, hi] using hr')

theorem RuntimeStore.Tidy.of_registers (h : s.Tidy) {rs : List Registration}
    {hs : List GuestContractHandle} {data' : RuntimeStoreData}
    (hreg : Registers s.data b rs hs data') : (s.publish data').Tidy := by
  have hinv : data'.Present ∧ data'.Consistent := by
    refine hreg.rule (I := fun d => d.Present ∧ d.Consistent) ⟨h.present, h.consistent⟩ ?_ ?_
    · rintro d d' hsame - ⟨hp, hc⟩
      exact ⟨hsame.present.mpr hp, hsame.consistent.mpr hc⟩
    · rintro d r i d' - - - hins ⟨hp, hc⟩
      refine ⟨hins.present hp, ?_⟩
      rw [RuntimeStoreData.Consistent, hins.catalog_eq]
      exact consistent_add hc hins.vacant r _
  exact ⟨hinv.1, hinv.2, rfl⟩

/-- `abort_reload` empties slots without a bump. -/
theorem abortReload_effect (h : s.Tidy) (old : List Nat) :
    (s.abortReload b old).Tidy ∧ SlotEffect s (.abortReload b old) (s.abortReload b old) := by
  obtain ⟨data', heq, hpurge⟩ := abortReload_purge s b old h.present h.consistent.indexed
  have hsame := sameSlots_closeWindow s.data b
  have hcat := hpurge.catalog_eq
  rw [hsame.catalog_eq] at hcat
  have hcontent : ∀ i, data'.catalog.content i
      = if i ∈ pendingSlots s.data b old then none else s.data.catalog.content i := by
    intro i
    rw [hcat]
    rfl
  rw [heq]
  refine ⟨⟨hpurge.present, ?_, rfl⟩, fun i r r' hr hr' => ?_, fun i => ?_, fun i r hr => ?_⟩
  · show data'.Consistent
    rw [RuntimeStoreData.Consistent, hcat]
    exact consistent_withdraw h.consistent fun i hi => (List.mem_filter.mp hi).1
  · replace hr' : data'.catalog.content i = some r' := hr'
    rw [hcontent] at hr'
    split at hr'
    · cases hr'
    · rw [hr] at hr'
      cases hr'
      exact ⟨rfl, rfl⟩
  · rw [if_neg]
    · exact (hpurge.generations i).trans (hsame.generationAt_eq i)
    · -- The emptied slots are the purged ones.
      rintro ⟨⟨hlive, hdead⟩, hnot⟩
      refine hdead ?_
      show data'.catalog.content i ≠ none
      rw [hcontent, if_neg (show i ∉ pendingSlots s.data b old from hnot)]
      exact hlive
  · replace hr : data'.catalog.content i = some r := hr
    rw [hcontent] at hr
    split at hr
    · cases hr
    · exact Or.inl ⟨i, hr⟩

/-- Slots emptied with a bump, by a call that purges nothing. -/
theorem Vacates.generation_eq {data' : RuntimeStoreData} (h : Vacates s.data data')
    (hpurge : ∀ i, ¬ Purges s op i) (i : Nat) :
    (s.publish data').data.generationAt i
      = if (s.Live i ∧ ¬ (s.publish data').Live i) ∧ ¬ Purges s op i
        then wrappingSucc (s.data.generationAt i) else s.data.generationAt i := by
  have hpub : (s.publish data').data = data' := rfl
  rw [hpub, h.generation i]
  simp [Live, hpurge i, hpub]

theorem applyReloadSwap_effect (h : s.Tidy) {old : List Nat} (hown : OwnSlots s.data b old)
    (descriptor : BundleDescriptor) (dependencies : Finset GuestContractId) :
    (s.applyReloadSwap b old descriptor dependencies).2.Tidy ∧
      SlotEffect s (.applyReloadSwap b old descriptor dependencies)
        (s.applyReloadSwap b old descriptor dependencies).2 := by
  rcases applyReloadSwap_own h.present h.consistent hown descriptor dependencies with
    ⟨data', heq, hswap⟩ | ⟨-, -, -, heq⟩
  · rw [heq]
    obtain ⟨c, hrec, hcat⟩ := hswap.reconciled
    have hcontent : data'.catalog.content = c.content := by
      rw [hcat, publish_content]
    refine ⟨⟨hswap.present, ?_, rfl⟩, fun i r r' hr hr' => ?_,
      hswap.vacates.generation_eq fun _ hpurge => hpurge, fun i r hr => ?_⟩
    · show data'.Consistent
      rw [RuntimeStoreData.Consistent, hcat]
      exact consistent_publish hrec.consistent _
    · replace hr' : data'.catalog.content i = some r' := hr'
      rw [hcontent] at hr'
      obtain ⟨g, hg, hkey, howner⟩ := hrec.origin i r' hr'
      rw [hr] at hg
      cases hg
      exact ⟨howner.symm, hkey.symm⟩
    · replace hr : data'.catalog.content i = some r := hr
      rw [hcontent] at hr
      exact Or.inl (hrec.source i r hr)
  · rw [heq]
    have hsame := sameSlots_closeWindow s.data b
    exact ⟨⟨hsame.present.mpr h.present, hsame.consistent.mpr h.consistent, h.mirrors⟩,
      SlotEffect.of_sameSlots hsame⟩

theorem invalidateBundle_effect (h : s.Tidy) :
    (s.invalidateBundle b).2.Tidy ∧
      SlotEffect s (.invalidateBundle b) (s.invalidateBundle b).2 := by
  rcases invalidateBundle_cases s b h.present h.consistent.indexed with
    ⟨-, heq⟩ | ⟨data', heq, hinv⟩
  · rw [heq]
    exact ⟨h, SlotEffect.of_sameSlots ⟨rfl, rfl, fun _ => rfl⟩⟩
  · rw [heq]
    have hcontent : ∀ i, data'.catalog.content i
        = if i ∈ s.data.pluginSlots b then none else s.data.catalog.content i := by
      intro i
      rw [hinv.catalog_eq]
      rfl
    have hvacates := hinv.vacates (h.consistent.held_nodup b) fun i hi => by
      obtain ⟨r, hr, -⟩ := h.consistent.content_of_held hi
      simp [hr]
    refine ⟨⟨hinv.present, ?_, rfl⟩, fun i r r' hr hr' => ?_,
      hvacates.generation_eq fun _ hpurge => hpurge, fun i r hr => ?_⟩
    · show data'.Consistent
      rw [RuntimeStoreData.Consistent, hinv.catalog_eq]
      exact consistent_withdraw h.consistent fun _ hi => hi
    · replace hr' : data'.catalog.content i = some r' := hr'
      rw [hcontent] at hr'
      split at hr'
      · cases hr'
      · rw [hr] at hr'
        cases hr'
        exact ⟨rfl, rfl⟩
    · replace hr : data'.catalog.content i = some r := hr
      rw [hcontent] at hr
      split at hr
      · cases hr
      · exact Or.inl ⟨i, hr⟩

/-- Every call of a tidy run. -/
theorem exec_effect (h : s.Tidy) (hop : TidyStep s op) :
    (s.exec op).Tidy ∧ SlotEffect s op (s.exec op) := by
  obtain ⟨hown, hlen⟩ := hop
  cases op with
  | registerGuestContract descriptor interface ptr contractName b =>
    simp only [RuntimeStore.exec] at hlen ⊢
    rcases registerGuestContract_cases s descriptor interface ptr contractName b with
      ⟨e, heq⟩ | ⟨contract, handle, data', hprep, -, hins, heq⟩
    · rw [heq]
      exact ⟨h, .of_sameSlots ⟨rfl, rfl, fun _ => rfl⟩⟩
    · rw [heq] at hlen ⊢
      have hreg := registers_of_registerGuestContract hins hlen
      refine ⟨h.of_registers hreg, .of_registers hreg fun r hr => ?_⟩
      rw [List.mem_singleton.mp hr]
      exact ⟨rfl, contract, hprep, rfl⟩
  | registerPreparedBundle descriptor dependencies contracts =>
    simp only [RuntimeStore.exec] at hlen ⊢
    rcases registerPreparedBundle_cases s descriptor dependencies contracts with
      ⟨e, heq⟩ | ⟨hs, data', -, -, hnew, hins, heq⟩
    · rw [heq]
      exact ⟨h, .of_sameSlots ⟨rfl, rfl, fun _ => rfl⟩⟩
    · rw [heq] at hlen ⊢
      have hreg := registers_of_registerPreparedBundle hnew hins hlen
      refine ⟨h.of_registers hreg, .of_registers hreg fun r hr => ?_⟩
      obtain ⟨contract, hmem, rfl⟩ := List.mem_map.mp hr
      exact ⟨rfl, contract, hmem, rfl⟩
  | declareBundleDependencies b contractIds =>
    exact ⟨⟨h.present, h.consistent, rfl⟩, .of_sameSlots ⟨rfl, rfl, fun _ => rfl⟩⟩
  | registerBundleMetadata b bundleName version runtime origin dependencies =>
    have hsame := sameSlots_registerBundleMetadata s b bundleName version runtime origin
      dependencies
    exact ⟨⟨h.present, hsame.consistent.mpr h.consistent, rfl⟩, .of_sameSlots hsame⟩
  | beginReload b =>
    exact ⟨⟨h.present, h.consistent, rfl⟩, .of_sameSlots ⟨rfl, rfl, fun _ => rfl⟩⟩
  | abortReload b old => exact abortReload_effect h old
  | applyReloadSwap b old descriptor dependencies =>
    exact applyReloadSwap_effect h hown descriptor dependencies
  | invalidateBundle b => exact invalidateBundle_effect h

end

/-- Every state of a tidy run is tidy. -/
theorem tidy_run {s : RuntimeStore} (h : s.Tidy) {ops : List StoreOp}
    (hops : Steps RuntimeStore.exec TidyStep s ops) : (run RuntimeStore.exec s ops).Tidy :=
  hops.invariant h fun _ _ hs hop => (exec_effect hs hop).1

end PolyPlug.Registry
