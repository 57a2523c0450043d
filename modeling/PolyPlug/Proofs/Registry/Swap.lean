import PolyPlug.Proofs.Registry.Register
import PolyPlug.Proofs.Registry.Reload

/-!
# `PolyPlug.Proofs.Registry.Swap`: a swap over the bundle's own slots

`apply_reload_swap` checks nothing about its `old_slots` but that each names an
interface when its turn comes. When they are distinct live slots of the bundle,
every check passes: the loop ends without an error, and the only error left is
the one of a bundle without a record, which then has no slot at all.
-/

set_option autoImplicit false

namespace PolyPlug.Registry

open PolyPlug.Abi
open PolyPlug.Lib (Catalog lookup_insert_eq lookup_erase_eq)
open PolyPlug.Lib.Catalog
open RuntimeStoreData RuntimeStore

section
variable {data : RuntimeStoreData} {b : BundleId} {news old : List Nat}

/-- A slot with a contract has an entry and an interface. -/
theorem slot_of_contractAt (hp : data.Present) {i : Nat} {cid : GuestContractId}
    (hcid : data.contractAt i = some cid) :
    ∃ slot, data.slots[i]? = some slot ∧ slot.entry.isSome ∧ slot.interface.isSome := by
  cases hslot : data.slots[i]? with
  | none => simp [contractAt, interfaceAt, hslot] at hcid
  | some slot =>
    have harc : slot.interface.isSome := by
      cases h : slot.interface <;> simp_all [contractAt, interfaceAt]
    exact ⟨slot, rfl, by rw [hp slot (List.mem_of_getElem? hslot)]; exact harc, harc⟩

/-- The turn of a live old slot never fails. -/
theorem swapOldSlot_ok (b : BundleId) (news : List Nat) (hp : data.Present) (oldIdx : Nat)
    (hlive : data.catalog.content oldIdx ≠ none) :
    ∃ data', swapOldSlot b news data oldIdx = .ok data' := by
  obtain ⟨cid, hcid⟩ : ∃ cid, data.contractAt oldIdx = some cid := by
    rw [contractAt_eq hp]
    cases h : data.catalog.content oldIdx with
    | none => exact absurd h hlive
    | some r => exact ⟨r.key, by simp [keyAt, h]⟩
  unfold swapOldSlot
  rw [hcid]
  dsimp only
  cases hmatch : matchingNewSlot data news cid with
  | none => exact ⟨_, rfl⟩
  | some newIdx =>
    obtain ⟨newSlot, hnew, hnentry, hnarc⟩ := slot_of_contractAt hp (matchingNewSlot_some hmatch).2
    obtain ⟨oldSlot, hold, hoentry, hoarc⟩ := slot_of_contractAt hp hcid
    refine ⟨moveSlot b data cid oldIdx newIdx oldSlot newSlot, ?_⟩
    simp only [hnew, hold]
    rw [if_neg, if_neg]
    · cases h : oldSlot.entry <;> cases h' : oldSlot.interface <;> simp_all
    · cases h : newSlot.entry <;> cases h' : newSlot.interface <;> simp_all

/-- The loop over distinct live slots of the bundle never fails. -/
theorem swapOldSlots_ok {c₀ : Catalog Nat Registration BundleId GuestContractId}
    {rest : List Nat} (hp : data.Present)
    (hnews : ∀ n ∈ news, n ∈ c₀.held b ∧ n ∉ old)
    (h : Reconciling Registration.key Registration.owner c₀ b old rest data.catalog) :
    ∃ mid, swapOldSlots b news rest data = (.ok (), mid) := by
  induction rest generalizing data with
  | nil => exact ⟨_, rfl⟩
  | cons oldIdx rest ih =>
    have hheld := h.rest_held oldIdx List.mem_cons_self
    obtain ⟨r, hr, -⟩ := h.consistent.content_of_held hheld
    obtain ⟨mid, hone⟩ := swapOldSlot_ok b news hp oldIdx (by simp [hr])
    have hstep := swapOldSlot_step hp h.consistent.toIndexed hone
    obtain ⟨data', hrest⟩ :=
      ih (swapOldSlot_effect hp hone).present (hstep.replace.reconciling hnews h)
    exact ⟨data', by rw [swapOldSlots, hone]; exact hrest⟩

end

/-! ### The whole swap -/

section
variable {s : RuntimeStore} {b : BundleId} {old : List Nat}

/-- The slots handed over are distinct live slots of the bundle. -/
structure OwnSlots (data : RuntimeStoreData) (b : BundleId) (old : List Nat) : Prop where
  held : ∀ i ∈ old, i ∈ data.pluginSlots b
  nodup : old.Nodup

instance (data : RuntimeStoreData) (b : BundleId) (old : List Nat) :
    Decidable (OwnSlots data b old) :=
  decidable_of_iff ((∀ i ∈ old, i ∈ data.pluginSlots b) ∧ old.Nodup)
    ⟨fun h => ⟨h.1, h.2⟩, fun h => ⟨h.held, h.nodup⟩⟩

/-- What a swap over own slots does: the loop is a `Reconciling` one, then the
pending slots are published. -/
structure OwnSwap (s : RuntimeStore) (b : BundleId) (old : List Nat)
    (data' : RuntimeStoreData) : Prop where
  reconciled : ∃ c, Reconciling Registration.key Registration.owner s.data.catalog b old [] c ∧
    data'.catalog = c.publish Registration.key (pendingSlots s.data b old)
  vacates : Vacates s.data data'
  present : data'.Present
  reloading : data'.reloadingBundles = s.data.reloadingBundles.erase b
  length : data'.slots.length = s.data.slots.length
  noEmptyKey : (∀ n ∈ pendingSlots s.data b old, ∀ k, n ∉ s.data.indexOf k) →
    s.data.NoEmptyKey → data'.NoEmptyKey

/-- A `Swaps` over own slots. -/
theorem OwnSlots.ownSwap (hown : OwnSlots s.data b old) (hc : s.data.Consistent)
    {data' : RuntimeStoreData} (hswap : Swaps s b old data') : OwnSwap s b old data' := by
  obtain ⟨⟨mid, hloop, hcat, hslots, hkeys⟩, hreload⟩ := hswap
  have hsame := sameSlots_closeWindow s.data b
  have hrec := hloop.reconcile
  rw [hsame.catalog_eq] at hrec
  have hnews : ∀ n ∈ pendingSlots s.data b old, n ∈ s.data.catalog.held b ∧ n ∉ old := by
    simp [pendingSlots, catalog]
  have hdone := hrec.reconciling hnews (Reconciling.start hc hown.held hown.nodup)
  have hcontent : data'.catalog.content = mid.catalog.content := by
    simp only [catalog, hslots]
  refine ⟨⟨mid.catalog, hdone, hcat⟩, ?_, ?_, hreload, ?_, ?_⟩
  · refine Vacates.trans (.of_eq ?_ hsame.generationAt_eq)
      (hloop.vacates.trans (.of_eq hcontent ?_))
    · rw [hsame.catalog_eq]
    · intro i
      simp only [generationAt, hslots]
  · intro slot hslot
    rw [hslots] at hslot
    exact hloop.present slot hslot
  · rw [hslots, hloop.length, hsame.slots]
  · intro hpending hk
    refine hkeys (hloop.noEmptyKey ?_ (hsame.noEmptyKey.mpr hk))
    intro n hn k
    exact hpending n hn k

/-- `apply_reload_swap` over own slots succeeds, or finds no record of the
bundle, which then holds no slot. -/
theorem applyReloadSwap_own (hp : s.data.Present) (hc : s.data.Consistent)
    (hown : OwnSlots s.data b old) (descriptor : BundleDescriptor)
    (dependencies : Finset GuestContractId) :
    (∃ data', s.applyReloadSwap b old descriptor dependencies = (.ok (), s.publish data') ∧
      OwnSwap s b old data') ∨
    (s.data.bundleData.lookup b = none ∧ old = [] ∧ s.data.pluginSlots b = [] ∧
      s.applyReloadSwap b old descriptor dependencies
        = (.error (.missingBundleMetadata b.id), s.unpublished (closeWindow s.data b))) := by
  have hsame := sameSlots_closeWindow s.data b
  have hstart : Reconciling Registration.key Registration.owner s.data.catalog b old old
      (closeWindow s.data b).catalog := by
    rw [hsame.catalog_eq]
    exact .start hc hown.held hown.nodup
  have hnews : ∀ n ∈ pendingSlots s.data b old, n ∈ s.data.catalog.held b ∧ n ∉ old := by
    simp [pendingSlots, catalog]
  obtain ⟨mid, hmid⟩ := swapOldSlots_ok (hsame.present.mpr hp) hnews hstart
  cases hres : s.applyReloadSwap b old descriptor dependencies with
  | mk result s' =>
    cases result with
    | ok u =>
      obtain ⟨data', rfl, hswap⟩ := swaps_of_applyReloadSwap hp hc.indexed hres
      exact Or.inl ⟨data', rfl, hown.ownSwap hc hswap⟩
    | error e =>
      rcases applyReloadSwap_cases s b old descriptor dependencies with
        ⟨e', mid', hloop, -⟩ | ⟨mid', hloop, ⟨hnone, heq⟩ | ⟨bd, -, heq⟩⟩
      · rw [hmid] at hloop
        cases hloop
      · -- The loops keep the record, so the bundle had none and held nothing.
        have hrun := swapOldSlots_loop (hsame.present.mpr hp) (hsame.indexed.mpr hc.indexed) hloop
        rw [(foldl_publishSlot _ _).bundleData] at hnone
        have hrecord : s.data.bundleData.lookup b = none := by
          have hsome := hrun.bundles.isSome b
          rw [hnone] at hsome
          exact Option.isNone_iff_eq_none.mp (by simpa [closeWindow] using hsome.symm)
        have hempty : s.data.pluginSlots b = [] := by simp [pluginSlots, hrecord]
        have hold : old = [] := List.eq_nil_iff_forall_not_mem.mpr fun i hi => by
          simpa [hempty] using hown.held i hi
        refine Or.inr ⟨hrecord, hold, hempty, ?_⟩
        rw [← hres, heq]
        subst hold
        cases hloop
        simp [pendingSlots, hempty]
      · rw [hres] at heq
        cases heq

end

end PolyPlug.Registry
