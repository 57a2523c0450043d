import PolyPlug.Proofs.Registry.Frame
import PolyPlug.Proofs.Registry.Views
import PolyPlug.Lifecycle.ReloadSteps

/-!
# `PolyPlug.Proofs.Lifecycle.Isolation`: a reload among loads and unloads

The slots a reload took down as its snapshot are indices. Nothing reserves them:
when the bundle is unloaded before the closing call, another bundle can be
loaded into them, and the swap then writes over slots of that bundle
(`swap_overwrites_foreign_slot`). Loads and unloads of other bundles do no harm.

`isolates_run` is about every interleaving in which the bundle under reload is
not unloaded while it holds slots (`Undisturbed`). `Guarded` is the invariant:
the snapshot is still a list of slots of its bundle, at most one bundle is
reloading, and a slot is unlisted only when it was registered in the open window.
-/

set_option autoImplicit false

namespace PolyPlug.Registry

open PolyPlug.Abi
open PolyPlug.Lib
open PolyPlug.Lib.Catalog
open RuntimeStoreData RuntimeStore

/-! ### Published contracts -/

theorem getBundlePluginSlots_eq (s : RuntimeStore) (b : BundleId) :
    s.getBundlePluginSlots b = s.data.pluginSlots b := by
  unfold getBundlePluginSlots pluginSlots
  cases s.data.bundleData.lookup b <;> rfl

/-- The contract of the bundle is found, and resolves to its own interface. -/
def Published (s : RuntimeStore) (b : BundleId) (contract : PreparedGuestContract) : Prop :=
  ∃ h ∈ s.collectGuestContracts contract.contractId 0,
    s.resolveGuestContract h = .ok contract.interface ∧
      s.data.entryAt h.index = some (contract.entry b)

section
variable {data data' : RuntimeStoreData} {b : BundleId}

/-- A listed registration is published. -/
theorem published_of_listed {s : RuntimeStore} (h : s.Tidy) {contract : PreparedGuestContract}
    {i : Nat} (hr : s.data.catalog.content i = some (contract.registration b))
    (hmem : i ∈ s.data.indexOf contract.contractId) : Published s b contract := by
  refine ⟨s.handleAt i, ?_, h.mirrors.resolve_handleAt hr, ?_⟩
  · rw [← registration_key contract b] at hmem ⊢
    exact h.mirrors.mem_collect h.consistent.toIndexed hr hmem
  · obtain ⟨slot, hslot, hentry, -⟩ := content_eq_some.mp hr
    simp [handleAt, entryAt, hslot, hentry, PreparedGuestContract.registration]

/-- Slots of a bundle stay its slots while they keep their registrations. -/
theorem OwnSlots.of_content {old : List Nat} (h : OwnSlots data b old) (hc : data.Consistent)
    (hc' : data'.Consistent)
    (hkept : ∀ i ∈ old, ∀ g, data.catalog.content i = some g → data'.catalog.content i = some g) :
    OwnSlots data' b old := by
  refine ⟨fun i hi => ?_, h.nodup⟩
  obtain ⟨g, hg, howner⟩ := hc.content_of_held (h.held i hi)
  exact howner ▸ hc'.held_of_content (hkept i hi g hg)

end

end PolyPlug.Registry

namespace PolyPlug.Lifecycle

open PolyPlug.Abi
open PolyPlug.Lib
open PolyPlug.Lib.Catalog
open PolyPlug.Registry
open RuntimeStoreData RuntimeStore

/-! ### The property -/

/-- What isolation asks of one step. A closing call leaves other
bundles alone and leaves no bundle reloading, after an `Ok` swap everything
registered in the window is published, and a load while no window is open
publishes all its contracts. -/
def Isolates (s : ReloadSystem) : ReloadStep → Prop
  | .applyReloadSwap descriptor dependencies =>
    ∀ r, s.window = some r →
      let swap := s.store.applyReloadSwap r.bundleId r.slotIndices descriptor dependencies
      ForeignKept s.store.data r.bundleId swap.2.data ∧ swap.2.data.reloadingBundles = ∅ ∧
        (Except.isOk swap.1 = true → ∀ contract ∈ r.registered,
          Published swap.2 r.bundleId contract)
  | .abortReload =>
    ∀ r, s.window = some r →
      let store := s.store.abortReload r.bundleId r.slotIndices
      ForeignKept s.store.data r.bundleId store.data ∧ store.data.reloadingBundles = ∅
  | .load descriptor dependencies contracts =>
    s.window = none →
      let commit := s.store.registerPreparedBundle descriptor dependencies contracts
      Except.isOk commit.1 = true → ∀ contract ∈ contracts,
        Published commit.2 descriptor.id contract
  | _ => True

/-! ### The condition -/

/-- The bundle of the reload in flight is not unloaded while it holds slots, and
the slot indices fit 32 bits. -/
def Undisturbed (s : ReloadSystem) (step : ReloadStep) : Prop :=
  (match step with
    | .unload b => ∀ r ∈ s.reload, b = r.bundleId → s.store.data.pluginSlots b = []
    | _         => True) ∧
  (s.exec step).store.data.slots.length ≤ 2 ^ 32

instance (s : ReloadSystem) (step : ReloadStep) : Decidable (Undisturbed s step) := by
  unfold Undisturbed
  cases step <;> infer_instance

/-! ### The invariant -/

/-- A slot that may be unlisted: registered in the open window. -/
def ReloadSystem.MayBePending (s : ReloadSystem) (i : Nat) (g : Registration) : Prop :=
  ∃ r, s.window = some r ∧ g.owner = r.bundleId ∧ i ∉ r.slotIndices

/-- The invariant of an undisturbed run. -/
structure Guarded (s : ReloadSystem) : Prop where
  tidy : s.store.Tidy
  reloading : ∀ x, x ∈ s.store.data.reloadingBundles ↔ ∃ r, s.window = some r ∧ r.bundleId = x
  own : ∀ r, s.reload = some r → OwnSlots s.store.data r.bundleId r.slotIndices
  listed : ListedBut Registration.key s.MayBePending s.store.data.catalog
  registered : ∀ r, s.window = some r → ∀ contract ∈ r.registered,
    ∃ i, s.store.data.catalog.content i = some (contract.registration r.bundleId) ∧
      i ∉ r.slotIndices

/-! ### One step -/

namespace ReloadSystem

theorem window_eq_some {s : ReloadSystem} {r : InFlight} :
    s.window = some r ↔ s.reload = some r ∧ r.opened = true := by
  simp [window, Option.filter_eq_some_iff]

/-- A record of contracts leaves the reload as it is, but for the contracts. -/
theorem record_cases (reload : Option InFlight) (b : BundleId)
    (contracts : List PreparedGuestContract) {r : InFlight}
    (hr : record reload b contracts = some r) :
    ∃ r₀, reload = some r₀ ∧ r.bundleId = r₀.bundleId ∧ r.slotIndices = r₀.slotIndices ∧
      r.opened = r₀.opened ∧ (r.registered = r₀.registered ∨
        r₀.bundleId = b ∧ r.registered = r₀.registered ++ contracts) := by
  obtain ⟨r₀, hr₀, rfl⟩ := Option.map_eq_some_iff.mp hr
  refine ⟨r₀, hr₀, ?_⟩
  split
  · rename_i hopen
    exact ⟨rfl, rfl, rfl, Or.inr ⟨hopen.2, rfl⟩⟩
  · exact ⟨rfl, rfl, rfl, Or.inl rfl⟩

theorem record_window {store store' : RuntimeStore} {reload : Option InFlight} {b : BundleId}
    {contracts : List PreparedGuestContract} {r₀ : InFlight}
    (hr₀ : (⟨store, reload⟩ : ReloadSystem).window = some r₀) :
    ∃ r, (⟨store', record reload b contracts⟩ : ReloadSystem).window = some r ∧
      r.bundleId = r₀.bundleId ∧ r.slotIndices = r₀.slotIndices := by
  obtain ⟨hreload, hopen⟩ := window_eq_some.mp hr₀
  refine ⟨_, window_eq_some.mpr ⟨congrArg (Option.map _) hreload, ?_⟩, ?_⟩
  · dsimp only
    split <;> exact hopen
  · dsimp only
    split <;> exact ⟨rfl, rfl⟩

end ReloadSystem

section
variable {s : ReloadSystem} {b : BundleId}

theorem guarded_new : Guarded ReloadSystem.new where
  tidy := tidy_new
  reloading := by simp [ReloadSystem.new, ReloadSystem.window, RuntimeStore.new,
    RuntimeStoreData.new]
  own := by simp [ReloadSystem.new]
  listed := by
    intro i g hg
    simp [ReloadSystem.new, RuntimeStore.new, RuntimeStoreData.new, catalog] at hg
  registered := by simp [ReloadSystem.new, ReloadSystem.window]

/-- While no window is open no bundle is reloading. -/
theorem Guarded.reloading_empty (h : Guarded s) (hw : s.window = none) :
    s.store.data.reloadingBundles = ∅ :=
  Finset.eq_empty_of_forall_notMem fun x hx => by
    obtain ⟨r, hr, -⟩ := (h.reloading x).mp hx
    rw [hw] at hr
    cases hr

/-- While no window is open every filled slot is listed. -/
theorem Guarded.all_listed (h : Guarded s) (hw : s.window = none) :
    ListedBut Registration.key (fun _ _ => False) s.store.data.catalog := by
  refine h.listed.mono fun i g _ hpending => ?_
  obtain ⟨r, hr, -⟩ := hpending
  rw [hw] at hr
  cases hr

/-- A state without an open window. -/
theorem Guarded.of_closed {store : RuntimeStore} {reload : Option InFlight} (ht : store.Tidy)
    (hclosed : ∀ r, reload = some r → r.opened = false)
    (hreloading : store.data.reloadingBundles = ∅)
    (hown : ∀ r, reload = some r → OwnSlots store.data r.bundleId r.slotIndices)
    (hlisted : ListedBut Registration.key (fun _ _ => False) store.data.catalog) :
    Guarded ⟨store, reload⟩ := by
  have hw : (⟨store, reload⟩ : ReloadSystem).window = none := by
    cases hr : (⟨store, reload⟩ : ReloadSystem).window with
    | none => rfl
    | some r =>
      obtain ⟨hreload, hopen⟩ := ReloadSystem.window_eq_some.mp hr
      rw [hclosed r hreload] at hopen
      cases hopen
  refine ⟨ht, fun x => ?_, hown, hlisted.mono fun _ _ _ => False.elim, fun r hr => ?_⟩
  · rw [hw, hreloading]
    simp
  · rw [hw] at hr
    cases hr

/-- A registration call of any bundle, the one under reload included. -/
theorem Guarded.of_registers (h : Guarded s) {contracts : List PreparedGuestContract}
    {hs : List GuestContractHandle} {data' : RuntimeStoreData}
    (hreg : Registers s.store.data b (contracts.map fun c => c.registration b) hs data') :
    Guarded ⟨s.store.publish data', ReloadSystem.record s.reload b contracts⟩ := by
  have htidy := h.tidy.of_registers hreg
  have hback : ∀ r, (⟨s.store.publish data', ReloadSystem.record s.reload b contracts⟩ :
      ReloadSystem).window = some r → ∃ r₀, s.window = some r₀ ∧ r.bundleId = r₀.bundleId ∧
        r.slotIndices = r₀.slotIndices ∧ (r.registered = r₀.registered ∨
          r₀.bundleId = b ∧ r.registered = r₀.registered ++ contracts) := by
    intro r hr
    obtain ⟨hrecord, hopen⟩ := ReloadSystem.window_eq_some.mp hr
    obtain ⟨r₀, hr₀, hb, hslots, hopen₀, hregistered⟩ := ReloadSystem.record_cases _ _ _ hrecord
    exact ⟨r₀, ReloadSystem.window_eq_some.mpr ⟨hr₀, hopen₀ ▸ hopen⟩, hb, hslots, hregistered⟩
  refine ⟨htidy, fun x => ?_, fun r hr => ?_, ?_, fun r hr contract hmem => ?_⟩
  · show x ∈ data'.reloadingBundles ↔ _
    rw [hreg.reloading, h.reloading]
    constructor
    · rintro ⟨r₀, hr₀, rfl⟩
      obtain ⟨r, hr, hb, -⟩ := ReloadSystem.record_window hr₀
      exact ⟨r, hr, hb⟩
    · rintro ⟨r, hr, rfl⟩
      obtain ⟨r₀, hr₀, hb, -⟩ := hback r hr
      exact ⟨r₀, hr₀, hb.symm⟩
  · obtain ⟨r₀, hr₀, hb, hslots, -⟩ := ReloadSystem.record_cases _ _ _ hr
    rw [hb, hslots]
    exact (h.own r₀ hr₀).of_content h.tidy.consistent htidy.consistent fun i _ g hg =>
      hreg.content_kept hg
  · -- Along the insertions the slots of the snapshot stay filled, so a slot that
    -- is filled without being listed is not one of them.
    have hinv : ListedBut Registration.key s.MayBePending data'.catalog ∧
        ∀ i, s.store.data.catalog.content i ≠ none → data'.catalog.content i ≠ none := by
      refine hreg.rule (I := fun d => ListedBut Registration.key s.MayBePending d.catalog ∧
        ∀ i, s.store.data.catalog.content i ≠ none → d.catalog.content i ≠ none)
        ⟨h.listed, fun _ hi => hi⟩ ?_ ?_
      · rintro d d' hsame - ⟨hlisted, hlive⟩
        rw [hsame.catalog_eq]
        exact ⟨hlisted, hlive⟩
      · rintro d g handle d' hg howner - hins ⟨hlisted, hlive⟩
        rw [hins.catalog_eq]
        refine ⟨listedBut_add hlisted fun hpending => ?_, fun i hi => ?_⟩
        · have hreloading : b ∈ s.store.data.reloadingBundles := by simpa using hpending
          obtain ⟨r, hr, hb⟩ := (h.reloading b).mp hreloading
          refine ⟨r, hr, howner.trans hb.symm, fun hmem => ?_⟩
          have hheld := (h.own r (ReloadSystem.window_eq_some.mp hr).1).held _ hmem
          obtain ⟨g', hg', -⟩ := h.tidy.consistent.content_of_held hheld
          exact hlive _ (by simp [hg']) hins.vacant
        · by_cases hi' : i = handle.index
          · simp [add, hi']
          · simpa [add, hi'] using hlive i hi
    refine hinv.1.mono fun i g _ hpending => ?_
    obtain ⟨r₀, hr₀, howner, hnew⟩ := hpending
    obtain ⟨r, hr, hb, hslots⟩ := ReloadSystem.record_window hr₀
    exact ⟨r, hr, howner.trans hb.symm, hslots ▸ hnew⟩
  · obtain ⟨r₀, hr₀, hb, hslots, hregistered⟩ := hback r hr
    rw [hb, hslots]
    have hold : contract ∈ r₀.registered → ∃ i, data'.catalog.content i
        = some (contract.registration r₀.bundleId) ∧ i ∉ r₀.slotIndices := by
      intro hmem₀
      obtain ⟨i, hi, hnew⟩ := h.registered r₀ hr₀ contract hmem₀
      exact ⟨i, hreg.content_kept hi, hnew⟩
    rcases hregistered with heq | ⟨rfl, heq⟩
    · exact hold (heq ▸ hmem)
    · rcases List.mem_append.mp (heq ▸ hmem) with hmem₀ | hmem₁
      · exact hold hmem₀
      · obtain ⟨i, hvacant, hi⟩ := hreg.placed (List.mem_map_of_mem hmem₁)
        refine ⟨i, hi, fun hin => ?_⟩
        have hheld := (h.own r₀ (ReloadSystem.window_eq_some.mp hr₀).1).held i hin
        obtain ⟨g, hg, -⟩ := h.tidy.consistent.content_of_held hheld
        rw [hvacant] at hg
        cases hg

/-- An unload of a bundle that is not under reload, or that holds nothing. -/
theorem Guarded.of_unload (h : Guarded s)
    (hb : ∀ r ∈ s.reload, b = r.bundleId → s.store.data.pluginSlots b = []) :
    Guarded { s with store := (s.store.invalidateBundle b).2 } := by
  have htidy := (invalidateBundle_effect h.tidy (b := b)).1
  rcases invalidateBundle_cases s.store b h.tidy.present h.tidy.consistent.indexed with
    ⟨-, heq⟩ | ⟨data', heq, hinv⟩
  · rw [heq]
    exact h
  · rw [heq] at htidy ⊢
    have hcat := hinv.catalog_eq
    -- A slot of the bundle under reload is not one of the emptied ones.
    have hkept : ∀ r, s.reload = some r → ∀ i g, s.store.data.catalog.content i = some g →
        g.owner = r.bundleId → data'.catalog.content i = some g := by
      intro r hr i g hg howner
      have hnot : i ∉ s.store.data.pluginSlots b := by
        intro hmem
        have hx : b = r.bundleId :=
          (h.tidy.consistent.holder_unique (h.tidy.consistent.held_of_content hg) hmem).symm.trans
            howner
        simp [hb r hr hx] at hmem
      rw [hcat]
      simp [withdraw, hnot, hg]
    refine ⟨htidy, fun x => ?_, fun r hr => ?_, ?_, fun r hr contract hmem => ?_⟩
    · show x ∈ data'.reloadingBundles ↔ _
      rw [hinv.reloading]
      exact h.reloading x
    · refine (h.own r hr).of_content h.tidy.consistent htidy.consistent fun i hi g hg => ?_
      obtain ⟨g', hg', howner⟩ := h.tidy.consistent.content_of_held ((h.own r hr).held i hi)
      rw [hg] at hg'
      cases hg'
      exact hkept r hr i g hg howner
    · show ListedBut Registration.key s.MayBePending data'.catalog
      rw [hcat]
      exact listedBut_withdraw h.listed _
    · obtain ⟨i, hi, hnew⟩ := h.registered r hr contract hmem
      exact ⟨i, hkept r (ReloadSystem.window_eq_some.mp hr).1 i _ hi rfl, hnew⟩

/-- While only the window of `b` is open, closing it leaves no bundle reloading. -/
theorem Guarded.erase_reloading (h : Guarded s) {r : InFlight} (hr : s.window = some r) :
    s.store.data.reloadingBundles.erase r.bundleId = ∅ := by
  refine Finset.eq_empty_of_forall_notMem fun x hx => ?_
  obtain ⟨hne, hmem⟩ := Finset.mem_erase.mp hx
  obtain ⟨r', hr', hb⟩ := (h.reloading x).mp hmem
  rw [hr] at hr'
  cases hr'
  exact hne hb.symm

/-- The closing swap. -/
theorem Guarded.of_swap (h : Guarded s) {r : InFlight} (hr : s.window = some r)
    (descriptor : BundleDescriptor) (dependencies : Finset GuestContractId) :
    let swap := s.store.applyReloadSwap r.bundleId r.slotIndices descriptor dependencies
    Guarded ⟨swap.2, none⟩ ∧ ForeignKept s.store.data r.bundleId swap.2.data ∧
      (Except.isOk swap.1 = true →
        ∀ contract ∈ r.registered, Published swap.2 r.bundleId contract) := by
  have hown := h.own r (ReloadSystem.window_eq_some.mp hr).1
  have htidy := (applyReloadSwap_effect h.tidy hown descriptor dependencies).1
  have hempty := h.erase_reloading hr
  -- What is unlisted was registered by this bundle outside the snapshot.
  have hlisted : ListedBut Registration.key
      (fun i g => g.owner = r.bundleId ∧ i ∉ r.slotIndices) s.store.data.catalog := by
    refine h.listed.mono fun i g _ hpending => ?_
    obtain ⟨r', hr', howner, hnew⟩ := hpending
    rw [hr] at hr'
    cases hr'
    exact ⟨howner, hnew⟩
  rcases applyReloadSwap_own h.tidy.present h.tidy.consistent hown descriptor dependencies with
    ⟨data', heq, hswap⟩ | ⟨-, hnil, hnone, heq⟩
  · rw [heq] at htidy ⊢
    obtain ⟨c, hrec, hcat⟩ := hswap.reconciled
    have hall : ListedBut Registration.key (fun _ _ => False) data'.catalog := by
      rw [hcat]
      exact listedBut_reconcile h.tidy.consistent hlisted hrec
    refine ⟨.of_closed htidy (by simp) (hswap.reloading.trans hempty) (by simp) hall,
      hswap.foreignKept h.tidy.present h.tidy.consistent, fun _ contract hmem => ?_⟩
    obtain ⟨n, hn, hnew⟩ := h.registered r hr contract hmem
    have hheld : n ∈ s.store.data.catalog.held r.bundleId :=
      h.tidy.consistent.held_of_content hn
    obtain ⟨i, -, hi, -⟩ := hrec.survives n hheld hnew _ hn
    have hfilled : data'.catalog.content i = some (contract.registration r.bundleId) := by
      rw [hcat, publish_content, hi]
    rcases hall i _ hfilled with hin | hfalse
    · exact published_of_listed htidy hfilled (registration_key contract r.bundleId ▸ hin)
    · exact hfalse.elim
  · rw [heq] at htidy ⊢
    have hsame := sameSlots_closeWindow s.store.data r.bundleId
    refine ⟨.of_closed htidy (by simp) hempty (by simp) ?_, hsame.foreignKept h.tidy.present,
      fun hok => by cases hok⟩
    show ListedBut _ _ (closeWindow s.store.data r.bundleId).catalog
    rw [hsame.catalog_eq]
    -- The bundle holds nothing, so nothing of it is unlisted.
    refine hlisted.mono fun i g hg hpending => ?_
    have hheld := h.tidy.consistent.held_of_content hg
    rw [hpending.1] at hheld
    simp [catalog, hnone] at hheld

/-- The closing abort. -/
theorem Guarded.of_abort (h : Guarded s) {r : InFlight} (hr : s.window = some r) :
    let store := s.store.abortReload r.bundleId r.slotIndices
    Guarded ⟨store, none⟩ ∧ ForeignKept s.store.data r.bundleId store.data := by
  have htidy := (abortReload_effect h.tidy (b := r.bundleId) r.slotIndices).1
  obtain ⟨data', heq, hpurge⟩ := abortReload_purge s.store r.bundleId r.slotIndices
    h.tidy.present h.tidy.consistent.indexed
  have hsame := sameSlots_closeWindow s.store.data r.bundleId
  have hcat := hpurge.catalog_eq
  rw [hsame.catalog_eq] at hcat
  rw [heq] at htidy ⊢
  refine ⟨.of_closed htidy (by simp) (hpurge.reloading.trans (h.erase_reloading hr)) (by simp) ?_,
    hpurge.foreignKept h.tidy.present h.tidy.consistent hsame⟩
  have hall : ListedBut Registration.key s.MayBePending data'.catalog := by
    rw [hcat]
    exact listedBut_withdraw h.listed _
  -- What was pending in the window has been purged.
  refine hall.mono fun i g hg hpending => ?_
  obtain ⟨r', hr', howner, hnew⟩ := hpending
  rw [hr] at hr'
  cases hr'
  have hmem : i ∉ pendingSlots s.store.data r.bundleId r.slotIndices := by
    intro hmem
    rw [hcat] at hg
    simp [withdraw, hmem] at hg
  have hold : s.store.data.catalog.content i = some g := by
    rw [hcat] at hg
    simpa [withdraw, hmem] using hg
  have hheld := h.tidy.consistent.held_of_content hold
  rw [howner] at hheld
  exact hmem (List.mem_filter.mpr ⟨hheld, by simpa using hnew⟩)

/-- A load while no window is open publishes all its contracts. -/
theorem Guarded.load_published (h : Guarded s) (hw : s.window = none)
    {contracts : List PreparedGuestContract} {hs : List GuestContractHandle}
    {data' : RuntimeStoreData}
    (hreg : Registers s.store.data b (contracts.map fun c => c.registration b) hs data') :
    ∀ contract ∈ contracts, Published (s.store.publish data') b contract := by
  have htidy := h.tidy.of_registers hreg
  have hnone : b ∉ s.store.data.reloadingBundles := by
    intro hmem
    obtain ⟨r, hr, -⟩ := (h.reloading b).mp hmem
    rw [hw] at hr
    cases hr
  have hall : ListedBut Registration.key (fun _ _ => False) data'.catalog := by
    refine hreg.rule (I := fun d => ListedBut Registration.key (fun _ _ => False) d.catalog)
      (h.all_listed hw) ?_ ?_
    · intro d d' hsame _ hlisted
      rw [hsame.catalog_eq]
      exact hlisted
    · intro d g handle d' _ _ _ hins hlisted
      rw [hins.catalog_eq]
      exact listedBut_add hlisted fun hpending => hnone (by simpa using hpending)
  intro contract hmem
  obtain ⟨i, -, hi⟩ := hreg.placed (List.mem_map_of_mem hmem)
  rcases hall i _ hi with hin | hfalse
  · exact published_of_listed htidy hi (registration_key contract b ▸ hin)
  · exact hfalse.elim

/-- The snapshot takes down the slots the bundle holds. -/
theorem Guarded.of_snapshot (h : Guarded s) (b : BundleId) :
    Guarded (s.exec (.snapshot b)) := by
  obtain ⟨store, reload⟩ := s
  cases reload with
  | some r => exact h
  | none =>
    have hw : (⟨store, none⟩ : ReloadSystem).window = none := rfl
    refine .of_closed h.tidy ?_ (h.reloading_empty hw) ?_ (h.all_listed hw)
    · rintro r hr
      cases hr
      rfl
    · rintro r hr
      cases hr
      refine ⟨fun i hi => ?_, ?_⟩
      · rwa [getBundlePluginSlots_eq] at hi
      · rw [getBundlePluginSlots_eq]
        exact h.tidy.consistent.held_nodup b

/-- The window opens, on the slots of the snapshot. -/
theorem Guarded.of_begin (h : Guarded s) : Guarded (s.exec .beginReload) := by
  obtain ⟨store, reload⟩ := s
  rcases reload with _ | ⟨b, slotIndices, opened, registered⟩
  · exact h
  cases opened with
  | true => exact h
  | false =>
    have hw : (⟨store, some ⟨b, slotIndices, false, registered⟩⟩ : ReloadSystem).window = none :=
      rfl
    refine ⟨⟨h.tidy.present, h.tidy.consistent, rfl⟩, fun x => ?_, ?_, ?_, ?_⟩
    · show x ∈ insert b store.data.reloadingBundles ↔ _
      rw [Finset.mem_insert, h.reloading x, hw]
      constructor
      · rintro (rfl | ⟨r, hr, -⟩)
        · exact ⟨_, rfl, rfl⟩
        · cases hr
      · rintro ⟨r, hr, rfl⟩
        cases hr
        exact Or.inl rfl
    · rintro r hr
      cases hr
      obtain ⟨hheld, hnodup⟩ := h.own _ rfl
      exact ⟨hheld, hnodup⟩
    · exact (h.all_listed hw).mono fun _ _ _ => False.elim
    · rintro r hr
      cases hr
      simp

/-- A step of an undisturbed run keeps the invariant and isolates. -/
theorem guarded_exec (h : Guarded s) {step : ReloadStep} (hstep : Undisturbed s step) :
    Guarded (s.exec step) ∧ Isolates s step := by
  obtain ⟨hcond, hlen⟩ := hstep
  cases step with
  | snapshot b => exact ⟨h.of_snapshot b, trivial⟩
  | beginReload => exact ⟨h.of_begin, trivial⟩
  | register descriptor interface ptr contractName =>
    refine ⟨?_, trivial⟩
    simp only [ReloadSystem.exec] at hlen ⊢
    cases hw : s.window with
    | none => exact h
    | some r =>
      rw [hw] at hlen
      dsimp only at hlen ⊢
      rcases registerGuestContract_cases s.store descriptor interface ptr contractName r.bundleId
        with ⟨e, heq⟩ | ⟨contract, handle, data', hprep, -, hins, heq⟩
      · rw [heq]
        exact h
      · rw [heq] at hlen ⊢
        have hprepared : ReloadSystem.prepared descriptor interface ptr contractName
            = [contract] := by
          rw [ReloadSystem.prepared, hprep]
          rfl
        have hreg := registers_of_registerGuestContract hins hlen
        dsimp only
        rw [hprepared]
        exact h.of_registers hreg
  | applyReloadSwap descriptor dependencies =>
    refine ⟨?_, fun r hr => ?_⟩
    · simp only [ReloadSystem.exec]
      cases hw : s.window with
      | none => exact h
      | some r => exact (h.of_swap hw descriptor dependencies).1
    · obtain ⟨hguard, hforeign, hpublished⟩ := h.of_swap hr descriptor dependencies
      exact ⟨hforeign, hguard.reloading_empty rfl, hpublished⟩
  | abortReload =>
    refine ⟨?_, fun r hr => ?_⟩
    · simp only [ReloadSystem.exec]
      cases hw : s.window with
      | none => exact h
      | some r => exact (h.of_abort hw).1
    · obtain ⟨hguard, hforeign⟩ := h.of_abort hr
      exact ⟨hforeign, hguard.reloading_empty rfl⟩
  | load descriptor dependencies contracts =>
    simp only [ReloadSystem.exec] at hlen
    simp only [ReloadSystem.exec, Isolates]
    rcases registerPreparedBundle_cases s.store descriptor dependencies contracts with
      ⟨e, heq⟩ | ⟨hs, data', -, -, hnew, hins, heq⟩
    · rw [heq]
      exact ⟨h, fun _ hok => by cases hok⟩
    · rw [heq] at hlen ⊢
      have hreg := registers_of_registerPreparedBundle hnew hins hlen
      exact ⟨h.of_registers hreg, fun hw _ => h.load_published hw hreg⟩
  | unload b => exact ⟨h.of_unload hcond, trivial⟩

end

/-! ### Whole runs -/

/-- In every interleaving in which the bundle under reload is not unloaded while
it holds slots, every step isolates. -/
theorem isolates_run (steps : List ReloadStep)
    (hsteps : Steps ReloadSystem.exec Undisturbed ReloadSystem.new steps) :
    Steps ReloadSystem.exec Isolates ReloadSystem.new steps :=
  hsteps.mono (I := Guarded) guarded_new (fun _ _ h hstep => (guarded_exec h hstep).1)
    fun _ _ h hstep => (guarded_exec h hstep).2

/-- The commit of a load with one plain contract. -/
def ReloadStep.loadPlain (b : BundleId) (cid : GuestContractId) (contractName : String)
    (ptr : Nat) : ReloadStep :=
  .load (defaultDescriptor b) ∅ (ReloadSystem.prepared PluginDescriptor.plain
    (RawGuestContractInterface.plain cid) ptr contractName)

/-- Another bundle is loaded and unloaded inside the window, and the bundle under
reload is unloaded after it. -/
theorem isolates_run_load_in_window :
    let steps : List ReloadStep :=
      [.loadPlain ⟨1⟩ ⟨10⟩ "log" 100, .snapshot ⟨1⟩, .loadPlain ⟨2⟩ ⟨10⟩ "log" 101, .beginReload,
        .register PluginDescriptor.plain (RawGuestContractInterface.plain ⟨10⟩) 102 "log",
        .unload ⟨2⟩, .loadPlain ⟨3⟩ ⟨11⟩ "kv" 103, .applyReloadSwap (defaultDescriptor ⟨1⟩) ∅,
        .unload ⟨1⟩]
    Steps ReloadSystem.exec Undisturbed ReloadSystem.new steps ∧
      Steps ReloadSystem.exec Isolates ReloadSystem.new steps :=
  ⟨by decide +kernel, isolates_run _ (by decide +kernel)⟩

/-- The bundle under reload is unloaded inside its window and another bundle is
loaded into its slot. The swap moves the pending interface over that bundle's. -/
theorem swap_overwrites_foreign_slot :
    let steps : List ReloadStep :=
      [.loadPlain ⟨1⟩ ⟨10⟩ "log" 100, .snapshot ⟨1⟩, .beginReload, .unload ⟨1⟩,
        .loadPlain ⟨2⟩ ⟨10⟩ "log" 101,
        .register PluginDescriptor.plain (RawGuestContractInterface.plain ⟨10⟩) 102 "log"]
    ¬ Steps ReloadSystem.exec Isolates ReloadSystem.new
      (steps ++ [.applyReloadSwap (defaultDescriptor ⟨1⟩) ∅]) := by
  intro steps hsteps
  obtain ⟨-, hswap, -⟩ := steps_append.mp hsteps
  have hreload : (run ReloadSystem.exec ReloadSystem.new steps).window.map
      (fun r => (r.bundleId, r.slotIndices)) = some (⟨1⟩, [0]) := by decide +kernel
  obtain ⟨⟨_, _, opened, registered⟩, hr, hfields⟩ := Option.map_eq_some_iff.mp hreload
  cases hfields
  -- Slot 0 is a slot of bundle 2, and after the swap it is one of bundle 1.
  have hbundle := (hswap _ hr).1.bundle_eq (i := 0) (x := ⟨2⟩) (by decide +kernel) (by simp)
  dsimp only at hbundle
  exact absurd hbundle (by decide +kernel)

end PolyPlug.Lifecycle
