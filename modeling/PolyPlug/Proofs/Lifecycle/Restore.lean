import PolyPlug.Proofs.Lifecycle.Isolation
import PolyPlug.Proofs.Lifecycle.Level
import PolyPlug.Proofs.Lifecycle.Loader
import PolyPlug.Proofs.Registry.Keep

/-!
# `PolyPlug.Proofs.Lifecycle.Restore`: a reload that fails

A reload opens its window on the slots the bundle has. While the loader runs, these
slots stay as they are, and what it registers for the bundle goes to other ones
(`InWindow`). So an abort takes the bundle back to them. The record is the exception:
a bundle that had none gets the default one with its first registration, and the abort
leaves it (`InWindow.recorded`).

A swap over the slots of the snapshot fails for one reason, that the bundle has no
record, and then nothing was registered for it (`InWindow.swap_error`).
-/

set_option autoImplicit false

namespace PolyPlug.Registry

open PolyPlug.Abi
open PolyPlug.Lib
open PolyPlug.Lib.Catalog
open RuntimeStoreData RuntimeStore

/-! ### The length of the slot array -/

section
variable {data data' : RuntimeStoreData} {b : BundleId}

theorem swapOldSlots_length {news old : List Nat} {result : Except RegistryError Unit}
    (hloop : swapOldSlots b news old data = (result, data')) :
    data'.slots.length = data.slots.length := by
  induction old generalizing data with
  | nil =>
    cases hloop
    rfl
  | cons oldIdx rest ih =>
    rw [swapOldSlots] at hloop
    cases hone : swapOldSlot b news data oldIdx with
    | error e =>
      rw [hone] at hloop
      cases hloop
      rfl
    | ok mid =>
      rw [hone] at hloop
      have hstep : mid.slots.length = data.slots.length := by
        obtain ⟨cid, -, ⟨-, rfl⟩ | ⟨newIdx, oldSlot, newSlot, -, -, -, rfl⟩⟩ :=
          swapOldSlot_cases hone
        · simp
        · rw [moveSlot_slots]
          simp
      exact (ih hloop).trans hstep

theorem applyReloadSwap_length (s : RuntimeStore) (b : BundleId) (old : List Nat)
    (descriptor : BundleDescriptor) (dependencies : Finset GuestContractId) :
    (s.applyReloadSwap b old descriptor dependencies).2.data.slots.length
      = s.data.slots.length := by
  have hclose : (closeWindow s.data b).slots.length = s.data.slots.length := rfl
  rw [← hclose]
  rcases applyReloadSwap_cases s b old descriptor dependencies with
    ⟨e, mid, hloop, heq⟩ | ⟨mid, hloop, ⟨-, heq⟩ | ⟨bd, -, heq⟩⟩
  · rw [heq]
    exact swapOldSlots_length hloop
  · rw [heq]
    exact (congrArg List.length (foldl_publishSlot _ mid).slots).trans (swapOldSlots_length hloop)
  · rw [heq]
    exact (congrArg List.length (foldl_publishSlot _ mid).slots).trans (swapOldSlots_length hloop)

theorem abortReload_length (s : RuntimeStore) (b : BundleId) (old : List Nat) :
    (s.abortReload b old).data.slots.length = s.data.slots.length := by
  show ((pendingSlots (closeWindow s.data b) b old).foldl (purgeSlot b)
    (closeWindow s.data b)).slots.length = (closeWindow s.data b).slots.length
  generalize pendingSlots (closeWindow s.data b) b old = cells
  generalize closeWindow s.data b = data
  induction cells generalizing data with
  | nil => rfl
  | cons i rest ih => rw [List.foldl_cons, ih, purgeSlot_length]

theorem registerGuestContract_length_le (s : RuntimeStore) (descriptor : PluginDescriptor)
    (interface : RawGuestContractInterface) (ptr : Nat) (contractName : String) (b : BundleId) :
    s.data.slots.length
      ≤ (s.registerGuestContract descriptor interface ptr contractName b).2.data.slots.length := by
  rcases registerGuestContract_cases s descriptor interface ptr contractName b with
    ⟨e, heq⟩ | ⟨contract, handle, data', -, -, hins, heq⟩
  · rw [heq]
  · rw [heq, ← (sameSlots_ensureDefaultBundleData s.data b).slots]
    exact insertPreparedGuestContract_length_le hins

theorem registerPreparedBundle_length_le (s : RuntimeStore) (descriptor : BundleDescriptor)
    (dependencies : Finset GuestContractId) (contracts : List PreparedGuestContract) :
    s.data.slots.length
      ≤ (s.registerPreparedBundle descriptor dependencies contracts).2.data.slots.length := by
  rcases registerPreparedBundle_cases s descriptor dependencies contracts with
    ⟨e, heq⟩ | ⟨hs, data', -, -, -, hins, heq⟩
  · rw [heq]
  · rw [heq]
    exact @insertAll_length_le _ _ _ _ (insertBundle s.data descriptor dependencies) _ hins

end

/-! ### The record of a bundle beside other calls -/

section
variable {data data' : RuntimeStoreData} {b c : BundleId}

/-- A registration call leaves the slot list of a bundle on the slots that are filled. -/
theorem Registers.held_filter {cells : List Nat} {rs : List Registration}
    {hs : List GuestContractHandle} (h : Registers data c rs hs data')
    (hlive : ∀ i ∈ cells, data.catalog.content i ≠ none) (x : BundleId) :
    (data'.pluginSlots x).filter (· ∈ cells) = (data.pluginSlots x).filter (· ∈ cells) := by
  have hheld : (∀ i ∈ cells, data'.catalog.content i ≠ none) ∧
      (data'.catalog.held x).filter (· ∈ cells) = (data.pluginSlots x).filter (· ∈ cells) := by
    refine h.rule (I := fun d => (∀ i ∈ cells, d.catalog.content i ≠ none) ∧
      (d.catalog.held x).filter (· ∈ cells) = (data.pluginSlots x).filter (· ∈ cells))
      ⟨hlive, rfl⟩ ?_ ?_
    · intro d d' hsame _ hd
      rw [hsame.catalog_eq]
      exact hd
    · rintro d r handle d' - - - hins ⟨hfilled, hd⟩
      have hnot : handle.index ∉ cells := fun hmem => hfilled _ hmem hins.vacant
      rw [hins.catalog_eq]
      refine ⟨fun i hi => ?_, ?_⟩
      · have hne : i ≠ handle.index := fun he => hnot (he ▸ hi)
        simpa [add, hne] using hfilled i hi
      · rw [← hd]
        simp only [add]
        split
        · simp [hnot]
        · rfl
  exact hheld.2

/-- The default record is that of a bundle without one. -/
theorem sameRecord_ensureDefault (b : BundleId) (data : RuntimeStoreData) (c : BundleId) :
    SameRecord b data (ensureDefaultBundleData data c) ∨
      (data.descriptorOf b = none ∧ ((ensureDefaultBundleData data c).descriptorOf b).isSome) := by
  unfold ensureDefaultBundleData
  cases hrecord : data.bundleData.lookup c with
  | some bd => exact Or.inl (.refl b data)
  | none =>
    by_cases hb : b = c
    · subst hb
      refine Or.inr ⟨by simp [descriptorOf, hrecord], by simp [descriptorOf]⟩
    · exact Or.inl ⟨by simp [descriptorOf, hb], rfl, fun _ => Iff.rfl⟩

/-- A commit records its own bundle only. -/
theorem sameRecord_insertBundle (b : BundleId) {d : BundleDescriptor}
    (deps : Finset GuestContractId) (hnew : data.bundleData.lookup d.id = none) :
    SameRecord b data (insertBundle data d deps) ∨
      (data.descriptorOf b = none ∧ ((insertBundle data d deps).descriptorOf b).isSome) := by
  by_cases hb : b = d.id
  · subst hb
    refine Or.inr ⟨by simp [descriptorOf, hnew], by simp [descriptorOf, insertBundle]⟩
  · refine Or.inl ⟨by simp [descriptorOf, insertBundle, hb],
      by simp [declaredOf, insertBundle, hb], fun name => ?_⟩
    simp only [namedAs, insertBundle, lookup_insert_eq]
    split
    · rename_i hname
      rw [hname]
      simp [hb]
    · rfl

end

end PolyPlug.Registry

namespace PolyPlug.Lifecycle

open PolyPlug.Abi
open PolyPlug.Lib
open PolyPlug.Common
open PolyPlug.Registry
open RuntimeStoreData RuntimeStore

/-! ### Inside the window -/

/-- The registry inside the window of `b` that was opened on `s₀`. -/
structure InWindow (s₀ : RuntimeStore) (b : BundleId) (s : RuntimeStore) : Prop where
  guarded : ∃ registered, Guarded ⟨s, some ⟨b, s₀.data.pluginSlots b, true, registered⟩⟩
  recorded : SameRecord b s₀.data s.data ∨
    (s₀.data.descriptorOf b = none ∧ (s.data.descriptorOf b).isSome)
  held : (s.data.pluginSlots b).filter (· ∈ s₀.data.pluginSlots b) = s₀.data.pluginSlots b
  kept : SlotsKept (s₀.data.pluginSlots b) s₀.data s.data

/-- The guards do not read the stacks. -/
theorem Guarded.of_core {s s' : RuntimeStore} {reload : Option InFlight}
    (h : Guarded ⟨s, reload⟩) (hdata : s'.data = s.data) (hpub : s'.published = s.published) :
    Guarded ⟨s', reload⟩ := by
  have ht : s'.Tidy := ⟨hdata ▸ h.tidy.present, hdata ▸ h.tidy.consistent, by
    rw [Mirrors, hdata, hpub]
    exact h.tidy.mirrors⟩
  exact ⟨ht, fun x => by rw [hdata]; exact h.reloading x, fun r hr => hdata ▸ h.own r hr,
    by rw [hdata]; exact h.listed, fun r hr => by rw [hdata]; exact h.registered r hr⟩

namespace InWindow

variable {s₀ s s' : RuntimeStore} {b c : BundleId}

/-- The slots of the snapshot are live when the window opens. -/
theorem live (h : Guarded ⟨s₀, none⟩) (b : BundleId) :
    ∀ i ∈ s₀.data.pluginSlots b, s₀.data.catalog.content i ≠ none := by
  intro i hi
  obtain ⟨g, hg, -⟩ := h.tidy.consistent.content_of_held hi
  simp [hg]

/-- The window opens. -/
theorem start (h : Guarded ⟨s₀, none⟩) (b : BundleId) : InWindow s₀ b (s₀.beginReload b) where
  guarded := ⟨[], (h.of_snapshot b).of_begin⟩
  recorded := Or.inl ⟨rfl, rfl, fun _ => Iff.rfl⟩
  held := List.filter_eq_self.mpr fun _ hi => decide_eq_true hi
  kept := .of_eq rfl rfl

theorem tidy (h : InWindow s₀ b s) : s.Tidy := by
  obtain ⟨registered, hg⟩ := h.guarded
  exact hg.tidy

theorem own (h : InWindow s₀ b s) : OwnSlots s.data b (s₀.data.pluginSlots b) := by
  obtain ⟨registered, hg⟩ := h.guarded
  exact hg.own _ rfl

theorem of_core (h : InWindow s₀ b s) (hdata : s'.data = s.data)
    (hpub : s'.published = s.published) : InWindow s₀ b s' := by
  obtain ⟨registered, hg⟩ := h.guarded
  exact ⟨⟨registered, hg.of_core hdata hpub⟩, hdata ▸ h.recorded, hdata ▸ h.held, hdata ▸ h.kept⟩

/-- A registration call of any bundle inside the window. -/
theorem of_registers (h : InWindow s₀ b s) {contracts : List PreparedGuestContract}
    {hs : List GuestContractHandle} {data' : RuntimeStoreData}
    (hreg : Registers s.data c (contracts.map fun contract => contract.registration c) hs data')
    (hrecord : SameRecord b s.data data' ∨
      (s.data.descriptorOf b = none ∧ (data'.descriptorOf b).isSome)) :
    InWindow s₀ b (s.publish data') := by
  obtain ⟨registered, hg⟩ := h.guarded
  have hlive : ∀ i ∈ s₀.data.pluginSlots b, s.data.catalog.content i ≠ none := by
    intro i hi
    obtain ⟨g, hcontent, -⟩ := h.tidy.consistent.content_of_held (h.own.held i hi)
    simp [hcontent]
  refine ⟨?_, ?_, (hreg.held_filter hlive b).trans h.held, h.kept.trans (hreg.slotsKept hlive)⟩
  · have hnext := hg.of_registers hreg
    simp only [ReloadSystem.record, Option.map_some] at hnext
    split at hnext
    · exact ⟨_, hnext⟩
    · exact ⟨_, hnext⟩
  · rcases h.recorded with hsame | ⟨hnone, hsome⟩
    · rcases hrecord with hsame' | ⟨hnone', hsome'⟩
      · exact Or.inl (hsame.trans hsame')
      · exact Or.inr ⟨hsame.descriptor.symm.trans hnone', hsome'⟩
    · rcases hrecord with hsame' | ⟨hnone', hsome'⟩
      · exact Or.inr ⟨hnone, by
          show (data'.descriptorOf b).isSome
          rw [hsame'.descriptor]
          exact hsome⟩
      · exact Or.inr ⟨hnone, hsome'⟩

/-- The closing abort takes the bundle back to the slots of the snapshot, which are as
they were. -/
theorem abort_slots (h : InWindow s₀ b s) :
    (s.abortReload b (s₀.data.pluginSlots b)).data.pluginSlots b = s₀.data.pluginSlots b ∧
      SlotsKept (s₀.data.pluginSlots b) s₀.data
        (s.abortReload b (s₀.data.pluginSlots b)).data := by
  obtain ⟨data', heq, hpurge⟩ := abortReload_purge s b (s₀.data.pluginSlots b) h.tidy.present
    h.tidy.consistent.indexed
  rw [heq]
  have hclose := sameSlots_closeWindow s.data b
  have hcat := hpurge.catalog_eq
  rw [hclose.catalog_eq] at hcat
  have hpending : ∀ i ∈ s₀.data.pluginSlots b,
      i ∉ pendingSlots s.data b (s₀.data.pluginSlots b) := by
    intro i hi hmem
    have hnot := (List.mem_filter.mp hmem).2
    simp [hi] at hnot
  constructor
  · -- What is left of the slot list are the slots of the snapshot.
    show data'.catalog.held b = _
    rw [hcat]
    simp only [Lib.Catalog.withdraw, if_true]
    refine Eq.trans (List.filter_congr fun i hi => ?_) h.held
    by_cases hold : i ∈ s₀.data.pluginSlots b
    · simp [hold, hpending i hold]
    · have hmem : i ∈ pendingSlots s.data b (s₀.data.pluginSlots b) :=
        List.mem_filter.mpr ⟨hi, by simpa using hold⟩
      simp [hold, hmem]
  · refine h.kept.trans (.of_content (fun i hi => ?_) fun cid => ?_)
    · obtain ⟨g, hg, -⟩ := h.tidy.consistent.content_of_held (h.own.held i hi)
      refine ⟨g, hg, ?_, (hpurge.generations i).trans (hclose.generationAt_eq i)⟩
      show data'.catalog.content i = some g
      rw [hcat]
      simp [Lib.Catalog.withdraw, hpending i hi, hg]
    · show (data'.catalog.listed cid).filter _ = (s.data.catalog.listed cid).filter _
      rw [hcat]
      simp only [Lib.Catalog.withdraw, List.filter_filter]
      refine List.filter_congr fun i _ => ?_
      by_cases hold : i ∈ s₀.data.pluginSlots b
      · simp [hold, hpending i hold]
      · simp [hold]

/-- The abort leaves the records alone and closes the window. -/
theorem abort_bundles (h : InWindow s₀ b s) (old : List Nat) :
    SameBundles s.data (s.abortReload b old).data ∧
      b ∉ (s.abortReload b old).data.reloadingBundles := by
  obtain ⟨data', heq, hpurge⟩ := abortReload_purge s b old h.tidy.present h.tidy.consistent.indexed
  have hclose : SameBundles s.data (closeWindow s.data b) := ⟨fun _ => rfl, rfl, rfl⟩
  rw [heq]
  refine ⟨hclose.trans hpurge.bundles, ?_⟩
  show b ∉ data'.reloadingBundles
  rw [hpurge.reloading]
  simp [closeWindow]

/-- The closing abort restores the lookups of the bundle, unless it got its record
inside the window. -/
theorem abort (h : InWindow s₀ b s) (hopen : b ∉ s₀.data.reloadingBundles) (ht₀ : s₀.Tidy)
    (hrecord : (s₀.data.descriptorOf b).isSome ∨ s.data.descriptorOf b = none) :
    SameLookups b s₀ (s.abortReload b (s₀.data.pluginSlots b)) := by
  have hsame : SameRecord b s₀.data s.data := by
    refine h.recorded.resolve_right ?_
    rintro ⟨hnone, hsome⟩
    rcases hrecord with hbefore | hafter
    · rw [hnone] at hbefore
      cases hbefore
    · rw [hafter] at hsome
      cases hsome
  have htidy := (abortReload_effect h.tidy (b := b) (s₀.data.pluginSlots b)).1
  obtain ⟨hbundles, hclosed⟩ := h.abort_bundles (s₀.data.pluginSlots b)
  obtain ⟨hheld, hkept⟩ := h.abort_slots
  exact sameLookups_of_kept ht₀ htidy (hsame.trans (hbundles.sameRecord b)) hheld hkept
    hopen hclosed

/-- A swap that fails has found nothing of the bundle. -/
theorem swap_error (h : InWindow s₀ b s) (hopen : b ∉ s₀.data.reloadingBundles) (ht₀ : s₀.Tidy)
    {descriptor : BundleDescriptor} {dependencies : Finset GuestContractId} {e : RegistryError}
    {s' : RuntimeStore}
    (herror : s.applyReloadSwap b (s₀.data.pluginSlots b) descriptor dependencies
      = (.error e, s')) : SameLookups b s₀ s' := by
  have htidy := (applyReloadSwap_effect h.tidy h.own descriptor dependencies).1
  rcases applyReloadSwap_own h.tidy.present h.tidy.consistent h.own descriptor dependencies with
    ⟨data', heq, -⟩ | ⟨hrecord, hold, hheld, heq⟩
  · rw [heq] at herror
    cases herror
  · rw [heq] at herror htidy
    cases herror
    have hsame : SameRecord b s₀.data s.data := by
      refine h.recorded.resolve_right ?_
      rintro ⟨-, hsome⟩
      simp only [descriptorOf, hrecord, Option.map_none, Option.isSome_none,
        Bool.false_eq_true] at hsome
    have hclose : SameBundles s.data (closeWindow s.data b) := ⟨fun _ => rfl, rfl, rfl⟩
    refine sameLookups_of_kept ht₀ htidy (hsame.trans (hclose.sameRecord b)) ?_
      (h.kept.trans (.of_eq rfl rfl)) hopen (Finset.notMem_erase b _)
    rw [hold]
    exact hheld

end InWindow

/-! ### One reload -/

section
variable {env : ReloadEnv} {rt : Runtime} {b : BundleId}

/-- A loader never shrinks the slot array. -/
theorem keptByLoader_length (n : Nat) :
    KeptByLoader fun rt => n ≤ rt.registry.data.slots.length where
  core rt rt' hcore h := by
    have hdata : rt'.core.registry.data = rt.core.registry.data := by rw [hcore]
    rwa [show rt'.registry.data = rt.registry.data from hdata]
  register rt descriptor interface ptr contractName c h :=
    le_trans h (registerGuestContract_length_le rt.registry descriptor interface ptr contractName c)
  publish rt prepared c opts h := by
    rcases publishPrepared_ends rt c prepared opts with
      ⟨e, heq⟩ | ⟨version, handles, registry, hok, heq⟩
    · rw [heq]
      exact h
    · rw [heq]
      have hgrows := registerPreparedBundle_length_le rt.registry
        (Runtime.preparedDescriptor prepared c version)
        (Runtime.preparedDependencies prepared.manifest) prepared.contracts
      rw [hok] at hgrows
      exact le_trans h hgrows

/-- Neither does a reload. -/
theorem runReload_length_le (body : LoaderRun) :
    rt.registry.data.slots.length
      ≤ (rt.runReload env body b).2.registry.data.slots.length :=
  (keptByLoader_length rt.registry.data.slots.length).exec env.load b body (le_refl _)

theorem closeReload_length (rt : Runtime) (r : Replacement) (slotIndices : List Nat)
    (loaded : Except LoaderError Unit) :
    (rt.closeReload r slotIndices loaded).2.registry.data.slots.length
      = rt.registry.data.slots.length := by
  cases loaded with
  | error e => exact abortReload_length rt.registry _ _
  | ok u =>
    have hlen := applyReloadSwap_length rt.registry r.descriptor.id slotIndices r.descriptor
      r.dependencies
    unfold Runtime.closeReload
    dsimp only
    rcases hswap : rt.registry.applyReloadSwap r.descriptor.id slotIndices r.descriptor
      r.dependencies with ⟨_ | _, registry⟩
    · rw [hswap] at hlen
      exact hlen
    · rw [hswap] at hlen
      exact hlen

theorem replaceBundle_length_le (r : Replacement) (body : LoaderRun) :
    rt.registry.data.slots.length
      ≤ (rt.replaceBundle env r body).2.registry.data.slots.length := by
  unfold Runtime.replaceBundle
  rw [closeReload_length]
  exact runReload_length_le body

/-- What a registration call of any bundle keeps, a loader keeps, as long as the slot
indices fit 32 bits. -/
theorem keptByLoader_of_registers {J : RuntimeStore → Prop}
    (hcore : ∀ s s' : RuntimeStore, s'.data = s.data → s'.published = s.published → J s → J s')
    (hregisters : ∀ (s : RuntimeStore) c (contracts : List PreparedGuestContract) hs data', J s →
      Registers s.data c (contracts.map fun contract => contract.registration c) hs data' →
      (∀ b, SameRecord b s.data data' ∨
        (s.data.descriptorOf b = none ∧ (data'.descriptorOf b).isSome)) →
      J (s.publish data')) :
    KeptByLoader fun rt => rt.registry.data.slots.length ≤ 2 ^ 32 → J rt.registry where
  core rt rt' hcore' h hlen := by
    have hdata : rt'.core.registry.data = rt.core.registry.data := by rw [hcore']
    have hpub : rt'.core.registry.published = rt.core.registry.published := by rw [hcore']
    have hdata' : rt'.registry.data = rt.registry.data := hdata
    exact hcore _ _ hdata' hpub (h (hdata' ▸ hlen))
  register rt descriptor interface ptr contractName c h hlen := by
    have hgrows := registerGuestContract_length_le rt.registry descriptor interface ptr
      contractName c
    have hin := h (le_trans hgrows hlen)
    rcases registerGuestContract_cases rt.registry descriptor interface ptr contractName c with
      ⟨e, heq⟩ | ⟨contract, handle, data', -, -, hins, heq⟩
    · rw [heq]
      exact hin
    · rw [heq] at hlen ⊢
      have hreg := registers_of_registerGuestContract hins hlen
      refine hregisters _ c [contract] _ _ hin hreg fun b => ?_
      have hsame := (sameBundles_insertPreparedGuestContract hins).sameRecord b
      rcases sameRecord_ensureDefault b rt.registry.data c with hrecord | ⟨hnone, hsome⟩
      · exact Or.inl (hrecord.trans hsame)
      · exact Or.inr ⟨hnone, by rw [hsame.descriptor]; exact hsome⟩
  publish rt prepared c opts h hlen := by
    rcases publishPrepared_ends rt c prepared opts with
      ⟨e, heq⟩ | ⟨version, handles, registry, hok, heq⟩
    · rw [heq] at hlen ⊢
      exact h hlen
    · rw [heq] at hlen ⊢
      have hgrows := registerPreparedBundle_length_le rt.registry
        (Runtime.preparedDescriptor prepared c version)
        (Runtime.preparedDependencies prepared.manifest) prepared.contracts
      rw [hok] at hgrows
      have hin := h (le_trans hgrows hlen)
      rcases registerPreparedBundle_cases rt.registry
          (Runtime.preparedDescriptor prepared c version)
          (Runtime.preparedDependencies prepared.manifest) prepared.contracts with
        ⟨e, heq'⟩ | ⟨hs, data', -, -, hnew, hins, heq'⟩
      · rw [heq'] at hok
        cases hok
      · rw [heq'] at hok
        cases hok
        have hreg := registers_of_registerPreparedBundle hnew hins hlen
        refine hcore (rt.registry.publish data') _ rfl rfl
          (hregisters _ c prepared.contracts _ _ hin hreg fun b => ?_)
        have hsame := (sameBundles_insertAll hins).sameRecord b
        rcases sameRecord_insertBundle b (Runtime.preparedDependencies prepared.manifest) hnew with
          hrecord | ⟨hnone, hsome⟩
        · exact Or.inl (hrecord.trans hsame)
        · exact Or.inr ⟨hnone, by rw [hsame.descriptor]; exact hsome⟩

/-- A loader stays inside the window. -/
theorem keptByLoader_inWindow (s₀ : RuntimeStore) (b : BundleId) :
    KeptByLoader fun rt => rt.registry.data.slots.length ≤ 2 ^ 32 → InWindow s₀ b rt.registry :=
  keptByLoader_of_registers (J := InWindow s₀ b) (fun _ _ hdata hpub h => h.of_core hdata hpub)
    fun _ _ _ _ _ h hreg hrecord => h.of_registers hreg (hrecord b)

/-- Outside a window it keeps the guards. -/
theorem keptByLoader_guarded :
    KeptByLoader fun rt => rt.registry.data.slots.length ≤ 2 ^ 32 → Guarded ⟨rt.registry, none⟩ :=
  keptByLoader_of_registers (J := fun s => Guarded ⟨s, none⟩)
    (fun _ _ hdata hpub h => h.of_core hdata hpub) fun _ _ _ _ _ h hreg _ => h.of_registers hreg

/-- A load keeps the guards. -/
theorem loadBundle_guarded (hg : Guarded ⟨rt.registry, none⟩) (env : LoadEnv)
    (manifest : ManifestData) (source : BundleSource) (opts : LoadOptions) (body : LoaderRun)
    (hlen : (rt.loadBundle env manifest source opts body).2.registry.data.slots.length ≤ 2 ^ 32) :
    Guarded ⟨(rt.loadBundle env manifest source opts body).2.registry, none⟩ :=
  keptByLoader_guarded.loadBundle env manifest source opts body (fun _ => hg) hlen

/-- The window of a reload, when the loader has returned. -/
theorem runReload_inWindow (hg : Guarded ⟨rt.registry, none⟩) (body : LoaderRun)
    (hlen : (rt.runReload env body b).2.registry.data.slots.length ≤ 2 ^ 32) :
    InWindow rt.registry b (rt.runReload env body b).2.registry :=
  (keptByLoader_inWindow rt.registry b).exec env.load b body (fun _ => .start hg b) hlen

/-- A reload leaves no window open, and the guards in place. When it fails, the lookups
of the bundle are restored, unless the bundle got its record from a loader that failed. -/
theorem replaceBundle_restores (hg : Guarded ⟨rt.registry, none⟩) (r : Replacement)
    (body : LoaderRun)
    (hlen : (rt.replaceBundle env r body).2.registry.data.slots.length ≤ 2 ^ 32) :
    Guarded ⟨(rt.replaceBundle env r body).2.registry, none⟩ ∧
      ∀ e, (rt.replaceBundle env r body).1 = .error e →
        ((∃ e', (rt.runReload env body r.descriptor.id).1 = .error e') →
          (rt.registry.data.descriptorOf r.descriptor.id).isSome ∨
            (rt.runReload env body r.descriptor.id).2.registry.data.descriptorOf r.descriptor.id
              = none) →
        SameLookups r.descriptor.id rt.registry
          (rt.replaceBundle env r body).2.registry := by
  have hlen' : (rt.runReload env body r.descriptor.id).2.registry.data.slots.length ≤ 2 ^ 32 := by
    unfold Runtime.replaceBundle at hlen
    rwa [closeReload_length] at hlen
  have hin := runReload_inWindow hg body hlen'
  obtain ⟨registered, hwindow⟩ := hin.guarded
  have hopen : r.descriptor.id ∉ rt.registry.data.reloadingBundles := by
    rw [hg.reloading_empty rfl]
    exact Finset.notMem_empty _
  unfold Runtime.replaceBundle
  rw [getBundlePluginSlots_eq]
  cases hloaded : (rt.runReload env body r.descriptor.id).1 with
  | error e => exact ⟨(hwindow.of_abort rfl).1, fun _ _ hrecord =>
      hin.abort hopen hg.tidy (hrecord ⟨e, rfl⟩)⟩
  | ok u =>
    have hswapped := (hwindow.of_swap rfl r.descriptor r.dependencies).1
    dsimp only at hswapped
    simp only [Runtime.closeReload]
    rcases hswap : (rt.runReload env body r.descriptor.id).2.registry.applyReloadSwap
      r.descriptor.id (rt.registry.data.pluginSlots r.descriptor.id) r.descriptor
      r.dependencies with ⟨e | _, registry⟩
    · rw [hswap] at hswapped
      exact ⟨hswapped, fun _ _ _ => hin.swap_error hopen hg.tidy hswap⟩
    · rw [hswap] at hswapped
      exact ⟨hswapped, nofun⟩

end

end PolyPlug.Lifecycle
