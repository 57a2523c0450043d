import PolyPlug.Proofs.Registry.Bundles
import PolyPlug.Proofs.Registry.Mirror
import PolyPlug.Proofs.Registry.Tidy

/-!
# `PolyPlug.Proofs.Registry.Registrations`: where live interfaces come from

`registrations` has what the live slots hold. A call adds only what it registers,
whatever its arguments and its result (`registrations_exec`). `SlotEffect.source` is the
same for the calls of a tidy run. A swap can overwrite a slot of another bundle here, but
it moves an entry and its interface as one unit.

Only `invalidate_bundle` takes the record of a bundle away (`isSome_descriptorOf_exec`).
-/

set_option autoImplicit false

namespace PolyPlug.Registry

open PolyPlug.Abi
open PolyPlug.Lib
open RuntimeStoreData RuntimeStore

/-- The registrations in the slots. -/
def slotRegistrations (slots : List PluginSlot) : Set Registration :=
  {g | ∃ slot ∈ slots, slot.registration = some g}

/-- The registrations in the live slots. -/
def RuntimeStoreData.registrations (data : RuntimeStoreData) : Set Registration :=
  slotRegistrations data.slots

/-- A live slot of the bundle has the interface at this address. -/
def RuntimeStoreData.HasAddress (data : RuntimeStoreData) (ptr : Nat) (b : BundleId) : Prop :=
  ∃ g ∈ data.registrations, g.arc.ptr = ptr ∧ g.owner = b

/-! ### Slots -/

section
variable {slots : List PluginSlot}

theorem slotRegistrations_set (i : Nat) (slot : PluginSlot) :
    slotRegistrations (slots.set i slot) ⊆ slotRegistrations slots
      ∪ {g | slot.registration = some g} := by
  rintro g ⟨slot', hmem, hg⟩
  rcases List.mem_or_eq_of_mem_set hmem with hold | rfl
  · exact Or.inl ⟨slot', hold, hg⟩
  · exact Or.inr hg

/-- A slot that is cleared. -/
theorem slotRegistrations_clear (i generation : Nat) :
    slotRegistrations (slots.set i ⟨none, none, generation⟩) ⊆ slotRegistrations slots := by
  refine (slotRegistrations_set i _).trans (Set.union_subset subset_rfl fun g hg => ?_)
  cases hg

theorem slotRegistrations_allocateSlot :
    slotRegistrations (allocateSlot slots).2 ⊆ slotRegistrations slots := by
  unfold allocateSlot
  split
  · exact subset_rfl
  · rintro g ⟨slot, hmem, hg⟩
    rcases List.mem_append.mp hmem with hold | hnew
    · exact ⟨slot, hold, hg⟩
    · rw [List.mem_singleton.mp hnew] at hg
      cases hg

end

/-! ### Parts of a call -/

section
variable {data data' : RuntimeStoreData} {b : BundleId}

theorem registrations_insertPreparedGuestContract {contract : PreparedGuestContract}
    {publishContract : Bool} {h : GuestContractHandle}
    (hins : insertPreparedGuestContract data contract b publishContract = .ok (h, data')) :
    data'.registrations ⊆ insert (contract.registration b) data.registrations := by
  unfold insertPreparedGuestContract at hins
  split at hins
  · cases hins
  · cases hins
    refine (slotRegistrations_set _ _).trans (Set.union_subset ?_ fun g hg => ?_)
    · exact slotRegistrations_allocateSlot.trans (Set.subset_insert _ _)
    · cases hg
      exact Or.inl rfl

theorem registrations_insertAll {contracts : List PreparedGuestContract} {publishContract : Bool}
    {hs : List GuestContractHandle}
    (hins : insertAll b publishContract contracts [] data = (.ok hs, data')) :
    data'.registrations
      ⊆ data.registrations ∪ {g | ∃ contract ∈ contracts, contract.registration b = g} := by
  induction contracts generalizing data hs with
  | nil =>
    cases hins
    exact Set.subset_union_left
  | cons contract rest ih =>
    obtain ⟨h, mid, hs', hone, hrest, -⟩ := insertAll_cons_ok hins
    intro g hg
    rcases ih hrest hg with hmid | ⟨c, hc, hreg⟩
    · rcases registrations_insertPreparedGuestContract hone hmid with rfl | hold
      · exact Or.inr ⟨contract, List.mem_cons_self, rfl⟩
      · exact Or.inl hold
    · exact Or.inr ⟨c, List.mem_cons_of_mem _ hc, hreg⟩

theorem registrations_vacateSlot (i : Nat) :
    (data.vacateSlot i).registrations ⊆ data.registrations := by
  unfold vacateSlot
  split
  · exact subset_rfl
  · exact slotRegistrations_clear i _

theorem registrations_purgeSlot (i : Nat) :
    (purgeSlot b data i).registrations ⊆ data.registrations := by
  unfold registrations
  rw [purgeSlot_slots]
  split
  · exact subset_rfl
  · exact slotRegistrations_clear i _

/-- One iteration of a swap. What a move writes was in the new slot. -/
theorem registrations_swapOldSlot {news : List Nat} {oldIdx : Nat}
    (hok : swapOldSlot b news data oldIdx = .ok data') :
    data'.registrations ⊆ data.registrations := by
  obtain ⟨cid, -, ⟨-, rfl⟩ | ⟨newIdx, oldSlot, newSlot, -, -, hnew, rfl⟩⟩ := swapOldSlot_cases hok
  · unfold registrations
    rw [retainPluginSlots_slots]
    exact registrations_vacateSlot oldIdx
  · unfold registrations
    rw [moveSlot_slots]
    refine (slotRegistrations_clear newIdx _).trans ?_
    refine (slotRegistrations_set oldIdx _).trans (Set.union_subset subset_rfl fun g hg => ?_)
    exact ⟨newSlot, List.mem_of_getElem? hnew,
      registration_eq_some.mpr (registration_eq_some.mp hg)⟩

/-- A loop, also one that stops at an error. -/
theorem registrations_swapOldSlots {news old : List Nat} {result : Except RegistryError Unit}
    (hloop : swapOldSlots b news old data = (result, data')) :
    data'.registrations ⊆ data.registrations := by
  induction old generalizing data with
  | nil =>
    cases hloop
    exact subset_rfl
  | cons oldIdx rest ih =>
    unfold swapOldSlots at hloop
    cases hone : swapOldSlot b news data oldIdx with
    | error e =>
      rw [hone] at hloop
      cases hloop
      exact subset_rfl
    | ok mid =>
      rw [hone] at hloop
      exact (ih hloop).trans (registrations_swapOldSlot hone)

theorem registrations_foldl_vacateSlot (cells : List Nat) :
    (cells.foldl vacateSlot data).registrations ⊆ data.registrations := by
  induction cells generalizing data with
  | nil => exact subset_rfl
  | cons i rest ih => exact ih.trans (registrations_vacateSlot i)

theorem registrations_foldl_purgeSlot (cells : List Nat) :
    (cells.foldl (purgeSlot b) data).registrations ⊆ data.registrations := by
  induction cells generalizing data with
  | nil => exact subset_rfl
  | cons i rest ih => exact ih.trans (registrations_purgeSlot i)

end

/-! ### Calls -/

theorem registrations_applyReloadSwap (s : RuntimeStore) (b : BundleId) (old : List Nat)
    (descriptor : BundleDescriptor) (dependencies : Finset GuestContractId) :
    (s.applyReloadSwap b old descriptor dependencies).2.data.registrations
      ⊆ s.data.registrations := by
  rcases applyReloadSwap_cases s b old descriptor dependencies with
    ⟨e, mid, hloop, heq⟩ | ⟨mid, hloop, ⟨-, heq⟩ | ⟨bd, -, heq⟩⟩
  · rw [heq]
    show mid.registrations ⊆ (closeWindow s.data b).registrations
    exact registrations_swapOldSlots hloop
  all_goals
    rw [heq]
    have hpub := foldl_publishSlot (pendingSlots s.data b old) mid
    have hmid : mid.registrations ⊆ (closeWindow s.data b).registrations :=
      registrations_swapOldSlots hloop
    show slotRegistrations ((pendingSlots s.data b old).foldl publishSlot mid).slots ⊆ _
    rw [hpub.slots]
    exact hmid

theorem registrations_invalidateBundle (s : RuntimeStore) (b : BundleId) :
    (s.invalidateBundle b).2.data.registrations ⊆ s.data.registrations := by
  unfold invalidateBundle
  split
  · exact subset_rfl
  · rename_i bd _
    exact @registrations_foldl_vacateSlot s.data bd.pluginSlots

/-- A registration was in some slot before the call, or is one of the call. -/
theorem registrations_exec (s : RuntimeStore) (op : StoreOp) :
    (s.exec op).data.registrations
      ⊆ s.data.registrations ∪ {g | Provides op g.owner g.arc} := by
  cases op with
  | registerGuestContract descriptor interface ptr contractName b =>
    simp only [RuntimeStore.exec]
    rcases registerGuestContract_cases s descriptor interface ptr contractName b with
      ⟨e, heq⟩ | ⟨contract, handle, data', hprep, -, hins, heq⟩
    · rw [heq]
      exact Set.subset_union_left
    · rw [heq]
      intro g hg
      rcases registrations_insertPreparedGuestContract hins hg with rfl | hold
      · exact Or.inr ⟨rfl, contract, hprep, rfl⟩
      · refine Or.inl ?_
        unfold registrations at hold
        rwa [(sameSlots_ensureDefaultBundleData s.data b).slots] at hold
  | registerPreparedBundle descriptor dependencies contracts =>
    simp only [RuntimeStore.exec]
    rcases registerPreparedBundle_cases s descriptor dependencies contracts with
      ⟨e, heq⟩ | ⟨hs, data', -, -, -, hins, heq⟩
    · rw [heq]
      exact Set.subset_union_left
    · rw [heq]
      intro g hg
      rcases registrations_insertAll hins hg with hold | ⟨contract, hmem, rfl⟩
      · exact Or.inl hold
      · exact Or.inr ⟨rfl, contract, hmem, rfl⟩
  | declareBundleDependencies b contractIds => exact Set.subset_union_left
  | registerBundleMetadata b bundleName version runtime origin dependencies =>
    exact Set.subset_union_left
  | beginReload b => exact Set.subset_union_left
  | abortReload b old =>
    exact (registrations_foldl_purgeSlot _).trans Set.subset_union_left
  | applyReloadSwap b old descriptor dependencies =>
    exact (registrations_applyReloadSwap s b old descriptor dependencies).trans
      Set.subset_union_left
  | invalidateBundle b =>
    exact (registrations_invalidateBundle s b).trans Set.subset_union_left

/-- The bundle that the lookup finds has the address. -/
theorem hasAddress_of_bundleIdForGuestInterface {s : RuntimeStore} {interface : Nat}
    {b : BundleId} (h : s.bundleIdForGuestInterface interface = some b) :
    s.data.HasAddress interface b := by
  unfold bundleIdForGuestInterface at h
  split at h
  · cases h
  · obtain ⟨slot, hmem, hfound⟩ := List.exists_of_findSome?_eq_some h
    split at hfound
    · rename_i entry registered hentry hinterface
      split at hfound
      · rename_i hptr
        cases hfound
        exact ⟨⟨entry, registered⟩, ⟨slot, hmem, registration_eq_some.mpr ⟨hentry, hinterface⟩⟩,
          hptr, rfl⟩
      · cases hfound
    · cases hfound

/-! ### Records -/

/-- A call other than an unload keeps the records of all bundles. -/
theorem isSome_descriptorOf_exec {s : RuntimeStore} (hp : s.data.Present) {op : StoreOp}
    (hop : ∀ b, op ≠ .invalidateBundle b) {x : BundleId}
    (hx : (s.data.descriptorOf x).isSome) : ((s.exec op).data.descriptorOf x).isSome := by
  rcases exec_bundles hp op with hsame | ⟨hsame, -, -⟩
  · rw [hsame.descriptorOf_eq]
    exact hx
  · rw [hsame.descriptorOf_eq]
    cases op with
    | registerGuestContract descriptor interface ptr contractName b =>
      simp only [bundleWrites, ensureDefaultBundleData, descriptorOf]
      split
      · exact hx
      · rw [lookup_insert_eq]
        split
        · rfl
        · exact hx
    | invalidateBundle b => exact absurd rfl (hop b)
    | declareBundleDependencies b contractIds => exact hx
    | beginReload b => exact hx
    | abortReload b old => exact hx
    | registerPreparedBundle descriptor dependencies contracts =>
      simp only [bundleWrites, insertBundle, descriptorOf, lookup_insert_eq]
      split
      · rfl
      · exact hx
    | registerBundleMetadata b bundleName version runtime origin dependencies =>
      simp only [bundleWrites, descriptorOf, lookup_insert_eq]
      split
      · rfl
      · exact hx
    | applyReloadSwap b old descriptor dependencies =>
      simp only [bundleWrites, descriptorOf, lookup_insert_eq]
      split
      · rfl
      · exact hx

end PolyPlug.Registry
