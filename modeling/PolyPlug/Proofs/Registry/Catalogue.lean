import PolyPlug.Lib.Map
import PolyPlug.Lib.Window
import PolyPlug.Registry.Lookup

/-!
# `PolyPlug.Proofs.Registry.Catalogue`: the locked data as a catalogue

`RuntimeStoreData.catalog` reads the locked data as a `Lib.Catalog`: the cells
are the slots, a value is an entry with its interface, its key the contract id,
its owner the bundle. Each step the mutators are made of is one operation of the
catalogue. The equations hold for data whose slots have an entry exactly if they
have an interface (`Present`) and whose index is `Indexed`, which every mutator
keeps.

The generations are outside the catalogue. `generationAt` lemmas say which step
bumps which slot.
-/

set_option autoImplicit false

namespace PolyPlug.Registry

open PolyPlug.Abi
open PolyPlug.Lib (Catalog lookup_insert_eq lookup_erase_eq)
open PolyPlug.Lib.Catalog

/-! ### The reading -/

/-- What a live slot holds. -/
structure Registration where
  entry : PluginEntry
  arc : Arc GuestContractInterface
deriving DecidableEq

/-- The contract a registration provides. -/
def Registration.key (r : Registration) : GuestContractId := r.arc.val.contractId

/-- The bundle a registration belongs to. -/
def Registration.owner (r : Registration) : BundleId := r.entry.bundleId

/-- The registration of a slot that has both an entry and an interface. -/
def PluginSlot.registration (slot : PluginSlot) : Option Registration :=
  match slot.entry, slot.interface with
  | some entry, some arc => some ⟨entry, arc⟩
  | _, _                 => none

namespace RuntimeStoreData

/-- The locked data as a catalogue. -/
def catalog (data : RuntimeStoreData) :
    Catalog Nat Registration BundleId GuestContractId where
  content := fun i => data.slots[i]?.bind PluginSlot.registration
  listed := data.indexOf
  held := data.pluginSlots

/-- The generation of a slot, `0` for a slot that does not exist yet. -/
def generationAt (data : RuntimeStoreData) (i : Nat) : Nat :=
  (data.slots[i]?.map PluginSlot.generation).getD 0

/-- A slot has an entry exactly if it has an interface. -/
def Present (data : RuntimeStoreData) : Prop :=
  ∀ slot ∈ data.slots, slot.entry.isSome = slot.interface.isSome

/-- No key of the contract index has an empty list. -/
def NoEmptyKey (data : RuntimeStoreData) : Prop :=
  ∀ cid indices, data.guestContractIndex.lookup cid = some indices → indices ≠ []

/-- The index invariant of the locked data. -/
def Indexed (data : RuntimeStoreData) : Prop := Catalog.Indexed Registration.key data.catalog

/-- The index and ownership invariant of the locked data. -/
def Consistent (data : RuntimeStoreData) : Prop :=
  Catalog.Consistent Registration.key Registration.owner data.catalog

theorem Consistent.indexed {data : RuntimeStoreData} (h : data.Consistent) : data.Indexed :=
  h.toIndexed

end RuntimeStoreData

open RuntimeStoreData

section
variable {data : RuntimeStoreData}

/-- The registration of a slot has its entry and its interface. -/
theorem registration_eq_some {slot : PluginSlot} {r : Registration} :
    slot.registration = some r ↔ slot.entry = some r.entry ∧ slot.interface = some r.arc := by
  obtain ⟨entry, interface, generation⟩ := slot
  cases entry <;> cases interface <;> cases r <;> simp [PluginSlot.registration]

theorem content_eq_some {i : Nat} {r : Registration} :
    data.catalog.content i = some r ↔
      ∃ slot, data.slots[i]? = some slot ∧ slot.entry = some r.entry ∧
        slot.interface = some r.arc := by
  simp [catalog, Option.bind_eq_some_iff, registration_eq_some]

theorem lt_length_of_content {i : Nat} (h : data.catalog.content i ≠ none) :
    i < data.slots.length := by
  by_contra hout
  exact h (by simp [catalog, List.getElem?_eq_none (Nat.le_of_not_lt hout)])

/-- Under `Present`, the interface alone decides the key of a slot. -/
theorem contractAt_eq (h : data.Present) (i : Nat) :
    data.contractAt i = data.catalog.keyAt Registration.key i := by
  cases hslot : data.slots[i]? with
  | none => simp [contractAt, interfaceAt, keyAt, catalog, hslot]
  | some slot =>
    have hp := h slot (List.mem_of_getElem? hslot)
    obtain ⟨entry, interface, generation⟩ := slot
    cases entry <;> cases interface <;>
      simp_all [contractAt, interfaceAt, keyAt, catalog, PluginSlot.registration,
        Registration.key]

/-- Under `Present`, the entry alone decides whether a slot is live. -/
theorem entryAt_eq (h : data.Present) (i : Nat) :
    data.entryAt i = (data.catalog.content i).map Registration.entry := by
  cases hslot : data.slots[i]? with
  | none => simp [entryAt, catalog, hslot]
  | some slot =>
    have hp := h slot (List.mem_of_getElem? hslot)
    obtain ⟨entry, interface, generation⟩ := slot
    cases entry <;> cases interface <;> simp_all [entryAt, catalog, PluginSlot.registration]

theorem present_new : RuntimeStoreData.new.Present := by
  simp [RuntimeStoreData.new, Present]

theorem noEmptyKey_new : RuntimeStoreData.new.NoEmptyKey := by
  intro cid indices hl
  simp [RuntimeStoreData.new] at hl

theorem consistent_new : RuntimeStoreData.new.Consistent := by
  refine
    { listed_key := ?_
      listed_nodup := ?_
      mem_held := ?_
      held_nodup := ?_ } <;>
    simp [RuntimeStoreData.new, catalog, indexOf, pluginSlots, ownerAt]

/-- Two data agree on the slots, the contract index and the per-bundle lists.
Everything else may differ. -/
structure SameSlots (data data' : RuntimeStoreData) : Prop where
  slots : data'.slots = data.slots
  index : data'.guestContractIndex = data.guestContractIndex
  pluginSlots : ∀ x, data'.pluginSlots x = data.pluginSlots x

namespace SameSlots

variable {data' : RuntimeStoreData} (h : SameSlots data data')
include h

theorem catalog_eq : data'.catalog = data.catalog := by
  ext1
  · simp only [catalog, h.slots]
  · funext k
    simp only [catalog, indexOf, h.index]
  · funext x
    exact h.pluginSlots x

theorem generationAt_eq (i : Nat) : data'.generationAt i = data.generationAt i := by
  simp only [generationAt, h.slots]

theorem present : data'.Present ↔ data.Present := by
  simp only [Present, h.slots]

theorem noEmptyKey : data'.NoEmptyKey ↔ data.NoEmptyKey := by
  simp only [NoEmptyKey, h.index]

theorem indexed : data'.Indexed ↔ data.Indexed := by
  simp only [RuntimeStoreData.Indexed, h.catalog_eq]

theorem consistent : data'.Consistent ↔ data.Consistent := by
  simp only [RuntimeStoreData.Consistent, h.catalog_eq]

end SameSlots

/-- Two data agree on the descriptors, the declared dependencies and the names of
all bundles. -/
structure SameBundles (data data' : RuntimeStoreData) : Prop where
  descriptor : ∀ x, (data'.bundleData.lookup x).map BundleData.descriptor
    = (data.bundleData.lookup x).map BundleData.descriptor
  declaredDeps : data'.bundleDeclaredDeps = data.bundleDeclaredDeps
  nameIndex : data'.bundleNameIndex = data.bundleNameIndex

theorem SameBundles.refl (data : RuntimeStoreData) : SameBundles data data :=
  ⟨fun _ => rfl, rfl, rfl⟩

theorem SameBundles.trans {mid data' : RuntimeStoreData} (h : SameBundles data mid)
    (h' : SameBundles mid data') : SameBundles data data' :=
  ⟨fun x => (h'.descriptor x).trans (h.descriptor x), h'.declaredDeps.trans h.declaredDeps,
    h'.nameIndex.trans h.nameIndex⟩

/-- The same bundles have a record. -/
theorem SameBundles.isSome {data' : RuntimeStoreData} (h : SameBundles data data')
    (x : BundleId) : (data'.bundleData.lookup x).isSome = (data.bundleData.lookup x).isSome := by
  rw [← Option.isSome_map (f := BundleData.descriptor), h.descriptor x, Option.isSome_map]

/-! ### Lists of the two indices -/

/-- The list of a contract after `retainIndices`. -/
theorem getD_retainIndices (cid k : GuestContractId) (i : Nat) :
    ((data.retainIndices cid i).lookup k).getD []
      = if k = cid then (data.indexOf k).filter (· ∉ [i]) else data.indexOf k := by
  unfold retainIndices indexOf
  cases hl : data.guestContractIndex.lookup cid with
  | none =>
    by_cases hk : k = cid
    · subst hk
      simp [hl]
    · simp [hk]
  | some indices =>
    by_cases hk : k = cid
    · subst hk
      dsimp only
      split
      · rename_i hempty
        rw [List.isEmpty_iff] at hempty
        simp only [lookup_erase_eq, if_true, hl, List.mem_singleton]
        exact hempty.symm
      · simp [hl]
    · rw [if_neg hk]
      dsimp only
      split
      · rw [lookup_erase_eq, if_neg hk]
      · rw [lookup_insert_eq, if_neg hk]

/-- `retainIndices` drops the key of an emptied list. -/
theorem retainIndices_noEmptyKey (h : data.NoEmptyKey) {cid k : GuestContractId} {i : Nat}
    {indices : List Nat} (hl : (data.retainIndices cid i).lookup k = some indices) :
    indices ≠ [] := by
  unfold retainIndices at hl
  cases hc : data.guestContractIndex.lookup cid with
  | none =>
    rw [hc] at hl
    exact h k indices hl
  | some kept =>
    rw [hc] at hl
    dsimp only at hl
    split at hl
    · rw [lookup_erase_eq] at hl
      split at hl
      · cases hl
      · exact h k indices hl
    · rename_i hne
      rw [lookup_insert_eq] at hl
      split at hl
      · rintro rfl
        exact hne (by rw [Option.some.inj hl]; rfl)
      · exact h k indices hl

/-- The list of a bundle after `retainPluginSlots`. -/
theorem pluginSlots_retainPluginSlots (b x : BundleId) (i : Nat) :
    (data.retainPluginSlots b i).pluginSlots x
      = if x = b then (data.pluginSlots x).filter (· ∉ [i]) else data.pluginSlots x := by
  unfold retainPluginSlots pluginSlots
  cases hl : data.bundleData.lookup b with
  | none =>
    by_cases hx : x = b
    · subst hx
      simp [hl]
    · simp [hx]
  | some bd =>
    dsimp only
    rw [lookup_insert_eq]
    by_cases hx : x = b
    · subst hx
      simp [hl]
    · simp [hx]

@[simp] theorem retainPluginSlots_slots (b : BundleId) (i : Nat) :
    (data.retainPluginSlots b i).slots = data.slots := by
  unfold retainPluginSlots
  split <;> rfl

@[simp] theorem retainPluginSlots_index (b : BundleId) (i : Nat) :
    (data.retainPluginSlots b i).guestContractIndex = data.guestContractIndex := by
  unfold retainPluginSlots
  split <;> rfl

@[simp] theorem retainPluginSlots_reloading (b : BundleId) (i : Nat) :
    (data.retainPluginSlots b i).reloadingBundles = data.reloadingBundles := by
  unfold retainPluginSlots
  split <;> rfl

theorem sameBundles_retainPluginSlots (b : BundleId) (i : Nat) :
    SameBundles data (data.retainPluginSlots b i) := by
  unfold retainPluginSlots
  cases hbd : data.bundleData.lookup b with
  | none => exact .refl data
  | some bd =>
    refine ⟨fun x => ?_, rfl, rfl⟩
    dsimp only
    rw [lookup_insert_eq]
    split
    · rename_i hx
      rw [hx, hbd]
      rfl
    · rfl

@[simp] theorem retainPluginSlots_catalog_content (b : BundleId) (i : Nat) :
    (data.retainPluginSlots b i).catalog.content = data.catalog.content := by
  simp only [catalog, retainPluginSlots_slots]

@[simp] theorem retainPluginSlots_generationAt (b : BundleId) (i j : Nat) :
    (data.retainPluginSlots b i).generationAt j = data.generationAt j := by
  simp only [generationAt, retainPluginSlots_slots]

/-! ### Writes to one slot -/

/-- The content of the slots after a write. -/
theorem getElem?_set_registration (slots : List PluginSlot) (i j : Nat) (slot : PluginSlot) :
    (slots.set i slot)[j]?.bind PluginSlot.registration
      = if j = i ∧ i < slots.length then slot.registration
        else slots[j]?.bind PluginSlot.registration := by
  rw [List.getElem?_set]
  by_cases hij : i = j
  · subst hij
    by_cases hlt : i < slots.length
    · simp [hlt]
    · simp [hlt]
  · simp [hij, Ne.symm hij]

/-- The generations after a write. -/
theorem getElem?_set_generation (slots : List PluginSlot) (i j : Nat) (slot : PluginSlot) :
    ((slots.set i slot)[j]?.map PluginSlot.generation).getD 0
      = if j = i ∧ i < slots.length then slot.generation
        else (slots[j]?.map PluginSlot.generation).getD 0 := by
  rw [List.getElem?_set]
  by_cases hij : i = j
  · subst hij
    by_cases hlt : i < slots.length
    · simp [hlt]
    · simp [hlt]
  · simp [hij, Ne.symm hij]

/-- A write of a slot with entry and interface both present or both absent. -/
theorem present_set {slots : List PluginSlot} {i : Nat} {slot : PluginSlot}
    (h : ∀ s ∈ slots, s.entry.isSome = s.interface.isSome)
    (hslot : slot.entry.isSome = slot.interface.isSome) :
    ∀ s ∈ slots.set i slot, s.entry.isSome = s.interface.isSome := by
  intro s hs
  rcases List.mem_or_eq_of_mem_set hs with hold | hnew
  · exact h s hold
  · rw [hnew]
    exact hslot

/-! ### `vacateSlot` -/

theorem vacateSlot_of_none {i : Nat} (h : data.slots[i]? = none) : data.vacateSlot i = data := by
  simp [vacateSlot, h]

@[simp] theorem vacateSlot_bundleData (i : Nat) :
    (data.vacateSlot i).bundleData = data.bundleData := by
  unfold vacateSlot
  split <;> rfl

@[simp] theorem vacateSlot_bundleNameIndex (i : Nat) :
    (data.vacateSlot i).bundleNameIndex = data.bundleNameIndex := by
  unfold vacateSlot
  split <;> rfl

@[simp] theorem vacateSlot_bundleDeclaredDeps (i : Nat) :
    (data.vacateSlot i).bundleDeclaredDeps = data.bundleDeclaredDeps := by
  unfold vacateSlot
  split <;> rfl

@[simp] theorem vacateSlot_reloading (i : Nat) :
    (data.vacateSlot i).reloadingBundles = data.reloadingBundles := by
  unfold vacateSlot
  split <;> rfl

theorem sameBundles_vacateSlot (i : Nat) : SameBundles data (data.vacateSlot i) :=
  ⟨fun x => by rw [vacateSlot_bundleData], by simp, by simp⟩

@[simp] theorem vacateSlot_length (i : Nat) :
    (data.vacateSlot i).slots.length = data.slots.length := by
  unfold vacateSlot
  split <;> simp

theorem vacateSlot_present (h : data.Present) (i : Nat) : (data.vacateSlot i).Present := by
  unfold vacateSlot
  split
  · exact h
  · exact present_set h rfl

theorem vacateSlot_content (i j : Nat) :
    (data.vacateSlot i).catalog.content j = if j = i then none else data.catalog.content j := by
  cases hslot : data.slots[i]? with
  | none =>
    rw [vacateSlot_of_none hslot]
    by_cases hj : j = i
    · simp [hj, catalog, hslot]
    · rw [if_neg hj]
  | some slot =>
    have hlt : i < data.slots.length := (List.getElem?_eq_some_iff.mp hslot).1
    simp only [vacateSlot, hslot, catalog]
    rw [getElem?_set_registration]
    simp [hlt, PluginSlot.registration]

theorem vacateSlot_generationAt (i j : Nat) :
    (data.vacateSlot i).generationAt j
      = if j = i ∧ i < data.slots.length then wrappingSucc (data.generationAt j)
        else data.generationAt j := by
  cases hslot : data.slots[i]? with
  | none =>
    have hge := List.getElem?_eq_none_iff.mp hslot
    rw [vacateSlot_of_none hslot, if_neg (by omega)]
  | some slot =>
    simp only [vacateSlot, hslot, generationAt]
    rw [getElem?_set_generation]
    split
    · rename_i hj
      simp [hj.1, hslot]
    · rfl

theorem vacateSlot_indexOf (hp : data.Present) (hi : data.Indexed) (i : Nat)
    (k : GuestContractId) :
    (data.vacateSlot i).indexOf k = (data.indexOf k).filter (· ∉ [i]) := by
  have hother : data.catalog.keyAt Registration.key i ≠ some k →
      (data.indexOf k).filter (· ∉ [i]) = data.indexOf k := hi.filter_of_key_ne
  have hkey := contractAt_eq hp i
  cases hslot : data.slots[i]? with
  | none =>
    rw [vacateSlot_of_none hslot, hother (by simp [keyAt, catalog, hslot])]
  | some slot =>
    cases harc : slot.interface with
    | none =>
      rw [hother (by simp [← hkey, contractAt, interfaceAt, hslot, harc])]
      simp [vacateSlot, hslot, harc, indexOf]
    | some arc =>
      simp only [vacateSlot, hslot, harc]
      refine (getD_retainIndices _ k i).trans ?_
      split
      · rfl
      · rename_i hk
        rw [hother]
        simpa [← hkey, contractAt, interfaceAt, hslot, harc] using Ne.symm hk

theorem vacateSlot_noEmptyKey (h : data.NoEmptyKey) (i : Nat) :
    (data.vacateSlot i).NoEmptyKey := by
  unfold vacateSlot
  split
  · exact h
  · intro cid indices hl
    dsimp only at hl
    split at hl
    · exact h cid indices hl
    · exact retainIndices_noEmptyKey h hl

/-- Clearing a slot and taking it from a bundle withdraws it. -/
theorem catalog_vacateSlot_retain (hp : data.Present) (hi : data.Indexed) (b : BundleId)
    (i : Nat) :
    ((data.vacateSlot i).retainPluginSlots b i).catalog = data.catalog.withdraw b [i] := by
  ext1
  · funext j
    rw [retainPluginSlots_catalog_content, vacateSlot_content]
    simp [withdraw]
  · funext k
    change indexOf _ k = (data.indexOf k).filter (· ∉ [i])
    rw [← vacateSlot_indexOf hp hi i k]
    simp [indexOf]
  · funext x
    refine (pluginSlots_retainPluginSlots b x i).trans ?_
    simp [pluginSlots, catalog, withdraw]

/-! ### `purgeSlot` -/

open RuntimeStore

theorem purgeSlot_slots (b : BundleId) (i : Nat) :
    (purgeSlot b data i).slots = match data.slots[i]? with
      | none      => data.slots
      | some slot => data.slots.set i ⟨none, none, slot.generation⟩ := by
  cases hslot : data.slots[i]? with
  | none => simp only [purgeSlot, retainPluginSlots_slots, hslot]
  | some slot => simp only [purgeSlot, retainPluginSlots_slots, hslot]

@[simp] theorem purgeSlot_reloading (b : BundleId) (i : Nat) :
    (purgeSlot b data i).reloadingBundles = data.reloadingBundles := by
  simp [purgeSlot]

theorem sameBundles_purgeSlot (b : BundleId) (i : Nat) :
    SameBundles data (purgeSlot b data i) := by
  unfold purgeSlot
  refine SameBundles.trans ?_ (sameBundles_retainPluginSlots b i)
  exact ⟨fun _ => rfl, rfl, rfl⟩

@[simp] theorem purgeSlot_length (b : BundleId) (i : Nat) :
    (purgeSlot b data i).slots.length = data.slots.length := by
  rw [purgeSlot_slots]
  split <;> simp

theorem purgeSlot_present (h : data.Present) (b : BundleId) (i : Nat) :
    (purgeSlot b data i).Present := by
  unfold Present
  rw [purgeSlot_slots]
  split
  · exact h
  · exact present_set h rfl

/-- Unlike `vacateSlot`, a purge keeps the generation. -/
theorem purgeSlot_generationAt (b : BundleId) (i j : Nat) :
    (purgeSlot b data i).generationAt j = data.generationAt j := by
  simp only [generationAt, purgeSlot_slots]
  cases hslot : data.slots[i]? with
  | none => rfl
  | some slot =>
    dsimp only
    rw [getElem?_set_generation]
    split
    · rename_i hj
      simp [hj.1, hslot]
    · rfl

theorem purgeSlot_noEmptyKey (h : data.NoEmptyKey) (b : BundleId) (i : Nat) :
    (purgeSlot b data i).NoEmptyKey := by
  intro cid indices hl
  simp only [purgeSlot, retainPluginSlots_index] at hl
  split at hl
  · exact h cid indices hl
  · exact retainIndices_noEmptyKey h hl

theorem catalog_purgeSlot (hp : data.Present) (hi : data.Indexed) (b : BundleId) (i : Nat) :
    (purgeSlot b data i).catalog = data.catalog.withdraw b [i] := by
  have hkey := contractAt_eq hp i
  ext1
  · funext j
    simp only [catalog, purgeSlot_slots, withdraw]
    cases hslot : data.slots[i]? with
    | none =>
      by_cases hj : j = i
      · simp [hj, hslot]
      · simp [hj]
    | some slot =>
      have hlt : i < data.slots.length := (List.getElem?_eq_some_iff.mp hslot).1
      dsimp only
      rw [getElem?_set_registration]
      simp [hlt, PluginSlot.registration]
  · funext k
    change (purgeSlot b data i).indexOf k = (data.indexOf k).filter (· ∉ [i])
    simp only [purgeSlot, indexOf, retainPluginSlots_index]
    cases hc : data.contractAt i with
    | none => exact (hi.filter_of_key_ne (by simp [← hkey, hc])).symm
    | some cid =>
      refine (getD_retainIndices cid k i).trans ?_
      split
      · rfl
      · rename_i hk
        refine (hi.filter_of_key_ne ?_).symm
        simpa [← hkey, hc] using Ne.symm hk
  · funext x
    refine (pluginSlots_retainPluginSlots b x i).trans ?_
    simp [pluginSlots, catalog, withdraw]

end

end PolyPlug.Registry
