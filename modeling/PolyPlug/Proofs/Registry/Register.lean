import PolyPlug.Proofs.Registry.Catalogue

/-!
# `PolyPlug.Proofs.Registry.Register`: what a registration does to the catalogue

`insertPreparedGuestContract` fills one vacant slot and leaves every generation
alone (`Inserts`). `register_guest_contract` is one such insertion, and
`register_prepared_bundle` one per staged contract, after the bundle's own
record is written. Both refuse without changing anything: the paths that would
keep half of the work are unreachable, because the bundle's record is there when
the first slot is filled.

The slot index is cast to 32 bits. The cast is the identity as long as the slot
array has at most `2 ^ 32` slots.
-/

set_option autoImplicit false

namespace PolyPlug.Registry

open PolyPlug.Abi
open PolyPlug.Lib (Catalog lookup_insert_eq lookup_erase_eq)
open PolyPlug.Lib.Catalog
open RuntimeStoreData RuntimeStore

/-! ### Allocation -/

/-- The slot array after an allocation: nothing changes but a vacant slot at the
end, and the allocated slot is vacant. -/
structure Allocates (slots : List PluginSlot) (idx : Nat) (slots' : List PluginSlot) : Prop where
  inBounds : idx < slots'.length
  vacant : slots'[idx]?.bind PluginSlot.entry = none
  length_le : slots.length ≤ slots'.length
  slots_eq : slots' = slots ∨ slots' = slots ++ [PluginSlot.vacant]

theorem allocateSlot_allocates {slots : List PluginSlot}
    (hlen : (allocateSlot slots).2.length ≤ 2 ^ 32) :
    Allocates slots (allocateSlot slots).1 (allocateSlot slots).2 := by
  unfold allocateSlot at hlen ⊢
  cases hfind : slots.findIdx? (fun slot => slot.entry.isNone) with
  | none =>
    rw [hfind] at hlen
    have hlt : slots.length < 2 ^ 32 := by
      simp only [List.length_append, List.length_singleton] at hlen
      omega
    have hcast : asU32 slots.length = slots.length := Nat.mod_eq_of_lt hlt
    refine ⟨by simp [hcast], ?_, by simp, Or.inr rfl⟩
    simp [hcast, PluginSlot.vacant]
  | some idx =>
    rw [hfind] at hlen
    obtain ⟨hlt, hvacant, -⟩ := List.findIdx?_eq_some_iff_getElem.mp hfind
    have hcast : asU32 idx = idx := Nat.mod_eq_of_lt (Nat.lt_of_lt_of_le hlt hlen)
    refine ⟨by simpa [hcast] using hlt, ?_, Nat.le_refl _, Or.inl rfl⟩
    simpa [hcast, hlt] using hvacant

section
variable {slots slots' : List PluginSlot} {idx : Nat}

/-- A push of the vacant slot is invisible to readings that are `none` or `0` on
it. -/
private theorem getElem?_push_vacant {α : Type} (f : Option PluginSlot → α)
    (hf : f (some PluginSlot.vacant) = f none) (j : Nat) :
    f (slots ++ [PluginSlot.vacant])[j]? = f slots[j]? := by
  rcases Nat.lt_trichotomy j slots.length with hlt | heq | hgt
  · rw [List.getElem?_append_left hlt]
  · subst heq
    rw [List.getElem?_concat_length, hf, List.getElem?_eq_none (Nat.le_refl _)]
  · rw [List.getElem?_eq_none (by simp; omega), List.getElem?_eq_none hgt.le]

theorem Allocates.registration (h : Allocates slots idx slots') (j : Nat) :
    slots'[j]?.bind PluginSlot.registration = slots[j]?.bind PluginSlot.registration := by
  rcases h.slots_eq with heq | heq <;> rw [heq]
  exact getElem?_push_vacant (fun o => o.bind PluginSlot.registration) rfl j

theorem Allocates.generation (h : Allocates slots idx slots') (j : Nat) :
    (slots'[j]?.map PluginSlot.generation).getD 0
      = (slots[j]?.map PluginSlot.generation).getD 0 := by
  rcases h.slots_eq with heq | heq <;> rw [heq]
  exact getElem?_push_vacant (fun o => (o.map PluginSlot.generation).getD 0) rfl j

/-- The allocated slot held no registration. -/
theorem Allocates.content_none (h : Allocates slots idx slots') :
    slots[idx]?.bind PluginSlot.registration = none := by
  rw [← h.registration]
  have hvacant := h.vacant
  cases hslot : slots'[idx]? with
  | none => rfl
  | some slot =>
    obtain ⟨entry, interface, generation⟩ := slot
    cases entry <;> simp_all [PluginSlot.registration]

end

/-! ### One insertion -/

/-- The registration a contract is inserted as. -/
def PreparedGuestContract.registration (contract : PreparedGuestContract) (b : BundleId) :
    Registration :=
  ⟨contract.entry b, contract.interface⟩

@[simp] theorem registration_key (contract : PreparedGuestContract) (b : BundleId) :
    (contract.registration b).key = contract.contractId :=
  contract.contractId_eq.symm

@[simp] theorem registration_owner (contract : PreparedGuestContract) (b : BundleId) :
    (contract.registration b).owner = b := rfl

/-- The insertion of `r` at the handle `h`: a vacant slot is filled, listed when
`publishContract`, and no generation moves. -/
structure Inserts (data : RuntimeStoreData) (r : Registration) (publishContract : Bool)
    (h : GuestContractHandle) (data' : RuntimeStoreData) : Prop where
  vacant : data.catalog.content h.index = none
  generation : h.generation = data.generationAt h.index
  catalog_eq : data'.catalog
    = data.catalog.add Registration.key Registration.owner h.index r publishContract
  generations : ∀ i, data'.generationAt i = data.generationAt i
  present : data.Present → data'.Present
  noEmptyKey : data.NoEmptyKey → data'.NoEmptyKey
  reloading : data'.reloadingBundles = data.reloadingBundles

section
variable {data data' : RuntimeStoreData} {contract : PreparedGuestContract} {b : BundleId}
  {publishContract : Bool} {h : GuestContractHandle}

theorem insertPreparedGuestContract_length
    (hins : insertPreparedGuestContract data contract b publishContract = .ok (h, data')) :
    data'.slots.length = (allocateSlot data.slots).2.length := by
  unfold insertPreparedGuestContract at hins
  split at hins
  · cases hins
  · cases hins
    simp

theorem allocateSlot_length_le (slots : List PluginSlot) :
    slots.length ≤ (allocateSlot slots).2.length := by
  unfold allocateSlot
  split <;> simp

/-- The slot array never shrinks. -/
theorem insertPreparedGuestContract_length_le
    (hins : insertPreparedGuestContract data contract b publishContract = .ok (h, data')) :
    data.slots.length ≤ data'.slots.length := by
  rw [insertPreparedGuestContract_length hins]
  exact allocateSlot_length_le data.slots

/-- An insertion writes an entry and an interface, also when the index cast
wraps. -/
theorem insertPreparedGuestContract_present (hp : data.Present)
    (hins : insertPreparedGuestContract data contract b publishContract = .ok (h, data')) :
    data'.Present := by
  have hslots : ∀ s ∈ (allocateSlot data.slots).2, s.entry.isSome = s.interface.isSome := by
    unfold allocateSlot
    split
    · exact hp
    · intro s hs
      rcases List.mem_append.mp hs with hold | hnew
      · exact hp s hold
      · rw [List.mem_singleton.mp hnew]
        rfl
  unfold insertPreparedGuestContract at hins
  split at hins
  · cases hins
  · cases hins
    exact present_set hslots rfl

/-- A successful insertion is `Inserts`. -/
theorem insertPreparedGuestContract_inserts
    (hins : insertPreparedGuestContract data contract b publishContract = .ok (h, data'))
    (hlen : data'.slots.length ≤ 2 ^ 32) :
    Inserts data (contract.registration b) publishContract h data' := by
  have hpresent : data.Present → data'.Present := fun hp =>
    insertPreparedGuestContract_present hp hins
  rw [insertPreparedGuestContract_length hins] at hlen
  have halloc := allocateSlot_allocates hlen
  unfold insertPreparedGuestContract at hins
  cases hbd : data.bundleData.lookup b with
  | none =>
    rw [hbd] at hins
    cases hins
  | some bd =>
    rw [hbd] at hins
    set idx := (allocateSlot data.slots).1 with hidx
    set slots := (allocateSlot data.slots).2 with hslots
    simp only [Except.ok.injEq, Prod.mk.injEq] at hins
    obtain ⟨rfl, rfl⟩ := hins
    have hgen : (slots.getD idx PluginSlot.vacant).generation = data.generationAt idx := by
      rw [generationAt, ← halloc.generation, List.getD_eq_getElem?_getD]
      rw [List.getElem?_eq_getElem halloc.inBounds]
      rfl
    refine
      { vacant := halloc.content_none
        generation := hgen
        catalog_eq := ?_
        generations := ?_
        present := hpresent
        noEmptyKey := ?_
        reloading := rfl }
    · -- The three parts of the catalog: the contents, the index and the lists of the bundles.
      ext1
      · funext j
        simp only [catalog, add]
        rw [getElem?_set_registration, halloc.registration]
        simp [halloc.inBounds, PluginSlot.registration, PreparedGuestContract.registration]
      · funext k
        simp only [catalog, add, indexOf, registration_key]
        cases publishContract
        · simp
        · by_cases hk : k = contract.contractId
          · subst hk
            simp
          · simp [hk, Finmap.lookup_insert_of_ne _ hk]
      · funext x
        simp only [catalog, add, pluginSlots, registration_owner, lookup_insert_eq]
        by_cases hx : x = b
        · subst hx
          simp [hbd]
        · simp [hx]
    · intro i
      simp only [generationAt]
      rw [getElem?_set_generation, halloc.generation]
      split
      · rename_i hi
        rw [hgen, hi.1]
        rfl
      · rfl
    · intro hk cid indices hl
      dsimp only at hl
      split at hl
      · rw [lookup_insert_eq] at hl
        split at hl
        · cases hl
          simp
        · exact hk cid indices hl
      · exact hk cid indices hl

/-- An insertion leaves the metadata of all bundles. -/
theorem sameBundles_insertPreparedGuestContract
    (hins : insertPreparedGuestContract data contract b publishContract = .ok (h, data')) :
    SameBundles data data' := by
  unfold insertPreparedGuestContract at hins
  cases hbd : data.bundleData.lookup b with
  | none =>
    rw [hbd] at hins
    cases hins
  | some bd =>
    rw [hbd] at hins
    cases hins
    refine ⟨fun x => ?_, rfl, rfl⟩
    dsimp only
    rw [lookup_insert_eq]
    split
    · rename_i hx
      rw [hx, hbd]
      rfl
    · rfl

/-- An insertion fails only when the bundle has no record. -/
theorem insertPreparedGuestContract_ok (contract : PreparedGuestContract)
    (publishContract : Bool) (hb : (data.bundleData.lookup b).isSome) :
    ∃ h data', insertPreparedGuestContract data contract b publishContract = .ok (h, data') := by
  unfold insertPreparedGuestContract
  cases hbd : data.bundleData.lookup b with
  | none => simp [hbd] at hb
  | some bd => exact ⟨_, _, rfl⟩

end

/-! ### A run of insertions -/

/-- The insertions of registrations in order, with the handles they return. -/
inductive InsertsAll (publishContract : Bool) :
    RuntimeStoreData → List Registration → List GuestContractHandle → RuntimeStoreData → Prop
  | nil {data : RuntimeStoreData} : InsertsAll publishContract data [] [] data
  | cons {data mid data' : RuntimeStoreData} {r : Registration} {h : GuestContractHandle}
      {rs : List Registration} {hs : List GuestContractHandle}
      (hhead : Inserts data r publishContract h mid)
      (htail : InsertsAll publishContract mid rs hs data') :
      InsertsAll publishContract data (r :: rs) (h :: hs) data'

section
variable {publishContract : Bool} {data data' : RuntimeStoreData} {rs : List Registration}
  {hs : List GuestContractHandle}

/-- Insertions fill vacant slots, so a filled one stays as it is. -/
theorem InsertsAll.content_kept (h : InsertsAll publishContract data rs hs data') {i : Nat}
    {r : Registration} (hr : data.catalog.content i = some r) :
    data'.catalog.content i = some r := by
  induction h with
  | nil => exact hr
  | @cons d mid d' r₀ handle rs hs hhead _ ih =>
    have hne : i ≠ handle.index := by
      rintro rfl
      rw [hhead.vacant] at hr
      cases hr
    exact ih (by rw [hhead.catalog_eq]; simpa [add, hne] using hr)

theorem InsertsAll.generationAt_eq (h : InsertsAll publishContract data rs hs data') (i : Nat) :
    data'.generationAt i = data.generationAt i := by
  induction h with
  | nil => rfl
  | cons hhead _ ih => exact ih.trans (hhead.generations i)

/-- Each registration fills a slot that was vacant before. -/
theorem InsertsAll.placed (h : InsertsAll publishContract data rs hs data') {r : Registration}
    (hr : r ∈ rs) : ∃ i, data.catalog.content i = none ∧ data'.catalog.content i = some r := by
  induction h with
  | nil => cases hr
  | @cons d mid d' r₀ handle rs hs hhead htail ih =>
    rcases List.mem_cons.mp hr with rfl | hrest
    · have hfilled : mid.catalog.content handle.index = some r := by
        rw [hhead.catalog_eq]
        simp [add]
      exact ⟨handle.index, hhead.vacant, htail.content_kept hfilled⟩
    · obtain ⟨i, hvacant, hfilled⟩ := ih hrest
      refine ⟨i, ?_, hfilled⟩
      -- The head insertion vacates nothing.
      cases hi : d.catalog.content i with
      | none => rfl
      | some g =>
        have hkept := InsertsAll.content_kept (.cons hhead .nil) hi
        rw [hvacant] at hkept
        cases hkept

end

/-- The loop of `register_prepared_bundle` accumulates its handles at the end. -/
theorem insertAll_append (b : BundleId) (publishContract : Bool)
    (contracts : List PreparedGuestContract) (handles : List GuestContractHandle)
    (data : RuntimeStoreData) :
    insertAll b publishContract contracts handles data
      = match insertAll b publishContract contracts [] data with
        | (.error e, data') => (.error e, data')
        | (.ok hs, data')   => (.ok (handles ++ hs), data') := by
  induction contracts generalizing handles data with
  | nil => simp [insertAll]
  | cons contract rest ih =>
    unfold insertAll
    cases insertPreparedGuestContract data contract b publishContract with
    | error e => rfl
    | ok p =>
      obtain ⟨h, mid⟩ := p
      dsimp only
      rw [ih (handles ++ [h]), ih ([] ++ [h])]
      cases insertAll b publishContract rest [] mid with
      | mk result data' => cases result <;> simp

section
variable {b : BundleId} {publishContract : Bool}

/-- A non-empty loop is an insertion and the loop over the rest. -/
theorem insertAll_cons_ok {contract : PreparedGuestContract} {rest : List PreparedGuestContract}
    {hs : List GuestContractHandle} {data data' : RuntimeStoreData}
    (hins : insertAll b publishContract (contract :: rest) [] data = (.ok hs, data')) :
    ∃ h mid hs', insertPreparedGuestContract data contract b publishContract = .ok (h, mid) ∧
      insertAll b publishContract rest [] mid = (.ok hs', data') ∧ hs = h :: hs' := by
  unfold insertAll at hins
  cases hone : insertPreparedGuestContract data contract b publishContract with
  | error e =>
    rw [hone] at hins
    cases hins
  | ok p =>
    obtain ⟨h, mid⟩ := p
    rw [hone] at hins
    dsimp only at hins
    rw [insertAll_append] at hins
    cases hrest : insertAll b publishContract rest [] mid with
    | mk result data'' =>
      rw [hrest] at hins
      cases result with
      | error e => cases hins
      | ok hs' =>
        cases hins
        exact ⟨h, mid, hs', rfl, hrest, rfl⟩

theorem insertAll_length_le {contracts : List PreparedGuestContract}
    {hs : List GuestContractHandle} {data data' : RuntimeStoreData}
    (hins : insertAll b publishContract contracts [] data = (.ok hs, data')) :
    data.slots.length ≤ data'.slots.length := by
  induction contracts generalizing data hs with
  | nil =>
    cases hins
    exact Nat.le_refl _
  | cons contract rest ih =>
    obtain ⟨h, mid, hs', hone, hrest, -⟩ := insertAll_cons_ok hins
    exact Nat.le_trans (insertPreparedGuestContract_length_le hone) (ih hrest)

/-- The loop is a run of insertions. -/
theorem insertAll_inserts {contracts : List PreparedGuestContract}
    {hs : List GuestContractHandle} {data data' : RuntimeStoreData}
    (hins : insertAll b publishContract contracts [] data = (.ok hs, data'))
    (hlen : data'.slots.length ≤ 2 ^ 32) :
    InsertsAll publishContract data (contracts.map fun c => c.registration b) hs data' := by
  induction contracts generalizing data hs with
  | nil =>
    cases hins
    exact .nil
  | cons contract rest ih =>
    obtain ⟨h, mid, hs', hone, hrest, rfl⟩ := insertAll_cons_ok hins
    have hmid := Nat.le_trans (insertAll_length_le hrest) hlen
    exact .cons (insertPreparedGuestContract_inserts hone hmid) (ih hrest)

theorem insertAll_present {contracts : List PreparedGuestContract}
    {hs : List GuestContractHandle} {data data' : RuntimeStoreData} (hp : data.Present)
    (hins : insertAll b publishContract contracts [] data = (.ok hs, data')) : data'.Present := by
  induction contracts generalizing data hs with
  | nil =>
    cases hins
    exact hp
  | cons contract rest ih =>
    obtain ⟨h, mid, hs', hone, hrest, -⟩ := insertAll_cons_ok hins
    exact ih (insertPreparedGuestContract_present hp hone) hrest

/-- The loop cannot fail once the bundle is recorded. -/
theorem insertAll_ok (publishContract : Bool) (contracts : List PreparedGuestContract)
    (data : RuntimeStoreData) (hb : (data.bundleData.lookup b).isSome) :
    ∃ hs data', insertAll b publishContract contracts [] data = (.ok hs, data') := by
  induction contracts generalizing data with
  | nil => exact ⟨[], data, rfl⟩
  | cons contract rest ih =>
    obtain ⟨h, mid, hone⟩ := insertPreparedGuestContract_ok contract publishContract hb
    obtain ⟨hs, data', hrest⟩ := ih mid
      (by rw [(sameBundles_insertPreparedGuestContract hone).isSome, hb])
    refine ⟨h :: hs, data', ?_⟩
    unfold insertAll
    rw [hone]
    dsimp only
    rw [insertAll_append, hrest]
    rfl

end

/-! ### The two registration calls -/

theorem sameSlots_ensureDefaultBundleData (data : RuntimeStoreData) (b : BundleId) :
    SameSlots data (ensureDefaultBundleData data b) := by
  unfold ensureDefaultBundleData
  cases hbd : data.bundleData.lookup b with
  | some bd => exact ⟨rfl, rfl, fun _ => rfl⟩
  | none =>
    refine ⟨rfl, rfl, fun x => ?_⟩
    simp only [pluginSlots, lookup_insert_eq]
    split
    · rename_i hx
      rw [hx, hbd]
      rfl
    · rfl

theorem ensureDefaultBundleData_isSome (data : RuntimeStoreData) (b : BundleId) :
    ((ensureDefaultBundleData data b).bundleData.lookup b).isSome := by
  unfold ensureDefaultBundleData
  cases hbd : data.bundleData.lookup b <;> simp [hbd]

@[simp] theorem ensureDefaultBundleData_reloading (data : RuntimeStoreData) (b : BundleId) :
    (ensureDefaultBundleData data b).reloadingBundles = data.reloadingBundles := by
  unfold ensureDefaultBundleData
  split <;> rfl

/-- The record of a new bundle starts with no slot. -/
theorem sameSlots_insertBundle (data : RuntimeStoreData) (descriptor : BundleDescriptor)
    (dependencies : Finset GuestContractId)
    (hnew : data.bundleData.lookup descriptor.id = none) :
    SameSlots data (insertBundle data descriptor dependencies) := by
  refine ⟨rfl, rfl, fun x => ?_⟩
  simp only [pluginSlots, insertBundle, lookup_insert_eq]
  split
  · rename_i hx
    rw [hx, hnew]
    rfl
  · rfl

/-- `register_guest_contract` refuses and changes nothing, or inserts the checked
contract and publishes. -/
theorem registerGuestContract_cases (s : RuntimeStore) (descriptor : PluginDescriptor)
    (interface : RawGuestContractInterface) (ptr : Nat) (contractName : String) (b : BundleId) :
    (∃ e, s.registerGuestContract descriptor interface ptr contractName b = (.error e, s)) ∨
    ∃ contract h data',
      prepareGuestContract descriptor interface contractName interface.adapterContext ptr
        = .ok contract ∧
      validateGuestContractRegistration s.data contract b
        (decide (b ∈ s.data.reloadingBundles)) = .ok () ∧
      insertPreparedGuestContract (ensureDefaultBundleData s.data b) contract b
        (!decide (b ∈ s.data.reloadingBundles)) = .ok (h, data') ∧
      s.registerGuestContract descriptor interface ptr contractName b
        = (.ok h, s.publish data') := by
  unfold registerGuestContract
  cases hprep : prepareGuestContract descriptor interface contractName
      interface.adapterContext ptr with
  | error e => exact Or.inl ⟨e, rfl⟩
  | ok contract =>
    dsimp only
    cases hval : validateGuestContractRegistration s.data contract b
        (decide (b ∈ s.data.reloadingBundles)) with
    | error e => exact Or.inl ⟨e, rfl⟩
    | ok u =>
      obtain ⟨h, data', hins⟩ := insertPreparedGuestContract_ok contract
        (!decide (b ∈ s.data.reloadingBundles)) (ensureDefaultBundleData_isSome s.data b)
      refine Or.inr ⟨contract, h, data', rfl, hval, hins, ?_⟩
      dsimp only
      rw [hins]

/-- `register_prepared_bundle` refuses and changes nothing, or records a new
bundle, inserts its contracts and publishes. -/
theorem registerPreparedBundle_cases (s : RuntimeStore) (descriptor : BundleDescriptor)
    (dependencies : Finset GuestContractId) (contracts : List PreparedGuestContract) :
    (∃ e, s.registerPreparedBundle descriptor dependencies contracts = (.error e, s)) ∨
    ∃ hs data',
      validatePreparedBundleContracts contracts = .ok () ∧
      validateAll s.data descriptor.id (decide (descriptor.id ∈ s.data.reloadingBundles))
        contracts = .ok () ∧
      s.data.bundleData.lookup descriptor.id = none ∧
      insertAll descriptor.id (!decide (descriptor.id ∈ s.data.reloadingBundles)) contracts []
        (insertBundle s.data descriptor dependencies) = (.ok hs, data') ∧
      s.registerPreparedBundle descriptor dependencies contracts
        = (.ok hs, s.publish data') := by
  unfold registerPreparedBundle
  cases hstaged : validatePreparedBundleContracts contracts with
  | error e => exact Or.inl ⟨e, rfl⟩
  | ok u =>
    dsimp only
    cases hall : validateAll s.data descriptor.id
        (decide (descriptor.id ∈ s.data.reloadingBundles)) contracts with
    | error e => exact Or.inl ⟨e, rfl⟩
    | ok u =>
      cases hnew : s.data.bundleData.lookup descriptor.id with
      | some bd => exact Or.inl ⟨_, rfl⟩
      | none =>
        have hrec : ((insertBundle s.data descriptor dependencies).bundleData.lookup
            descriptor.id).isSome := by
          simp [insertBundle]
        obtain ⟨hs, data', hins⟩ := insertAll_ok
          (!decide (descriptor.id ∈ s.data.reloadingBundles)) contracts _ hrec
        refine Or.inr ⟨hs, data', rfl, rfl, rfl, hins, ?_⟩
        dsimp only
        rw [hins]
        rfl

/-- A registration call that changed the store: the insertions of registrations
of `b`, after writes that leave the slots alone. -/
def Registers (data : RuntimeStoreData) (b : BundleId) (rs : List Registration)
    (hs : List GuestContractHandle) (data' : RuntimeStoreData) : Prop :=
  ∃ data₀, SameSlots data data₀ ∧ data₀.reloadingBundles = data.reloadingBundles ∧
    (∀ r ∈ rs, r.owner = b) ∧
    InsertsAll (!decide (b ∈ data.reloadingBundles)) data₀ rs hs data'

/-- The registrations a successful `register_guest_contract` inserts. -/
theorem registers_of_registerGuestContract {data data' : RuntimeStoreData} {b : BundleId}
    {contract : PreparedGuestContract} {h : GuestContractHandle}
    (hins : insertPreparedGuestContract (ensureDefaultBundleData data b) contract b
      (!decide (b ∈ data.reloadingBundles)) = .ok (h, data'))
    (hlen : data'.slots.length ≤ 2 ^ 32) :
    Registers data b [contract.registration b] [h] data' :=
  ⟨_, sameSlots_ensureDefaultBundleData data b, ensureDefaultBundleData_reloading data b,
    by simp, .cons (insertPreparedGuestContract_inserts hins hlen) .nil⟩

/-- The registrations a successful `register_prepared_bundle` inserts. -/
theorem registers_of_registerPreparedBundle {data data' : RuntimeStoreData}
    {descriptor : BundleDescriptor} {dependencies : Finset GuestContractId}
    {contracts : List PreparedGuestContract} {hs : List GuestContractHandle}
    (hnew : data.bundleData.lookup descriptor.id = none)
    (hins : insertAll descriptor.id (!decide (descriptor.id ∈ data.reloadingBundles)) contracts []
      (insertBundle data descriptor dependencies) = (.ok hs, data'))
    (hlen : data'.slots.length ≤ 2 ^ 32) :
    Registers data descriptor.id (contracts.map fun c => c.registration descriptor.id) hs
      data' :=
  ⟨_, sameSlots_insertBundle data descriptor dependencies hnew, rfl, by simp,
    insertAll_inserts hins hlen⟩

/-- A property of the data that `SameSlots` writes and insertions keep is kept
by a registration call. -/
theorem Registers.rule {data data' : RuntimeStoreData} {b : BundleId} {rs : List Registration}
    {hs : List GuestContractHandle} (h : Registers data b rs hs data')
    {I : RuntimeStoreData → Prop} (hinit : I data)
    (hsame : ∀ d d', SameSlots d d' → d'.reloadingBundles = d.reloadingBundles → I d → I d')
    (hstep : ∀ d r i d', r ∈ rs → r.owner = b → d.reloadingBundles = data.reloadingBundles →
      Inserts d r (!decide (b ∈ data.reloadingBundles)) i d' → I d → I d') :
    I data' := by
  obtain ⟨data₀, hslots, hreload, howner, hins⟩ := h
  have h₀ := hsame data data₀ hslots hreload hinit
  clear hslots hinit
  induction hins with
  | nil => exact h₀
  | cons hhead _ ih =>
    refine ih (fun d r i d' hr => hstep d r i d' (List.mem_cons_of_mem _ hr))
      (hhead.reloading.trans hreload) (fun r hr => howner r (List.mem_cons_of_mem _ hr)) ?_
    exact hstep _ _ _ _ List.mem_cons_self (howner _ List.mem_cons_self) hreload hhead h₀

section
variable {data data' : RuntimeStoreData} {b : BundleId} {rs : List Registration}
  {hs : List GuestContractHandle}

/-- A registration call leaves every filled slot as it is. -/
theorem Registers.content_kept (h : Registers data b rs hs data') {i : Nat} {r : Registration}
    (hr : data.catalog.content i = some r) : data'.catalog.content i = some r := by
  obtain ⟨_, hsame, -, -, hins⟩ := h
  rw [← hsame.catalog_eq] at hr
  exact hins.content_kept hr

theorem Registers.generationAt_eq (h : Registers data b rs hs data') (i : Nat) :
    data'.generationAt i = data.generationAt i := by
  obtain ⟨_, hsame, -, -, hins⟩ := h
  rw [hins.generationAt_eq, hsame.generationAt_eq]

theorem Registers.reloading (h : Registers data b rs hs data') :
    data'.reloadingBundles = data.reloadingBundles :=
  h.rule (I := fun d => d.reloadingBundles = data.reloadingBundles) rfl
    (fun _ _ _ hreload hd => hreload.trans hd)
    (fun _ _ _ _ _ _ _ hins hd => hins.reloading.trans hd)

/-- Each of its registrations fills a slot that was vacant. -/
theorem Registers.placed (h : Registers data b rs hs data') {r : Registration} (hr : r ∈ rs) :
    ∃ i, data.catalog.content i = none ∧ data'.catalog.content i = some r := by
  obtain ⟨_, hsame, -, -, hins⟩ := h
  rw [← hsame.catalog_eq]
  exact hins.placed hr

end

/-- `register_bundle_metadata` keeps the slot list of the record it rewrites. -/
theorem sameSlots_registerBundleMetadata (s : RuntimeStore) (b : BundleId) (bundleName : String)
    (version : Version) (runtime : SupportedLanguage) (origin : BundleOrigin)
    (dependencies : List BundleDependency) :
    SameSlots s.data
      (s.registerBundleMetadata b bundleName version runtime origin dependencies).data := by
  refine ⟨rfl, rfl, fun x => ?_⟩
  simp only [registerBundleMetadata, RuntimeStore.publish, pluginSlots, lookup_insert_eq]
  by_cases hx : x = b
  · subst hx
    rw [if_pos rfl]
    cases s.data.bundleData.lookup x <;> rfl
  · rw [if_neg hx]

end PolyPlug.Registry
