import PolyPlug.Proofs.Registry.Views
import PolyPlug.Proofs.Registry.WellFormed

/-!
# `PolyPlug.Proofs.Registry.Lookups`: all lookup paths agree

The registry has two families of read paths. The lock-free ones scan the
published view; the locked ones scan the slots or a bundle's list. All of them
answer from `RuntimeStore.providers`. The scoped lookup goes through the bundle's
own list; it agrees because the slots of a bundle stand in the same order in both
lists (`Windowed.order`).
-/

set_option autoImplicit false
set_option linter.unusedSectionVars false

namespace PolyPlug.Registry

open PolyPlug.Abi
open PolyPlug.Lib
open PolyPlug.Lib.Catalog
open RuntimeStoreData RuntimeStore

namespace RuntimeStore

/-! ### The property -/

/-- The slot of the handle is owned by the bundle. -/
def ownedBy (s : RuntimeStore) (b : BundleId) (h : GuestContractHandle) : Bool :=
  (s.data.entryAt h.index).any fun entry => decide (entry.bundleId = b)

/-- Every read path answers from `providers`, and every handle it returns
resolves. -/
structure LookupsAgree (s : RuntimeStore) : Prop where
  collect : ∀ cid v, s.collectGuestContracts cid v = s.providers cid v
  find : ∀ cid v, s.findGuestContract cid v = match s.providers cid v with
    | h :: _ => .ok h
    | []     => .error (.pluginNotFound cid.id v)
  findAll : ∀ cid v out, s.findAllGuestContracts cid v out
    = ((s.providers cid v).take out.length ++ out.drop (s.providers cid v).length,
        min out.length (s.providers cid v).length)
  findAllPacked : ∀ cid v out, s.findAllGuestContractsPacked cid v out
    = (((s.providers cid v).map GuestContractHandle.pack).take out.length
          ++ out.drop (s.providers cid v).length,
        min out.length (s.providers cid v).length)
  count : ∀ cid v, s.countGuestContracts cid v = (s.providers cid v).length
  findByBundle : ∀ b cid v, s.findGuestContractByBundle b cid v
    = match (s.providers cid v).filter (s.ownedBy b) with
      | h :: _ => .ok h
      | []     => .error (.pluginNotFound cid.id v)
  list_nodup : s.listRegisteredGuestContracts.Nodup
  mem_list : ∀ h, h ∈ s.listRegisteredGuestContracts ↔ ∃ cid, h ∈ s.providers cid 0
  descriptor_iff : ∀ h, (s.getRegisteredContractDescriptor h).isSome ↔
    h ∈ s.listRegisteredGuestContracts
  descriptors : s.registeredContractDescriptors.map RegisteredContractDescriptor.handle
    = s.listRegisteredGuestContracts
  resolves : ∀ cid v, ∀ h ∈ s.providers cid v, ∃ arc, s.resolveGuestContract h = .ok arc ∧
    arc.val.contractId = cid ∧ arc.val.contractVersion.major ≥ v

end RuntimeStore

/-! ### The scoped lookup -/

section
variable {s : Session} (h : s.Valid)
include h

theorem Session.Valid.mirrors : s.store.Mirrors := h.published

theorem Session.Valid.indexed : s.store.data.Indexed := h.windowed.toIndexed

/-- In a bundle's own list, the scan takes the slots that are indexed and have
the major version asked for. -/
theorem Session.Valid.findOwnedIn_eq (b : BundleId) (cid : GuestContractId) (v : Nat)
    {cells : List Nat} (hcells : ∀ i ∈ cells, i ∈ s.store.data.pluginSlots b) :
    findOwnedIn s.store.data b cid v cells
      = ((cells.filter (· ∈ s.store.data.indexOf cid)).filter (s.store.provides v)).head?.map
          s.store.handleAt := by
  induction cells with
  | nil => rfl
  | cons i rest ih =>
    have hrest := ih fun j hj => hcells j (List.mem_cons_of_mem _ hj)
    obtain ⟨r, hr, howner⟩ :=
      h.windowed.toConsistent.content_of_held (hcells i List.mem_cons_self)
    obtain ⟨slot, hslot, hentry, harc⟩ := content_eq_some.mp hr
    have hgen : slot.generation = s.store.data.generationAt i := by
      simp [generationAt, hslot]
    -- A slot of another contract is never listed under `cid`; one of `cid` is
    -- listed unless it is pending in the window of `b`.
    have hlisted : i ∈ s.store.data.indexOf cid ↔
        r.arc.val.contractId = cid ∧
          (b ∈ s.store.data.reloadingBundles → i ∈ s.store.data.indexOf cid) := by
      constructor
      · intro hi
        obtain ⟨r', hr', hkey⟩ := h.indexed.content_of_listed hi
        rw [hr] at hr'
        cases hr'
        exact ⟨hkey, fun _ => hi⟩
      · rintro ⟨rfl, himp⟩
        by_cases hb : b ∈ s.store.data.reloadingBundles
        · exact himp hb
        · refine (h.windowed.settled i r hr).mpr fun old hold => ?_
          rw [howner] at hold
          exact absurd ((h.reloading b).mpr (by rw [hold]; rfl)) hb
    unfold findOwnedIn
    rw [hslot]
    dsimp only
    rw [hentry, harc]
    dsimp only
    have hbundle : r.entry.bundleId = b := howner
    rw [List.filter_cons]
    by_cases hi : i ∈ s.store.data.indexOf cid
    · have hcid := (hlisted.mp hi).1
      by_cases hv : r.arc.val.contractVersion.major ≥ v
      · simp [hi, hcid, hbundle, hv, h.mirrors.provides_iff v hr, handleAt, hgen]
      · simp [hi, hbundle, hv, h.mirrors.provides_iff v hr, hrest]
    · by_cases hb : b ∈ s.store.data.reloadingBundles
      · simp [hi, hb, hrest]
      · have hcid : r.arc.val.contractId ≠ cid := fun he =>
          hi (hlisted.mpr ⟨he, fun hb' => absurd hb' hb⟩)
        simp [hi, hb, hcid, hrest]

theorem Session.Valid.ownedBy_iff (b : BundleId) {i : Nat} {r : Registration}
    (hr : s.store.data.catalog.content i = some r) :
    s.store.ownedBy b (s.store.handleAt i) = decide (i ∈ s.store.data.pluginSlots b) := by
  have hentry : s.store.data.entryAt i = some r.entry := (liveAt_iff.mpr hr).1
  have hmem : i ∈ s.store.data.pluginSlots b ↔ r.entry.bundleId = b := by
    refine (h.windowed.mem_held b i).trans ?_
    simp [ownerAt, hr, Registration.owner]
  simp [ownedBy, handleAt, hentry, hmem]

/-- The owned part of `providers`, read off the index. -/
theorem Session.Valid.providers_ownedBy (b : BundleId) (cid : GuestContractId) (v : Nat) :
    (s.store.providers cid v).filter (s.store.ownedBy b)
      = (((s.store.data.pluginSlots b).filter (· ∈ s.store.data.indexOf cid)).filter
          (s.store.provides v)).map s.store.handleAt := by
  have horder := h.windowed.order b cid
  change (s.store.data.indexOf cid).filter (· ∈ s.store.data.pluginSlots b)
    = (s.store.data.pluginSlots b).filter (· ∈ s.store.data.indexOf cid) at horder
  rw [← horder, providers, List.filter_map]
  congr 1
  rw [List.filter_filter, List.filter_filter]
  apply List.filter_congr
  intro i hi
  obtain ⟨r, hr, -⟩ := h.indexed.content_of_listed hi
  rw [Function.comp_apply, h.ownedBy_iff b hr, Bool.and_comm]

theorem Session.Valid.findByBundle_eq (b : BundleId) (cid : GuestContractId) (v : Nat) :
    s.store.findGuestContractByBundle b cid v
      = match (s.store.providers cid v).filter (s.store.ownedBy b) with
        | handle :: _ => .ok handle
        | []          => .error (.pluginNotFound cid.id v) := by
  rw [h.providers_ownedBy]
  unfold findGuestContractByBundle
  cases hbd : s.store.data.bundleData.lookup b with
  | none => simp [pluginSlots, hbd]
  | some bd =>
    have hslots : s.store.data.pluginSlots b = bd.pluginSlots := by simp [pluginSlots, hbd]
    dsimp only
    rw [← hslots, h.findOwnedIn_eq b cid v fun _ hi => hi, ← List.head?_map]
    cases (((s.store.data.pluginSlots b).filter (· ∈ s.store.data.indexOf cid)).filter
      (s.store.provides v)).map s.store.handleAt <;> rfl

end

/-! ### The introspection paths -/

/-- The descriptors of one slot and its handle go together. -/
theorem registeredDescriptor_handle (data : RuntimeStoreData) (i : Nat) (slot : PluginSlot) :
    (registeredDescriptor data i slot).map RegisteredContractDescriptor.handle
      = registeredHandle data i slot := by
  obtain ⟨entry, interface, generation⟩ := slot
  unfold registeredDescriptor registeredHandle
  cases entry <;> cases interface <;> simp

section
variable {s : Session} (h : s.Valid) (hlen : s.store.data.slots.length < 2 ^ 32 - 1)
include h hlen

/-- The handle of one slot: present exactly if the slot is live and indexed. -/
theorem Session.Valid.registeredHandle_eq {i : Nat} {slot : PluginSlot}
    (hslot : s.store.data.slots[i]? = some slot) {handle : GuestContractHandle} :
    registeredHandle s.store.data i slot = some handle ↔
      handle = s.store.handleAt i ∧
        ∃ r, s.store.data.catalog.content i = some r ∧ i ∈ s.store.data.indexOf r.key := by
  have hlt : i < s.store.data.slots.length := (List.getElem?_eq_some_iff.mp hslot).1
  have hcast : asU32 i = i := Nat.mod_eq_of_lt (by omega)
  have hgen : s.store.data.generationAt i = slot.generation := by simp [generationAt, hslot]
  have hcontent : s.store.data.catalog.content i = slot.registration := by
    simp [catalog, hslot]
  rw [hcontent]
  obtain ⟨entry, interface, generation⟩ := slot
  unfold registeredHandle
  cases interface with
  | none => cases entry <;> simp [PluginSlot.registration]
  | some arc =>
    cases entry with
    | none => simp [PluginSlot.registration]
    | some entry =>
      by_cases hi : i ∈ s.store.data.indexOf arc.val.contractId
      · simp [hcast, hi, PluginSlot.registration, Registration.key, handleAt, hgen, eq_comm]
      · simp [hcast, hi, PluginSlot.registration, Registration.key]

theorem Session.Valid.mem_list_iff {handle : GuestContractHandle} :
    handle ∈ s.store.listRegisteredGuestContracts ↔
      handle = s.store.handleAt handle.index ∧
        ∃ r, s.store.data.catalog.content handle.index = some r ∧
          handle.index ∈ s.store.data.indexOf r.key := by
  simp only [listRegisteredGuestContracts, List.mem_filterMap, Prod.exists,
    List.mem_zipIdx_iff_getElem?]
  constructor
  · rintro ⟨slot, i, hslot, hsome⟩
    obtain ⟨rfl, hr⟩ := (h.registeredHandle_eq hlen hslot).mp hsome
    exact ⟨rfl, hr⟩
  · rintro ⟨heq, r, hr, hi⟩
    obtain ⟨slot, hslot, -⟩ := content_eq_some.mp hr
    exact ⟨slot, handle.index, hslot, (h.registeredHandle_eq hlen hslot).mpr ⟨heq, r, hr, hi⟩⟩

/-- The list has the providers of all contracts. -/
theorem Session.Valid.mem_list_iff_providers {handle : GuestContractHandle} :
    handle ∈ s.store.listRegisteredGuestContracts ↔
      ∃ cid, handle ∈ s.store.providers cid 0 := by
  rw [h.mem_list_iff hlen]
  constructor
  · rintro ⟨heq, r, hr, hi⟩
    refine ⟨r.key, List.mem_map.mpr ⟨handle.index, List.mem_filter.mpr ⟨hi, ?_⟩, heq.symm⟩⟩
    simp [h.mirrors.provides_iff 0 hr]
  · rintro ⟨cid, hmem⟩
    obtain ⟨i, hi, rfl⟩ := List.mem_map.mp hmem
    have hlisted := (List.mem_filter.mp hi).1
    obtain ⟨r, hr, rfl⟩ := h.indexed.content_of_listed hlisted
    exact ⟨rfl, r, hr, hlisted⟩

/-- Different positions of the slot array give different handles. -/
theorem Session.Valid.list_nodup : s.store.listRegisteredGuestContracts.Nodup := by
  have hpositions := List.pairwise_map.mp (List.nodup_zipIdx_map_snd s.store.data.slots)
  unfold listRegisteredGuestContracts
  refine List.pairwise_filterMap.mpr (hpositions.imp_of_mem ?_)
  intro p q hp hq hne x hx y hy hxy
  have hxi := ((h.registeredHandle_eq hlen (List.mem_zipIdx_iff_getElem?.mp hp)).mp hx).1
  have hyi := ((h.registeredHandle_eq hlen (List.mem_zipIdx_iff_getElem?.mp hq)).mp hy).1
  exact hne (congrArg GuestContractHandle.index (hxi.symm.trans (hxy.trans hyi)))

theorem Session.Valid.descriptor_isSome {handle : GuestContractHandle} :
    (s.store.getRegisteredContractDescriptor handle).isSome ↔
      handle ∈ s.store.listRegisteredGuestContracts := by
  rw [h.mem_list_iff hlen]
  unfold getRegisteredContractDescriptor
  cases hslot : s.store.data.slots[handle.index]? with
  | none => simp [catalog, hslot]
  | some slot =>
    have hlt : handle.index < s.store.data.slots.length := (List.getElem?_eq_some_iff.mp hslot).1
    have hnull : handle.isNull = false := by
      simp only [GuestContractHandle.isNull, u32Max, beq_eq_false_iff_ne]
      omega
    have hcontent : s.store.data.catalog.content handle.index = slot.registration := by
      simp [catalog, hslot]
    have hgen : handle = s.store.handleAt handle.index ↔ handle.generation = slot.generation := by
      cases handle
      simp [handleAt, generationAt, hslot]
    rw [hcontent, hgen]
    obtain ⟨entry, interface, generation⟩ := slot
    by_cases hg : handle.generation = generation
    · cases entry <;> cases interface <;>
        simp [hnull, hg, PluginSlot.registration, Registration.key]
    · simp [hnull, hg]

/-- All read paths of a valid session agree. -/
theorem Session.Valid.lookupsAgree : s.store.LookupsAgree where
  collect := h.mirrors.collect_eq h.indexed
  find := h.mirrors.find_eq h.indexed
  findAll := h.mirrors.findAll_eq h.indexed
  findAllPacked := h.mirrors.findAllPacked_eq h.indexed hlen
  count := h.mirrors.count_eq h.indexed
  findByBundle := h.findByBundle_eq
  list_nodup := h.list_nodup hlen
  mem_list _ := h.mem_list_iff_providers hlen
  descriptor_iff _ := h.descriptor_isSome hlen
  descriptors := by
    unfold registeredContractDescriptors listRegisteredGuestContracts
    rw [List.map_filterMap]
    simp only [registeredDescriptor_handle]
  resolves cid v handle hmem := by
    obtain ⟨i, hi, rfl⟩ := List.mem_map.mp hmem
    obtain ⟨hlisted, hv⟩ := List.mem_filter.mp hi
    obtain ⟨r, hr, hkey⟩ := h.indexed.content_of_listed hlisted
    rw [h.mirrors.provides_iff v hr] at hv
    exact ⟨r.arc, h.mirrors.resolve_handleAt hr, hkey, by simpa using hv⟩

end

/-- In every state of every disciplined session, with reload windows open or
not, all read paths agree. -/
theorem lookupsAgree_run (ops : List StoreOp)
    (hops : Steps Session.exec Session.Disciplined Session.new ops) :
    (run Session.exec Session.new ops).store.LookupsAgree :=
  (valid_run hops).lookupsAgree (length_run hops)

/-- Two providers of one contract, one of them inside its reload window with a
pending replacement. -/
theorem lookupsAgree_run_window :
    let ops : List StoreOp :=
      [.register ⟨1⟩ ⟨10⟩ "log" 100, .register ⟨2⟩ ⟨10⟩ "log" 101, .beginReload ⟨1⟩,
        .register ⟨1⟩ ⟨10⟩ "log" 102]
    Steps Session.exec Session.Disciplined Session.new ops ∧
      (run Session.exec Session.new ops).store.LookupsAgree := by
  refine ⟨by decide +kernel, lookupsAgree_run _ (by decide +kernel)⟩

end PolyPlug.Registry
