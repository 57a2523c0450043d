import Mathlib.Data.Finset.Sort
import PolyPlug.Registry.Store

/-!
# `PolyPlug.Registry.Lookup`: the registry's read paths

The provider lookups and `resolve` read the published view without a lock; the
scoped lookup and the introspection methods read the locked data. Each method
keeps the loop of its source.

The source indexes `view.slots` and `data.slots` with the indices it finds in
the contract index and in `plugin_slots`, and panics when one is out of bounds.
The model skips such an index. `WellFormed` (`Proofs/Registry/WellFormed.lean`)
rules the case out: every listed index names a live slot.
-/

set_option autoImplicit false

namespace PolyPlug.Registry

open PolyPlug.Abi

namespace RuntimeStore

/-! ### Lock-free readers -/

/-- `resolve_guest_contract`. The generation is compared before the presence of
the interface. -/
def resolveGuestContract (s : RuntimeStore) (handle : GuestContractHandle) :
    Except RegistryError (Arc GuestContractInterface) :=
  match s.published.slots[handle.index]? with
  | none       => .error (.invalidHandle handle.index)
  | some entry =>
    if handle.generation ≠ entry.generation then .error (.staleHandle handle.index)
    else
      match entry.iface with
      | some iface => .ok iface.interface
      | none       => .error (.invalidHandle handle.index)

/-- The scan of `find_guest_contract` over the listed slots. -/
def findIn (view : ReadView) (minVersion : Nat) : List Nat → Option GuestContractHandle
  | []              => none
  | slotIdx :: rest =>
    match view.slots[slotIdx]? with
    | none       => findIn view minVersion rest
    | some entry =>
      match entry.iface with
      | none       => findIn view minVersion rest
      | some iface =>
        if iface.contractVersionMajor ≥ minVersion then some ⟨slotIdx, entry.generation⟩
        else findIn view minVersion rest

/-- `find_guest_contract`. -/
def findGuestContract (s : RuntimeStore) (contractId : GuestContractId) (minVersion : Nat) :
    Except RegistryError GuestContractHandle :=
  match s.published.contractIndex.lookup contractId with
  | none         => .error (.pluginNotFound contractId.id minVersion)
  | some indices =>
    match findIn s.published minVersion indices with
    | some handle => .ok handle
    | none        => .error (.pluginNotFound contractId.id minVersion)

/-- The loop of `for_each_live_provider`. The callback returns the new state of
its captured variables and whether it breaks. -/
def forEachIn {β : Type} (view : ReadView) (minVersion : Nat)
    (f : β → Nat → Nat → SlotIfaceView → β × Bool) : List Nat → β → β
  | [], acc              => acc
  | slotIdx :: rest, acc =>
    match view.slots[slotIdx]? with
    | none       => forEachIn view minVersion f rest acc
    | some entry =>
      match entry.iface with
      | none       => forEachIn view minVersion f rest acc
      | some iface =>
        if iface.contractVersionMajor ≥ minVersion then
          let (acc, isBreak) := f acc slotIdx entry.generation iface
          if isBreak then acc else forEachIn view minVersion f rest acc
        else forEachIn view minVersion f rest acc

/-- `for_each_live_provider`. -/
def forEachLiveProvider {β : Type} (s : RuntimeStore) (contractId : GuestContractId)
    (minVersion : Nat) (f : β → Nat → Nat → SlotIfaceView → β × Bool) (acc : β) : β :=
  match s.published.contractIndex.lookup contractId with
  | none         => acc
  | some indices => forEachIn s.published minVersion f indices acc

/-- The callback of `find_all_guest_contracts` and of its packed variant, for
the value written per provider: write the next cell, and stop at the end of the
buffer. -/
def writeNext {α : Type} (value : Nat → Nat → α) (acc : List α × Nat) (slotIdx generation : Nat)
    (_ : SlotIfaceView) : (List α × Nat) × Bool :=
  let out := acc.1.set acc.2 (value slotIdx generation)
  let writeCount := acc.2 + 1
  ((out, writeCount), decide (writeCount ≥ out.length))

/-- `find_all_guest_contracts`: the buffer after the call and the number of
handles written. -/
def findAllGuestContracts (s : RuntimeStore) (contractId : GuestContractId) (minVersion : Nat)
    (out : List GuestContractHandle) : List GuestContractHandle × Nat :=
  if out.isEmpty then (out, 0)
  else
    s.forEachLiveProvider contractId minVersion
      (writeNext fun slotIdx generation => ⟨slotIdx, generation⟩) (out, 0)

/-- `find_all_guest_contracts_packed`: `generation` in the high 32 bits, the
index below. -/
def findAllGuestContractsPacked (s : RuntimeStore) (contractId : GuestContractId)
    (minVersion : Nat) (out : List Nat) : List Nat × Nat :=
  if out.isEmpty then (out, 0)
  else
    s.forEachLiveProvider contractId minVersion
      (writeNext fun slotIdx generation => generation <<< 32 ||| slotIdx) (out, 0)

/-- `count_guest_contracts`. -/
def countGuestContracts (s : RuntimeStore) (contractId : GuestContractId) (minVersion : Nat) :
    Nat :=
  s.forEachLiveProvider contractId minVersion (fun count _ _ _ => (count + 1, false)) 0

/-- `collect_guest_contracts`. -/
def collectGuestContracts (s : RuntimeStore) (contractId : GuestContractId)
    (minVersion : Nat) : List GuestContractHandle :=
  s.forEachLiveProvider contractId minVersion
    (fun collected slotIdx generation _ => (collected ++ [⟨slotIdx, generation⟩], false)) []

/-! ### Locked readers -/

/-- The scan of `find_guest_contract_by_bundle` over the bundle's slots. In the
bundle's own reload window a slot outside the contract index is pending and is
skipped. -/
def findOwnedIn (data : RuntimeStoreData) (bundleId : BundleId) (contractId : GuestContractId)
    (minVersion : Nat) : List Nat → Option GuestContractHandle
  | []              => none
  | slotIdx :: rest =>
    if bundleId ∈ data.reloadingBundles ∧ slotIdx ∉ data.indexOf contractId then
      findOwnedIn data bundleId contractId minVersion rest
    else
      match data.slots[slotIdx]? with
      | none      => findOwnedIn data bundleId contractId minVersion rest
      | some slot =>
        match slot.entry, slot.interface with
        | some entry, some arc =>
          if entry.bundleId = bundleId ∧ arc.val.contractId = contractId ∧
              arc.val.contractVersion.major ≥ minVersion then
            some ⟨slotIdx, slot.generation⟩
          else findOwnedIn data bundleId contractId minVersion rest
        | _, _                 => findOwnedIn data bundleId contractId minVersion rest

/-- `find_guest_contract_by_bundle`. -/
def findGuestContractByBundle (s : RuntimeStore) (bundleId : BundleId)
    (contractId : GuestContractId) (minVersion : Nat) :
    Except RegistryError GuestContractHandle :=
  match s.data.bundleData.lookup bundleId with
  | none    => .error (.pluginNotFound contractId.id minVersion)
  | some bd =>
    match findOwnedIn s.data bundleId contractId minVersion bd.pluginSlots with
    | some handle => .ok handle
    | none        => .error (.pluginNotFound contractId.id minVersion)

/-- `RegisteredContractDescriptor`. -/
structure RegisteredContractDescriptor where
  handle : GuestContractHandle
  contractId : GuestContractId
  bundleId : BundleId
  plugin : OwnedPluginDescriptor
deriving DecidableEq

/-- `get_registered_contract_descriptor`. -/
def getRegisteredContractDescriptor (s : RuntimeStore) (handle : GuestContractHandle) :
    Option RegisteredContractDescriptor :=
  if handle.isNull then none
  else
    match s.data.slots[handle.index]? with
    | none      => none
    | some slot =>
      if handle.generation ≠ slot.generation then none
      else
        match slot.entry, slot.interface with
        | some entry, some arc =>
          if handle.index ∈ s.data.indexOf arc.val.contractId then
            some ⟨handle, arc.val.contractId, entry.bundleId, entry.descriptor⟩
          else none
        | _, _                 => none

/-- The handle `list_registered_guest_contracts` yields for one slot of the
array, at array position `index`. -/
def registeredHandle (data : RuntimeStoreData) (index : Nat) (slot : PluginSlot) :
    Option GuestContractHandle :=
  match slot.interface with
  | none     => none
  | some arc =>
    if asU32 index ∈ data.indexOf arc.val.contractId then
      slot.entry.map fun _ => ⟨asU32 index, slot.generation⟩
    else none

/-- `list_registered_guest_contracts`. -/
def listRegisteredGuestContracts (s : RuntimeStore) : List GuestContractHandle :=
  s.data.slots.zipIdx.filterMap fun p => registeredHandle s.data p.2 p.1

/-- The descriptor `registered_contract_descriptors` yields for one slot. -/
def registeredDescriptor (data : RuntimeStoreData) (index : Nat) (slot : PluginSlot) :
    Option RegisteredContractDescriptor :=
  match slot.entry, slot.interface with
  | some entry, some arc =>
    if asU32 index ∈ data.indexOf arc.val.contractId then
      some ⟨⟨asU32 index, slot.generation⟩, arc.val.contractId, entry.bundleId,
        entry.descriptor⟩
    else none
  | _, _                 => none

/-- `registered_contract_descriptors`. -/
def registeredContractDescriptors (s : RuntimeStore) : List RegisteredContractDescriptor :=
  s.data.slots.zipIdx.filterMap fun p => registeredDescriptor s.data p.2 p.1

/-- `get_bundle_plugin_slots`. -/
def getBundlePluginSlots (s : RuntimeStore) (bundleId : BundleId) : List Nat :=
  ((s.data.bundleData.lookup bundleId).map BundleData.pluginSlots).getD []

/-- `bundle_exported_contracts`: the contract ids with an indexed slot in the
bundle's list, as the set the callers collect. -/
def bundleExportedContracts (s : RuntimeStore) (bundleId : BundleId) :
    Finset GuestContractId :=
  match s.data.bundleData.lookup bundleId with
  | none    => ∅
  | some bd =>
    s.data.guestContractIndex.keys.filter fun cid =>
      (s.data.indexOf cid).any fun idx => idx ∈ bd.pluginSlots

/-- `bundles_depending_on_any`. -/
def bundlesDependingOnAny (s : RuntimeStore) (contracts : Finset GuestContractId) :
    Finset BundleId :=
  s.data.bundleDeclaredDeps.keys.filter fun b =>
    ¬ Disjoint ((s.data.bundleDeclaredDeps.lookup b).getD ∅) contracts

/-- `list_bundles`, in the order of the ids. -/
def listBundles (s : RuntimeStore) : List BundleId :=
  ((s.data.bundleData.keys.image fun b => b.id.toNat).sort (· ≤ ·)).map fun n =>
    ⟨UInt64.ofNat n⟩

/-- `get_bundle_descriptor`. -/
def getBundleDescriptor (s : RuntimeStore) (bundleId : BundleId) : Option BundleDescriptor :=
  (s.data.bundleData.lookup bundleId).map BundleData.descriptor

/-- `bundle_id_for_guest_interface`, for the address of an interface. -/
def bundleIdForGuestInterface (s : RuntimeStore) (interface : Nat) : Option BundleId :=
  if interface = 0 then none
  else
    s.data.slots.findSome? fun slot =>
      match slot.entry, slot.interface with
      | some entry, some registered =>
        if registered.ptr = interface then some entry.bundleId else none
      | _, _                        => none

/-- `is_bundle_dependency_declared`. -/
def isBundleDependencyDeclared (s : RuntimeStore) (bundleId : BundleId)
    (contractId : GuestContractId) : Bool :=
  contractId ∈ (s.data.bundleDeclaredDeps.lookup bundleId).getD ∅

/-- `get_bundles_by_name`. -/
def getBundlesByName (s : RuntimeStore) (bundleName : String) : List BundleId :=
  (s.data.bundleNameIndex.lookup bundleName).getD []

end RuntimeStore

end PolyPlug.Registry
