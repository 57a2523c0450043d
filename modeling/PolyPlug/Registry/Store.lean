import PolyPlug.Registry.Data

/-!
# `PolyPlug.Registry.Store`: the registry's mutators

`RuntimeStore` is the registry as the rest of the runtime sees it: the locked
data, the published `ReadView` that the lock-free readers use, the revision
counter, the staged bundles of every thread and the native residents.

A mutator takes the write lock once, so it is one function from store to store.
It returns its result next to the store and not inside `Except`: an error path
of the source keeps every write made before it. A path that reaches `publish`
rebuilds the view; a path that returns early leaves the old view in place over
whatever the data has become.
-/

set_option autoImplicit false

namespace PolyPlug.Registry

open PolyPlug.Abi
open PolyPlug.Common

/-! ### The published view -/

/-- `SlotIfaceView`. -/
structure SlotIfaceView where
  interface : Arc GuestContractInterface
  contractVersionMajor : Nat
deriving DecidableEq

/-- `SlotEntryView`. -/
structure SlotEntryView where
  generation : Nat
  iface : Option SlotIfaceView
deriving DecidableEq

/-- `ReadView`. -/
structure ReadView where
  slots : List SlotEntryView
  contractIndex : Finmap fun _ : GuestContractId => List Nat
deriving DecidableEq

/-- `ReadView::empty`. -/
def ReadView.empty : ReadView := ⟨[], ∅⟩

/-- The image of one slot: its generation, and its interface when the slot is
live (entry and interface both present). -/
def PluginSlot.view (slot : PluginSlot) : SlotEntryView :=
  ⟨slot.generation,
    match slot.entry, slot.interface with
    | some _, some arc => some ⟨arc, arc.val.contractVersion.major⟩
    | _, _             => none⟩

/-- `ReadView::rebuild`. -/
def ReadView.rebuild (data : RuntimeStoreData) : ReadView :=
  ⟨data.slots.map PluginSlot.view, data.guestContractIndex⟩

/-! ### The store -/

/-- An OS thread identity. -/
abbrev ThreadId := Nat

/-- `InternalPluginResident`. -/
structure InternalPluginResident where
  context : Nat
  ownerThreadId : Nat
  release : Nat
deriving DecidableEq

/-- `PreparedBundleRegistration`. -/
structure PreparedBundleRegistration where
  manifest : ManifestData
  runtime : SupportedLanguage
  source : BundleSource
  contracts : List PreparedGuestContract
  resident : Option InternalPluginResident
deriving DecidableEq

/-- `RuntimeStore`. -/
structure RuntimeStore where
  data : RuntimeStoreData
  preparedBundles : Finmap fun _ : ThreadId => List PreparedBundleRegistration
  internalPluginResidents : Finmap fun _ : BundleId => InternalPluginResident
  published : ReadView
  revision : Nat
deriving DecidableEq

namespace RuntimeStore

/-- `RuntimeStore::new`. -/
def new : RuntimeStore := ⟨RuntimeStoreData.new, ∅, ∅, ReadView.empty, 0⟩

/-- `publish`: install the mutated data with its view, then bump the revision. -/
def publish (s : RuntimeStore) (data : RuntimeStoreData) : RuntimeStore :=
  { s with
      data := data
      published := ReadView.rebuild data
      revision := (s.revision + 1) % 2 ^ 64 }

/-- An early return: the writes made so far stay, nothing is published. -/
def unpublished (s : RuntimeStore) (data : RuntimeStoreData) : RuntimeStore :=
  { s with data := data }

/-! ### Registration -/

/-- `register_guest_contract`. -/
def registerGuestContract (s : RuntimeStore) (descriptor : PluginDescriptor)
    (interface : RawGuestContractInterface) (ptr : Nat) (contractName : String)
    (bundleId : BundleId) : Except RegistryError GuestContractHandle × RuntimeStore :=
  match prepareGuestContract descriptor interface contractName interface.adapterContext ptr with
  | .error e     => (.error e, s)
  | .ok contract =>
    let isReloading := decide (bundleId ∈ s.data.reloadingBundles)
    match validateGuestContractRegistration s.data contract bundleId isReloading with
    | .error e => (.error e, s)
    | .ok ()   =>
      let data := ensureDefaultBundleData s.data bundleId
      match insertPreparedGuestContract data contract bundleId (!isReloading) with
      | .error e           => (.error e, s.unpublished data)
      | .ok (handle, data) => (.ok handle, s.publish data)

/-- The insertion loop of `register_prepared_bundle`, with the handles pushed so
far. -/
def insertAll (bundleId : BundleId) (publishContract : Bool) :
    List PreparedGuestContract → List GuestContractHandle → RuntimeStoreData →
      Except RegistryError (List GuestContractHandle) × RuntimeStoreData
  | [], handles, data               => (.ok handles, data)
  | contract :: rest, handles, data =>
    match insertPreparedGuestContract data contract bundleId publishContract with
    | .error e           => (.error e, data)
    | .ok (handle, data) => insertAll bundleId publishContract rest (handles ++ [handle]) data

/-- The validation loop of `register_prepared_bundle`. -/
def validateAll (data : RuntimeStoreData) (bundleId : BundleId) (isReloading : Bool) :
    List PreparedGuestContract → Except RegistryError Unit
  | []               => .ok ()
  | contract :: rest =>
    match validateGuestContractRegistration data contract bundleId isReloading with
    | .error e => .error e
    | .ok ()   => validateAll data bundleId isReloading rest

/-- The bundle-level writes of `register_prepared_bundle`, before its contracts
are inserted. -/
def insertBundle (data : RuntimeStoreData) (descriptor : BundleDescriptor)
    (dependencies : Finset GuestContractId) : RuntimeStoreData :=
  { data with
      bundleData := data.bundleData.insert descriptor.id ⟨[], descriptor⟩
      bundleNameIndex := data.bundleNameIndex.insert descriptor.name
        ((data.bundleNameIndex.lookup descriptor.name).getD [] ++ [descriptor.id])
      bundleDeclaredDeps := data.bundleDeclaredDeps.insert descriptor.id dependencies }

/-- `register_prepared_bundle`. -/
def registerPreparedBundle (s : RuntimeStore) (descriptor : BundleDescriptor)
    (dependencies : Finset GuestContractId) (contracts : List PreparedGuestContract) :
    Except RegistryError (List GuestContractHandle) × RuntimeStore :=
  match validatePreparedBundleContracts contracts with
  | .error e => (.error e, s)
  | .ok ()   =>
    let isReloading := decide (descriptor.id ∈ s.data.reloadingBundles)
    match validateAll s.data descriptor.id isReloading contracts with
    | .error e => (.error e, s)
    | .ok ()   =>
      if (s.data.bundleData.lookup descriptor.id).isSome then
        (.error (.bundleAlreadyRegistered descriptor.name), s)
      else
        match insertAll descriptor.id (!isReloading) contracts []
            (insertBundle s.data descriptor dependencies) with
        -- The writes up to the error stay, and no view is published.
        | (.error e, data)    => (.error e, s.unpublished data)
        | (.ok handles, data) => (.ok handles, s.publish data)

/-- `declare_bundle_dependencies`. -/
def declareBundleDependencies (s : RuntimeStore) (bundleId : BundleId)
    (contractIds : List GuestContractId) : RuntimeStore :=
  s.publish
    { s.data with
        bundleDeclaredDeps := s.data.bundleDeclaredDeps.insert bundleId
          ((s.data.bundleDeclaredDeps.lookup bundleId).getD ∅ ∪ contractIds.toFinset) }

/-- `register_bundle_metadata`. -/
def registerBundleMetadata (s : RuntimeStore) (bundleId : BundleId) (bundleName : String)
    (version : Version) (runtime : SupportedLanguage) (origin : BundleOrigin)
    (dependencies : List BundleDependency) : RuntimeStore :=
  let bd : BundleData := match s.data.bundleData.lookup bundleId with
    -- A known bundle keeps its slots.
    | some bd => ⟨bd.pluginSlots, ⟨bd.descriptor.id, bundleName, version, runtime, origin,
        dependencies⟩⟩
    | none    => ⟨[], ⟨bundleId, bundleName, version, runtime, origin, dependencies⟩⟩
  let entries := (s.data.bundleNameIndex.lookup bundleName).getD []
  s.publish
    { s.data with
        bundleData := s.data.bundleData.insert bundleId bd
        bundleNameIndex := s.data.bundleNameIndex.insert bundleName
          (if bundleId ∈ entries then entries else entries ++ [bundleId]) }

/-- `swap_guest_contract_interface`. The empty slot is restored on the error
path, so nothing has changed there. -/
def swapGuestContractInterface (s : RuntimeStore) (slotIndex : Nat)
    (newInterface : Arc GuestContractInterface) : Except RegistryError Unit × RuntimeStore :=
  match s.data.slots[slotIndex]? with
  | none      => (.error (.invalidHandle slotIndex), s)
  | some slot =>
    match slot.interface with
    | none   => (.error (.invalidHandle slotIndex), s)
    | some _ =>
      (.ok (), s.publish
        { s.data with
            slots := s.data.slots.set slotIndex { slot with interface := some newInterface } })

/-! ### Reload windows -/

/-- `begin_reload`. -/
def beginReload (s : RuntimeStore) (bundleId : BundleId) : RuntimeStore :=
  s.publish { s.data with reloadingBundles := insert bundleId s.data.reloadingBundles }

/-- The bundle's slots that are not in the pre-reload set. -/
def pendingSlots (data : RuntimeStoreData) (bundleId : BundleId) (oldSlots : List Nat) :
    List Nat :=
  (data.pluginSlots bundleId).filter fun idx => idx ∉ oldSlots

/-- Both close operations leave the window first. -/
def closeWindow (data : RuntimeStoreData) (bundleId : BundleId) : RuntimeStoreData :=
  { data with reloadingBundles := data.reloadingBundles.erase bundleId }

/-- One iteration of `abort_reload`: clear the slot and forget its index. The
generation stays. -/
def purgeSlot (bundleId : BundleId) (data : RuntimeStoreData) (pendingIdx : Nat) :
    RuntimeStoreData :=
  let slots := match data.slots[pendingIdx]? with
    | none      => data.slots
    | some slot => data.slots.set pendingIdx ⟨none, none, slot.generation⟩
  let index := match data.contractAt pendingIdx with
    | none     => data.guestContractIndex
    | some cid => data.retainIndices cid pendingIdx
  { data with slots := slots, guestContractIndex := index }.retainPluginSlots bundleId pendingIdx

/-- `abort_reload`. -/
def abortReload (s : RuntimeStore) (bundleId : BundleId) (oldSlots : List Nat) : RuntimeStore :=
  let data := closeWindow s.data bundleId
  s.publish ((pendingSlots data bundleId oldSlots).foldl (purgeSlot bundleId) data)

/-- The first slot registered in the window for `cid` that still holds an
interface. -/
def matchingNewSlot (data : RuntimeStoreData) (newSlots : List Nat) (cid : GuestContractId) :
    Option Nat :=
  newSlots.find? fun idx => data.contractAt idx = some cid

/-- The replacement moves from `newIdx` into `oldIdx` as one unit; the emptied
slot's generation is bumped and the slot leaves the index and the bundle. The
old slot keeps its generation. -/
def moveSlot (bundleId : BundleId) (data : RuntimeStoreData) (cid : GuestContractId)
    (oldIdx newIdx : Nat) (oldSlot newSlot : PluginSlot) : RuntimeStoreData :=
  { data with
      slots := (data.slots.set oldIdx ⟨newSlot.entry, newSlot.interface, oldSlot.generation⟩).set
        newIdx ⟨none, none, wrappingSucc newSlot.generation⟩
      guestContractIndex := match data.guestContractIndex.lookup cid with
        | none         => data.guestContractIndex
        | some indices =>
          data.guestContractIndex.insert cid (indices.filter fun idx => idx ≠ newIdx)
      }.retainPluginSlots bundleId newIdx

/-- One iteration of the reconciliation loop of `apply_reload_swap`. Every
check of an iteration stands before its first write, so an error carries no
data. The source repeats the presence checks when it takes the values out;
these cannot fail once they have passed. -/
def swapOldSlot (bundleId : BundleId) (newSlots : List Nat) (data : RuntimeStoreData)
    (oldIdx : Nat) : Except RegistryError RuntimeStoreData :=
  match data.contractAt oldIdx with
  | none     => .error (.invalidHandle oldIdx)
  | some cid =>
    match matchingNewSlot data newSlots cid with
    -- The new version has dropped the contract.
    | none        => .ok ((data.vacateSlot oldIdx).retainPluginSlots bundleId oldIdx)
    | some newIdx =>
      match data.slots[newIdx]? with
      | none         => .error (.invalidHandle newIdx)
      | some newSlot =>
        if newSlot.entry.isNone || newSlot.interface.isNone then
          .error (.invalidHandle newIdx)
        else
          match data.slots[oldIdx]? with
          | none         => .error (.invalidHandle oldIdx)
          | some oldSlot =>
            if oldSlot.entry.isNone || oldSlot.interface.isNone then
              .error (.invalidHandle oldIdx)
            else .ok (moveSlot bundleId data cid oldIdx newIdx oldSlot newSlot)

/-- The reconciliation loop. The data of an error is the data of the last
completed iteration. -/
def swapOldSlots (bundleId : BundleId) (newSlots : List Nat) :
    List Nat → RuntimeStoreData → Except RegistryError Unit × RuntimeStoreData
  | [], data             => (.ok (), data)
  | oldIdx :: rest, data =>
    match swapOldSlot bundleId newSlots data oldIdx with
    -- What earlier iterations have moved stays moved.
    | .error e => (.error e, data)
    | .ok data => swapOldSlots bundleId newSlots rest data

/-- One iteration of the publishing loop: a slot of the window that is still
live joins the index. -/
def publishSlot (data : RuntimeStoreData) (newIdx : Nat) : RuntimeStoreData :=
  match data.slots[newIdx]? with
  | none      => data
  | some slot =>
    if slot.entry.isSome then
      match slot.interface with
      | none     => data
      | some arc =>
        let indices := data.indexOf arc.val.contractId
        { data with
            guestContractIndex := data.guestContractIndex.insert arc.val.contractId
              (if newIdx ∈ indices then indices else indices ++ [newIdx]) }
    else data

/-- `apply_reload_swap`. -/
def applyReloadSwap (s : RuntimeStore) (bundleId : BundleId) (oldSlots : List Nat)
    (replacementDescriptor : BundleDescriptor)
    (replacementContractDependencies : Finset GuestContractId) :
    Except RegistryError Unit × RuntimeStore :=
  let data := closeWindow s.data bundleId
  let newSlots := pendingSlots data bundleId oldSlots
  match swapOldSlots bundleId newSlots oldSlots data with
  -- The window is closed all the same.
  | (.error e, data) => (.error e, s.unpublished data)
  | (.ok (), data)   =>
    let data := newSlots.foldl publishSlot data
    match data.bundleData.lookup bundleId with
    | none    => (.error (.missingBundleMetadata bundleId.id), s.unpublished data)
    | some bd =>
      (.ok (), s.publish
        { data with
            bundleData := data.bundleData.insert bundleId
              { bd with descriptor := replacementDescriptor }
            bundleDeclaredDeps := data.bundleDeclaredDeps.insert bundleId
              replacementContractDependencies })

/-! ### Unload -/

/-- The name index without `bundleId` under `bundleName`, dropping an emptied
key. -/
def retainName (data : RuntimeStoreData) (bundleName : String) (bundleId : BundleId) :
    Finmap fun _ : String => List BundleId :=
  match data.bundleNameIndex.lookup bundleName with
  | none     => data.bundleNameIndex
  | some ids =>
    let kept := ids.filter fun id => id ≠ bundleId
    if kept.isEmpty then data.bundleNameIndex.erase bundleName
    else data.bundleNameIndex.insert bundleName kept

/-- `invalidate_bundle`: the number of invalidated slots, `0` for a bundle that
is not registered. -/
def invalidateBundle (s : RuntimeStore) (bundleId : BundleId) : Nat × RuntimeStore :=
  match s.data.bundleData.lookup bundleId with
  | none    => (0, s)
  | some bd =>
    let data := bd.pluginSlots.foldl RuntimeStoreData.vacateSlot s.data
    (asU32 bd.pluginSlots.length, s.publish
      { data with
          bundleData := data.bundleData.erase bundleId
          bundleNameIndex := retainName data bd.descriptor.name bundleId
          bundleDeclaredDeps := data.bundleDeclaredDeps.erase bundleId })

/-! ### Staged bundles -/

/-- The staged bundles of a thread, outermost first. -/
def preparedOn (s : RuntimeStore) (thread : ThreadId) : List PreparedBundleRegistration :=
  (s.preparedBundles.lookup thread).getD []

/-- The key of a thread is dropped with its last staged bundle. -/
def setPreparedOn (s : RuntimeStore) (thread : ThreadId)
    (registrations : List PreparedBundleRegistration) : RuntimeStore :=
  { s with
      preparedBundles :=
        if registrations.isEmpty then s.preparedBundles.erase thread
        else s.preparedBundles.insert thread registrations }

/-- `begin_prepared_bundle`. -/
def beginPreparedBundle (s : RuntimeStore) (thread : ThreadId) (manifest : ManifestData)
    (runtime : SupportedLanguage) (source : BundleSource) : RuntimeStore :=
  s.setPreparedOn thread (s.preparedOn thread ++ [⟨manifest, runtime, source, [], none⟩])

/-- The position of the innermost staged bundle with this id (`rposition`). -/
def preparedPosition (s : RuntimeStore) (thread : ThreadId) (bundleId : BundleId) :
    Option Nat :=
  -- The search starts at the end, the position counts from the front.
  ((s.preparedOn thread).reverse.findIdx? fun r => r.manifest.id = bundleId.id).map fun k =>
    (s.preparedOn thread).length - 1 - k

/-- `prepared_manifest`. -/
def preparedManifest (s : RuntimeStore) (thread : ThreadId) (bundleId : BundleId) :
    Option ManifestData :=
  ((s.preparedOn thread).reverse.find? fun r => r.manifest.id = bundleId.id).map
    PreparedBundleRegistration.manifest

/-- `stage_guest_contract`. -/
def stageGuestContract (s : RuntimeStore) (thread : ThreadId) (bundleId : BundleId)
    (descriptor : PluginDescriptor) (interface : RawGuestContractInterface) (ptr : Nat)
    (contractName : String) : Except RegistryError Unit × RuntimeStore :=
  match prepareGuestContract descriptor interface contractName interface.adapterContext ptr with
  | .error e     => (.error e, s)
  | .ok contract =>
    match s.preparedPosition thread bundleId with
    | none          => (.error (.missingBundleMetadata bundleId.id), s)
    | some position =>
      (.ok (), s.setPreparedOn thread ((s.preparedOn thread).modify position fun r =>
        { r with contracts := r.contracts ++ [contract] }))

/-- `take_prepared_bundle`. -/
def takePreparedBundle (s : RuntimeStore) (thread : ThreadId) (bundleId : BundleId) :
    Option PreparedBundleRegistration × RuntimeStore :=
  match s.preparedPosition thread bundleId with
  | none          => (none, s)
  | some position =>
    ((s.preparedOn thread)[position]?,
      s.setPreparedOn thread ((s.preparedOn thread).eraseIdx position))

/-- `discard_prepared_bundle`: whether a staged bundle was dropped, and the
resident its drop released. -/
def discardPreparedBundle (s : RuntimeStore) (thread : ThreadId) (bundleId : BundleId) :
    (Bool × Option InternalPluginResident) × RuntimeStore :=
  match s.takePreparedBundle thread bundleId with
  | (none, s)           => ((false, none), s)
  | (some discarded, s) => ((true, discarded.resident), s)

end RuntimeStore

end PolyPlug.Registry
