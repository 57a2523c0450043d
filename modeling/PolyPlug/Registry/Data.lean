import PolyPlug.Common.Manifest

/-!
# `PolyPlug.Registry.Data`: the locked registry data

`RuntimeStoreData` is the state behind the registry's write lock: the slot
array, the contract index, the per-bundle slot lists, the name index, the
declared dependencies and the set of bundles inside a reload window. The
functions of this module are the steps the store's mutators are made of:
registration into the lowest vacant slot, the teardown of a slot, and the
checks that guard a registration.

`HashMap` is `Finmap`, `HashSet` is `Finset`, `Vec` is `List`. A slot index is
a natural; the source's `as u32` casts are `asU32`.
-/

set_option autoImplicit false

namespace PolyPlug.Registry

open PolyPlug.Rust
open PolyPlug.Abi
open PolyPlug.Common

/-- The `as u32` cast of an index. -/
def asU32 (n : Nat) : Nat := n % 2 ^ 32

/-- `u32::wrapping_add(1)`. -/
def wrappingSucc (n : Nat) : Nat := (n + 1) % 2 ^ 32

/-- A bump changes the generation, also when it wraps. -/
theorem wrappingSucc_ne (n : Nat) : wrappingSucc n ≠ n := by
  unfold wrappingSucc
  omega

/-! ### The records -/

/-- A bundle-level dependency. -/
structure BundleDependency where
  name : String
  minVersion : Option Version
deriving DecidableEq

/-- `BundleOrigin`. -/
inductive BundleOrigin where
  | internal
  | path (path : String)
  | code
  | bytes
deriving DecidableEq

/-- `BundleSource`. -/
inductive BundleSource where
  | internal
  | path (path : String)
  | code (text : String)
  | bytes (payload : List UInt8)
deriving DecidableEq

/-- `BundleSource::origin`. -/
def BundleSource.origin : BundleSource → BundleOrigin
  | .internal => .internal
  | .path dir => .path dir
  | .code _   => .code
  | .bytes _  => .bytes

/-- `BundleDescriptor`. -/
structure BundleDescriptor where
  id : BundleId
  name : String
  version : Version
  runtime : SupportedLanguage
  origin : BundleOrigin
  dependencies : List BundleDependency
deriving DecidableEq

/-- `BundleData`. -/
structure BundleData where
  pluginSlots : List Nat
  descriptor : BundleDescriptor
deriving DecidableEq

/-- `OwnedPluginDescriptor`. -/
structure OwnedPluginDescriptor where
  name : String
  contractName : String
  version : Version
deriving DecidableEq

/-- `PluginEntry`. -/
structure PluginEntry where
  descriptor : OwnedPluginDescriptor
  contractName : String
  bundleId : BundleId
deriving DecidableEq

/-- `PluginSlot`. -/
structure PluginSlot where
  entry : Option PluginEntry
  interface : Option (Arc GuestContractInterface)
  generation : Nat
deriving DecidableEq

/-- The slot a registration pushes before it fills it. -/
def PluginSlot.vacant : PluginSlot := ⟨none, none, 0⟩

/-- A staged contract. `prepareGuestContract` is its only constructor in the
source, and copies the id out of the interface and the name into the
descriptor; the two equations are that fact. -/
structure PreparedGuestContract where
  contractId : GuestContractId
  descriptor : OwnedPluginDescriptor
  contractName : String
  interface : Arc GuestContractInterface
  contractId_eq : contractId = interface.val.contractId
  contractName_eq : descriptor.contractName = contractName
deriving DecidableEq

/-- `RuntimeStoreData`. -/
structure RuntimeStoreData where
  slots : List PluginSlot
  guestContractIndex : Finmap fun _ : GuestContractId => List Nat
  bundleData : Finmap fun _ : BundleId => BundleData
  bundleNameIndex : Finmap fun _ : String => List BundleId
  bundleDeclaredDeps : Finmap fun _ : BundleId => Finset GuestContractId
  reloadingBundles : Finset BundleId
deriving DecidableEq

namespace RuntimeStoreData

/-- `RuntimeStoreData::new`. -/
def new : RuntimeStoreData := ⟨[], ∅, ∅, ∅, ∅, ∅⟩

/-- The slots listed under a contract id, `[]` for an absent key. -/
def indexOf (data : RuntimeStoreData) (cid : GuestContractId) : List Nat :=
  (data.guestContractIndex.lookup cid).getD []

/-- `get_bundle_plugin_slots`: the slots listed for a bundle, `[]` for an
absent bundle. -/
def pluginSlots (data : RuntimeStoreData) (b : BundleId) : List Nat :=
  ((data.bundleData.lookup b).map BundleData.pluginSlots).getD []

/-- The entry of a slot, when the index is in bounds and the slot is taken. -/
def entryAt (data : RuntimeStoreData) (i : Nat) : Option PluginEntry :=
  data.slots[i]?.bind PluginSlot.entry

/-- The interface of a slot. -/
def interfaceAt (data : RuntimeStoreData) (i : Nat) : Option (Arc GuestContractInterface) :=
  data.slots[i]?.bind PluginSlot.interface

/-- The contract id of the interface in a slot. -/
def contractAt (data : RuntimeStoreData) (i : Nat) : Option GuestContractId :=
  (data.interfaceAt i).map fun arc => arc.val.contractId

/-! ### Teardown -/

/-- Drop `slotIdx` from the list of `cid`, and the key with it once the list is
empty. -/
def retainIndices (data : RuntimeStoreData) (cid : GuestContractId) (slotIdx : Nat) :
    Finmap fun _ : GuestContractId => List Nat :=
  match data.guestContractIndex.lookup cid with
  | none         => data.guestContractIndex
  | some indices =>
    let kept := indices.filter fun idx => idx ≠ slotIdx
    if kept.isEmpty then data.guestContractIndex.erase cid
    else data.guestContractIndex.insert cid kept

/-- `plugin_slots.retain(|&idx| idx != slot_idx)` on one bundle's entry. -/
def retainPluginSlots (data : RuntimeStoreData) (b : BundleId) (slotIdx : Nat) :
    RuntimeStoreData :=
  match data.bundleData.lookup b with
  | none    => data
  | some bd =>
    { data with
        bundleData := data.bundleData.insert b
          { bd with pluginSlots := bd.pluginSlots.filter fun idx => idx ≠ slotIdx } }

/-- `RuntimeStoreData::vacate_slot`: clear the slot, bump its generation, and
take it out of the contract index. An out-of-bounds index is a no-op. -/
def vacateSlot (data : RuntimeStoreData) (slotIdx : Nat) : RuntimeStoreData :=
  match data.slots[slotIdx]? with
  | none      => data
  | some slot =>
    { data with
        guestContractIndex := match slot.interface with
          | none     => data.guestContractIndex
          | some arc => data.retainIndices arc.val.contractId slotIdx
        slots := data.slots.set slotIdx ⟨none, none, wrappingSucc slot.generation⟩ }

end RuntimeStoreData

/-! ### Contract names -/

/-- `is_decimal_component`. -/
def isDecimalComponent (component : String) : Bool :=
  !component.isEmpty && component.toList.all isAsciiDigit

/-- `canonical_contract_name`: the name before the last `@` when a bare major or
a full three-component version follows it, else the whole name. -/
def canonicalContractName (name : String) : String :=
  match rsplitOnce name '@' with
  | none                     => name
  | some (baseName, version) =>
    if baseName.isEmpty then name
    else
      match split version '.' with
      | [major]               => if isDecimalComponent major then baseName else name
      | [major, minor, patch] =>
        if isDecimalComponent major && isDecimalComponent minor && isDecimalComponent patch
        then baseName else name
      | _                     => name

/-! ### Registration -/

/-- `string_view_to_owned_string`. -/
def stringViewToOwnedString (sv : StringView) (context : String) :
    Except RegistryError String :=
  match sv.bytes with
  | none       => .ok ""
  | some bytes =>
    if bytes.isEmpty then .ok ""
    else
      match String.fromUTF8? (ByteArray.mk bytes.toArray) with
      | some text => .ok text
      | none      => .error (.invalidUtf8 context)

/-- `prepare_guest_contract`: check the discriminant, own the plugin name, and
put the stateless stubs where the plugin passed null. `ptr` is the address of
the allocation the copy is placed in. -/
def prepareGuestContract (descriptor : PluginDescriptor) (interface : RawGuestContractInterface)
    (contractName : String) (adapterContext ptr : Nat) :
    Except RegistryError PreparedGuestContract :=
  match DispatchType.fromU32 interface.dispatchType with
  | none              => .error (.invalidDispatchType interface.dispatchType)
  | some dispatchType =>
    match stringViewToOwnedString descriptor.name "PluginDescriptor.name" with
    | .error e      => .error e
    | .ok ownedName =>
      .ok
        { contractId := interface.contractId
          descriptor := ⟨ownedName, contractName, descriptor.version⟩
          contractName := contractName
          interface :=
            ⟨ptr,
              { contractId := interface.contractId
                contractVersion := interface.contractVersion
                dispatchType := dispatchType
                adapterContext := adapterContext
                createInstance :=
                  if interface.createInstance = 0 then .statelessCreateInstance
                  else .guest interface.createInstance
                destroyInstance :=
                  if interface.destroyInstance = 0 then .statelessDestroyInstance
                  else .guest interface.destroyInstance
                dispatch := interface.dispatch }⟩
          contractId_eq := rfl
          contractName_eq := rfl }

/-- The two names do not denote one contract. -/
def nameCollision (existing contract : String) : Bool :=
  canonicalContractName existing ≠ canonicalContractName contract

/-- The inner loop of `validate_prepared_bundle_contracts`: `contract` against
the staged contracts before it. -/
def validateAgainstStaged (contract : PreparedGuestContract) :
    List PreparedGuestContract → Except RegistryError Unit
  | []               => .ok ()
  | existing :: rest =>
    if existing.contractId ≠ contract.contractId then validateAgainstStaged contract rest
    else if nameCollision existing.contractName contract.contractName then
      .error (.contractIdCollision contract.contractId.id existing.contractName
        contract.contractName)
    else if existing.descriptor.name = contract.descriptor.name ∧
        existing.descriptor.contractName = contract.descriptor.contractName ∧
        existing.descriptor.version = contract.descriptor.version then
      .error (.duplicateProvider contract.contractName existing.descriptor.name)
    else validateAgainstStaged contract rest

/-- The outer loop, with the contracts already passed. -/
def validateStagedFrom (staged : List PreparedGuestContract) :
    List PreparedGuestContract → Except RegistryError Unit
  | []               => .ok ()
  | contract :: rest =>
    match validateAgainstStaged contract staged with
    | .error e => .error e
    | .ok ()   => validateStagedFrom (staged ++ [contract]) rest

/-- `validate_prepared_bundle_contracts`. -/
def validatePreparedBundleContracts (contracts : List PreparedGuestContract) :
    Except RegistryError Unit :=
  validateStagedFrom [] contracts

/-- The loop of `validate_guest_contract_registration` over the slots listed
under the contract's id. -/
def validateAgainstIndexed (data : RuntimeStoreData) (contract : PreparedGuestContract)
    (bundleId : BundleId) (isReloading : Bool) : List Nat → Except RegistryError Unit
  | []                  => .ok ()
  | existingIdx :: rest =>
    match data.entryAt existingIdx with
    | none          => validateAgainstIndexed data contract bundleId isReloading rest
    | some existing =>
      if nameCollision existing.contractName contract.contractName then
        .error (.contractIdCollision contract.contractId.id existing.contractName
          contract.contractName)
      else if existing.bundleId = bundleId ∧ isReloading = false then
        .error (.duplicateProvider contract.contractName existing.descriptor.name)
      else validateAgainstIndexed data contract bundleId isReloading rest

/-- `validate_guest_contract_registration`. -/
def validateGuestContractRegistration (data : RuntimeStoreData)
    (contract : PreparedGuestContract) (bundleId : BundleId) (isReloading : Bool) :
    Except RegistryError Unit :=
  match data.guestContractIndex.lookup contract.contractId with
  | none         => .ok ()
  | some indices => validateAgainstIndexed data contract bundleId isReloading indices

/-- The descriptor of a bundle that registers before its metadata is known. -/
def defaultDescriptor (bundleId : BundleId) : BundleDescriptor :=
  ⟨bundleId, "", ⟨0, 0, 0⟩, .rust, .internal, []⟩

/-- `ensure_default_bundle_data`. -/
def ensureDefaultBundleData (data : RuntimeStoreData) (bundleId : BundleId) :
    RuntimeStoreData :=
  match data.bundleData.lookup bundleId with
  | some _ => data
  | none   =>
    { data with bundleData := data.bundleData.insert bundleId ⟨[], defaultDescriptor bundleId⟩ }

/-- The slot a registration fills, and the slot array that holds it: the lowest
slot without an entry, else a fresh one at the end. -/
def allocateSlot (slots : List PluginSlot) : Nat × List PluginSlot :=
  match slots.findIdx? fun slot => slot.entry.isNone with
  | some index => (asU32 index, slots)
  | none       => (asU32 slots.length, slots ++ [PluginSlot.vacant])

/-- The entry a registration writes. -/
def PreparedGuestContract.entry (contract : PreparedGuestContract) (bundleId : BundleId) :
    PluginEntry :=
  ⟨contract.descriptor, contract.contractName, bundleId⟩

/-- `insert_prepared_guest_contract`. -/
def insertPreparedGuestContract (data : RuntimeStoreData) (contract : PreparedGuestContract)
    (bundleId : BundleId) (publishContract : Bool) :
    Except RegistryError (GuestContractHandle × RuntimeStoreData) :=
  match data.bundleData.lookup bundleId with
  | none    => .error (.missingBundleMetadata bundleId.id)
  | some bd =>
    let slotIdx := (allocateSlot data.slots).1
    let slots := (allocateSlot data.slots).2
    let generation := (slots.getD slotIdx PluginSlot.vacant).generation
    .ok
      (⟨slotIdx, generation⟩,
        { data with
            slots := slots.set slotIdx
              ⟨some (contract.entry bundleId), some contract.interface, generation⟩
            guestContractIndex :=
              if publishContract then
                data.guestContractIndex.insert contract.contractId
                  (data.indexOf contract.contractId ++ [slotIdx])
              else data.guestContractIndex
            bundleData := data.bundleData.insert bundleId
              { bd with pluginSlots := bd.pluginSlots ++ [slotIdx] } })

end PolyPlug.Registry
