import PolyPlug.Lifecycle.Load

/-!
# `PolyPlug.Lifecycle.InternalPlugin`: transactions of the host's own plugins

The host begins a transaction, registers contracts on the same thread, and commits
or aborts it by bundle id. The staged bundles are searched by that id. The init
stack, which names the bundle of each registration, is popped without one.

`InitStacks` adds the counter `active_init_count` to the runtime: a thread reads its
init stack only while the counter is not zero. The assertion of `begin` that its
marker is new, which a release build does not check, is left out.
-/

set_option autoImplicit false

namespace PolyPlug.Registry

open PolyPlug.Abi

namespace RuntimeStore

/-- `prepared_bundle_contract_count`. -/
def preparedBundleContractCount (s : RuntimeStore) (thread : ThreadId) (bundleId : BundleId) :
    Option Nat :=
  ((s.preparedOn thread).reverse.find? fun r => r.manifest.id = bundleId.id).map fun r =>
    r.contracts.length

/-- `attach_prepared_bundle_resident`. -/
def attachPreparedBundleResident (s : RuntimeStore) (thread : ThreadId) (bundleId : BundleId)
    (resident : InternalPluginResident) : Except RegistryError Unit × RuntimeStore :=
  match s.preparedPosition thread bundleId with
  | none          => (.error (.missingBundleMetadata bundleId.id), s)
  | some position =>
    if ((s.preparedOn thread)[position]?.bind PreparedBundleRegistration.resident).isSome then
      (.error (.internalPluginResidentAlreadyAttached bundleId.id), s)
    else
      (.ok (), s.setPreparedOn thread ((s.preparedOn thread).modify position fun r =>
        { r with resident := some resident }))

end RuntimeStore

end PolyPlug.Registry

namespace PolyPlug.Lifecycle

open PolyPlug.Rust
open PolyPlug.Abi
open PolyPlug.Common
open PolyPlug.Registry

namespace Runtime

/-! ### The transaction, apart from the init stack -/

/-- `remove_internal_plugin_lifecycle_marker`. -/
def removeInternalPluginLifecycleMarker (rt : Runtime) (bundleId : BundleId) : Runtime :=
  { rt with internalPluginLifecycle := rt.internalPluginLifecycle.erase bundleId }

/-- `begin_internal_plugin` before its push. -/
def beginInternalPlugin (rt : Runtime) (thread : ThreadId) (manifest : ManifestData)
    (language : SupportedLanguage) : Except RuntimeError BundleId × Runtime :=
  match rt.beginPreparedBundleTransaction thread manifest language .internal with
  | (.error e, rt)     => (.error e, rt)
  | (.ok bundleId, rt) =>
    (.ok bundleId,
      { rt with internalPluginLifecycle := insert bundleId rt.internalPluginLifecycle })

/-- `commit_internal_plugin_with_handles` without its pop, which stands between the
commit and the marker. `commit_internal_plugin` is the same with another result. -/
def commitInternalPluginWithHandles (compatibility : Compatibility) (rt : Runtime)
    (thread : ThreadId) (bundleId : BundleId) :
    Except RuntimeError (List GuestContractHandle) × Runtime :=
  match rt.commitPreparedBundleTransactionWithHandles thread bundleId ⟨compatibility, false⟩ with
  | (.error e, rt)    => (.error e, rt.removeInternalPluginLifecycleMarker bundleId)
  | (.ok handles, rt) => (.ok handles, rt)

/-- `abort_internal_plugin` without its pop, and whether it pops. -/
def abortInternalPlugin (rt : Runtime) (thread : ThreadId) (bundleId : BundleId) :
    Bool × Runtime :=
  match rt.registry.discardPreparedBundle thread bundleId with
  | ((false, _), registry) => (false, { rt with registry := registry })
  | ((true, _), registry)  =>
    (true, { rt with registry := registry }.removeInternalPluginLifecycleMarker bundleId)

/-- `attach_internal_plugin_resident`, on the runtime: only the owner thread attaches. -/
def attachInternalPluginResident (rt : Runtime) (thread : ThreadId) (bundleId : BundleId)
    (resident : InternalPluginResident) : Except RuntimeError Unit × Runtime :=
  if resident.ownerThreadId ≠ thread then
    (.error (.internalPluginResidentWrongThread (hex bundleId.id) resident.ownerThreadId thread),
      rt)
  else
    match rt.registry.attachPreparedBundleResident thread bundleId resident with
    | (.error e, registry) => (.error (.registry e), { rt with registry := registry })
    | (.ok (), registry)   => (.ok (), { rt with registry := registry })

end Runtime

/-! ### The init stacks and their counter -/

/-- The runtime with `active_init_count`. -/
structure InitStacks where
  runtime : Runtime
  activeInitCount : Nat

namespace InitStacks

/-- `push_init_bundle_id`. -/
def pushInitBundleId (h : InitStacks) (thread : ThreadId) (bundleId : UInt64) : InitStacks :=
  ⟨h.runtime.pushInitBundleId thread bundleId, h.activeInitCount + 1⟩

/-- `pop_init_bundle_id`. -/
def popInitBundleId (h : InitStacks) (thread : ThreadId) : InitStacks :=
  ⟨h.runtime.popInitBundleId thread,
    if (h.runtime.initStackOn thread).isEmpty then h.activeInitCount else h.activeInitCount - 1⟩

/-- What `current_init_bundle_id` sees of the stacks: nothing while the counter is
zero. -/
def visible (h : InitStacks) : Runtime :=
  if h.activeInitCount = 0 then { h.runtime with initBundleStack := ∅ } else h.runtime

/-- `host_register_guest_contract_impl`. -/
def hostRegisterGuestContract (h : InitStacks) (thread : ThreadId)
    (descriptor : Option PluginDescriptor) (interface : Option RawGuestContractInterface)
    (functions : Nat → Nat) (ptr : Nat) : AbiError × InitStacks :=
  let registered := h.visible.hostRegisterGuestContract thread descriptor interface functions ptr
  (registered.1, { h with runtime := { h.runtime with registry := registered.2.registry } })

/-- `begin_internal_plugin`. -/
def beginInternalPlugin (h : InitStacks) (thread : ThreadId) (manifest : ManifestData)
    (language : SupportedLanguage) : Except RuntimeError BundleId × InitStacks :=
  match h.runtime.beginInternalPlugin thread manifest language with
  | (.error e, rt)     => (.error e, { h with runtime := rt })
  | (.ok bundleId, rt) =>
    (.ok bundleId, { h with runtime := rt }.pushInitBundleId thread bundleId.id)

/-- `commit_internal_plugin_with_handles`. -/
def commitInternalPluginWithHandles (compatibility : Compatibility) (h : InitStacks)
    (thread : ThreadId) (bundleId : BundleId) :
    Except RuntimeError (List GuestContractHandle) × InitStacks :=
  let committed := h.runtime.commitInternalPluginWithHandles compatibility thread bundleId
  (committed.1, { h with runtime := committed.2 }.popInitBundleId thread)

/-- `commit_internal_plugin`. -/
def commitInternalPlugin (compatibility : Compatibility) (h : InitStacks) (thread : ThreadId)
    (bundleId : BundleId) : Except RuntimeError BundleId × InitStacks :=
  let committed := h.commitInternalPluginWithHandles compatibility thread bundleId
  (committed.1.map fun _ => bundleId, committed.2)

/-- `abort_internal_plugin`. -/
def abortInternalPlugin (h : InitStacks) (thread : ThreadId) (bundleId : BundleId) : InitStacks :=
  match h.runtime.abortInternalPlugin thread bundleId with
  | (false, rt) => { h with runtime := rt }
  | (true, rt)  => { h with runtime := rt }.popInitBundleId thread

/-- `commit_internal_plugin_into_handles`, with the length of the output buffer. -/
def commitInternalPluginIntoHandles (compatibility : Compatibility) (h : InitStacks)
    (thread : ThreadId) (bundleId : BundleId) (outHandles : Nat) :
    Except RuntimeError Nat × InitStacks :=
  match h.runtime.registry.preparedBundleContractCount thread bundleId with
  | none               =>
    (.error (.registry (.missingBundleMetadata bundleId.id)),
      h.abortInternalPlugin thread bundleId)
  | some expectedCount =>
    if expectedCount ≠ outHandles then
      let bundle := ((h.runtime.registry.preparedManifest thread bundleId).map
        ManifestData.name).getD (decimal bundleId.id.toNat)
      (.error (.loader (.initFailed bundle ("committed-handle output capacity "
        ++ decimal outHandles ++ " does not match " ++ decimal expectedCount
        ++ " staged providers"))), h.abortInternalPlugin thread bundleId)
    else
      let committed := h.commitInternalPluginWithHandles compatibility thread bundleId
      (committed.1.map List.length, committed.2)

end InitStacks

/-! ### Calls -/

/-- A call of the host on one thread. -/
inductive PluginCall where
  | begin (manifest : ManifestData) (language : SupportedLanguage)
  | attach (bundleId : BundleId) (resident : InternalPluginResident)
  | register (descriptor : Option PluginDescriptor)
      (interface : Option RawGuestContractInterface) (functions : Nat → Nat) (ptr : Nat)
  | commit (bundleId : BundleId)
  | commitIntoHandles (bundleId : BundleId) (outHandles : Nat)
  | abort (bundleId : BundleId)

/-- The host after a call. -/
def InitStacks.exec (compatibility : Compatibility) (thread : ThreadId) (h : InitStacks) :
    PluginCall → InitStacks
  | .begin manifest language => (h.beginInternalPlugin thread manifest language).2
  | .attach b resident =>
    { h with runtime := (h.runtime.attachInternalPluginResident thread b resident).2 }
  | .register descriptor interface functions ptr =>
    (h.hostRegisterGuestContract thread descriptor interface functions ptr).2
  | .commit b => (h.commitInternalPlugin compatibility thread b).2
  | .commitIntoHandles b outHandles =>
    (h.commitInternalPluginIntoHandles compatibility thread b outHandles).2
  | .abort b => h.abortInternalPlugin thread b

end PolyPlug.Lifecycle
