import Mathlib.Data.Multiset.Sort
import Mathlib.Data.String.Basic
import PolyPlug.Lifecycle.State

/-!
# `PolyPlug.Lifecycle.Unload`: unloading one bundle

`Runtime.unloadBundle` is `unload_bundle` with nothing running beside it. It
reads the bundle's descriptor, its exported contracts, the bundles that declared
a dependency on one of them and the descriptor of each, and refuses when there
is one. Then it checks the thread of the bundle's resident, invalidates under the
backing locks, and runs the loader's reclaim hook.

Each of these reads takes the registry lock by itself. `UnloadSystem` makes them
separate steps, with calls of other threads between them. The host's `Unloading`
callback and the log are left out; a registry call the callback makes is such a
call.
-/

set_option autoImplicit false

namespace PolyPlug.Lifecycle

open PolyPlug.Abi
open PolyPlug.Registry

/-- The `unload` hooks of the registered loaders, by loader name. -/
abbrev Hooks := String → Option (BundleId → Except LoaderError Unit)

namespace Runtime

/-- The name of a dependent that is still registered. -/
def dependentName (rt : Runtime) (dep : BundleId) : Option String :=
  (rt.registry.getBundleDescriptor dep).map BundleDescriptor.name

/-- One iteration of the `filter_map` over the dependents. -/
def addDependentName (rt : Runtime) (dep : BundleId) (dependents : Multiset String) :
    Multiset String :=
  match rt.dependentName dep with
  | none      => dependents
  | some name => name ::ₘ dependents

/-- The `dependents` of `unload_bundle`, in no order. -/
def dependentNames (rt : Runtime) (bundleId : BundleId) : Multiset String :=
  (((rt.registry.bundlesDependingOnAny (rt.registry.bundleExportedContracts bundleId)).erase
    bundleId).val).filterMap rt.dependentName

/-- `ensure_registered_bundle_resident_affinity`. -/
def ensureRegisteredBundleResidentAffinity (rt : Runtime) (thread : ThreadId)
    (bundleId : BundleId) (bundleName : String) : Except RuntimeError Unit :=
  match rt.registry.internalPluginResidents.lookup bundleId with
  | none          => .ok ()
  | some resident =>
    if resident.ownerThreadId ≠ thread then
      .error (.internalPluginResidentWrongThread bundleName resident.ownerThreadId thread)
    else .ok ()

/-- `bundle_loader_name`. -/
def bundleLoaderName (rt : Runtime) (bundleName : String) : Option String :=
  (rt.bundleManifests.lookup bundleName).map fun m => m.loader

/-- The critical section of `unload_registered_bundle`. -/
def invalidateRegistered (rt : Runtime) (bundleId : BundleId) (descriptor : BundleDescriptor) :
    Except RuntimeError Unit × Runtime :=
  let live := (rt.instanceCounts.lookup bundleId).getD 0
  let hasInternalPluginBacking := decide (bundleId ∈ rt.internalPluginLifecycle)
    || (rt.internalPluginRoots.lookup bundleId).isSome
    || (rt.registry.internalPluginResidents.lookup bundleId).isSome
  if hasInternalPluginBacking ∧ live > 0 then
    (.error (.internalPluginInUse descriptor.name live), rt)
  else
    (.ok (),
      { rt with
          registry := ({ rt.registry with
            internalPluginResidents := rt.registry.internalPluginResidents.erase bundleId
            }.invalidateBundle bundleId).2
          internalPluginRoots := rt.internalPluginRoots.erase bundleId
          internalPluginLifecycle := rt.internalPluginLifecycle.erase bundleId
          bundleManifests := rt.bundleManifests.erase descriptor.name
          instanceCounts := rt.instanceCounts.erase bundleId })

/-- `reclaim_via_loader`. -/
def reclaimViaLoader (hooks : Hooks) (bundleId : BundleId) (loaderName : Option String) :
    Except RuntimeError Unit :=
  match loaderName with
  | none      => .ok ()
  | some name =>
    match hooks name with
    | none      => .ok ()
    | some hook => (hook bundleId).mapError RuntimeError.loader

/-- `unload_registered_bundle`. -/
def unloadRegisteredBundle (hooks : Hooks) (thread : ThreadId) (rt : Runtime)
    (bundleId : BundleId) (descriptor : BundleDescriptor) : Except RuntimeError Unit × Runtime :=
  match rt.ensureRegisteredBundleResidentAffinity thread bundleId descriptor.name with
  | .error e => (.error e, rt)
  | .ok ()   =>
    -- The manifest is gone once the bundle is invalidated.
    let loaderName := rt.bundleLoaderName descriptor.name
    match rt.invalidateRegistered bundleId descriptor with
    | (.error e, rt) => (.error e, rt)
    | (.ok (), rt)   => (reclaimViaLoader hooks bundleId loaderName, rt)

/-- `unload_bundle`. -/
def unloadBundle (hooks : Hooks) (thread : ThreadId) (rt : Runtime) (bundleId : BundleId) :
    Except RuntimeError Unit × Runtime :=
  match rt.registry.getBundleDescriptor bundleId with
  | none            => (.error (.bundleNotFound (hex bundleId.id) ""), rt)
  | some descriptor =>
    if rt.dependentNames bundleId ≠ 0 then
      (.error (.dependencyInUse descriptor.name ((rt.dependentNames bundleId).sort (· ≤ ·))), rt)
    else unloadRegisteredBundle hooks thread rt bundleId descriptor

end Runtime

/-! ### With other threads -/

/-- Where the unload stands. -/
inductive UnloadPhase where
  /-- Before the call. -/
  | idle
  | described (descriptor : BundleDescriptor)
  | exported (descriptor : BundleDescriptor) (contracts : Finset GuestContractId)
  /-- The dependents whose descriptor is not read yet, and the names read. -/
  | naming (descriptor : BundleDescriptor) (remaining : Finset BundleId)
      (dependents : Multiset String)
  /-- No dependent was found. -/
  | admitted (descriptor : BundleDescriptor)
  /-- The affinity check has passed and the loader name is read. -/
  | checked (descriptor : BundleDescriptor) (loaderName : Option String)
  | reclaiming (loaderName : Option String)
  | returned (result : Except RuntimeError Unit)
deriving DecidableEq

/-- The runtime and an unload of one bundle on one thread. -/
structure UnloadSystem where
  runtime : Runtime
  phase : UnloadPhase

/-- One step of the unload or of another thread. -/
inductive UnloadStep where
  /-- The next locked section of the unload. `dep` is the dependent whose
  descriptor is read, when the section is such a read. -/
  | advance (dep : BundleId)
  /-- A registry call of another thread. -/
  | other (op : StoreOp)
  /-- Other threads write the maps beside the registry. -/
  | touch (beside : Runtime)

namespace UnloadSystem

/-- The empty runtime, before the call. -/
def new : UnloadSystem := ⟨Runtime.new, .idle⟩

section
variable (hooks : Hooks) (thread : ThreadId) (bundleId : BundleId)

/-- The next locked section of `unload_bundle`. -/
def advance (s : UnloadSystem) (dep : BundleId) : UnloadSystem :=
  match s.phase with
  | .idle =>
    match s.runtime.registry.getBundleDescriptor bundleId with
    | none            =>
      { s with phase := .returned (.error (.bundleNotFound (hex bundleId.id) "")) }
    | some descriptor => { s with phase := .described descriptor }
  | .described descriptor =>
    { s with
        phase := .exported descriptor (s.runtime.registry.bundleExportedContracts bundleId) }
  | .exported descriptor contracts =>
    { s with
        phase := .naming descriptor
          ((s.runtime.registry.bundlesDependingOnAny contracts).erase bundleId) 0 }
  | .naming descriptor remaining dependents =>
    if remaining = ∅ then
      if dependents ≠ 0 then
        { s with
            phase := .returned
              (.error (.dependencyInUse descriptor.name (dependents.sort (· ≤ ·)))) }
      else { s with phase := .admitted descriptor }
    else if dep ∈ remaining then
      { s with
          phase := .naming descriptor (remaining.erase dep)
            (s.runtime.addDependentName dep dependents) }
    else s
  | .admitted descriptor =>
    match s.runtime.ensureRegisteredBundleResidentAffinity thread bundleId descriptor.name with
    | .error e => { s with phase := .returned (.error e) }
    | .ok ()   =>
      { s with phase := .checked descriptor (s.runtime.bundleLoaderName descriptor.name) }
  | .checked descriptor loaderName =>
    -- The dependents are not read again.
    match s.runtime.invalidateRegistered bundleId descriptor with
    | (.error e, runtime) => ⟨runtime, .returned (.error e)⟩
    | (.ok (), runtime)   => ⟨runtime, .reclaiming loaderName⟩
  | .reclaiming loaderName =>
    { s with phase := .returned (Runtime.reclaimViaLoader hooks bundleId loaderName) }
  -- The next call.
  | .returned _ => { s with phase := .idle }

/-- One step. -/
def exec (s : UnloadSystem) : UnloadStep → UnloadSystem
  | .advance dep  => s.advance hooks thread bundleId dep
  | .other op     =>
    { s with runtime := { s.runtime with registry := s.runtime.registry.exec op } }
  | .touch beside =>
    { s with
        -- The registry itself changes by `other` only.
        runtime := { beside with
          registry := { beside.registry with
            data := s.runtime.registry.data
            published := s.runtime.registry.published
            revision := s.runtime.registry.revision } } }

end

end UnloadSystem

end PolyPlug.Lifecycle
