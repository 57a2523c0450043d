import PolyPlug.Lifecycle.InternalPlugin
import PolyPlug.Lifecycle.UnloadCascade

/-!
# `PolyPlug.Lifecycle.Residents`: who releases a resident

A resident is attached to a staged bundle, moves to the resident map when the bundle
is committed, and is released with the bundle. A refused commit and an abort release
it by dropping the staged bundle. Every release asserts that it runs on the owner
thread.

`ResidentHost` adds to the host what the calls attached and released so far. An
unload and a cascade run on one thread with nothing beside them.
-/

set_option autoImplicit false

namespace PolyPlug.Lifecycle

open PolyPlug.Abi
open PolyPlug.Lib
open PolyPlug.Common
open PolyPlug.Registry

/-- A run of a release callback. -/
structure Release where
  bundleId : BundleId
  resident : InternalPluginResident
  /-- The thread it runs on. -/
  thread : ThreadId
deriving DecidableEq

/-! ### Residents released by one call -/

namespace Runtime

/-- The resident a commit drops. A refused commit drops the one of the staged bundle,
and an accepted one would drop the one it replaces in the map. -/
def commitReleases (compatibility : Compatibility) (rt : Runtime) (thread : ThreadId)
    (bundleId : BundleId) : Option InternalPluginResident :=
  match (rt.registry.takePreparedBundle thread bundleId).1 with
  | none          => none
  | some prepared =>
    match (rt.commitPreparedBundleTransactionWithHandles thread bundleId
        ⟨compatibility, false⟩).1 with
    | .error _ => prepared.resident
    | .ok _    =>
      prepared.resident.bind fun _ => rt.registry.internalPluginResidents.lookup bundleId

/-- The resident an abort drops with its staged bundle. -/
def abortReleases (rt : Runtime) (thread : ThreadId) (bundleId : BundleId) :
    Option InternalPluginResident :=
  (rt.registry.discardPreparedBundle thread bundleId).1.2

/-- The resident `unload_registered_bundle` releases after the reclaim hook. -/
def unloadReleases (thread : ThreadId) (rt : Runtime) (bundleId : BundleId)
    (descriptor : BundleDescriptor) : Option InternalPluginResident :=
  match rt.ensureRegisteredBundleResidentAffinity thread bundleId descriptor.name with
  | .error _ => none
  | .ok ()   =>
    match (rt.invalidateRegistered bundleId descriptor).1 with
    | .error _ => none
    | .ok ()   => rt.registry.internalPluginResidents.lookup bundleId

/-- The resident `unload_bundle` releases. -/
def unloadBundleReleases (thread : ThreadId) (rt : Runtime) (bundleId : BundleId) :
    Option InternalPluginResident :=
  match rt.registry.getBundleDescriptor bundleId with
  | none            => none
  | some descriptor =>
    -- A dependent refuses the call before the resident is looked at.
    if rt.dependentNames bundleId ≠ 0 then none else rt.unloadReleases thread bundleId descriptor

end Runtime

/-- The release of a bundle's resident by its unload in a cascade. -/
def Teardown.unloadReleases (thread : ThreadId) (t : Teardown) (descriptor : BundleDescriptor)
    (bundleId : BundleId) : List Release :=
  ((t.runtime.unloadReleases thread bundleId descriptor).map fun resident =>
    ⟨bundleId, resident, thread⟩).toList

/-- A depth that a cascade does not reach: every bundle it visits but the first declares a
dependency. -/
def Runtime.cascadeFuel (rt : Runtime) : Nat := rt.registry.data.bundleDeclaredDeps.keys.card + 2

/-- The releases of `unload_bundle_cascade`, in order. -/
def Runtime.cascadeReleases (first second : Iteration) (hooks : Hooks) (thread : ThreadId)
    (rt : Runtime) (bundleId : BundleId) : List Release :=
  match (affinityPass first thread).visit rt.cascadeFuel rt ∅ bundleId with
  | some (.ok (), _, _) =>
    -- The pass of the cascade itself, with a log of what it releases.
    match ((unloadPass second hooks thread).logged (Teardown.unloadReleases thread)).visit
        rt.cascadeFuel (⟨rt, []⟩, []) ∅ bundleId with
    | some (_, (_, released), _) => released
    | none                       => []
  | _ => []

/-! ### Calls of any thread -/

/-- What a transaction call releases. -/
def InitStacks.releases (compatibility : Compatibility) (thread : ThreadId) (h : InitStacks) :
    PluginCall → Option (BundleId × InternalPluginResident)
  | .commit b => (h.runtime.commitReleases compatibility thread b).map (b, ·)
  | .commitIntoHandles b outHandles =>
    match h.runtime.registry.preparedBundleContractCount thread b with
    | none               => (h.runtime.abortReleases thread b).map (b, ·)
    | some expectedCount =>
      -- A wrong count aborts the transaction.
      if expectedCount ≠ outHandles then (h.runtime.abortReleases thread b).map (b, ·)
      else (h.runtime.commitReleases compatibility thread b).map (b, ·)
  | .abort b => (h.runtime.abortReleases thread b).map (b, ·)
  | .begin .. | .attach .. | .register .. => none

/-- A call that can move or release a resident. -/
inductive ResidentCall where
  | plugin (call : PluginCall)
  | unload (bundleId : BundleId)
  /-- The two orders are those of the passes. -/
  | unloadCascade (first second : Iteration) (bundleId : BundleId)

/-- The host with its attached and released residents. -/
structure ResidentHost where
  host : InitStacks
  /-- The residents whose attach returned `Ok`, each with its bundle. -/
  attached : Multiset (BundleId × InternalPluginResident)
  /-- The releases, in order. -/
  released : List Release

namespace ResidentHost

section
variable (compatibility : Compatibility) (hooks : Hooks)

/-- The call of a thread. -/
def exec (r : ResidentHost) (step : ThreadId × ResidentCall) : ResidentHost :=
  match step.2 with
  | .plugin call =>
    { host := r.host.exec compatibility step.1 call
      attached := match call with
        | .attach b resident =>
          match (r.host.runtime.attachInternalPluginResident step.1 b resident).1 with
          | .ok ()   => (b, resident) ::ₘ r.attached
          | .error _ => r.attached
        | _ => r.attached
      released := r.released ++ ((r.host.releases compatibility step.1 call).map fun p =>
        ⟨p.1, p.2, step.1⟩).toList }
  | .unload b =>
    { r with
        host := { r.host with
          runtime := (Runtime.unloadBundle hooks step.1 r.host.runtime b).2 }
        released := r.released ++ ((r.host.runtime.unloadBundleReleases step.1 b).map
          fun resident => ⟨b, resident, step.1⟩).toList }
  | .unloadCascade first second b =>
    match unloadBundleCascade first second hooks step.1 r.host.runtime.cascadeFuel
        ⟨r.host.runtime, []⟩ b with
    | none        => r
    | some (_, t) =>
      { r with
          host := { r.host with runtime := t.runtime }
          released := r.released
            ++ r.host.runtime.cascadeReleases first second hooks step.1 b }

end

end ResidentHost

end PolyPlug.Lifecycle
