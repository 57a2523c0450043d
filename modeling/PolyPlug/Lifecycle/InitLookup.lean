import PolyPlug.Lifecycle.InternalPlugin
import PolyPlug.Lifecycle.Reload
import PolyPlug.Lifecycle.Unload

/-!
# `PolyPlug.Lifecycle.InitLookup`: lookups inside an init

A lookup of a guest contract reads the init stack of its thread. Inside an init it is
answered only for the contracts that the initialising bundle declares. The declarations
are those of the manifest staged on the thread, or the published ones.

`InitSystem` has the threads of a host that load, reload and unload bundles and run
internal-plugin transactions, in any order. Its steps are the begin and the end of an
init and the calls between them. `InitFrame` is not in the source: it records which
manifest the running code belongs to. The mutex of reloads and the allocation of the
result array are left out.
-/

set_option autoImplicit false

namespace PolyPlug.Lifecycle

open PolyPlug.Abi
open PolyPlug.Common
open PolyPlug.Registry

/-! ### The callbacks -/

/-- `bundle_declares_dependency`. -/
def Runtime.bundleDeclaresDependency (rt : Runtime) (thread : ThreadId) (bundleId : BundleId)
    (contractId : GuestContractId) : Bool :=
  ((rt.registry.preparedManifest thread bundleId).any fun manifest =>
    manifest.dependencies.any fun dependency => dependency.contractId = contractId) ||
  rt.registry.isBundleDependencyDeclared bundleId contractId

namespace InitStacks

/-- `current_init_bundle_id`. -/
def currentInitBundleId (h : InitStacks) (thread : ThreadId) : UInt64 :=
  if h.activeInitCount = 0 then 0 else h.runtime.currentInitBundleId thread

/-- The check at the start of both lookups. -/
def refusesLookup (h : InitStacks) (thread : ThreadId) (contractId : GuestContractId) : Bool :=
  let callerBundleId := h.currentInitBundleId thread
  callerBundleId ≠ 0 && !h.runtime.bundleDeclaresDependency thread ⟨callerBundleId⟩ contractId

/-- `host_find_guest_contract`. -/
def hostFindGuestContract (h : InitStacks) (thread : ThreadId) (contractId : GuestContractId)
    (minVersion : Nat) : GuestContractHandle :=
  if h.refusesLookup thread contractId then .null
  else
    match h.runtime.registry.findGuestContract contractId minVersion with
    | .ok handle => handle
    | .error _   => .null

/-- `host_find_all_guest_contracts`. -/
def hostFindAllGuestContracts (h : InitStacks) (thread : ThreadId)
    (contractId : GuestContractId) (minVersion : Nat) : List GuestContractHandle :=
  if h.refusesLookup thread contractId then []
  else h.runtime.registry.collectGuestContracts contractId minVersion

end InitStacks

/-! ### Declared dependencies -/

/-- `DependencyInfo`. -/
structure DependencyInfo where
  contractId : GuestContractId
  minVersion : Nat
  bundleId : BundleId
deriving DecidableEq

/-- The entry `host_get_dependencies` reports for a dependency. -/
def DependencyInfo.ofRaw (dep : RawManifestDependency) : DependencyInfo where
  contractId := dep.contractId
  minVersion := (PolyPlug.Rust.parseU32 dep.minVersion).getD 0
  bundleId := dep.bundleId.getD ⟨0⟩

/-- `init_manifest`. `cached` is the manifest of that id a scan of the manifest cache comes
to first. -/
def Runtime.initManifest (rt : Runtime) (thread : ThreadId) (bundleId : BundleId)
    (cached : Option ManifestData) : Option ManifestData :=
  (rt.registry.preparedManifest thread bundleId).or cached

/-- `host_get_dependencies`. -/
def Runtime.hostGetDependencies (rt : Runtime) (thread : ThreadId)
    (cached : BundleId → Option ManifestData) : List DependencyInfo :=
  let callerBundleId := rt.currentInitBundleId thread
  if callerBundleId = 0 then []
  else
    match rt.initManifest thread ⟨callerBundleId⟩ (cached ⟨callerBundleId⟩) with
    | none          => []
    | some manifest => manifest.dependencies.map DependencyInfo.ofRaw

/-! ### Inits on threads -/

/-- How an init ends. -/
inductive InitKind where
  | load
  /-- With the slots of the snapshot. -/
  | reload (replacement : Replacement) (slotIndices : List Nat)
  | plugin
deriving DecidableEq

/-- An init that is running. -/
structure InitFrame where
  bundleId : BundleId
  /-- The manifest whose code runs. -/
  manifest : ManifestData
  kind : InitKind
deriving DecidableEq

/-- The open transaction of an internal plugin. -/
def InitFrame.isPlugin (b : BundleId) (f : InitFrame) : Bool :=
  match f.kind with
  | .plugin            => f.bundleId = b
  | .load | .reload .. => false

/-- The host, and the inits that run on each thread, innermost first. -/
structure InitSystem where
  host : InitStacks
  frames : ThreadId → List InitFrame

/-- One step of a thread. -/
inductive InitStep where
  /-- `load_manifest_with_source` gets to the guest's init. -/
  | beginLoad (env : LoadEnv) (manifest : ManifestData) (source : BundleSource)
  /-- The loader returns. -/
  | endLoad (env : LoadEnv) (opts : LoadOptions) (loaded : Except LoaderError Unit)
  /-- `reload_bundle_with_visited` gets to the guest's init. -/
  | beginReload (env : ReloadEnv) (path : String)
  | endReload (thread : ThreadId) (loaded : Except LoaderError Unit)
  /-- An internal-plugin call, or a registration. -/
  | plugin (compatibility : Compatibility) (thread : ThreadId) (call : PluginCall)
  | unload (hooks : Hooks) (thread : ThreadId) (bundleId : BundleId)

namespace InitSystem

/-- Nothing is loaded, and no init runs. -/
def new : InitSystem := ⟨⟨Runtime.new, 0⟩, fun _ => []⟩

/-- The frames of one thread change. -/
def setFrames (s : InitSystem) (thread : ThreadId) (frames : List InitFrame) : InitSystem :=
  { s with frames := Function.update s.frames thread frames }

/-- The guest's init starts. -/
def enter (s : InitSystem) (thread : ThreadId) (frame : InitFrame) : InitSystem :=
  { s with host := s.host.pushInitBundleId thread frame.bundleId.id }.setFrames thread
    (frame :: s.frames thread)

/-- One step. A step that is not due does nothing. -/
def exec (s : InitSystem) : InitStep → InitSystem
  | .beginLoad env manifest source =>
    match s.host.runtime.admitLoad env manifest source with
    | (.error _, rt)     => { s with host := { s.host with runtime := rt } }
    | (.ok bundleId, rt) =>
      { s with host := { s.host with runtime := rt } }.enter env.thread ⟨bundleId, manifest, .load⟩
  | .endLoad env opts loaded =>
    match s.frames env.thread with
    | ⟨bundleId, _, .load⟩ :: rest =>
      let host := s.host.popInitBundleId env.thread
      { s with host := { host with
          runtime := (host.runtime.finishLoad env bundleId opts loaded).2 }
          }.setFrames env.thread rest
    | _ => s
  | .beginReload env path =>
    match env.checkReload path with
    | .error _        => s
    | .ok replacement =>
      let bundleId := replacement.descriptor.id
      let slotIndices := s.host.runtime.registry.getBundlePluginSlots bundleId
      { s with host := { s.host with runtime := { s.host.runtime with
          registry := s.host.runtime.registry.beginReload bundleId } } }.enter env.load.thread
        ⟨bundleId, replacement.manifest, .reload replacement slotIndices⟩
  | .endReload thread loaded =>
    match s.frames thread with
    | ⟨_, _, .reload replacement slotIndices⟩ :: rest =>
      let host := s.host.popInitBundleId thread
      { s with host := { host with
          runtime := (host.runtime.closeReload replacement slotIndices loaded).2 }
          }.setFrames thread rest
    | _ => s
  | .plugin compatibility thread call =>
    { s with host := s.host.exec compatibility thread call }.setFrames thread
      (match call with
        | .begin manifest language =>
          match (s.host.beginInternalPlugin thread manifest language).1 with
          | .ok bundleId => ⟨bundleId, manifest, .plugin⟩ :: s.frames thread
          | .error _     => s.frames thread
        | .commit b | .commitIntoHandles b _ | .abort b =>
          (s.frames thread).eraseP (·.isPlugin b)
        | .attach .. | .register .. => s.frames thread)
  | .unload hooks thread bundleId =>
    { s with host := { s.host with
        runtime := (s.host.runtime.unloadBundle hooks thread bundleId).2 } }

end InitSystem

end PolyPlug.Lifecycle
