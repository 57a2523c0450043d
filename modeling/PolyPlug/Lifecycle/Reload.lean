import Mathlib.Data.Multiset.Sort
import Mathlib.Data.Prod.Lex
import Mathlib.Data.String.Basic
import PolyPlug.Lifecycle.Load

/-!
# `PolyPlug.Lifecycle.Reload`: reloading a bundle and its dependents

`reload_bundle` holds `reload_serialize` for the whole call, so the model is one
call with nothing running beside it. `Runtime.checkReload` is everything before the
snapshot of the slots, `Runtime.replaceBundle` the snapshot, the window and its end.
`reloadBundleWithVisited` puts them together and reloads the dependents after a
swap. It counts the depth of the recursion with fuel; the result `none` says that
the fuel ran out, and the state next to it is the state the call got to.

The directory of a bundle is read once for a reload, and `ReloadEnv.manifestFile`
fixes what it holds during the call. `ReloadEnv.reload` lists what the calls of
`loader.reload` do, one after the other. The callback of the host is not part of the
model; the trace has the phases it is given. A failed phase has the error in place of
its text. The warning about live instances goes to the log.
-/

set_option autoImplicit false

namespace PolyPlug.Lifecycle

open PolyPlug.Abi
open PolyPlug.Common
open PolyPlug.Registry

/-- What a reload reads beside the runtime. -/
structure ReloadEnv where
  /-- What a load reads, for the loads inside an init. -/
  load : LoadEnv
  hotReloadEnabled : Bool
  isDir : String → Bool
  pathExists : String → Bool
  parent : String → Option String
  /-- The parsed `manifest.toml` of a bundle directory. -/
  manifestFile : String → Except LoaderError ManifestData
  /-- `supports_hot_reload` of the loader that `loader_for` finds. -/
  supportsHotReload : String → Option Bool
  /-- What each call of `loader.reload` does. -/
  reload : Nat → LoaderRun

/-- `ReloadPhase`. -/
inductive ReloadPhase where
  | preparing (bundleId : BundleId) (bundleName : String)
  | reloaded (bundleId : BundleId) (bundleName : String)
  | failed (bundleId : BundleId) (bundleName : String) (error : RuntimeError)
deriving DecidableEq

/-- What a reload that began in the runtime `before` leaves in the trace. -/
inductive ReloadMark where
  /-- The callback is called. -/
  | phase (phase : ReloadPhase) (before now : Runtime)
  /-- `loader.reload` is called on the bundle in this directory, and returns. -/
  | init (bundleId : BundleId) (bundleDir : String) (before : Runtime)
      (returned : Except LoaderError Unit × Runtime)
  /-- `apply_reload_swap` returns `Ok`. `dependent` is the bundle a cascade meant to
  reload. -/
  | swapped (dependent : Option BundleId) (bundleId : BundleId)

/-- The replacement of a bundle, once every check has passed. -/
structure Replacement where
  manifest : ManifestData
  descriptor : BundleDescriptor
  dependencies : Finset GuestContractId
deriving DecidableEq

/-- The runtime during a reload. -/
structure ReloadState where
  runtime : Runtime
  visited : Finset BundleId
  /-- The number of calls of `loader.reload` so far. -/
  calls : Nat
  trace : List ReloadMark

namespace ReloadState

/-- The marks join the trace. -/
def mark (s : ReloadState) (marks : List ReloadMark) : ReloadState :=
  { s with trace := s.trace ++ marks }

end ReloadState

/-- `bundle_dir`: the directory itself, or the directory of the library. -/
def ReloadEnv.bundleDir (env : ReloadEnv) (path : String) : String :=
  if env.isDir path then path else (env.parent path).getD path

/-- `parse_manifest`: the manifest records the directory it was read in. -/
def ReloadEnv.parseManifest (env : ReloadEnv) (bundleDir : String) :
    Except LoaderError ManifestData :=
  (env.manifestFile bundleDir).map fun manifest => { manifest with path := bundleDir }

/-- The part of `reload_bundle_with_visited` before the snapshot. An error comes
with the phase it reports. -/
def ReloadEnv.checkReload (env : ReloadEnv) (path : String) :
    Except (RuntimeError × Option ReloadPhase) Replacement :=
  if env.hotReloadEnabled = false then .error (.hotReloadDisabled, none)
  else
    match env.parseManifest (env.bundleDir path) with
    | .error e     => .error (.loader e, none)
    | .ok manifest =>
      let bundleId := BundleId.new manifest.name
      match manifest.validate with
      | .error e =>
        let err := RuntimeError.loader (.ofManifest e)
        .error (err, some (.failed bundleId manifest.name err))
      | .ok ()   =>
        -- A reload has no step for the signature.
        match env.supportsHotReload manifest.loader with
        | none       => .error (.loader (.noLoaderForName path manifest.loader), none)
        | some false => .error (.hotReloadDisabled, none)
        | some true  =>
          if env.isDir path = false ∧ env.pathExists path = false then
            let err := RuntimeError.loader
              (.initFailed manifest.name ("bundle library not found at " ++ path))
            .error (err, some (.failed bundleId manifest.name err))
          else
            match parseManifestVersion manifest.version manifest.path with
            | .error e    => .error (e, none)
            | .ok version =>
              .ok
                { manifest := manifest
                  descriptor := ⟨bundleId, manifest.name, version,
                    supportedLanguageFromStr manifest.loader, .path manifest.path,
                    parsedBundleDependencies manifest⟩
                  dependencies := Runtime.preparedDependencies manifest }

namespace Runtime

/-- The window of a reload: `begin_reload`, then the call of `loader.reload`. -/
def runReload (env : ReloadEnv) (body : LoaderRun) (bundleId : BundleId) (rt : Runtime) :
    Except LoaderError Unit × Runtime :=
  inInitWindow env.load.thread bundleId (body.exec env.load)
    { rt with registry := rt.registry.beginReload bundleId }

/-- The end of the window, with the slots of the snapshot. -/
def closeReload (rt : Runtime) (replacement : Replacement) (slotIndices : List Nat) :
    Except LoaderError Unit → Except RuntimeError Unit × Runtime
  | .error e =>
    (.error (.loader e),
      { rt with registry := rt.registry.abortReload replacement.descriptor.id slotIndices })
  | .ok ()   =>
    match rt.registry.applyReloadSwap replacement.descriptor.id slotIndices
        replacement.descriptor replacement.dependencies with
    | (.error e, registry) => (.error (.registry e), { rt with registry := registry })
    | (.ok (), registry)   =>
      (.ok (),
        { rt with
            registry := registry
            -- Neither the providers nor the counts of the new manifest have been checked.
            bundleManifests :=
              rt.bundleManifests.insert replacement.manifest.name replacement.manifest
            -- `reset_instance_count_for_bundle`
            instanceCounts := rt.instanceCounts.erase replacement.descriptor.id })

/-- The reload of one bundle, from the snapshot of its slots to the end of its
window. -/
def replaceBundle (env : ReloadEnv) (replacement : Replacement) (body : LoaderRun)
    (rt : Runtime) : Except RuntimeError Unit × Runtime :=
  (rt.runReload env body replacement.descriptor.id).2.closeReload replacement
    (rt.registry.getBundlePluginSlots replacement.descriptor.id)
    (rt.runReload env body replacement.descriptor.id).1

/-- The `candidates` of `cascade_reload_dependents`, sorted by name. -/
def cascadeCandidates (rt : Runtime) (reloadedBundleId : BundleId) : List (String × String) :=
  let exported := rt.registry.bundleExportedContracts reloadedBundleId
  if exported = ∅ then []
  else
    let dependentIds := rt.registry.bundlesDependingOnAny exported
    let candidates : Multiset (String ×ₗ String) := rt.bundleManifests.entries.filterMap fun p =>
      if BundleId.new p.2.name = reloadedBundleId ∨ BundleId.new p.2.name ∉ dependentIds ∨
          p.2.needsReinitOnDepReload = false then none
      else some (toLex (p.2.name, p.2.path))
    (candidates.sort (· ≤ ·)).map ofLex

end Runtime

/-- The loop of `cascade_reload_dependents`, for the reload of one dependent. It ends
early when a reload runs out of fuel. -/
def reloadCandidates
    (reload : BundleId → String → ReloadState → Option (Except RuntimeError Unit) × ReloadState) :
    List (String × String) → ReloadState → Option Unit × ReloadState
  | [], s                           => (some (), s)
  | (depName, depPath) :: rest, s =>
    if BundleId.new depName ∈ s.visited then reloadCandidates reload rest s
    else
      match reload (BundleId.new depName) depPath s with
      | (none, s)   => (none, s)
      -- An error goes to the log.
      | (some _, s) => reloadCandidates reload rest s

/-- `reload_bundle_with_visited`. `dependent` is the bundle a cascade calls it for;
only the trace has it. -/
def reloadBundleWithVisited (env : ReloadEnv) :
    Nat → Option BundleId → String → ReloadState → Option (Except RuntimeError Unit) × ReloadState
  | 0, _, _, s                    => (none, s)
  | fuel + 1, dependent, path, s =>
    let before := s.runtime
    match env.checkReload path with
    | .error (e, phase)  =>
      (some (.error e), s.mark (phase.map fun phase => .phase phase before before).toList)
    | .ok replacement =>
      let bundleId := replacement.descriptor.id
      let bundleName := replacement.manifest.name
      let body := env.reload s.calls
      let s := s.mark
        [.phase (.preparing bundleId bundleName) before before,
          .init bundleId replacement.manifest.path before (before.runReload env body bundleId)]
      match before.replaceBundle env replacement body with
      | (.error e, runtime) =>
        (some (.error e),
          { s with runtime := runtime, calls := s.calls + 1 }.mark
            [.phase (.failed bundleId bundleName e) before runtime])
      | (.ok (), runtime)   =>
        let s := { s with
          runtime := runtime
          -- The id of the manifest on disk. The loop asks for ids of cached names.
          visited := insert bundleId s.visited
          calls := s.calls + 1 }.mark [.swapped dependent bundleId]
        match reloadCandidates
            (fun dep depPath s => reloadBundleWithVisited env fuel (some dep) depPath s)
            (runtime.cascadeCandidates bundleId) s with
        | (none, s)    => (none, s)
        | (some (), s) =>
          (some (.ok ()), s.mark [.phase (.reloaded bundleId bundleName) before s.runtime])

/-- `reload_bundle`, with the trace of the call. -/
def Runtime.reloadBundle (env : ReloadEnv) (fuel : Nat) (path : String) (rt : Runtime) :
    Option (Except RuntimeError Unit) × ReloadState :=
  reloadBundleWithVisited env fuel none path ⟨rt, ∅, 0, []⟩

end PolyPlug.Lifecycle
