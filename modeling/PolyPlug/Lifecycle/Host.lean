import PolyPlug.Lifecycle.Reload
import PolyPlug.Lifecycle.Unload

/-!
# `PolyPlug.Lifecycle.Host`: the calls of a host

A host loads, reloads and unloads bundles, one call after the other. A `HostCall` has
what the call reads while it runs, so the bundle directories may change from call to
call. A reload comes with the number of levels its cascade is followed for.

`HostCall.operations` has the loads and reloads that a call is made of, each with its
signature checks and its calls of a loader. A load that a guest makes in its init is an
operation of its own. The cascade of a reload belongs to the reload.
-/

set_option autoImplicit false

namespace PolyPlug.Lifecycle

open PolyPlug.Abi
open PolyPlug.Common
open PolyPlug.Registry

/-! ### The operations -/

/-- What an operation does for the bundle in a directory. -/
inductive CodeEvent where
  /-- `verify_bundle_signature` returns `Ok`. -/
  | verified (bundleDir : String)
  /-- `loader.load` or `loader.reload` is called. -/
  | loader (bundleDir : String)
deriving DecidableEq

/-- The events of one load or one reload, in order. -/
abbrev Operation := List CodeEvent

/-- The signature check of a load. -/
def signatureEvents (env : LoadEnv) (manifest : ManifestData) : List CodeEvent :=
  if env.signaturePolicy = .off then []
  else
    match env.verifyBundleSignature manifest.path manifest.name with
    | .error _ => []
    | .ok ()   => [.verified manifest.path]

namespace Runtime

/-- The events of `load_manifest_with_source`. -/
def loadEvents (env : LoadEnv) (rt : Runtime) (manifest : ManifestData) (source : BundleSource) :
    Operation :=
  match manifest.validate with
  | .error _ => []
  | .ok ()   =>
    signatureEvents env manifest ++
      match (rt.admitLoad env manifest source).1 with
      | .error _ => []
      | .ok _    => [.loader manifest.path]

/-- A load, and the operations inside its init. -/
def loadOperations (env : LoadEnv) (rt : Runtime) (manifest : ManifestData)
    (source : BundleSource) (inner : Runtime → List Operation) : List Operation :=
  rt.loadEvents env manifest source ::
    match rt.admitLoad env manifest source with
    | (.error _, _) => []
    | (.ok bundleId, rt) => inner (rt.pushInitBundleId env.thread bundleId.id)

end Runtime

/-- The operations a guest starts in its init. -/
def LoaderRun.operations (env : LoadEnv) : LoaderRun → Runtime → List Operation
  | .done _, _ => []
  | .register descriptor interface functions ptr rest, rt =>
    rest.operations env
      (rt.hostRegisterGuestContract env.thread descriptor interface functions ptr).2
  | .load manifest source opts inner rest, rt =>
    rt.loadOperations env manifest source (fun rt => inner.operations env rt) ++
      rest.operations env (rt.loadManifestWithSource env manifest source opts
        (Runtime.inInitWindow env.thread (BundleId.new manifest.name)
          fun rt => inner.exec env rt)).2

/-- The event of a mark. -/
def ReloadMark.event? : ReloadMark → Option CodeEvent
  | .init _ dir _ _         => some (.loader dir)
  | .phase .. | .swapped .. => none

/-- The bundle whose loader a mark calls, its directory, and the runtime before. -/
def ReloadMark.init? : ReloadMark → Option (BundleId × String × Runtime)
  | .init b dir before _    => some (b, dir, before)
  | .phase .. | .swapped .. => none

/-- The calls of `loader.reload`, in order. -/
def inits (trace : List ReloadMark) : List (BundleId × String × Runtime) :=
  trace.filterMap ReloadMark.init?

/-- A reload, and the operations inside its inits. -/
def ReloadEnv.operations (env : ReloadEnv) (trace : List ReloadMark) : List Operation :=
  trace.filterMap ReloadMark.event? ::
    (inits trace).zipIdx.flatMap fun p =>
      (env.reload p.2).operations env.load
        ({ p.1.2.2 with registry := p.1.2.2.registry.beginReload p.1.1 }.pushInitBundleId
          env.load.thread p.1.1.id)

/-! ### The calls -/

/-- A call of the host, with what it reads. -/
inductive HostCall where
  | load (env : LoadEnv) (manifest : ManifestData) (source : BundleSource) (opts : LoadOptions)
      (body : LoaderRun)
  | reload (env : ReloadEnv) (levels : Nat) (path : String)
  | unload (hooks : Hooks) (thread : ThreadId) (bundleId : BundleId)

namespace HostCall

/-- The runtime after the call. -/
def exec (rt : Runtime) : HostCall → Runtime
  | .load env manifest source opts body => (rt.loadBundle env manifest source opts body).2
  | .reload env levels path             => (rt.reloadBundle env (levels + 1) path).2.runtime
  | .unload hooks thread bundleId       => (rt.unloadBundle hooks thread bundleId).2

/-- The loads and reloads of the call. -/
def operations (rt : Runtime) : HostCall → List Operation
  | .load env manifest source _ body =>
    rt.loadOperations env manifest source (body.operations env)
  | .reload env levels path =>
    env.operations (rt.reloadBundle env (levels + 1) path).2.trace
  | .unload .. => []

/-- The loads and reloads of a run. -/
def runOperations : Runtime → List HostCall → List Operation
  | _, []             => []
  | rt, call :: calls => call.operations rt ++ runOperations (call.exec rt) calls

/-- The runtime of the call has this signature policy. -/
def Under (policy : SignaturePolicy) : HostCall → Prop
  | .load env ..   => env.signaturePolicy = policy
  | .reload env .. => env.load.signaturePolicy = policy
  | .unload ..     => True

end HostCall

end PolyPlug.Lifecycle
