import PolyPlug.Lib.Epoch
import PolyPlug.Lifecycle.Backing

/-!
# `PolyPlug.Lifecycle.NativeLibraries`: the libraries of the native loader

`NativeLoader` opens a shared library for each load and each reload, and keeps it in a map
under the bundle. A library that leaves the map, or whose `polyplug_init` fails, is closed by
a deferred closure of the epoch domain. A library that is refused before its init is closed
where it stands.

`LibraryHost` is a host with this loader. Its threads load, reload and unload bundles, and
create and destroy instances under an epoch guard. One step is one locked section, or one
access to the domain. The calls of a thread are a stack, since code of a guest makes calls of
its own. The other loaders have no library here. The checks of the loader before the library
is open, the guests and the other loaders come in as an `Outcome`. The mutex of reloads is
left out, and the cascade of a reload is a list of reloads.

A library is named by the call that opened it. `code` is not in the source: the library whose
init registered the interface at an address.
-/

set_option autoImplicit false

namespace PolyPlug.Lifecycle

open PolyPlug.Abi
open PolyPlug.Common
open PolyPlug.Registry

/-- A load or a reload, around the call of its loader. -/
inductive LoaderJob where
  | load (env : LoadEnv) (manifest : ManifestData) (bundleId : BundleId) (opts : LoadOptions)
  /-- With the slots of the snapshot. -/
  | reload (replacement : Replacement) (slotIndices : List Nat)

namespace LoaderJob

/-- The bundle. -/
def bundleId : LoaderJob → BundleId
  | .load _ _ b _         => b
  | .reload replacement _ => replacement.descriptor.id

/-- The loader is the native one. -/
def isNative : LoaderJob → Bool
  | .load _ manifest _ _  => manifest.loader = "native"
  | .reload replacement _ => replacement.manifest.loader = "native"

/-- The call is a reload. -/
def isReload : LoaderJob → Bool
  | .load ..   => false
  | .reload .. => true

end LoaderJob

/-- Where a call is. -/
inductive NativeCall where
  /-- A reload has its snapshot and begins its window next. -/
  | snapshot (job : LoaderJob)
  /-- `load_inner`, before the library is open. -/
  | opening (job : LoaderJob)
  /-- The library is open, and its symbols are looked up. -/
  | checking (job : LoaderJob) (library : Nat)
  /-- `polyplug_init` runs. -/
  | initializing (job : LoaderJob) (library : Nat)
  /-- `polyplug_init` has returned `Ok`. -/
  | inserting (job : LoaderJob) (library : Nat)
  /-- Another loader runs the guest. -/
  | foreign (job : LoaderJob)
  /-- `schedule_reclaim` in `load_inner`, and what `load_inner` returns. -/
  | scheduling (job : LoaderJob) (library : Nat) (loaded : Except LoaderError Unit)
  /-- The loader has returned. -/
  | closing (job : LoaderJob) (loaded : Except LoaderError Unit)
  /-- `reset_instance_count_for_bundle`. -/
  | resetting (bundleId : BundleId)
  /-- `unload` of the native loader is called. -/
  | unhooking (bundleId : BundleId)
  /-- `schedule_reclaim` in that call. -/
  | unhooked (bundleId : BundleId) (library : Nat)
  | unloading (bundleId : BundleId) (phase : UnloadPhase)
  /-- `create_guest_instance` with its guard. -/
  | reserving (guard interface : Nat)
  /-- `create_instance` runs, in the library of the interface. -/
  | constructing (guard interface : Nat) (bundleId : BundleId) (library : Option Nat)
  /-- `destroy_instance` runs. -/
  | destroying (guard interface : Nat) (bundleId : BundleId) (library : Option Nat)
  /-- The bundle of the destroyed instance is looked up. -/
  | noting (guard interface : Nat)

namespace NativeCall

/-- The libraries that the call has in its hand. -/
def held : NativeCall → List Nat
  | .checking _ library     => [library]
  | .initializing _ library => [library]
  | .inserting _ library    => [library]
  | .scheduling _ library _ => [library]
  | .unhooked _ library     => [library]
  | _                       => []

/-- The bundle that the call loads, reloads or unloads. -/
def changes : NativeCall → Option BundleId
  | .snapshot job         => some job.bundleId
  | .opening job          => some job.bundleId
  | .checking job _       => some job.bundleId
  | .initializing job _   => some job.bundleId
  | .inserting job _      => some job.bundleId
  | .foreign job          => some job.bundleId
  | .scheduling job _ _   => some job.bundleId
  | .closing job _        => some job.bundleId
  | .resetting b          => some b
  | .unhooking b          => some b
  | .unhooked b _         => some b
  | .unloading b _        => some b
  | _                     => none

/-- The bundle whose guest is in its init, and its library. -/
def init? : NativeCall → Option (BundleId × Option Nat)
  | .initializing job library => some (job.bundleId, some library)
  | .foreign job              => some (job.bundleId, none)
  | _                         => none

/-- The guest that runs has code in this library. -/
def runs : NativeCall → Option Nat
  | .initializing _ library     => some library
  | .constructing _ _ _ library => library
  | .destroying _ _ _ library   => library
  | _                           => none

/-- A guest runs, and may call the host. -/
def isGuest : NativeCall → Bool
  | .initializing .. | .foreign _ | .constructing .. | .destroying .. => true
  | _                                                                 => false

end NativeCall

/-- What code outside of the runtime does next. -/
structure Outcome where
  /-- What a check, an init or a loader returns. -/
  result : Except LoaderError Unit
  /-- The instance handle is null. -/
  isNull : Bool
  /-- The dependent that an unload reads next. -/
  dep : BundleId

/-- The host. -/
structure LibraryHost where
  runtime : Runtime
  libraries : Finmap fun _ : BundleId => Nat
  scheduledReclaims : UInt64
  epoch : Lib.Epoch Nat Nat
  /-- The libraries that are closed before their init. -/
  refused : List Nat
  /-- How many libraries have been opened. -/
  opened : Nat
  nextGuard : Nat
  /-- The calls of each thread, innermost first. -/
  calls : ThreadId → List NativeCall
  code : Nat → Option Nat

/-- A step of a thread, or of the collector. -/
inductive LibraryStep where
  | load (env : LoadEnv) (manifest : ManifestData) (source : BundleSource) (opts : LoadOptions)
  | reload (env : ReloadEnv) (path : String)
  | unload (thread : ThreadId) (bundleId : BundleId)
  /-- A cascade calls `unload_registered_bundle`. -/
  | unloadRegistered (thread : ThreadId) (bundleId : BundleId) (descriptor : BundleDescriptor)
  | register (thread : ThreadId) (descriptor : Option PluginDescriptor)
      (interface : Option RawGuestContractInterface) (functions : Nat → Nat) (ptr : Nat)
  | createGuestInstance (thread : ThreadId) (interface : Nat)
  | destroyGuestInstance (thread : ThreadId) (interface : Nat)
  /-- The next section of the innermost call of a thread. -/
  | advance (thread : ThreadId) (outcome : Outcome)
  /-- The collector runs the deferred closure at an index. -/
  | collect (k : Nat)

namespace LibraryHost

/-- Nothing is loaded. -/
def new : LibraryHost := ⟨.new, ∅, 0, .new, [], 0, 0, fun _ => [], fun _ => none⟩

/-- The calls of a thread. -/
def setCalls (s : LibraryHost) (thread : ThreadId) (calls : List NativeCall) : LibraryHost :=
  { s with calls := Function.update s.calls thread calls }

/-- A thread makes calls when none runs on it, or a guest does. -/
def Free (s : LibraryHost) (thread : ThreadId) : Prop :=
  (s.calls thread).head?.all NativeCall.isGuest = true

instance (s : LibraryHost) (thread : ThreadId) : Decidable (s.Free thread) :=
  inferInstanceAs (Decidable (_ = _))

/-- A thread makes a call. -/
def enter (s : LibraryHost) (thread : ThreadId) (call : NativeCall) : LibraryHost :=
  s.setCalls thread (call :: s.calls thread)

/-- The loader is called. The native one opens the library, and another one runs the guest. -/
def callLoader (s : LibraryHost) (thread : ThreadId) (rest : List NativeCall) (job : LoaderJob) :
    LibraryHost :=
  if job.isNative then s.setCalls thread (.opening job :: rest)
  else
    { s with runtime := s.runtime.pushInitBundleId thread job.bundleId.id }.setCalls thread
      (.foreign job :: rest)

/-- `schedule_reclaim`. -/
def scheduleReclaim (s : LibraryHost) (library : Nat) : LibraryHost :=
  { s with
      scheduledReclaims := s.scheduledReclaims + 1
      epoch := s.epoch.defer library }

/-- The guard of a call is dropped. -/
def unpin (s : LibraryHost) (guard : Nat) : LibraryHost := { s with epoch := s.epoch.unpin guard }

/-- The end of a load or a reload. -/
def close (s : LibraryHost) (thread : ThreadId) (rest : List NativeCall)
    (loaded : Except LoaderError Unit) : LoaderJob → LibraryHost
  | .load env manifest b opts =>
    match s.runtime.finishLoad env b opts loaded with
    | (.ok (), rt)   => { s with runtime := rt }.setCalls thread rest
    -- The loader of a failed load is called again, to clean up.
    | (.error _, rt) =>
      { s with runtime := rt }.setCalls thread
        (if (LoaderJob.load env manifest b opts).isNative then .unhooking b :: rest else rest)
  | .reload replacement slotIndices =>
    match s.runtime.swapReload replacement slotIndices loaded with
    | (.ok (), rt)   =>
      { s with runtime := rt }.setCalls thread (.resetting replacement.descriptor.id :: rest)
    | (.error _, rt) => { s with runtime := rt }.setCalls thread rest

/-- The library whose init runs on a thread. -/
def initLibrary (s : LibraryHost) (thread : ThreadId) : Option Nat :=
  ((s.calls thread).findSome? NativeCall.init?).bind Prod.snd

/-- The next section of an unload. The hook of the native loader is a call of its own. -/
def advanceUnload (s : LibraryHost) (thread : ThreadId) (rest : List NativeCall) (b : BundleId)
    (phase : UnloadPhase) (dep : BundleId) : LibraryHost :=
  match phase with
  | .returned _           => s.setCalls thread rest
  | .reclaiming loaderName =>
    s.setCalls thread (if loaderName = some "native" then .unhooking b :: rest else rest)
  | phase                 =>
    let unload := UnloadSystem.advance (fun _ => none) thread b ⟨s.runtime, phase⟩ dep
    { s with runtime := unload.runtime }.setCalls thread (.unloading b unload.phase :: rest)

/-- The next section of a call. -/
def advanceCall (s : LibraryHost) (thread : ThreadId) (rest : List NativeCall)
    (outcome : Outcome) : NativeCall → LibraryHost
  | .snapshot job =>
    { s with
        runtime := { s.runtime with
          registry := s.runtime.registry.beginReload job.bundleId } }.callLoader thread rest job
  | .opening job =>
    match outcome.result with
    | .error e => s.setCalls thread (.closing job (.error e) :: rest)
    | .ok ()   =>
      { s with opened := s.opened + 1 }.setCalls thread (.checking job s.opened :: rest)
  | .checking job library =>
    match outcome.result with
    | .error e =>
      { s with refused := library :: s.refused }.setCalls thread
        (.closing job (.error e) :: rest)
    | .ok ()   =>
      { s with runtime := s.runtime.pushInitBundleId thread job.bundleId.id }.setCalls thread
        (.initializing job library :: rest)
  | .initializing job library =>
    { s with runtime := s.runtime.popInitBundleId thread }.setCalls thread
      (match outcome.result with
        | .error e => .scheduling job library (.error e) :: rest
        | .ok ()   => .inserting job library :: rest)
  | .inserting job library =>
    { s with libraries := s.libraries.insert job.bundleId library }.setCalls thread
      (match s.libraries.lookup job.bundleId with
        | none            => .closing job (.ok ()) :: rest
        | some superseded => .scheduling job superseded (.ok ()) :: rest)
  | .foreign job =>
    { s with runtime := s.runtime.popInitBundleId thread }.setCalls thread
      (.closing job outcome.result :: rest)
  | .scheduling job library loaded =>
    (s.scheduleReclaim library).setCalls thread (.closing job loaded :: rest)
  | .closing job loaded        => s.close thread rest loaded job
  | .resetting b =>
    { s with runtime := s.runtime.resetInstanceCountForBundle b }.setCalls thread rest
  | .unhooking b =>
    { s with libraries := s.libraries.erase b }.setCalls thread
      (match s.libraries.lookup b with
        | none         => rest
        | some library => .unhooked b library :: rest)
  | .unhooked _ library => (s.scheduleReclaim library).setCalls thread rest
  | .unloading b phase => s.advanceUnload thread rest b phase outcome.dep
  | .reserving guard interface =>
    match s.runtime.beginGuestInstanceConstruction interface with
    | (none, rt)   => ({ s with runtime := rt }.unpin guard).setCalls thread rest
    | (some b, rt) =>
      { s with runtime := rt }.setCalls thread
        (.constructing guard interface b (s.code interface) :: rest)
  | .constructing guard _ b _ =>
    ({ s with
        runtime := if outcome.isNull then s.runtime.noteInstanceDestroyed b
          else s.runtime }.unpin guard).setCalls thread rest
  | .destroying guard interface _ _ =>
    if outcome.isNull then (s.unpin guard).setCalls thread rest
    else s.setCalls thread (.noting guard interface :: rest)
  | .noting guard interface =>
    ({ s with
        runtime := match s.runtime.registry.bundleIdForGuestInterface interface with
          | none   => s.runtime
          | some b => s.runtime.noteInstanceDestroyed b }.unpin guard).setCalls thread rest

/-- A guard is pinned. -/
def pin (s : LibraryHost) : LibraryHost :=
  { s with epoch := s.epoch.pin s.nextGuard, nextGuard := s.nextGuard + 1 }

/-- A call that a thread begins. -/
def begin (s : LibraryHost) : LibraryStep → LibraryHost
  | .load env manifest source opts =>
    match s.runtime.admitLoad env manifest source with
    | (.error _, rt) => { s with runtime := rt }
    | (.ok b, rt)    =>
      { s with runtime := rt }.callLoader env.thread (s.calls env.thread)
        (.load env manifest b opts)
  | .reload env path =>
    match env.checkReload path with
    | .error _        => s
    | .ok replacement =>
      s.enter env.load.thread
        (.snapshot (.reload replacement
          (s.runtime.registry.getBundlePluginSlots replacement.descriptor.id)))
  | .unload thread b                      => s.enter thread (.unloading b .idle)
  | .unloadRegistered thread b descriptor => s.enter thread (.unloading b (.admitted descriptor))
  | .register thread descriptor interface functions ptr =>
    { s with
        runtime :=
          (s.runtime.hostRegisterGuestContract thread descriptor interface functions ptr).2
        code := Function.update s.code ptr (s.initLibrary thread) }
  | .createGuestInstance thread interface => s.pin.enter thread (.reserving s.nextGuard interface)
  -- The caller passes an interface of the registry.
  | .destroyGuestInstance thread interface =>
    match s.runtime.registry.bundleIdForGuestInterface interface with
    | none   => s
    | some b => s.pin.enter thread (.destroying s.nextGuard interface b (s.code interface))
  | .advance .. | .collect _ => s

/-- The thread that begins a call. -/
def caller : LibraryStep → Option ThreadId
  | .load env ..                   => some env.thread
  | .reload env _                  => some env.load.thread
  | .unload thread _               => some thread
  | .unloadRegistered thread _ _   => some thread
  | .register thread ..            => some thread
  | .createGuestInstance thread _  => some thread
  | .destroyGuestInstance thread _ => some thread
  | .advance .. | .collect _       => none

/-- One step. A step that is not due does nothing. -/
def exec (s : LibraryHost) : LibraryStep → LibraryHost
  | .advance thread outcome =>
    match s.calls thread with
    | []           => s
    | call :: rest => s.advanceCall thread rest outcome call
  | .collect k => { s with epoch := s.epoch.reclaim k }
  | step => if ∀ thread ∈ caller step, s.Free thread then s.begin step else s

end LibraryHost

end PolyPlug.Lifecycle
