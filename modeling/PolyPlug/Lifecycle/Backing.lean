import PolyPlug.Lifecycle.InternalPlugin
import PolyPlug.Lifecycle.Reload
import PolyPlug.Lifecycle.Unload

/-!
# `PolyPlug.Lifecycle.Backing`: guest instances and the backing of internal plugins

The backing of an internal plugin is its resident and its root. `unload_bundle` takes
them away under the locks of the instance counts, the roots, the residents and the
lifecycle markers, and refuses while the bundle has a live instance. A constructor counts
as an instance before it runs.

`BackingSystem` has the threads of a host that create and destroy instances, run
internal-plugin transactions, and load, reload and unload bundles, in any order. One step
is one locked section. A call that needs more of them leaves the rest in `todo`, and the
thread begins no other call before it is empty. An unload is a stack of its own, since
the host's callback runs in the middle of one. The mutex of reloads is left out.
-/

set_option autoImplicit false

namespace PolyPlug.Lifecycle

open PolyPlug.Abi
open PolyPlug.Common
open PolyPlug.Registry

namespace Runtime

/-! ### The instance counts -/

/-- `begin_guest_instance_construction`, for the address of an interface. -/
def beginGuestInstanceConstruction (rt : Runtime) (interface : Nat) : Option BundleId × Runtime :=
  match rt.registry.bundleIdForGuestInterface interface with
  | none          => (none, rt)
  | some bundleId =>
    (some bundleId,
      { rt with
          instanceCounts := rt.instanceCounts.insert bundleId
            ((rt.instanceCounts.lookup bundleId).getD 0 + 1) })

/-- `note_instance_destroyed`, which `cancel_guest_instance_construction` calls too. -/
def noteInstanceDestroyed (rt : Runtime) (bundleId : BundleId) : Runtime :=
  match rt.instanceCounts.lookup bundleId with
  | none       => rt
  | some entry =>
    { rt with
        -- The entry goes with the last instance.
        instanceCounts := if entry - 1 = 0 then rt.instanceCounts.erase bundleId
          else rt.instanceCounts.insert bundleId (entry - 1) }

/-- `reset_instance_count_for_bundle`. -/
def resetInstanceCountForBundle (rt : Runtime) (bundleId : BundleId) : Runtime :=
  { rt with instanceCounts := rt.instanceCounts.erase bundleId }

/-- `closeReload` before the reset of the count. -/
def swapReload (rt : Runtime) (replacement : Replacement) (slotIndices : List Nat) :
    Except LoaderError Unit → Except RuntimeError Unit × Runtime
  | .error e =>
    (.error (.loader e),
      { rt with registry := rt.registry.abortReload replacement.descriptor.id slotIndices })
  | .ok ()   =>
    match rt.registry.applyReloadSwap replacement.descriptor.id slotIndices
        replacement.descriptor replacement.dependencies with
    | (.error e, registry) => (.error (.registry e), { rt with registry := registry })
    | (.ok (), registry)   =>
      (.ok (),
        { rt with
            registry := registry
            bundleManifests :=
              rt.bundleManifests.insert replacement.manifest.name replacement.manifest })

theorem closeReload_eq (rt : Runtime) (replacement : Replacement) (slotIndices : List Nat)
    (loaded : Except LoaderError Unit) :
    rt.closeReload replacement slotIndices loaded
      = match rt.swapReload replacement slotIndices loaded with
        | (.error e, rt) => (.error e, rt)
        | (.ok (), rt)   => (.ok (), rt.resetInstanceCountForBundle replacement.descriptor.id) := by
  cases loaded with
  | error e => rfl
  | ok u =>
    simp only [closeReload, swapReload]
    rcases rt.registry.applyReloadSwap replacement.descriptor.id slotIndices
      replacement.descriptor replacement.dependencies with ⟨_ | _, registry⟩ <;> rfl

end Runtime

/-! ### The system -/

/-- A stateful instance, or the call of `create_instance` that makes one. -/
structure GuestInstance where
  /-- The bundle the reservation found. -/
  bundleId : BundleId
  /-- The address of the interface it is created with. -/
  interface : Nat
deriving DecidableEq

/-- A locked section that a call still has to run. -/
inductive Section where
  | insertMarker (bundleId : BundleId)
  | push (bundleId : BundleId)
  | pop
  | removeMarker (bundleId : BundleId)
  | insertRoot (bundleId : BundleId) (root : Nat)
  | discard (bundleId : BundleId)
  | finishLoad (env : LoadEnv) (bundleId : BundleId) (opts : LoadOptions)
      (loaded : Except LoaderError Unit)
  | beginReload (bundleId : BundleId)
  | swapReload (replacement : Replacement) (slotIndices : List Nat)
      (loaded : Except LoaderError Unit)
  | resetCount (bundleId : BundleId)

/-- A load or a reload whose guest is in its init. -/
inductive Window where
  | load (env : LoadEnv) (bundleId : BundleId)
  /-- With the slots of the snapshot. -/
  | reload (replacement : Replacement) (slotIndices : List Nat)

/-- The host and what its threads are doing. -/
structure BackingSystem where
  host : InitStacks
  todo : ThreadId → List Section
  windows : ThreadId → List Window
  /-- The unloads that run on a thread, innermost first. -/
  unloads : ThreadId → List (BundleId × UnloadPhase)
  /-- The thread inside `register_generated_internal_plugin`, which holds the lock of the
  roots. -/
  rootsHolder : Option ThreadId
  /-- The calls of `create_instance` that run. -/
  constructing : Multiset GuestInstance
  /-- The instances created and not destroyed. -/
  instances : Multiset GuestInstance
  /-- The instances whose `destroy_instance` has returned, and whose bundle is looked up
  next. -/
  destroying : Multiset GuestInstance
  /-- The calls of `note_instance_destroyed` to come. -/
  noting : Multiset BundleId
  /-- Not in the source: the bundles that an internal-plugin commit published and that are
  not unloaded. -/
  internal : Finset BundleId

/-- One step of a thread. -/
inductive BackingStep where
  /-- The next section of the thread's call. -/
  | advance (thread : ThreadId)
  | begin (thread : ThreadId) (manifest : ManifestData) (language : SupportedLanguage)
  | attach (thread : ThreadId) (bundleId : BundleId) (resident : InternalPluginResident)
  | register (thread : ThreadId) (descriptor : Option PluginDescriptor)
      (interface : Option RawGuestContractInterface) (functions : Nat → Nat) (ptr : Nat)
  /-- With the root, inside `register_generated_internal_plugin`. -/
  | commit (thread : ThreadId) (bundleId : BundleId) (root : Option Nat)
  | commitIntoHandles (thread : ThreadId) (bundleId : BundleId) (outHandles : Nat)
  | abort (thread : ThreadId) (bundleId : BundleId)
  /-- The begin and the end of `register_generated_internal_plugin`. -/
  | lockRoots (thread : ThreadId)
  | unlockRoots (thread : ThreadId)
  /-- `create_guest_instance` gets to `create_instance`. -/
  | reserve (interface : Nat)
  /-- `create_instance` returns. -/
  | constructed (made : GuestInstance) (isNull : Bool)
  /-- `destroy_instance` returns. -/
  | destroyed (made : GuestInstance)
  /-- The bundle of a destroyed instance is looked up. -/
  | lookup (made : GuestInstance)
  /-- `note_instance_destroyed`. -/
  | note (bundleId : BundleId)
  /-- `unload_bundle` is called. -/
  | unload (thread : ThreadId) (bundleId : BundleId)
  /-- A cascade calls `unload_registered_bundle`. -/
  | unloadRegistered (thread : ThreadId) (bundleId : BundleId) (descriptor : BundleDescriptor)
  /-- The next section of the innermost unload. -/
  | advanceUnload (hooks : Hooks) (thread : ThreadId) (dep : BundleId)
  /-- `load_manifest_with_source` gets to the guest's init. -/
  | beginLoad (env : LoadEnv) (manifest : ManifestData) (source : BundleSource)
  /-- The loader returns. -/
  | endLoad (thread : ThreadId) (opts : LoadOptions) (loaded : Except LoaderError Unit)
  /-- `reload_bundle_with_visited` takes its snapshot. -/
  | beginReload (env : ReloadEnv) (path : String)
  | endReload (thread : ThreadId) (loaded : Except LoaderError Unit)

namespace BackingSystem

/-- Nothing is loaded, and no call runs. -/
def new : BackingSystem :=
  ⟨⟨Runtime.new, 0⟩, fun _ => [], fun _ => [], fun _ => [], none, 0, 0, 0, 0, ∅⟩

/-- The runtime changes. -/
def withRuntime (s : BackingSystem) (rt : Runtime) : BackingSystem :=
  { s with host := { s.host with runtime := rt } }

/-- The sections left to a thread. -/
def setTodo (s : BackingSystem) (thread : ThreadId) (sections : List Section) : BackingSystem :=
  { s with todo := Function.update s.todo thread sections }

/-- The open loads and reloads of a thread. -/
def setWindows (s : BackingSystem) (thread : ThreadId) (windows : List Window) : BackingSystem :=
  { s with windows := Function.update s.windows thread windows }

/-- The unloads of a thread. -/
def setUnloads (s : BackingSystem) (thread : ThreadId)
    (unloads : List (BundleId × UnloadPhase)) : BackingSystem :=
  { s with unloads := Function.update s.unloads thread unloads }

/-- One locked section of a call. -/
def runSection (s : BackingSystem) (thread : ThreadId) (rest : List Section) :
    Section → BackingSystem
  | .insertMarker b =>
    (s.withRuntime { s.host.runtime with
      internalPluginLifecycle := insert b s.host.runtime.internalPluginLifecycle }).setTodo thread
        rest
  | .push b => { s with host := s.host.pushInitBundleId thread b.id }.setTodo thread rest
  | .pop => { s with host := s.host.popInitBundleId thread }.setTodo thread rest
  | .removeMarker b =>
    (s.withRuntime (s.host.runtime.removeInternalPluginLifecycleMarker b)).setTodo thread rest
  | .insertRoot b root =>
    (s.withRuntime { s.host.runtime with
      internalPluginRoots := s.host.runtime.internalPluginRoots.insert b root }).setTodo thread rest
  | .discard b =>
    (s.withRuntime (s.host.runtime.discardPreparedBundle thread b)).setTodo thread rest
  | .finishLoad env b opts loaded =>
    (s.withRuntime (s.host.runtime.finishLoad env b opts loaded).2).setTodo thread rest
  | .beginReload b =>
    (s.withRuntime { s.host.runtime with
      registry := s.host.runtime.registry.beginReload b }).setTodo thread rest
  | .swapReload replacement slotIndices loaded =>
    match s.host.runtime.swapReload replacement slotIndices loaded with
    | (.error _, rt) => (s.withRuntime rt).setTodo thread rest
    | (.ok (), rt)   =>
      (s.withRuntime rt).setTodo thread (.resetCount replacement.descriptor.id :: rest)
  | .resetCount b =>
    (s.withRuntime (s.host.runtime.resetInstanceCountForBundle b)).setTodo thread rest

/-- The commit of an internal-plugin transaction, and what is left to do. A root is
inserted by `register_generated_internal_plugin`, which also discards what its failed
commit left staged. -/
def commitPlugin (compatibility : Compatibility) (s : BackingSystem) (thread : ThreadId)
    (bundleId : BundleId) (root : Option Nat) : BackingSystem :=
  match s.host.runtime.commitPreparedBundleTransactionWithHandles thread bundleId
      ⟨compatibility, false⟩ with
  | (.error _, rt) =>
    (s.withRuntime rt).setTodo thread
      -- A refused commit leaves the init window and drops its marker.
      (.pop :: .removeMarker bundleId :: (root.map fun _ => Section.discard bundleId).toList)
  | (.ok _, rt)    =>
    { s.withRuntime rt with internal := insert bundleId s.internal }.setTodo thread
      (.pop :: (root.map (Section.insertRoot bundleId)).toList)

/-- The abort of an internal-plugin transaction, and what is left to do. -/
def abortPlugin (s : BackingSystem) (thread : ThreadId) (bundleId : BundleId) : BackingSystem :=
  match s.host.runtime.registry.discardPreparedBundle thread bundleId with
  | ((false, _), registry) => s.withRuntime { s.host.runtime with registry := registry }
  | ((true, _), registry)  =>
    (s.withRuntime { s.host.runtime with registry := registry }).setTodo thread
      [.removeMarker bundleId, .pop]

/-- The bundle whose backing the innermost unload of a thread takes away now. -/
def unloading (s : BackingSystem) (thread : ThreadId) : Option BundleId :=
  match s.unloads thread with
  | (b, .checked descriptor _) :: _ =>
    if s.rootsHolder = none then
      match (s.host.runtime.invalidateRegistered b descriptor).1 with
      | .ok ()   => some b
      | .error _ => none
    else none
  | _ => none

/-- The next section of the innermost unload. Its critical section waits for the lock of
the roots. -/
def advanceUnload (hooks : Hooks) (s : BackingSystem) (thread : ThreadId) (dep : BundleId) :
    BackingSystem :=
  match s.unloads thread with
  | []                       => s
  | (_, .returned _) :: rest => s.setUnloads thread rest
  | (b, phase) :: rest       =>
    match phase, s.rootsHolder with
    -- The critical section waits.
    | .checked .., some _ => s
    | _, _                =>
      let unload := UnloadSystem.advance hooks thread b ⟨s.host.runtime, phase⟩ dep
      { s.withRuntime unload.runtime with
          internal := s.internal \ (s.unloading thread).toFinset }.setUnloads thread
        ((b, unload.phase) :: rest)

/-- A thread begins a call when no other one is to be finished. -/
def whenIdle (s : BackingSystem) (thread : ThreadId) (next : BackingSystem) : BackingSystem :=
  if (s.todo thread).isEmpty then next else s

/-- One step. A step that is not due does nothing. -/
def exec (compatibility : Compatibility) (s : BackingSystem) : BackingStep → BackingSystem
  | .advance thread =>
    match s.todo thread with
    | []           => s
    | next :: rest => s.runSection thread rest next
  | .begin thread manifest language =>
    s.whenIdle thread
      (match s.host.runtime.beginPreparedBundleTransaction thread manifest language .internal with
        | (.error _, rt)     => s.withRuntime rt
        | (.ok bundleId, rt) =>
          (s.withRuntime rt).setTodo thread [.insertMarker bundleId, .push bundleId])
  | .attach thread b resident =>
    s.whenIdle thread
      (s.withRuntime (s.host.runtime.attachInternalPluginResident thread b resident).2)
  | .register thread descriptor interface functions ptr =>
    s.whenIdle thread
      { s with
          host := (s.host.hostRegisterGuestContract thread descriptor interface functions ptr).2 }
  | .commit thread b root =>
    s.whenIdle thread
      (if root = none ∨ s.rootsHolder = some thread then s.commitPlugin compatibility thread b root
        else s)
  | .commitIntoHandles thread b outHandles =>
    s.whenIdle thread
      (if s.host.runtime.registry.preparedBundleContractCount thread b = some outHandles then
          s.commitPlugin compatibility thread b none
        else s.abortPlugin thread b)
  | .abort thread b => s.whenIdle thread (s.abortPlugin thread b)
  | .lockRoots thread =>
    s.whenIdle thread
      (if s.rootsHolder = none then { s with rootsHolder := some thread } else s)
  | .unlockRoots thread =>
    s.whenIdle thread
      (if s.rootsHolder = some thread then { s with rootsHolder := none } else s)
  | .reserve interface =>
    match s.host.runtime.beginGuestInstanceConstruction interface with
    | (none, rt)          => s.withRuntime rt
    | (some bundleId, rt) =>
      { s.withRuntime rt with constructing := ⟨bundleId, interface⟩ ::ₘ s.constructing }
  | .constructed made isNull =>
    if made ∈ s.constructing then
      -- A null instance gives its reservation back.
      if isNull then
        { s with
            constructing := s.constructing.erase made
            noting := made.bundleId ::ₘ s.noting }
      else
        { s with
            constructing := s.constructing.erase made
            instances := made ::ₘ s.instances }
    else s
  | .destroyed made =>
    if made ∈ s.instances then
      { s with
          instances := s.instances.erase made
          destroying := made ::ₘ s.destroying }
    else s
  | .lookup made =>
    if made ∈ s.destroying then
      { s with
          destroying := s.destroying.erase made
          noting := match s.host.runtime.registry.bundleIdForGuestInterface made.interface with
            -- The interface is of no registered bundle any more.
            | none   => s.noting
            | some b => b ::ₘ s.noting }
    else s
  | .note b =>
    if b ∈ s.noting then
      { s.withRuntime (s.host.runtime.noteInstanceDestroyed b) with noting := s.noting.erase b }
    else s
  | .unload thread b => s.whenIdle thread (s.setUnloads thread ((b, .idle) :: s.unloads thread))
  | .unloadRegistered thread b descriptor =>
    s.whenIdle thread (s.setUnloads thread ((b, .admitted descriptor) :: s.unloads thread))
  | .advanceUnload hooks thread dep => s.whenIdle thread (s.advanceUnload hooks thread dep)
  | .beginLoad env manifest source =>
    s.whenIdle env.thread
      (match s.host.runtime.admitLoad env manifest source with
        | (.error _, rt)     => s.withRuntime rt
        | (.ok bundleId, rt) =>
          ((s.withRuntime rt).setWindows env.thread
            (.load env bundleId :: s.windows env.thread)).setTodo env.thread [.push bundleId])
  | .endLoad thread opts loaded =>
    s.whenIdle thread
      (match s.windows thread with
        | .load env bundleId :: rest =>
          (s.setWindows thread rest).setTodo thread
            -- The init window closes before the commit.
            [.pop, .finishLoad env bundleId opts loaded]
        | _ => s)
  | .beginReload env path =>
    s.whenIdle env.load.thread
      (match env.checkReload path with
        | .error _        => s
        | .ok replacement =>
          let bundleId := replacement.descriptor.id
          (s.setWindows env.load.thread
            (.reload replacement (s.host.runtime.registry.getBundlePluginSlots bundleId)
              :: s.windows env.load.thread)).setTodo env.load.thread
            [.beginReload bundleId, .push bundleId])
  | .endReload thread loaded =>
    s.whenIdle thread
      (match s.windows thread with
        | .reload replacement slotIndices :: rest =>
          (s.setWindows thread rest).setTodo thread
            [.pop, .swapReload replacement slotIndices loaded]
        | _ => s)

end BackingSystem

end PolyPlug.Lifecycle
