import PolyPlug.Registry.Ops

/-!
# `PolyPlug.Lifecycle.ReloadSteps`: a reload as separate registry steps

`reload_bundle` holds `reload_serialize` for the whole call, but the registry
lock only inside each registry call. So a reload is a snapshot of the bundle's
slots, `begin_reload`, the registrations of the loader, and one closing call;
loads and unloads of any bundle run between them. `ReloadSystem.exec` takes one
such step. A step of the reload that is not due leaves the system as it is: the
second reload waits for the mutex, and a closing call needs an open window.

`InFlight.registered` is not a field of the source. It collects the contracts
that were registered for the bundle since its window opened.
-/

set_option autoImplicit false

namespace PolyPlug.Lifecycle

open PolyPlug.Abi
open PolyPlug.Registry

/-- The reload that holds `reload_serialize`. -/
structure InFlight where
  bundleId : BundleId
  /-- The snapshot of the bundle's slots. -/
  slotIndices : List Nat
  /-- Whether `begin_reload` has run. -/
  opened : Bool
  registered : List PreparedGuestContract

/-- The registry and the reload in flight. -/
structure ReloadSystem where
  store : RuntimeStore
  reload : Option InFlight

/-- One registry call of a reload, a load or an unload. -/
inductive ReloadStep where
  /-- `get_bundle_plugin_slots`, once `reload_serialize` is held. -/
  | snapshot (bundleId : BundleId)
  | beginReload
  /-- A registration of `loader.reload`. -/
  | register (descriptor : PluginDescriptor) (interface : RawGuestContractInterface)
      (ptr : Nat) (contractName : String)
  /-- `apply_reload_swap`, after `loader.reload` returned `Ok`. -/
  | applyReloadSwap (descriptor : BundleDescriptor) (dependencies : Finset GuestContractId)
  /-- `abort_reload`, after `loader.reload` returned `Err`. -/
  | abortReload
  /-- The commit of a load. -/
  | load (descriptor : BundleDescriptor) (dependencies : Finset GuestContractId)
      (contracts : List PreparedGuestContract)
  /-- The invalidation of an unload, alone or inside a cascade. -/
  | unload (bundleId : BundleId)

namespace ReloadSystem

/-- The empty registry, with no reload. -/
def new : ReloadSystem := ⟨RuntimeStore.new, none⟩

/-- The reload whose window is open. -/
def window (s : ReloadSystem) : Option InFlight := s.reload.filter InFlight.opened

/-- The contracts a registration call adds for the bundle with an open window. -/
def record (reload : Option InFlight) (bundleId : BundleId)
    (contracts : List PreparedGuestContract) : Option InFlight :=
  reload.map fun r =>
    if r.opened = true ∧ r.bundleId = bundleId then
      { r with registered := r.registered ++ contracts }
    else r

/-- The contract a registration stages. -/
def prepared (descriptor : PluginDescriptor) (interface : RawGuestContractInterface)
    (ptr : Nat) (contractName : String) : List PreparedGuestContract :=
  (prepareGuestContract descriptor interface contractName interface.adapterContext
    ptr).toOption.toList

/-- One step. -/
def exec (s : ReloadSystem) : ReloadStep → ReloadSystem
  | .snapshot b =>
    match s.reload with
    | none   => { s with reload := some ⟨b, s.store.getBundlePluginSlots b, false, []⟩ }
    | some _ => s
  | .beginReload =>
    match s.reload with
    | some ⟨b, slotIndices, false, _⟩ =>
      ⟨s.store.beginReload b, some ⟨b, slotIndices, true, []⟩⟩
    | _ => s
  | .register descriptor interface ptr contractName =>
    match s.window with
    | none   => s
    | some r =>
      match s.store.registerGuestContract descriptor interface ptr contractName r.bundleId with
      | (.error _, store) => ⟨store, s.reload⟩
      | (.ok _, store)    =>
        ⟨store, record s.reload r.bundleId (prepared descriptor interface ptr contractName)⟩
  | .applyReloadSwap descriptor dependencies =>
    match s.window with
    | none   => s
    | some r =>
      ⟨(s.store.applyReloadSwap r.bundleId r.slotIndices descriptor dependencies).2, none⟩
  | .abortReload =>
    match s.window with
    | none   => s
    | some r => ⟨s.store.abortReload r.bundleId r.slotIndices, none⟩
  | .load descriptor dependencies contracts =>
    match s.store.registerPreparedBundle descriptor dependencies contracts with
    | (.error _, store) => ⟨store, s.reload⟩
    | (.ok _, store)    => ⟨store, record s.reload descriptor.id contracts⟩
  | .unload b => { s with store := (s.store.invalidateBundle b).2 }

end ReloadSystem

end PolyPlug.Lifecycle
