import PolyPlug.Registry.Lookup

/-!
# `PolyPlug.Registry.Ops`: runs of the registry

A run of the registry is a list of mutator calls, each with its arguments.
`StoreOp` lists the eight mutators that register, reload and unload, and
`RuntimeStore.exec` makes one call and drops its result. Any call may return an
error: a run goes on from the store the call left behind.

`Session` adds the bookkeeping of reload windows that the callers do. A window
of a bundle opens with its first `begin_reload` and remembers the bundle's slots
of that moment.
-/

set_option autoImplicit false

namespace PolyPlug.Registry

open PolyPlug.Abi

/-- A call of a mutator. -/
inductive StoreOp where
  | registerGuestContract (descriptor : PluginDescriptor) (interface : RawGuestContractInterface)
      (ptr : Nat) (contractName : String) (bundleId : BundleId)
  | registerPreparedBundle (descriptor : BundleDescriptor)
      (dependencies : Finset GuestContractId) (contracts : List PreparedGuestContract)
  | declareBundleDependencies (bundleId : BundleId) (contractIds : List GuestContractId)
  | registerBundleMetadata (bundleId : BundleId) (bundleName : String) (version : Version)
      (runtime : SupportedLanguage) (origin : BundleOrigin)
      (dependencies : List BundleDependency)
  | beginReload (bundleId : BundleId)
  | abortReload (bundleId : BundleId) (oldSlots : List Nat)
  | applyReloadSwap (bundleId : BundleId) (oldSlots : List Nat) (descriptor : BundleDescriptor)
      (dependencies : Finset GuestContractId)
  | invalidateBundle (bundleId : BundleId)

/-- The store after a call, whether the call returned `Ok` or `Err`. -/
def RuntimeStore.exec (s : RuntimeStore) : StoreOp → RuntimeStore
  | .registerGuestContract descriptor interface ptr contractName bundleId =>
    (s.registerGuestContract descriptor interface ptr contractName bundleId).2
  | .registerPreparedBundle descriptor dependencies contracts =>
    (s.registerPreparedBundle descriptor dependencies contracts).2
  | .declareBundleDependencies bundleId contractIds =>
    s.declareBundleDependencies bundleId contractIds
  | .registerBundleMetadata bundleId bundleName version runtime origin dependencies =>
    s.registerBundleMetadata bundleId bundleName version runtime origin dependencies
  | .beginReload bundleId => s.beginReload bundleId
  | .abortReload bundleId oldSlots => s.abortReload bundleId oldSlots
  | .applyReloadSwap bundleId oldSlots descriptor dependencies =>
    (s.applyReloadSwap bundleId oldSlots descriptor dependencies).2
  | .invalidateBundle bundleId => (s.invalidateBundle bundleId).2

/-- The handles a call returns. -/
def RuntimeStore.returned (s : RuntimeStore) : StoreOp → List GuestContractHandle
  | .registerGuestContract descriptor interface ptr contractName bundleId =>
    match (s.registerGuestContract descriptor interface ptr contractName bundleId).1 with
    | .ok handle => [handle]
    | .error _   => []
  | .registerPreparedBundle descriptor dependencies contracts =>
    match (s.registerPreparedBundle descriptor dependencies contracts).1 with
    | .ok handles => handles
    | .error _    => []
  | _ => []

/-- A call of any mutator, the in-place interface swap included. -/
inductive StoreCall where
  | op (op : StoreOp)
  | swapGuestContractInterface (slotIndex : Nat) (newInterface : Arc GuestContractInterface)

/-- The store after such a call. -/
def RuntimeStore.call (s : RuntimeStore) : StoreCall → RuntimeStore
  | .op op => s.exec op
  | .swapGuestContractInterface slotIndex newInterface =>
    (s.swapGuestContractInterface slotIndex newInterface).2

/-! ### Plain calls -/

/-- The descriptor of a plugin without a name, at version `1.0.0`. -/
def PluginDescriptor.plain : PluginDescriptor := ⟨⟨none⟩, ⟨none⟩, ⟨1, 0, 0⟩⟩

/-- A native stateless interface of a contract at version `1.0.0`, without
functions. -/
def RawGuestContractInterface.plain (cid : GuestContractId) : RawGuestContractInterface :=
  ⟨cid, ⟨1, 0, 0⟩, 0, 0, 0, 0, ⟨0, 0⟩⟩

/-- The registration of a plain interface, copied to the address `ptr`. -/
def StoreOp.register (b : BundleId) (cid : GuestContractId) (contractName : String)
    (ptr : Nat) : StoreOp :=
  .registerGuestContract PluginDescriptor.plain (RawGuestContractInterface.plain cid) ptr
    contractName b

/-- The swap that keeps the default descriptor and declares no dependency. -/
def StoreOp.swap (b : BundleId) (oldSlots : List Nat) : StoreOp :=
  .applyReloadSwap b oldSlots (defaultDescriptor b) ∅

/-! ### Sessions -/

/-- The store with its open reload windows: the slots each bundle had when its
window opened. -/
structure Session where
  store : RuntimeStore
  windows : Finmap fun _ : BundleId => List Nat

/-- The empty store, with no window open. -/
def Session.new : Session := ⟨RuntimeStore.new, ∅⟩

/-- The windows after a call. A second `begin_reload` of an open window opens
nothing, and both closing calls close it, also when the swap fails. -/
def Session.windowsAfter (s : Session) : StoreOp → Finmap fun _ : BundleId => List Nat
  | .beginReload b =>
    if (s.windows.lookup b).isSome then s.windows
    else s.windows.insert b (s.store.data.pluginSlots b)
  | .abortReload b _ => s.windows.erase b
  | .applyReloadSwap b _ _ _ => s.windows.erase b
  | _ => s.windows

/-- One call of a session. -/
def Session.exec (s : Session) (op : StoreOp) : Session :=
  ⟨s.store.exec op, s.windowsAfter op⟩

/-- The discipline of reload windows: a window is closed with the slots it
opened on, a swap always closes a window, and a bundle is not invalidated while
its window is open. -/
def Session.Admits (s : Session) : StoreOp → Prop
  | .abortReload b oldSlots => s.windows.lookup b = none ∨ s.windows.lookup b = some oldSlots
  | .applyReloadSwap b oldSlots _ _ => s.windows.lookup b = some oldSlots
  | .invalidateBundle b => s.windows.lookup b = none
  | _ => True

instance (s : Session) (op : StoreOp) : Decidable (s.Admits op) := by
  cases op <;> unfold Session.Admits <;> infer_instance

/-- A call of a disciplined session, with fewer than `2 ^ 32 - 1` slots after it. -/
def Session.Disciplined (s : Session) (op : StoreOp) : Prop :=
  s.Admits op ∧ (s.exec op).store.data.slots.length < 2 ^ 32 - 1

instance (s : Session) (op : StoreOp) : Decidable (s.Disciplined op) :=
  inferInstanceAs (Decidable (_ ∧ _))

end PolyPlug.Registry
