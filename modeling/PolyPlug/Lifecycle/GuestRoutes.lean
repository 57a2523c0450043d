import PolyPlug.Lifecycle.Backing

/-!
# `PolyPlug.Lifecycle.GuestRoutes`: the routes that create guest instances

`create_guest_instance` and `destroy_guest_instance` of the host keep the instance counts.
The interface view of the JavaScript host SDK and `dispatchPeer` of the QuickJS bridge call
`create_instance` and `destroy_instance` of an interface themselves. `dispatchPeer` does so in one
call, with a dispatch in between.

`GuestSystem` is a `BackingSystem` with these calls as steps of their own. The
instances of both routes are in one place, since either route can destroy what the other one made.
-/

set_option autoImplicit false

namespace PolyPlug.Lifecycle

open PolyPlug.Abi
open PolyPlug.Common
open PolyPlug.Registry

namespace BackingSystem

/-- The bundle that owns the interface at an address. -/
def bundleOf (s : BackingSystem) (interface : Nat) : Option BundleId :=
  s.host.runtime.registry.bundleIdForGuestInterface interface

/-- The reload that a section completes: the swap, or the reset of the count behind it. -/
def sectionReloads (s : BackingSystem) : Option Section → Option BundleId
  | some (.swapReload replacement slotIndices loaded) =>
    match (s.host.runtime.swapReload replacement slotIndices loaded).1 with
    | .ok ()   => some replacement.descriptor.id
    | .error _ => none
  | some (.resetCount b) => some b
  | _ => none

/-- The reload that a step completes. -/
def reloads (s : BackingSystem) : BackingStep → Option BundleId
  | .advance thread => s.sectionReloads (s.todo thread).head?
  | _               => none

end BackingSystem

/-- The host, and the calls of the direct routes. -/
structure GuestSystem where
  base : BackingSystem
  /-- The calls of `create_instance` that run outside `create_guest_instance`. -/
  constructing : Multiset GuestInstance
  /-- Not in the source: the bundles that have been reloaded. -/
  reloaded : Finset BundleId

/-- One step. -/
inductive GuestStep where
  | host (step : BackingStep)
  /-- `createInstance` of a view, or `dispatchPeer`, gets to `create_instance`. -/
  | createInstance (interface : Nat)
  /-- That `create_instance` returns. -/
  | created (made : GuestInstance) (isNull : Bool)
  /-- `destroyInstance` of a view, or the end of `dispatchPeer`: `destroy_instance` returns. -/
  | destroyInstance (made : GuestInstance)

namespace GuestSystem

/-- Nothing is loaded, and no call runs. -/
def new : GuestSystem := ⟨.new, 0, ∅⟩

/-- The instances change. -/
def setInstances (s : GuestSystem) (instances : Multiset GuestInstance) : GuestSystem :=
  { s with base := { s.base with instances := instances } }

/-- One step. A step that is not due does nothing. An interface of no bundle makes an instance
of no bundle. -/
def exec (compatibility : Compatibility) (s : GuestSystem) : GuestStep → GuestSystem
  | .host step =>
    { s with
        base := s.base.exec compatibility step
        reloaded := s.reloaded ∪ (s.base.reloads step).toFinset }
  | .createInstance interface =>
    match s.base.bundleOf interface with
    | none   => s
    | some b => { s with constructing := ⟨b, interface⟩ ::ₘ s.constructing }
  | .created made isNull =>
    if made ∈ s.constructing then
      let s := { s with constructing := s.constructing.erase made }
      if isNull then s else s.setInstances (made ::ₘ s.base.instances)
    else s
  | .destroyInstance made =>
    if made ∈ s.base.instances then s.setInstances (s.base.instances.erase made) else s

end GuestSystem

end PolyPlug.Lifecycle
