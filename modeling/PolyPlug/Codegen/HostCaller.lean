import PolyPlug.Registry.Ops

/-!
# `PolyPlug.Codegen.HostCaller`: the emitted host caller

A generated host caller caches the interface its handle resolved to, an instance
of it, and a registry revision. Each of its operations is a sequence of host
calls: `resolve_guest_contract`, `create_guest_instance`,
`destroy_guest_instance` and `registry_revision`. A publish of the registry is
two steps, the swap of the view and the increment of the revision, and any of
them may fall between two host calls.

`Pc` is the next host call of the operation in progress, with the locals the
emitted code keeps for it. `CallerSystem.exec` takes one step of the registry,
enters an operation, or makes its next host call. An interface is an address,
and `none` is the null pointer; an instance is its data pointer, and `0` is null.
-/

set_option autoImplicit false

namespace PolyPlug.Codegen

open PolyPlug.Abi
open PolyPlug.Registry

/-- `host_resolve_guest_contract`: the address the handle resolves to in a view,
null for every error. -/
def resolveIn (view : ReadView) (handle : GuestContractHandle) : Option Nat :=
  match view.slots[handle.index]? with
  | none       => none
  | some entry =>
    if handle.generation ≠ entry.generation then none
    else entry.iface.map fun iface => iface.interface.ptr

/-- The fields of a caller. -/
structure HostCaller where
  handle : GuestContractHandle
  interface : Option Nat
  instanceData : Nat
  cachedRevision : Nat
deriving DecidableEq

/-- The next host call of the operation in progress. -/
inductive Pc where
  | idle
  | newResolve (handle : GuestContractHandle)
  | newCreate (handle : GuestContractHandle) (interface : Option Nat)
  | newRevision (handle : GuestContractHandle) (interface : Option Nat) (instanceData : Nat)
  | resetRevision
  | resetResolve (revision : Nat)
  | resetDestroy (interface : Option Nat)
  | resetCreate (interface : Option Nat)
  | resetLive (interface : Option Nat) (instanceData : Nat)
  | dispatchRevision
  | revalidateResolve
  | revalidateGone
  | revalidateSame
  | revalidateCreate (interface : Option Nat)
  | revalidateLive (interface : Option Nat) (instanceData : Nat)
deriving DecidableEq

/-- The published side of the registry and one caller. -/
structure CallerSystem where
  view : ReadView
  revision : Nat
  /-- The view of a publish is swapped in and its revision not yet counted. -/
  publishing : Bool
  caller : Option HostCaller
  pc : Pc

/-- One step. -/
inductive CallerStep where
  | publishSwap (view : ReadView)
  | publishIncrement
  | callNew (handle : GuestContractHandle)
  | callReset
  | callRevalidate
  | callDispatch
  /-- The next host call. `created` is the instance data a `create_guest_instance`
  writes. -/
  | hostCall (created : Nat)

namespace CallerSystem

/-- The empty registry without a caller. -/
def new : CallerSystem := ⟨ReadView.empty, 0, false, none, .idle⟩

/-- Go on to another host call. -/
def goto (s : CallerSystem) (pc : Pc) : CallerSystem := { s with pc := pc }

/-- Leave the operation with these fields. -/
def finish (s : CallerSystem) (c : HostCaller) : CallerSystem :=
  { s with caller := some c, pc := .idle }

/-- The next host call of the operation in progress, up to the one after it. -/
def hostCall (s : CallerSystem) (created : Nat) : CallerSystem :=
  match s.pc, s.caller with
  -- `new`
  | .newResolve handle, _                      =>
    match resolveIn s.view handle with
    | none           => s.goto .idle
    | some interface => s.goto (.newCreate handle interface)
  | .newCreate handle interface, _             => s.goto (.newRevision handle interface created)
  | .newRevision handle interface instance', _ =>
    s.finish ⟨handle, interface, instance', s.revision⟩
  -- `reset`
  | .resetRevision, some c                     =>
    if s.revision ≠ c.cachedRevision ∨ c.interface = none then s.goto (.resetResolve s.revision)
    else if c.instanceData ≠ 0 then s.goto (.resetDestroy c.interface)
    else s.goto (.resetCreate c.interface)
  | .resetResolve revision, some c             =>
    match resolveIn s.view c.handle with
    | none           => s.finish ⟨c.handle, none, 0, revision⟩
    | some interface =>
      if some interface = c.interface ∧ c.instanceData ≠ 0 then s.goto (.resetDestroy interface)
      else s.goto (.resetCreate interface)
  | .resetDestroy interface, some _            => s.goto (.resetCreate interface)
  | .resetCreate interface, some _             => s.goto (.resetLive interface created)
  | .resetLive interface instance', some c     =>
    s.finish ⟨c.handle, interface, instance', s.revision⟩
  -- The staleness check of a dispatch. When it passes, the call goes through
  -- the cached interface.
  | .dispatchRevision, some c                  =>
    if s.revision ≠ c.cachedRevision then s.goto .revalidateResolve else s.goto .idle
  -- `revalidate`
  | .revalidateResolve, some c                 =>
    match resolveIn s.view c.handle with
    | none           =>
      { s with
          caller := some { c with interface := none, instanceData := 0 }
          pc := .revalidateGone }
    | some interface =>
      if some interface = c.interface then s.goto .revalidateSame
      else s.goto (.revalidateCreate interface)
  | .revalidateGone, some c                    =>
    s.finish { c with cachedRevision := s.revision }
  | .revalidateSame, some c                    =>
    s.finish { c with cachedRevision := s.revision }
  | .revalidateCreate interface, some _        => s.goto (.revalidateLive interface created)
  | .revalidateLive interface instance', some c =>
    s.finish ⟨c.handle, interface, instance', s.revision⟩
  | _, _                                       => s

/-- One step. One publish runs at a time, under the registry's write lock, and
an operation is entered between operations only. -/
def exec (s : CallerSystem) : CallerStep → CallerSystem
  | .publishSwap view  => if s.publishing then s else { s with view := view, publishing := true }
  | .publishIncrement  =>
    if s.publishing then { s with revision := (s.revision + 1) % 2 ^ 64, publishing := false }
    else s
  | .callNew handle    =>
    match s.pc, s.caller with
    | .idle, none => s.goto (.newResolve handle)
    | _, _        => s
  | .callReset         =>
    match s.pc, s.caller with
    | .idle, some _ => s.goto .resetRevision
    | _, _          => s
  | .callRevalidate    =>
    match s.pc, s.caller with
    | .idle, some _ => s.goto .revalidateResolve
    | _, _          => s
  | .callDispatch      =>
    match s.pc, s.caller with
    | .idle, some c => if c.interface = none then s else s.goto .dispatchRevision
    | _, _          => s
  | .hostCall created  => s.hostCall created

end CallerSystem

end PolyPlug.Codegen
