import PolyPlug.Codegen.HostCaller

/-!
# `PolyPlug.Codegen.Callers`: the emitted callers and their instances

The Rust host caller, the Lua host caller and the Lua peer caller keep an interface, an instance
of it and the registry revision of their last look. Each operation is one step here: a publish
comes before it or after it.

`Instance.made` numbers the calls of `create_guest_instance`, and `HostSide.destroyed` records the
calls of `destroy_guest_instance`. `CallerRun.steady` is what the handle has resolved to ever since
the last method call. The emitted code has none of the three.
-/

set_option autoImplicit false

namespace PolyPlug.Codegen

open PolyPlug.Abi
open PolyPlug.Registry

/-- The emitted callers. -/
inductive CallerKind where
  | rustHost
  | luaHost
  | luaPeer
deriving DecidableEq

/-- `GuestContractInstance`, with the number of the call that wrote it. -/
structure Instance where
  data : Nat
  made : Option Nat
deriving DecidableEq

/-- `GuestContractInstance::null`. -/
def Instance.null : Instance := ⟨0, none⟩

/-- The fields of a caller. Only the Lua host caller has `destroyed`. -/
structure Caller where
  handle : GuestContractHandle
  interface : Option Nat
  inst : Instance
  cachedRevision : Nat
  destroyed : Bool
deriving DecidableEq

/-- A call of `destroy_guest_instance`, with what the handle of the caller resolved to. -/
structure Destroyed where
  interface : Option Nat
  inst : Instance
  resolved : Option Nat
deriving DecidableEq

/-- The host as a caller sees it. -/
structure HostSide where
  view : ReadView
  revision : Nat
  /-- The calls of `create_guest_instance` so far. -/
  made : Nat
  destroyed : List Destroyed

namespace HostSide

/-- `resolve_guest_contract`. -/
def resolve (h : HostSide) (handle : GuestContractHandle) : Option Nat := resolveIn h.view handle

/-- `destroy_guest_instance` on the fields of a caller. -/
def destroy (h : HostSide) (c : Caller) : HostSide :=
  { h with destroyed := h.destroyed ++ [⟨c.interface, c.inst, h.resolve c.handle⟩] }

/-- A publish. -/
def publish (h : HostSide) (view : ReadView) : HostSide :=
  { h with view := view, revision := (h.revision + 1) % 2 ^ 64 }

end HostSide

/-- `create_guest_instance`, which writes `data`, and the assignments that follow it. -/
def renew (h : HostSide) (c : Caller) (interface : Option Nat) (data : Nat) : HostSide × Caller :=
  ({ h with made := h.made + 1 },
    ⟨c.handle, interface, ⟨data, some h.made⟩, h.revision, false⟩)

/-- The caller of a contract that is gone. -/
def Caller.gone (c : Caller) (revision : Nat) : Caller :=
  { c with interface := none, inst := .null, cachedRevision := revision }

/-- `new` of the Rust host caller, the factory of the Lua host caller and `resolve` of the peer
caller, from the handle on. -/
def makeCaller (h : HostSide) (handle : GuestContractHandle) (data : Nat) :
    HostSide × Option Caller :=
  match h.resolve handle with
  | none           => (h, none)
  | some interface =>
    let made := renew h ⟨handle, none, .null, 0, false⟩ (some interface) data
    (made.1, some made.2)

/-! ### The Rust host caller -/

/-- `reset`. -/
def rustReset (h : HostSide) (c : Caller) (data : Nat) : HostSide × Caller :=
  if h.revision ≠ c.cachedRevision ∨ c.interface = none then
    match h.resolve c.handle with
    | none           => (h, c.gone h.revision)
    | some interface =>
      renew (if some interface = c.interface ∧ c.inst.data ≠ 0 then h.destroy c else h) c
        (some interface) data
  else renew (if c.inst.data ≠ 0 then h.destroy c else h) c c.interface data

/-- `revalidate`. -/
def rustRevalidate (h : HostSide) (c : Caller) (data : Nat) : (HostSide × Caller) × Bool :=
  match h.resolve c.handle with
  | none           => ((h, c.gone h.revision), false)
  | some interface =>
    if some interface = c.interface then ((h, { c with cachedRevision := h.revision }), true)
    else (renew h c (some interface) data, true)

/-- `drop`. -/
def rustDrop (h : HostSide) (c : Caller) : HostSide :=
  if h.revision ≠ c.cachedRevision ∧ h.resolve c.handle ≠ c.interface then h
  else if c.inst.data ≠ 0 then h.destroy c else h

/-! ### The Lua host caller -/

/-- The fields after `destroy`. -/
def Caller.destroy (c : Caller) : Caller :=
  { c with interface := none, inst := .null, destroyed := true }

/-- `revalidate`. -/
def luaRevalidate (h : HostSide) (c : Caller) (data : Nat) : (HostSide × Caller) × Bool :=
  if c.destroyed ∨ c.interface = none then ((h, c), false)
  else
    match h.resolve c.handle with
    | none           => ((h, { c.gone h.revision with destroyed := true }), false)
    | some interface =>
      if some interface = c.interface then ((h, { c with cachedRevision := h.revision }), true)
      else (renew h c (some interface) data, true)

/-- `destroy`. -/
def luaDestroy (h : HostSide) (c : Caller) : HostSide × Caller :=
  if c.interface = none ∨ c.destroyed then (h, c)
  else if h.revision ≠ c.cachedRevision ∧
      (h.resolve c.handle = none ∨ h.resolve c.handle ≠ c.interface) then (h, c.destroy)
  else (h.destroy c, c.destroy)

/-- `reset`. -/
def luaReset (h : HostSide) (c : Caller) (data : Nat) : HostSide × Caller :=
  if c.interface = none ∨ c.destroyed then (h, c)
  else if h.revision ≠ c.cachedRevision then
    match h.resolve c.handle with
    | none           => (h, { c.gone h.revision with destroyed := true })
    | some interface =>
      renew (if some interface = c.interface then h.destroy c else h) c (some interface) data
  else renew (h.destroy c) c c.interface data

/-! ### The Lua peer caller -/

/-- `revalidate`. -/
def peerRevalidate (h : HostSide) (c : Caller) (data : Nat) : (HostSide × Caller) × Bool :=
  match h.resolve c.handle with
  | none           => ((h, c.gone h.revision), false)
  | some interface => (renew h c (some interface) data, true)

/-! ### The operations -/

namespace CallerKind

/-- `is_valid`, which each method checks first. -/
def isValid : CallerKind → Caller → Bool
  | .rustHost, c => c.interface.isSome
  | .luaHost, c  => c.interface.isSome && !c.destroyed
  | .luaPeer, c  => c.interface.isSome

/-- `revalidate`. -/
def revalidate : CallerKind → HostSide → Caller → Nat → (HostSide × Caller) × Bool
  | .rustHost => rustRevalidate
  | .luaHost  => luaRevalidate
  | .luaPeer  => peerRevalidate

/-- `reset`. The peer caller has none. -/
def reset : CallerKind → HostSide → Caller → Nat → HostSide × Caller
  | .rustHost => rustReset
  | .luaHost  => luaReset
  | .luaPeer  => fun h c _ => (h, c)

/-- The end of a caller: `drop` in Rust, `destroy` in Lua. The peer caller has none. -/
def destroy : CallerKind → HostSide → Caller → HostSide × Option Caller
  | .rustHost, h, c => (rustDrop h c, none)
  | .luaHost, h, c  => ((luaDestroy h c).1, some (luaDestroy h c).2)
  | .luaPeer, h, c  => (h, some c)

/-- A method, up to the dispatch, with the instance it dispatches with. -/
def call (kind : CallerKind) (h : HostSide) (c : Caller) (data : Nat) :
    (HostSide × Caller) × Option Instance :=
  if kind.isValid c = false then ((h, c), none)
  else if h.revision ≠ c.cachedRevision then
    let checked := kind.revalidate h c data
    (checked.1, if checked.2 then some checked.1.2.inst else none)
  else ((h, c), some c.inst)

end CallerKind

/-- The host with one caller. -/
structure CallerRun where
  host : HostSide
  caller : Option Caller
  /-- What the handle has resolved to ever since the last method call. -/
  steady : Option (Option Nat)

/-- An operation of the caller, or a publish. A number is the data pointer that a
`create_guest_instance` of the operation writes. -/
inductive CallerAct where
  | publish (view : ReadView)
  | create (handle : GuestContractHandle) (data : Nat)
  | reset (data : Nat)
  | call (data : Nat)
  | destroy

namespace CallerRun

/-- The empty registry without a caller. -/
def new : CallerRun := ⟨⟨ReadView.empty, 0, 0, []⟩, none, none⟩

/-- What the handle of the caller resolves to. -/
def resolved (s : CallerRun) : Option Nat := s.caller.bind fun c => s.host.resolve c.handle

/-- The instance that a method call dispatches with. -/
def uses (kind : CallerKind) (s : CallerRun) (data : Nat) : Option Instance :=
  s.caller.bind fun c => (kind.call s.host c data).2

/-- One step. -/
def exec (kind : CallerKind) (s : CallerRun) : CallerAct → CallerRun
  | .publish view       =>
    let published := { s with host := s.host.publish view }
    if published.resolved = s.resolved then published else { published with steady := none }
  | .create handle data =>
    match s.caller with
    | none   => ⟨(makeCaller s.host handle data).1, (makeCaller s.host handle data).2, none⟩
    | some _ => s
  | .reset data         =>
    match s.caller with
    | none   => s
    | some c => ⟨(kind.reset s.host c data).1, some (kind.reset s.host c data).2, none⟩
  | .call data          =>
    match s.caller with
    | none   => s
    | some c =>
      ⟨(kind.call s.host c data).1.1, some (kind.call s.host c data).1.2,
        some (s.host.resolve c.handle)⟩
  | .destroy            =>
    match s.caller with
    | none   => s
    | some c => ⟨(kind.destroy s.host c).1, (kind.destroy s.host c).2, none⟩

end CallerRun

end PolyPlug.Codegen
