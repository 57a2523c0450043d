import PolyPlug.Codegen.ApiTypes
import PolyPlug.Host.Contracts
import PolyPlug.Lib.Owners

/-!
# `PolyPlug.Codegen.LuaHostContract`: host contracts between Lua and Lua

The emitted Lua host factory builds an interface from a function that returns a fresh
implementation. `create_instance` keeps an implementation under a number, and `dispatch` looks
it up. The trampolines of `polyplug_lua` carry the call. The emitted Lua caller gets an instance in
`from_host`, and its methods go through the dispatch of the interface.

An address is a number, and an instance is its data. What packs and reads the arguments and the
results is a parameter, `Marshalling`. A call that raises an error in the host comes back as
a code. A function has its place in the contract as its id.
-/

set_option autoImplicit false

namespace PolyPlug.Codegen

open PolyPlug.Abi
open PolyPlug.Host
open PolyPlug.Rust

/-! ### Implementations and values -/

/-- `factory`: what an implementation keeps, the fresh one, and its methods. A method raises an
error as `none`. -/
structure LuaFactory (V : Type) where
  State : Type
  fresh : State
  method : ApiFunction → List V → State → Option V × State

/-- The emitted conversions between the values of Lua and the memory that is passed. -/
structure Marshalling (V W : Type) where
  /-- `emit_lua_guest_host_contract_args_setup`. -/
  packArgs : ApiFunction → List V → Option W
  /-- `generate_lua_host_dispatch_args`. -/
  readArgs : ApiFunction → W → Option (List V)
  /-- The assignment of `generate_lua_host_dispatch_call`. -/
  storeResult : ApiFunction → V → Option W
  /-- `lua_return_expr`, on the slot or on what was stored there. -/
  readResult : ApiFunction → Option W → V
  /-- A slot takes some value. -/
  sample : ApiFunction → V
  stores : ∀ func, (storeResult func (sample func)).isSome

/-- `AbiErrorCode`: the codes of a call of a host contract. -/
inductive HostCallCode where
  | ok
  | panic
  | functionNotAvailable
  | invalidPointer
deriving DecidableEq

/-- `AbiError`. -/
structure HostCallError where
  code : HostCallCode
  message : String
deriving DecidableEq

/-- `AbiError::ok`. -/
def HostCallError.ok : HostCallError := ⟨.ok, ""⟩

/-- `has_return_value`. -/
def hasReturnValue (returns : Option ResolvedTypeRef) : Bool :=
  match returns with
  | some ty => ty ≠ .abiType .void
  | none    => false

/-- `host_contract_id`. -/
def hostContractId (name : String) (major : Nat) : UInt64 :=
  fnv1a64 ("host_contract:" ++ name ++ "@" ++ decimal major).toUTF8.toList

/-! ### The interface of the factory -/

/-- The locals of `create_…_interface` that its callbacks share. -/
structure FactoryState (S : Type) where
  instances : Nat → Option S
  nextId : Nat
  defaultImpl : S

/-- The locals after `create_…_interface`. -/
def LuaFactory.locals {V : Type} (factory : LuaFactory V) : FactoryState factory.State :=
  ⟨fun _ => none, 1, factory.fresh⟩

namespace FactoryState

variable {S : Type}

/-- `impl` in `dispatch`. -/
def impl (s : FactoryState S) (instId : Nat) : Option S :=
  -- The null instance has the implementation of the interface.
  if instId = 0 then some s.defaultImpl else s.instances instId

/-- The implementation has changed. -/
def setImpl (s : FactoryState S) (instId : Nat) (state : S) : FactoryState S :=
  if instId = 0 then { s with defaultImpl := state }
  else { s with instances := Function.update s.instances instId (some state) }

/-- `create_instance`. -/
def createInstance (fresh : S) (s : FactoryState S) : Nat × FactoryState S :=
  (s.nextId, {
    s with
      nextId := s.nextId + 1
      instances := Function.update s.instances s.nextId (some fresh) })

/-- `destroy_instance`. -/
def destroyInstance (s : FactoryState S) (instId : Nat) : FactoryState S :=
  if instId ≠ 0 then { s with instances := Function.update s.instances instId none } else s

end FactoryState

/-- A call on the side of the host, from the data of an instance, the id of a function and its
arguments: the answer, and what was stored in the slot. -/
abbrev HostCallback (A W S : Type) : Type :=
  Nat → Nat → W → FactoryState S → (A × Option W) × FactoryState S

section
variable {V W : Type} (marshalling : Marshalling V W) (contract : ApiContract)
  (factory : LuaFactory V)

/-- The branch of `dispatch` for a function, in its `pcall`. -/
def dispatchBranch (func : ApiFunction) (args : W) (impl : factory.State) :
    (HostCallCode × Option W) × factory.State :=
  match marshalling.readArgs func args with
  | none        => ((.panic, none), impl)
  | some values =>
    match factory.method func values impl with
    -- An error of the method is caught, what it did to its object stays.
    | (none, impl)        => ((.panic, none), impl)
    | (some result, impl) =>
      if hasReturnValue func.returns then
        match marshalling.storeResult func result with
        | none     => ((.panic, none), impl)
        | some out => ((.ok, some out), impl)
      else ((.ok, none), impl)

/-- `dispatch`. -/
def hostDispatch : HostCallback HostCallCode W factory.State := fun instId fnId args s =>
  match s.impl instId with
  | none      => ((.functionNotAvailable, none), s)
  | some impl =>
    match contract.functions[fnId]? with
    | none      => ((.functionNotAvailable, none), s)
    | some func =>
      let result := dispatchBranch marshalling factory func args impl
      (result.1, s.setImpl instId result.2)

end

/-- `PolyplugLuaHostDispatchBridge`. -/
structure HostDispatchBridge (W S : Type) where
  callback : Option (HostCallback HostCallCode W S)
  destroyCallback : Option (Nat → FactoryState S → FactoryState S)

/-- `polyplug_lua_host_vm_dispatch`. -/
def hostVmDispatch {W S : Type} (adapterContext : Option (HostDispatchBridge W S)) :
    HostCallback HostCallError W S := fun instanceData fnId args s =>
  match adapterContext with
  | none        => ((⟨.invalidPointer, "lua host dispatch bridge is null"⟩, none), s)
  | some bridge =>
    match bridge.callback with
    | none          => ((⟨.invalidPointer, "lua host dispatch bridge has no callback"⟩, none), s)
    | some callback =>
      let result := callback instanceData fnId args s
      if result.1.1 = .ok then ((.ok, result.1.2), result.2)
      else ((⟨result.1.1, "lua host contract returned error"⟩, result.1.2), result.2)

/-- `HostContractInterface.dispatch`, with its tag. -/
inductive HostDispatch (W S : Type) where
  | native (functions : List (Nat → W → FactoryState S →
      (HostCallError × Option W) × FactoryState S))
  | virtualMachine (call : Option (HostDispatchBridge W S) → HostCallback HostCallError W S)

/-- `HostContractInterface`, as a caller uses it. -/
structure LuaHostInterface (W S : Type) where
  /-- The fields the runtime reads. -/
  base : HostContractInterface
  userData : Option (HostDispatchBridge W S)
  createInstance : FactoryState S → Nat × FactoryState S
  dispatch : HostDispatch W S

/-- A host contract of the schema, and the runtime that has its interface registered. -/
structure HostSetup (V W : Type) where
  contract : ApiContract
  singleton : Bool
  /-- The address of the interface. -/
  ptr : Nat
  marshalling : Marshalling V W
  contracts : HostContracts
  registered :
    contracts.lookup (hostContractId contract.name contract.version.major) =
      some ⟨ptr, hostContractId contract.name contract.version.major, contract.version, singleton⟩

namespace HostSetup

variable {V W : Type} (setup : HostSetup V W)

/-- The id in the emitted files. -/
def contractId : UInt64 := hostContractId setup.contract.name setup.contract.version.major

/-- The interface under that id. -/
def base : HostContractInterface :=
  ⟨setup.ptr, setup.contractId, setup.contract.version, setup.singleton⟩

/-- `generate_lua_host_interface_factory`: the interface that `create_…_interface` returns. -/
def interface (factory : LuaFactory V) : LuaHostInterface W factory.State where
  base := setup.base
  userData := some {
    callback := some (hostDispatch setup.marshalling setup.contract factory)
    destroyCallback := some fun instId s => s.destroyInstance instId }
  createInstance := FactoryState.createInstance factory.fresh
  dispatch := .virtualMachine hostVmDispatch

/-- `host_resolve_host_contract_interface` on the id of the contract. -/
def resolves (minVersion : UInt32) : Option HostContractInterface :=
  setup.contracts.find setup.contractId minVersion.toNat

end HostSetup

/-! ### The callers -/

/-- What an operation returns to the guest. -/
inductive LuaOutcome (V : Type) where
  | raised
  | null
  | object
  | value (v : V)
deriving DecidableEq

/-- The host's side, the cached instance of a singleton, and the instance of each caller. A
caller is a number. -/
structure LuaHostState (S : Type) where
  locals : FactoryState S
  singletonInstance : Option Nat
  instances : Nat → Option Nat

/-- An operation of a caller. -/
inductive CallerOp (V : Type) where
  /-- `from_host`. `hostGiven` is false when `host_ptr` is nil. -/
  | fromHost (caller : Nat) (hostGiven : Bool) (minVersion : Option UInt32)
  /-- The method of a function. -/
  | call (caller : Nat) (fnId : Nat) (args : List V)
deriving DecidableEq

/-- The caller of an operation. -/
def CallerOp.caller {V : Type} : CallerOp V → Nat
  | .fromHost caller _ _ => caller
  | .call caller _ _     => caller

/-- `host_get_host_contract` with the interface it has found. -/
def getHostContract {W S : Type} (interface : LuaHostInterface W S) (s : LuaHostState S) :
    Nat × LuaHostState S :=
  -- `create_instance` is called on the branches that use it.
  let create : Nat × LuaHostState S :=
    ((interface.createInstance s.locals).1,
      { s with locals := (interface.createInstance s.locals).2 })
  if interface.base.singleton then
    match s.singletonInstance with
    | some cached => (cached, s)
    | none        =>
      if create.1 = 0 then create
      else (create.1, { create.2 with singletonInstance := some create.1 })
  else create

section
variable {V W : Type} (setup : HostSetup V W) (factory : LuaFactory V)

/-- `min_version` after its default. -/
def minVersionOf (minVersion : Option UInt32) : UInt32 := minVersion.getD 0

/-- `from_host`. -/
def fromHost (caller : Nat) (hostGiven : Bool) (minVersion : Option UInt32)
    (s : LuaHostState factory.State) : LuaOutcome V × LuaHostState factory.State :=
  if ¬ hostGiven then (.null, { s with instances := Function.update s.instances caller none })
  else
    match setup.resolves (minVersionOf minVersion) with
    | none   => (.null, { s with instances := Function.update s.instances caller none })
    | some _ =>
      let created := getHostContract (setup.interface factory) s
      (.object,
        { created.2 with instances := Function.update created.2.instances caller (some created.1) })

/-- What a method returns after its call. -/
def readReturn (marshalling : Marshalling V W) (func : ApiFunction) (err : HostCallError)
    (out : Option W) : LuaOutcome V :=
  if err.code ≠ .ok then .null
  else if func.returns.isSome then .value (marshalling.readResult func out)
  else .null

/-- `generate_lua_guest_host_contract_method`: the call through the interface. `vmInstance` is
the data of the instance that the virtual machine arm passes, for a caller with some data. -/
def dispatchMethod {S : Type} (vmInstance : Nat → Nat) (interface : LuaHostInterface W S)
    (instanceData fnId : Nat) (func : ApiFunction) (packed : W) (s : FactoryState S) :
    LuaOutcome V × FactoryState S :=
  match interface.dispatch with
  | .native functions =>
    match functions[fnId]? with
    | none       => (.null, s)
    | some thunk =>
      let result := thunk instanceData packed s
      (readReturn setup.marshalling func result.1.1 result.1.2, result.2)
  | .virtualMachine call =>
    -- The instance of the caller is not what is passed, but `vmInstance` of it.
    let result := call interface.userData (vmInstance instanceData) fnId packed s
    (readReturn setup.marshalling func result.1.1 result.1.2, result.2)

/-- A method of a caller. Without an object, and for no function, Lua raises an error. -/
def callMethod (vmInstance : Nat → Nat) (caller fnId : Nat) (args : List V)
    (s : LuaHostState factory.State) : LuaOutcome V × LuaHostState factory.State :=
  match s.instances caller with
  | none              => (.raised, s)
  | some instanceData =>
    match setup.contract.functions[fnId]? with
    | none      => (.raised, s)
    | some func =>
      match setup.marshalling.packArgs func args with
      | none        => (.raised, s)
      | some packed =>
        let result := dispatchMethod setup vmInstance (setup.interface factory) instanceData fnId
          func packed s.locals
        (result.1, { s with locals := result.2 })

/-- One operation, where the virtual machine arm passes `vmInstance`. -/
def operate (vmInstance : Nat → Nat) (s : LuaHostState factory.State) :
    CallerOp V → LuaOutcome V × LuaHostState factory.State
  | .fromHost caller hostGiven minVersion => fromHost setup factory caller hostGiven minVersion s
  | .call caller fnId args                => callMethod setup factory vmInstance caller fnId args s

/-- `_null_instance`: the emitted arm passes no instance. -/
def nullInstance : Nat → Nat := fun _ => 0

/-- The factory has built its interface, and nobody has called `from_host`. -/
def LuaHostState.start : LuaHostState factory.State := ⟨factory.locals, none, fun _ => none⟩

end

end PolyPlug.Codegen
