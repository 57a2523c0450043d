import PolyPlug.Host.Contracts
import PolyPlug.Js.Script

/-!
# `PolyPlug.Js.HostInterface`: the interface that a JavaScript host builds

`buildHostContractInterface` makes one callback for each method, fills a table with their pointers,
and writes a `HostContractInterface` field by field. The runtime reads the struct by the layout of
the ABI.

A buffer is a region of the memory, and a `DataView` of it writes at its address. What the FFI
answers is a parameter: the pointers of the callbacks, in the order they are made, and the addresses
of the two buffers. The instances of the contract are left out.
-/

set_option autoImplicit false

namespace PolyPlug.Host.HostContractInterface

/-! ### Layout -/

/-- `HOST_CONTRACT_INTERFACE_CONTRACT_ID_OFFSET`. -/
def contractIdOffset : Nat := 0

/-- `HOST_CONTRACT_INTERFACE_CONTRACT_VERSION_OFFSET`. -/
def contractVersionOffset : Nat := 8

/-- `HOST_CONTRACT_INTERFACE_SINGLETON_OFFSET`. -/
def singletonOffset : Nat := 20

/-- `HOST_CONTRACT_INTERFACE_DISPATCH_TYPE_OFFSET`. -/
def dispatchTypeOffset : Nat := 24

/-- `HOST_CONTRACT_INTERFACE_RUNTIME_OFFSET`. -/
def runtimeOffset : Nat := 32

/-- `HOST_CONTRACT_INTERFACE_USER_DATA_OFFSET`. -/
def userDataOffset : Nat := 40

/-- `HOST_CONTRACT_INTERFACE_CREATE_INSTANCE_OFFSET`. -/
def createInstanceOffset : Nat := 48

/-- `HOST_CONTRACT_INTERFACE_DESTROY_INSTANCE_OFFSET`. -/
def destroyInstanceOffset : Nat := 56

/-- `HOST_CONTRACT_INTERFACE_DISPATCH_OFFSET`. -/
def dispatchOffset : Nat := 64

/-- `HOST_CONTRACT_INTERFACE_SIZE`. -/
def size : Nat := 80

end PolyPlug.Host.HostContractInterface

namespace PolyPlug.Js

open PolyPlug.Abi PolyPlug.Host PolyPlug.Lib

/-- `VERSION_MAJOR_OFFSET`. -/
def versionMajorOffset : Nat := 0

/-- `VERSION_MINOR_OFFSET`. -/
def versionMinorOffset : Nat := 4

/-- `VERSION_PATCH_OFFSET`. -/
def versionPatchOffset : Nat := 8

/-- `NATIVE_DISPATCH_FUNCTION_COUNT_OFFSET`. -/
def functionCountOffset : Nat := 0

/-- `NATIVE_DISPATCH_FUNCTIONS_OFFSET`. -/
def functionsOffset : Nat := 8

/-- `DISPATCH_TYPE_NATIVE`. -/
def dispatchTypeNative : Nat := 0

/-! ### Writes -/

/-- `new Uint8Array(n)`, at an address. -/
def newBuffer (m : Memory) (a n : Nat) : Memory := m.write a (List.replicate n 0)

/-- `setUint8`. -/
def setUint8 (m : Memory) (a value : Nat) : Memory := m.write a (littleEndian 1 value)

/-- `setUint16`, little-endian. -/
def setUint16 (m : Memory) (a value : Nat) : Memory := m.write a (littleEndian 2 value)

/-- `setUint32`, little-endian. -/
def setUint32 (m : Memory) (a value : Nat) : Memory := m.write a (littleEndian 4 value)

/-- `setBigUint64`, little-endian. -/
def setBigUint64 (m : Memory) (a value : Nat) : Memory := m.write a (littleEndian 8 value)

/-- `writeVersion`. -/
def writeVersion (m : Memory) (a : Nat) (version : Version) : Memory :=
  let m := setUint32 m (a + versionMajorOffset) version.major
  let m := setUint32 m (a + versionMinorOffset) version.minor
  setUint32 m (a + versionPatchOffset) version.patch

/-! ### The interface -/

/-- The argument of `buildHostContractInterface`. An array has fewer than 2 ^ 32 entries. -/
structure HostContractSpec (μ : Type) where
  contractIdLo : Int
  contractIdHi : Int
  major : UInt32
  minor : UInt32
  singleton : Bool
  methods : List μ
  few : methods.length < 2 ^ 32

/-- What a callback does. -/
inductive HostCallback (μ : Type) where
  | dispatch (invoke : μ)
  | createInstance
  | destroyInstance

/-- The answers of the FFI: the pointer of each callback that is made, and where the buffers are.
The two buffers are different. -/
structure HostFfi (count : Nat) where
  pointer : Nat → UInt64
  functionsPtr : UInt64
  interfacePtr : UInt64
  apart : Disjoint (Region.span ⟨functionsPtr.toNat, 8 * max 1 count⟩)
    (Region.span ⟨interfacePtr.toNat, HostContractInterface.size⟩)

/-- The two lists of `buildHostContractInterface`. -/
structure HostCallbacks (μ : Type) where
  callbacks : List (HostCallback μ)
  functionPointers : List UInt64

variable {μ : Type}

/-- One turn of the loop over the methods. -/
def HostCallbacks.addMethod (pointer : Nat → UInt64) (made : HostCallbacks μ) (invoke : μ) :
    HostCallbacks μ where
  callbacks := made.callbacks ++ [.dispatch invoke]
  functionPointers := made.functionPointers ++ [pointer made.callbacks.length]

/-- The loop that fills the table of functions. -/
def writeFunctions (m : Memory) (functions : Nat) : Nat → List UInt64 → Memory
  | _, []      => m
  | i, p :: ps => writeFunctions (setBigUint64 m (functions + i * 8) p.toNat) functions (i + 1) ps

open HostContractInterface in
/-- The writes to `ifaceView`. -/
def writeInterface (m : Memory) (a : Nat) (spec : HostContractSpec μ)
    (createInstance destroyInstance : UInt64) (count : Nat) (functions : UInt64) : Memory :=
  let contractId := JsValue.toUint32 (some spec.contractIdLo) |||
    JsValue.toUint32 (some spec.contractIdHi) <<< 32
  let m := setBigUint64 m (a + contractIdOffset) contractId
  -- Three numbers of two bytes each, where a `Version` has four.
  let m := setUint16 m (a + contractVersionOffset) spec.major.toNat
  let m := setUint16 m (a + contractVersionOffset + 2) spec.minor.toNat
  let m := setUint16 m (a + contractVersionOffset + 4) 0
  let m := setUint8 m (a + singletonOffset) (if spec.singleton then 1 else 0)
  let m := setUint32 m (a + dispatchTypeOffset) dispatchTypeNative
  let m := setBigUint64 m (a + userDataOffset) 0
  let m := setBigUint64 m (a + createInstanceOffset) createInstance.toNat
  let m := setBigUint64 m (a + destroyInstanceOffset) destroyInstance.toNat
  let m := setUint32 m (a + dispatchOffset + functionCountOffset) count
  setBigUint64 m (a + dispatchOffset + functionsOffset) functions.toNat

/-- What `buildHostContractInterface` leaves behind. -/
structure BuiltInterface (μ : Type) where
  callbacks : List (HostCallback μ)
  memory : Memory

/-- `buildHostContractInterface`. The interface is at `interfacePtr`. -/
def buildHostContractInterface (spec : HostContractSpec μ) (ffi : HostFfi spec.methods.length)
    (m : Memory) : BuiltInterface μ :=
  let made := spec.methods.foldl (HostCallbacks.addMethod ffi.pointer) ⟨[], []⟩
  -- The two callbacks of the instances come after those of the methods.
  let createInstanceCb := ffi.pointer made.callbacks.length
  let destroyInstanceCb := ffi.pointer (made.callbacks.length + 1)
  let functions := ffi.functionsPtr.toNat
  -- The table is never empty.
  let m := newBuffer m functions (8 * max 1 made.functionPointers.length)
  let m := writeFunctions m functions 0 made.functionPointers
  let m := newBuffer m ffi.interfacePtr.toNat HostContractInterface.size
  { callbacks := made.callbacks ++ [.createInstance, .destroyInstance]
    memory := writeInterface m ffi.interfacePtr.toNat spec createInstanceCb destroyInstanceCb
      made.functionPointers.length ffi.functionsPtr }

/-! ### Reads -/

/-- A `Version` at an address. -/
def readVersion (m : Memory) (a : Nat) : Version :=
  ⟨m.read (a + versionMajorOffset) 4, m.read (a + versionMinorOffset) 4,
    m.read (a + versionPatchOffset) 4⟩

open HostContractInterface in
/-- A `HostContractInterface` at an address. -/
def readInterface (m : Memory) (a : Nat) : HostContractInterface where
  ptr := a
  contractId := UInt64.ofNat (m.read (a + contractIdOffset) 8)
  contractVersion := readVersion m (a + contractVersionOffset)
  singleton := m.read (a + singletonOffset) 1 = 1

/-- The `dispatch_type` of an interface. -/
def readDispatchType (m : Memory) (a : Nat) : Option DispatchType :=
  DispatchType.fromU32 (m.read (a + HostContractInterface.dispatchTypeOffset) 4)

/-- The `dispatch` of an interface. -/
def readDispatch (m : Memory) (a : Nat) : DispatchMechanisms :=
  ⟨m.read (a + HostContractInterface.dispatchOffset) 8,
    m.read (a + HostContractInterface.dispatchOffset + functionsOffset) 8⟩

/-- `*dispatch.native.functions.add(i)`. -/
def readFunction (m : Memory) (d : DispatchMechanisms) (i : Nat) : Nat := m.read (d.word1 + 8 * i) 8

end PolyPlug.Js
