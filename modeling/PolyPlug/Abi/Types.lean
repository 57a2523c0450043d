import Mathlib.Data.Finmap
import PolyPlug.Rust.Str

/-!
# `PolyPlug.Abi.Types`: the ABI values the runtime and the registry exchange

Identifiers are 64-bit FNV-1a hashes (`polyplug_utils`). Slot indices,
generations, version components and pointer bits are naturals: an operation of
the source that can overflow spells its `% 2 ^ 32` where it happens.

A plugin hands over a `RawGuestContractInterface`: its `dispatch_type` is an
arbitrary 32-bit pattern, its lifecycle pointers can be null. The registry keeps
a checked `GuestContractInterface` behind an `Arc`. The `Arc` carries its own
address, because callers compare interface pointers and not interface contents.
-/

set_option autoImplicit false

namespace PolyPlug.Abi

open PolyPlug.Rust

/-! ### Identifiers -/

/-- FNV-1a 64-bit offset basis. -/
def fnvOffset : UInt64 := 0xcbf29ce484222325

/-- FNV-1a 64-bit prime. -/
def fnvPrime : UInt64 := 0x00000100000001B3

/-- FNV-1a over a byte list, `wrapping_mul` being the multiplication of `UInt64`. -/
def fnv1a64 (data : List UInt8) : UInt64 :=
  data.foldl (fun hash byte => (hash ^^^ byte.toUInt64) * fnvPrime) fnvOffset

/-- A bundle identifier. -/
structure BundleId where
  id : UInt64
deriving DecidableEq, Repr

/-- `BundleId::new`: the hash of the bundle's name. -/
def BundleId.new (name : String) : BundleId := ⟨fnv1a64 name.toUTF8.toList⟩

/-- A guest contract identifier. -/
structure GuestContractId where
  id : UInt64
deriving DecidableEq, Repr

/-- `GuestContractId::new`: the hash of `guest_contract:name@major`. -/
def GuestContractId.new (name : String) (majorVersion : Nat) : GuestContractId :=
  ⟨fnv1a64 ("guest_contract:" ++ name ++ "@" ++ decimal majorVersion).toUTF8.toList⟩

/-! ### Versions -/

/-- A three-component version. -/
structure Version where
  major : Nat
  minor : Nat
  patch : Nat
deriving DecidableEq, Repr

/-- `ParseVersionError`. -/
inductive ParseVersionError where
  | invalidFormat
  | invalidInt
deriving DecidableEq, Repr

/-- `Version::from_str`. The major and the minor component are required, an
omitted patch is `0`, and a fourth component is refused. The components are
parsed before the count is checked, so a bad third component of a
four-component text reports `InvalidInt`. -/
def Version.fromStr (value : String) : Except ParseVersionError Version :=
  match split value '.' with
  | []              => .error .invalidFormat
  | major :: rest   =>
    match parseU32 major with
    | none       => .error .invalidInt
    | some major =>
      match rest with
      | []            => .error .invalidFormat
      | minor :: rest =>
        match parseU32 minor with
        | none       => .error .invalidInt
        | some minor =>
          match parseU32 (rest.headD "0") with
          | none       => .error .invalidInt
          | some patch =>
            if rest.length ≤ 1 then .ok ⟨major, minor, patch⟩ else .error .invalidFormat

/-! ### Handles -/

/-- A slot index paired with the generation it was minted against. -/
structure GuestContractHandle where
  index : Nat
  generation : Nat
deriving DecidableEq, Repr

/-- `u32::MAX`. -/
def u32Max : Nat := 2 ^ 32 - 1

/-- The null handle. -/
def GuestContractHandle.null : GuestContractHandle := ⟨u32Max, 0⟩

/-- `is_null` reads the index only. -/
def GuestContractHandle.isNull (h : GuestContractHandle) : Bool := h.index == u32Max

/-- `GuestContractHandle::pack`. The null handle packs to `u64::MAX`. -/
def GuestContractHandle.pack (h : GuestContractHandle) : Nat :=
  if h.isNull then 2 ^ 64 - 1 else h.generation <<< 32 ||| h.index

/-! ### Interfaces -/

/-- `DispatchType`. -/
inductive DispatchType where
  | native
  | virtualMachine
deriving DecidableEq, Repr

/-- `DispatchType::from_u32`. -/
def DispatchType.fromU32 : Nat → Option DispatchType
  | 0 => some .native
  | 1 => some .virtualMachine
  | _ => none

/-- The 16-byte `DispatchMechanisms` union as its two words. The native arm
reads `function_count` from the low half of the first word and `functions` from
the second; the VM arm reads `call` and `loader_data`. -/
structure DispatchMechanisms where
  word0 : Nat
  word1 : Nat
deriving DecidableEq, Repr

/-- `dispatch.native.function_count`. -/
def DispatchMechanisms.functionCount (d : DispatchMechanisms) : Nat := d.word0 % 2 ^ 32

/-- A lifecycle function pointer of a registered interface. -/
inductive FnPtr where
  | statelessCreateInstance
  | statelessDestroyInstance
  | guest (addr : Nat)
deriving DecidableEq, Repr

/-- A registered interface. -/
structure GuestContractInterface where
  contractId : GuestContractId
  contractVersion : Version
  dispatchType : DispatchType
  adapterContext : Nat
  createInstance : FnPtr
  destroyInstance : FnPtr
  dispatch : DispatchMechanisms
deriving DecidableEq, Repr

/-- The interface as a plugin hands it over: raw discriminant, nullable
pointers (`0` is null). -/
structure RawGuestContractInterface where
  contractId : GuestContractId
  contractVersion : Version
  dispatchType : Nat
  adapterContext : Nat
  createInstance : Nat
  destroyInstance : Nat
  dispatch : DispatchMechanisms
deriving DecidableEq, Repr

/-- A shared allocation: its address and its value. -/
structure Arc (α : Type) where
  ptr : Nat
  val : α
deriving DecidableEq, Repr

/-! ### Descriptors -/

/-- A borrowed byte range; `none` is a null pointer. -/
structure StringView where
  bytes : Option (List UInt8)
deriving DecidableEq

/-- The descriptor of a registration call. -/
structure PluginDescriptor where
  name : StringView
  contractName : StringView
  version : Version
deriving DecidableEq

/-- `SupportedLanguage`. -/
inductive SupportedLanguage where
  | rust
  | cpp
  | dotnet
  | python
  | lua
  | javaScript
deriving DecidableEq, Repr

/-- `Compatibility`. -/
inductive Compatibility where
  | strict
  | relaxed
  | yolo
deriving DecidableEq, Repr

/-! ### Errors -/

/-- `RegistryError`: the variants the store returns. -/
inductive RegistryError where
  | contractIdCollision (id : UInt64) (nameA nameB : String)
  | duplicateProvider (contract existing : String)
  | bundleAlreadyRegistered (bundle : String)
  | missingBundleMetadata (bundleId : UInt64)
  | internalPluginResidentAlreadyAttached (bundleId : UInt64)
  | invalidHandle (index : Nat)
  | staleHandle (index : Nat)
  | pluginNotFound (contractId : UInt64) (minVersion : Nat)
  | invalidDispatchType (value : Nat)
  | invalidUtf8 (context : String)
deriving DecidableEq, Repr

end PolyPlug.Abi
