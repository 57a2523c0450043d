import PolyPlug.Codegen.LuaHostContract

/-!
# `PolyPlug.Sdk.ContractIds`: the identifiers as each SDK computes them

A host or a guest that is not written in Rust has its own copy of the FNV-1a identifiers of
`polyplug_utils`. The C++ header works without a string: it folds the pieces one after the other
and renders the major version into a buffer of ten characters. Python and JavaScript compute
on unbounded integers and cut each round to 64 bits, C# and Lua on 64-bit words.

A text is given by its UTF-8 bytes where the source holds bytes. Lua prints a number with
fourteen significant digits, which is exact for a major version of 32 bits.
-/

set_option autoImplicit false

namespace PolyPlug.Sdk

open PolyPlug.Abi
open PolyPlug.Rust

/-- The UTF-8 bytes of a text. -/
def utf8 (text : String) : List UInt8 := text.toUTF8.toList

/-! ### C++: `polyplug/id.hpp` -/

namespace Cpp

/-- `kFnvOffset`. -/
def kFnvOffset : UInt64 := 0xcbf29ce484222325

/-- `kFnvPrime`. -/
def kFnvPrime : UInt64 := 0x00000100000001b3

/-- `fnv1a_64_step`. -/
def fnv1a64Step (hash : UInt64) (byte : UInt8) : UInt64 :=
  (hash ^^^ byte.toUInt64) * kFnvPrime

/-- `fnv1a_64_continue`. -/
def fnv1a64Continue (hash : UInt64) (data : List UInt8) : UInt64 := data.foldl fnv1a64Step hash

/-- `fnv1a_64`. -/
def fnv1a64 (data : List UInt8) : UInt64 := fnv1a64Continue kFnvOffset data

/-- `char digits[10]`. -/
abbrev Digits := Vector UInt8 10

/-- The loop `while (remaining != 0U)`: the least significant digit goes first into the buffer.
A write past the buffer is `none`. -/
def writeDigits (digits : Digits) (count remaining : Nat) : Option (Digits × Nat) :=
  if hrest : remaining = 0 then some (digits, count)
  else if hroom : count < 10 then
    writeDigits (digits.set count (UInt8.ofNat (48 + remaining % 10))) (count + 1) (remaining / 10)
  else none
termination_by remaining
decreasing_by omega

/-- The loop `for (i = count; i > 0U; --i)`. A read past the buffer is `none`. -/
def foldDigits (hash : UInt64) (digits : Digits) : Nat → Option UInt64
  | 0     => some hash
  | i + 1 => digits[i]?.bind fun digit => foldDigits (fnv1a64Step hash digit) digits i

/-- `fnv1a_64_fold_u32`. -/
def fnv1a64FoldU32 (hash : UInt64) (value : Nat) : Option UInt64 :=
  if value = 0 then some (fnv1a64Step hash 48)
  else (writeDigits (Vector.replicate 10 0) 0 value).bind fun r => foldDigits hash r.1 r.2

/-- `bundle_id`. -/
def bundleId (name : List UInt8) : UInt64 := fnv1a64 name

/-- `contract_id`. -/
def contractId (scheme name : List UInt8) (majorVersion : Nat) : Option UInt64 :=
  let hash := fnv1a64Continue kFnvOffset scheme
  let hash := fnv1a64Continue hash name
  let hash := fnv1a64Step hash 64
  fnv1a64FoldU32 hash majorVersion

/-- `guest_contract_id`. -/
def guestContractId (name : List UInt8) (majorVersion : Nat) : Option UInt64 :=
  contractId (utf8 "guest_contract:") name majorVersion

/-- `host_contract_id`. -/
def hostContractId (name : List UInt8) (majorVersion : Nat) : Option UInt64 :=
  contractId (utf8 "host_contract:") name majorVersion

end Cpp

/-! ### Python: `abi.py` -/

namespace Python

/-- `FNV_OFFSET`. -/
def fnvOffset : Nat := 0xCBF29CE484222325

/-- `FNV_PRIME`. -/
def fnvPrime : Nat := 0x00000100000001B3

/-- `fnv1a_64`. -/
def fnv1a64 (data : List UInt8) : Nat :=
  data.foldl (fun hashVal byte => ((hashVal ^^^ byte.toNat) * fnvPrime) &&& 0xFFFFFFFFFFFFFFFF)
    fnvOffset

/-- `guest_contract_id`. -/
def guestContractId (name : String) (majorVersion : Nat) : Nat :=
  fnv1a64 (utf8 ("guest_contract:" ++ name ++ "@" ++ decimal majorVersion))

/-- `host_contract_id`. -/
def hostContractId (name : String) (majorVersion : Nat) : Nat :=
  fnv1a64 (utf8 ("host_contract:" ++ name ++ "@" ++ decimal majorVersion))

/-- `bundle_id`. -/
def bundleId (name : String) : Nat := fnv1a64 (utf8 name)

end Python

/-! ### JavaScript: `abi.ts` -/

namespace JavaScript

/-- `FNV_OFFSET_BASIS_64`. -/
def fnvOffsetBasis64 : Nat := 0xcbf29ce484222325

/-- `FNV_PRIME_64`. -/
def fnvPrime64 : Nat := 0x00000100000001b3

/-- `U64_WRAP_MASK`. -/
def u64WrapMask : Nat := 0xffffffffffffffff

/-- `fnv1a64`. -/
def fnv1a64 (bytes : List UInt8) : Nat :=
  bytes.foldl
    (fun h b =>
      let h := (h ^^^ b.toNat) * fnvPrime64
      h &&& u64WrapMask)
    fnvOffsetBasis64

/-- `guestContractId`. -/
def guestContractId (name : String) (majorVersion : Nat) : Nat :=
  fnv1a64 (utf8 ("guest_contract:" ++ name ++ "@" ++ decimal majorVersion))

/-- `hostContractId`. -/
def hostContractId (name : String) (majorVersion : Nat) : Nat :=
  fnv1a64 (utf8 ("host_contract:" ++ name ++ "@" ++ decimal majorVersion))

/-- `bundleId`. -/
def bundleId (name : String) : Nat := fnv1a64 (utf8 name)

end JavaScript

/-! ### Lua: `abi.lua` -/

namespace Lua

/-- The loop `for i = 1, #str`. The words are `uint64_t` cdata, and `str:byte(i)` is widened. -/
def hashBytes (h : UInt64) : List UInt8 → UInt64
  | []         => h
  | byte :: rest =>
      let h := h ^^^ byte.toUInt64
      let h := h * 0x00000100000001B3
      hashBytes h rest

/-- `M.fnv1a_64`. -/
def fnv1a64 (str : List UInt8) : UInt64 := hashBytes 0xcbf29ce484222325 str

/-- `M.bundle_id`. -/
def bundleId (name : List UInt8) : UInt64 := fnv1a64 name

/-- `M.guest_contract_id`. -/
def guestContractId (name : List UInt8) (majorVersion : Nat) : UInt64 :=
  fnv1a64 (utf8 "guest_contract:" ++ name ++ utf8 "@" ++ utf8 (decimal majorVersion))

/-- `M.host_contract_id`. -/
def hostContractId (name : List UInt8) (majorVersion : Nat) : UInt64 :=
  fnv1a64 (utf8 "host_contract:" ++ name ++ utf8 "@" ++ utf8 (decimal majorVersion))

end Lua

/-! ### C#: `Abi.cs` -/

namespace CSharp

/-- `FnvOffset`. -/
def fnvOffset : UInt64 := 0xCBF29CE484222325

/-- `FnvPrime`. -/
def fnvPrime : UInt64 := 0x00000100000001B3

/-- The loop `foreach (byte b in …)`. -/
def hashBytes (hash : UInt64) : List UInt8 → UInt64
  | []     => hash
  | b :: rest =>
      let hash := hash ^^^ b.toUInt64
      let hash := hash * fnvPrime
      hashBytes hash rest

/-- `Fnv1a64`. -/
def fnv1a64 (data : String) : UInt64 := hashBytes fnvOffset (utf8 data)

/-- `BundleId`. -/
def bundleId (name : String) : UInt64 := fnv1a64 name

/-- `GuestContractId`. -/
def guestContractId (name : String) (majorVersion : Nat) : UInt64 :=
  fnv1a64 ("guest_contract:" ++ name ++ "@" ++ decimal majorVersion)

/-- `HostContractId`. -/
def hostContractId (name : String) (majorVersion : Nat) : UInt64 :=
  fnv1a64 ("host_contract:" ++ name ++ "@" ++ decimal majorVersion)

end CSharp

end PolyPlug.Sdk
