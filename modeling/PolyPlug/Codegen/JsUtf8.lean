import PolyPlug.Lib.Utf16
import Mathlib.Data.String.Basic

/-!
# `PolyPlug.Codegen.JsUtf8`: the emitted `_ppEncodeUtf8`

A JavaScript string is a list of code units, and a number that the encoder handles is a natural
number or `NaN` (`none`). `charCodeAt` past the end is `NaN`, a comparison with `NaN` is false,
and the bitwise operators read it as 0. The rest of the string stands for the index `i`.
-/

set_option autoImplicit false

namespace PolyPlug.Codegen

open PolyPlug.Lib

/-! ### Numbers -/

/-- `str.charCodeAt(0)`. -/
def charCodeAt (str : List UInt16) : Option Nat := str.head?.map UInt16.toNat

/-- `code < bound`. -/
def lessThan (code : Option Nat) (bound : Nat) : Bool := code.any fun n => n < bound

/-- `ToInt32`, on numbers below 2 ^ 31. -/
def toInt32 (code : Option Nat) : Nat := code.getD 0

/-- An entry of `new Uint8Array(out)`, on whole numbers. -/
def toUint8 (n : Nat) : UInt8 := UInt8.ofNat n

/-! ### The encoder -/

/-- `0x80 | (bits & 0x3F)`. -/
def continuationByte (bits : Nat) : UInt8 := toUint8 (0x80 ||| (bits &&& 0x3F))

/-- The bytes that one turn of the loop pushes. -/
def pushCode (code : Option Nat) : List UInt8 :=
  if lessThan code 0x80 then [toUint8 (toInt32 code)]
  else if lessThan code 0x800 then
    [toUint8 (0xC0 ||| toInt32 code >>> 6), continuationByte (toInt32 code)]
  else if lessThan code 0x10000 then
    [toUint8 (0xE0 ||| toInt32 code >>> 12), continuationByte (toInt32 code >>> 6),
      continuationByte (toInt32 code)]
  else
    [toUint8 (0xF0 ||| toInt32 code >>> 18), continuationByte (toInt32 code >>> 12),
      continuationByte (toInt32 code >>> 6), continuationByte (toInt32 code)]

/-- `0x10000 + ((code - 0xD800) << 10) + (low - 0xDC00)`. It is positive for every unit, so
`low - 0xDC00` is taken last. -/
def combineUnits (code : Nat) (low : Option Nat) : Option Nat :=
  low.map fun low => 0x10000 + ((code - 0xD800) <<< 10) + low - 0xDC00

/-- The loop of the path without `TextEncoder`. After a first half it takes the next unit,
whatever that is. -/
def encodeUnits : List UInt16 → List UInt8
  | []          => []
  | unit :: str =>
    if 0xD800 ≤ unit.toNat && unit.toNat ≤ 0xDBFF then
      match str with
      | []         => pushCode (combineUnits unit.toNat (charCodeAt []))
      | low :: str => pushCode (combineUnits unit.toNat (charCodeAt (low :: str))) ++
          encodeUnits str
    else pushCode (some unit.toNat) ++ encodeUnits str

/-- `new TextEncoder().encode(str)`: the scalar values of the string in UTF-8. -/
def textEncode (str : List UInt16) : List UInt8 := (scalars str).flatMap String.utf8EncodeChar

/-- `_ppEncodeUtf8`. -/
def ppEncodeUtf8 (hasTextEncoder : Bool) (str : List UInt16) : List UInt8 :=
  if hasTextEncoder then textEncode str else encodeUnits str

end PolyPlug.Codegen
