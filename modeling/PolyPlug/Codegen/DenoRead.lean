import PolyPlug.Codegen.JsMarshal

/-!
# `PolyPlug.Codegen.DenoRead`: how a Deno caller reads what a call returned

The caller reads the out buffer through a `DataView`, one local for each value. The bytes of a
string or a buffer are copied from where the view points, and freed if the caller owns them: it owns
what a call returns, which the wrapper allocated with `host.alloc` since the call has no arena.

The values of the locals are left out. What the statements do outside of the out buffer is a list
of events.
-/

set_option autoImplicit false

namespace PolyPlug.Codegen

open PolyPlug.Lib

/-! ### Statements -/

/-- A read of a `DataView`, little-endian. -/
inductive DvRead where
  | getUint8
  | getInt8
  | getUint16
  | getInt16
  | getUint32
  | getInt32
  | getFloat32
  | getFloat64
  | getBigUint64
  | getBigInt64
  /-- `dv.getUint8(off) !== 0` -/
  | isSet
  /-- `Number(dv.getBigUint64(off, true))` -/
  | number
deriving DecidableEq

/-- A statement that declares the local `_r` of a number. -/
inductive DenoStmt where
  | const (n : Nat) (read : DvRead) (off : Nat)
  | stringView (n off : Nat) (owns : Bool)
  | buffer (n off : Nat) (owns : Bool)
  /-- `const _r = { name: _r, … };` -/
  | object (n : Nat) (members : List (String × Nat))
deriving DecidableEq

/-- How a primitive is read. -/
def PrimitiveType.dvRead : PrimitiveType → DvRead
  | .u8   => .getUint8
  | .i8   => .getInt8
  | .u16  => .getUint16
  | .i16  => .getInt16
  | .u32  => .getUint32
  | .i32  => .getInt32
  | .f32  => .getFloat32
  | .f64  => .getFloat64
  | .bool => .isSet
  | .u64  => .getBigUint64
  | .i64  => .getBigInt64

/-- How an enum is read. -/
def ReprType.dvRead : ReprType → DvRead
  | .u8  => .getUint8
  | .u16 => .getUint16
  | .u32 => .getUint32
  | .u64 => .number

/-- The loop of `emit_deno_read_local` over the fields of a struct. `read` reads one of them into
the next local; the members are the fields with their locals. -/
def denoReadFields (ir : ApiIr) (fuel : Nat)
    (read : ResolvedTypeRef → Nat → Nat → Except JsGenError (List DenoStmt × Nat)) :
    List ResolvedField → Nat → Nat →
      Except JsGenError (List DenoStmt × List (String × Nat) × Nat)
  | [], _, idx                   => .ok ([], [], idx)
  | field :: fields, fieldOff, idx => do
    let a ← jsCAlign ir fuel field.ty
    let code ← read field.ty (jsAlignUp fieldOff a) idx
    let size ← jsCSize ir fuel field.ty
    let rest ← denoReadFields ir fuel read fields (jsAlignUp fieldOff a + size) code.2
    .ok (code.1 ++ rest.1, (field.name, idx) :: rest.2.1, rest.2.2)

/-- `emit_deno_read_local`. The value is in the local of the number that it was given. -/
def emitDenoReadLocal (ir : ApiIr) (ownsPayload : Bool) :
    Nat → ResolvedTypeRef → Nat → Nat → Except JsGenError (List DenoStmt × Nat)
  | 0, _, _, _            => .error .outOfFuel
  | fuel + 1, ty, off, n =>
    match ty with
    | .primitive p         => .ok ([.const n p.dvRead off], n + 1)
    | .abiType .ptr        => .ok ([.const n .getBigUint64 off], n + 1)
    | .abiType .stringView => .ok ([.stringView n off ownsPayload], n + 1)
    | .abiType .buffer     => .ok ([.buffer n off ownsPayload], n + 1)
    | .abiType .void       => .error (.unsupportedType "void" "js-quickjs")
    | .userDefined name    =>
      match enumNamed ir name with
      | some e => .ok ([.const n e.repr.dvRead off], n + 1)
      | none   =>
        match typeNamed ir name with
        | some s => do
          let code ← denoReadFields ir fuel (emitDenoReadLocal ir ownsPayload fuel) s.fields off
            (n + 1)
          -- The object comes last, in the local that was taken first.
          .ok (code.1 ++ [.object n code.2.1], code.2.2)
        | none   => .error (.unsupportedType name "js-quickjs")

/-- The lines of `generate_host_caller_method_deno` that read the return value. -/
def denoReadReturn (ir : ApiIr) (fuel : Nat) (retTy : ResolvedTypeRef) :
    Except JsGenError (List DenoStmt) := do
  -- A return value owns its payloads.
  let code ← emitDenoReadLocal ir true fuel retTy 0 0
  .ok code.1

/-! ### Events -/

/-- What a statement does outside of the out buffer. -/
inductive PayloadEvent where
  | read (r : Region)
  /-- `rt.free(ptr, size, align)` -/
  | free (ptr size align : Nat)
deriving DecidableEq

/-- The lines that copy a payload of `len` bytes, and free `size` bytes of it if they are owned. A
view that is null or empty is not followed. -/
def payloadEvents (ptr len size : Nat) (owns : Bool) : List PayloadEvent :=
  if ptr ≠ 0 ∧ 0 < len then
    .read ⟨ptr, len⟩ :: (if owns then [.free ptr size 1] else [])
  else []

/-- The events of a statement, with the buffer of the `DataView` at `dv`. -/
def DenoStmt.events (m : Memory) (dv : Nat) : DenoStmt → List PayloadEvent
  | .const _ _ _           => []
  | .stringView _ off owns =>
    let len := m.read (dv + off + 8) 8
    payloadEvents (m.read (dv + off) 8) len len owns
  | .buffer _ off owns     =>
    let len := m.read (dv + off + 8) 8
    let cap := m.read (dv + off + 16) 8
    -- A buffer is freed with its capacity, when it has one.
    payloadEvents (m.read (dv + off) 8) len (if 0 < cap then cap else len) owns
  | .object _ _            => []

/-- The events of the statements, one after the other. -/
def denoEvents (m : Memory) (dv : Nat) (code : List DenoStmt) : List PayloadEvent :=
  code.flatMap (DenoStmt.events m dv)

end PolyPlug.Codegen
