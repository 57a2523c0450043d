import PolyPlug.Codegen.RustExpr
import PolyPlug.Js.Script

/-!
# `PolyPlug.Codegen.JsMarshal`: the return value of a QuickJS wrapper

The generator writes the statements that put a value of the author into the out slot: the bytes of
numbers at their offsets, and strings and arrays in memory that the call allocates. It follows the
type, and computes sizes and alignments as C does.

Texts are statements and expressions of `PolyPlug.Js.Script` here. The depth of the calls is fuel.
-/

set_option autoImplicit false

namespace PolyPlug.Codegen

open PolyPlug.Js

/-- Why the generator writes no code. -/
inductive JsGenError where
  | outOfFuel
  | unsupportedType (typeName lang : String)
deriving DecidableEq

/-! ### Layout -/

/-- `align_up`. -/
def jsAlignUp (offset align : Nat) : Nat :=
  if align = 0 then offset else (offset + (align - 1)) / align * align

/-- `js_repr_size`. -/
def jsReprSize : ReprType → Nat
  | .u8  => 1
  | .u16 => 2
  | .u32 => 4
  | .u64 => 8

/-- The size of a primitive, which is its alignment too. -/
def PrimitiveType.jsSize : PrimitiveType → Nat
  | .u8   => 1
  | .i8   => 1
  | .bool => 1
  | .u16  => 2
  | .i16  => 2
  | .u32  => 4
  | .i32  => 4
  | .f32  => 4
  | .u64  => 8
  | .i64  => 8
  | .f64  => 8

/-- `js_c_align`. -/
def jsCAlign (ir : ApiIr) : Nat → ResolvedTypeRef → Except JsGenError Nat
  | 0, _         => .error .outOfFuel
  | fuel + 1, ty =>
    match ty with
    | .primitive p         => .ok p.jsSize
    | .abiType .stringView => .ok 8
    | .abiType .buffer     => .ok 8
    | .abiType .ptr        => .ok 8
    | .abiType .void       => .ok 1
    | .userDefined name    =>
      match enumNamed ir name with
      | some e => .ok (jsReprSize e.repr)
      | none   =>
        match typeNamed ir name with
        -- A struct has the alignment of its widest field.
        | some s => s.fields.foldlM (fun maxAlign field => do
            let a ← jsCAlign ir fuel field.ty
            .ok (if a > maxAlign then a else maxAlign)) 1
        | none   => .error (.unsupportedType name "js-quickjs")

/-- `js_c_size`. -/
def jsCSize (ir : ApiIr) : Nat → ResolvedTypeRef → Except JsGenError Nat
  | 0, _         => .error .outOfFuel
  | fuel + 1, ty =>
    match ty with
    | .primitive p         => .ok p.jsSize
    | .abiType .stringView => .ok 16
    | .abiType .buffer     => .ok 24
    | .abiType .ptr        => .ok 8
    | .abiType .void       => .ok 0
    | .userDefined name    =>
      match enumNamed ir name with
      | some e => .ok (jsReprSize e.repr)
      | none   =>
        match typeNamed ir name with
        | some s => do
          let ends ← s.fields.foldlM (fun (ends : Nat × Nat) field => do
            let a ← jsCAlign ir fuel field.ty
            let size ← jsCSize ir fuel field.ty
            .ok (jsAlignUp ends.1 a + size, if a > ends.2 then a else ends.2)) (0, 1)
          -- The size is padded to the alignment of the struct.
          .ok (jsAlignUp ends.1 ends.2)
        | none   => .error (.unsupportedType name "js-quickjs")

/-! ### Writes -/

/-- `js_ptr_at`. -/
def jsPtrAt (base : JsExpr) (off : Nat) : JsExpr := if off = 0 then base else .add base (.num off)

/-- A write of the wrapper at an offset. -/
def writeAt (fn : WriteFn) (base : JsExpr) (off : Nat) (value : JsExpr) : JsStmt :=
  .write fn (jsPtrAt base off) value

/-- Statements one after the other. -/
def block : List JsStmt → JsStmt
  | []      => .skip
  | s :: ss => .seq s (block ss)

/-- The fields of a struct one after the other, each at its offset. `emit` writes one of them, and
counts the names on. -/
def emitFields (ir : ApiIr) (fuel : Nat)
    (emit : ResolvedTypeRef → JsExpr → Nat → JsExpr → Nat → Except JsGenError (JsStmt × Nat))
    (base value : JsExpr) :
    List ResolvedField → Nat → Nat → Except JsGenError (JsStmt × Nat)
  | [], _, uid              => .ok (.skip, uid)
  | field :: fields, offset, uid => do
    let a ← jsCAlign ir fuel field.ty
    let code ← emit field.ty base (jsAlignUp offset a) (.field value field.name) uid
    let size ← jsCSize ir fuel field.ty
    let rest ← emitFields ir fuel emit base value fields (jsAlignUp offset a + size) code.2
    .ok (.seq code.1 rest.1, rest.2)

/-- The low byte of a number. -/
def lowByte (value : JsExpr) : JsExpr := .and value (.num 0xFF)

/-- The second byte of a number. -/
def secondByte (value : JsExpr) : JsExpr := .and (.shr value (.num 8)) (.num 0xFF)

/-- The lines of `emit_js_write_value` for a primitive. -/
def emitPrimitive (p : PrimitiveType) (base : JsExpr) (off : Nat) (value : JsExpr) : JsStmt :=
  match p with
  | .u8   => writeAt .byte base off (lowByte value)
  | .i8   => writeAt .byte base off (lowByte value)
  | .u16  => block [writeAt .byte base off (lowByte value),
      writeAt .byte base (off + 1) (secondByte value)]
  | .i16  => block [writeAt .byte base off (lowByte value),
      writeAt .byte base (off + 1) (secondByte value)]
  | .u32  => writeAt .u32 base off value
  | .i32  => writeAt .i32 base off value
  | .f32  => writeAt .f32 base off value
  | .f64  => writeAt .f64 base off value
  | .bool => writeAt .byte base off (.cond value (.num 1) (.num 0))
  | .u64  => block [writeAt .u32 base off (.field value "lo"),
      writeAt .u32 base (off + 4) (.field value "hi")]
  | .i64  => block [writeAt .u32 base off (.field value "lo"),
      writeAt .u32 base (off + 4) (.field value "hi")]

/-- The lines of `emit_js_write_value` for an enum. -/
def emitEnum (repr : ReprType) (base : JsExpr) (off : Nat) (value : JsExpr) : JsStmt :=
  match repr with
  | .u8  => writeAt .byte base off (lowByte (.number value))
  | .u16 => block [writeAt .byte base off (lowByte (.number value)),
      writeAt .byte base (off + 1) (secondByte (.number value))]
  | .u32 => writeAt .u32 base off (.number value)
  -- A `u64` enum is a plain number: `>>> 0` and a division take its halves.
  | .u64 => block [writeAt .u32 base off (.ushr (.number value) (.num 0)),
      writeAt .u32 base (off + 4) (.floorDiv (.number value) (.num 4294967296))]

/-- The lines that copy a view: a pointer in two halves, and lengths whose high half is zero. -/
def emitView (base : JsExpr) (off : Nat) (value : JsExpr) : JsStmt :=
  block [writeAt .u32 base off (.field value "ptr_lo"),
    writeAt .u32 base (off + 4) (.field value "ptr_hi"),
    writeAt .u32 base (off + 8) (.field value "len"),
    writeAt .u32 base (off + 12) (.num 0)]

/-- `emit_js_write_value`. -/
def emitJsWriteValue (ir : ApiIr) :
    Nat → ResolvedTypeRef → JsExpr → Nat → JsExpr → Except JsGenError JsStmt
  | 0, _, _, _, _                 => .error .outOfFuel
  | fuel + 1, ty, base, off, value =>
    match ty with
    | .primitive p         => .ok (emitPrimitive p base off value)
    | .abiType .ptr        => .ok (emitPrimitive .u64 base off value)
    | .abiType .stringView => .ok (emitView base off value)
    | .abiType .buffer     =>
      .ok (block [emitView base off value, writeAt .u32 base (off + 16) (.field value "cap"),
        writeAt .u32 base (off + 20) (.num 0)])
    | .abiType .void       => .ok .skip
    | .userDefined name    =>
      match enumNamed ir name with
      | some e => .ok (emitEnum e.repr base off value)
      | none   =>
        match typeNamed ir name with
        | some s => do
          let code ← emitFields ir fuel (fun ty base off value uid => do
            let code ← emitJsWriteValue ir fuel ty base off value
            .ok (code, uid)) base value s.fields off 0
          .ok code.1
        | none   => .error (.unsupportedType name "js-quickjs")

/-! ### Strings and arrays -/

/-- A name that the generator counts. -/
def temp (stem : String) (id : Nat) : JsExpr := .name ⟨stem, some id⟩

/-- The address whose halves an allocation returned. -/
def joined (halves : JsExpr) : JsExpr :=
  .add (.index halves (.num 0)) (.mul (.index halves (.num 1)) (.num 4294967296))

/-- The lines that encode a string, allocate and write its bytes, and write the view of them. The
four names are those of the bytes, the allocation, its address, and the index. -/
def emitString (bytes buf ptr i : JsName) (base : JsExpr) (off : Nat) (value : JsExpr) : JsStmt :=
  let length := JsExpr.field (.name bytes) "length"
  block [.encode bytes value,
    -- An empty string asks for one byte.
    .arenaAlloc buf (.cond (.greater length (.num 0)) length (.num 1)),
    .const ptr (joined (.name buf)),
    .forLess i length
      (.write .byte (.add (.name ptr) (.name i)) (.index (.name bytes) (.name i))),
    writeAt .u32 base off (.index (.name buf) (.num 0)),
    writeAt .u32 base (off + 4) (.index (.name buf) (.num 1)),
    writeAt .u32 base (off + 8) length,
    writeAt .u32 base (off + 12) (.num 0)]

/-- `emit_js_guest_string_view`. -/
def emitJsGuestStringView (base : JsExpr) (off : Nat) (value : JsExpr) (id : Nat) : JsStmt :=
  .ifString value
    (emitString ⟨"_sb", some id⟩ ⟨"_sbuf", some id⟩ ⟨"_sp", some id⟩ ⟨"_i", some id⟩ base off value)
    (emitView base off value)

/-- `write_items_len`. -/
def writeItemsLen (base : JsExpr) (off : Nat) (itemsLo itemsHi len : JsExpr) : JsStmt :=
  block [writeAt .u32 base off itemsLo, writeAt .u32 base (off + 4) itemsHi,
    writeAt .u32 base (off + 8) len, writeAt .u32 base (off + 12) (.num 0)]

/-- The lines of `emit_js_guest_marshal_array` around those of an element. -/
def emitArray (esize ealign : Nat) (base : JsExpr) (off : Nat) (value : JsExpr) (id : Nat)
    (element : JsStmt) : JsStmt :=
  .seq (.const ⟨"_n", some id⟩ (.field value "length"))
    (.ifZero (temp "_n" id) (writeItemsLen base off (.num 0) (.num 0) (.num 0))
      -- Room for the elements, and for moving the first to its alignment.
      (block [.arenaAlloc ⟨"_rb", some id⟩
          (.add (.mul (temp "_n" id) (.num esize)) (.num (ealign - 1))),
        .const ⟨"_raddr", some id⟩ (joined (temp "_rb" id)),
        .const ⟨"_bs", some id⟩
          (.mul (.ceilDiv (temp "_raddr" id) (.num ealign)) (.num ealign)),
        .forLess ⟨"_ix", some id⟩ (temp "_n" id)
          (block [.const ⟨"_el", some id⟩ (.index value (temp "_ix" id)),
            .const ⟨"_ep", some id⟩
              (.add (temp "_bs" id) (.mul (temp "_ix" id) (.num esize))),
            element]),
        writeItemsLen base off (.mod (temp "_bs" id) (.num 4294967296))
          (.floorDiv (temp "_bs" id) (.num 4294967296)) (temp "_n" id)]))

/-- `emit_js_guest_marshal`, and `emit_js_guest_marshal_array` in it. -/
def emitJsGuestMarshal (ir : ApiIr) :
    Nat → ResolvedTypeRef → JsExpr → Nat → JsExpr → Nat → Except JsGenError (JsStmt × Nat)
  | 0, _, _, _, _, _                   => .error .outOfFuel
  | fuel + 1, ty, base, off, value, uid =>
    match ty with
    | .abiType .stringView => .ok (emitJsGuestStringView base off value uid, uid + 1)
    | .userDefined name    =>
      match arrayElementName name with
      | some element => do
        let elemRef := resolvedTypeRefForName element
        let esize ← jsCSize ir fuel elemRef
        let ealign ← jsCAlign ir fuel elemRef
        let code ← emitJsGuestMarshal ir fuel elemRef (temp "_ep" uid) 0 (temp "_el" uid) (uid + 1)
        .ok (emitArray esize ealign base off value uid code.1, code.2)
      | none =>
        match enumNamed ir name, typeNamed ir name with
        | none, some s =>
          emitFields ir fuel (emitJsGuestMarshal ir fuel) base value s.fields off uid
        -- An enum, or a name that the writer refuses.
        | _, _         => do
          let code ← emitJsWriteValue ir fuel ty base off value
          .ok (code, uid)
    | _ => do
      let code ← emitJsWriteValue ir fuel ty base off value
      .ok (code, uid)

/-- `emit_js_guest_return_write`. -/
def emitJsGuestReturnWrite (ir : ApiIr) (fuel : Nat) (retTy : ResolvedTypeRef) :
    Except JsGenError JsStmt :=
  let outPtr := JsExpr.name ⟨"out_ptr", none⟩
  let result := JsExpr.name ⟨"result", none⟩
  if retTy = .abiType .stringView then
    .ok (emitString ⟨"_retBytes", none⟩ ⟨"_retBuf", none⟩ ⟨"_retPtr", none⟩ ⟨"_i", none⟩ outPtr 0
      result)
  else do
    let code ← emitJsGuestMarshal ir fuel retTy outPtr 0 result 0
    .ok code.1

end PolyPlug.Codegen
