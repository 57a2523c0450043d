import PolyPlug.Codegen.ApiTypes

/-!
# `PolyPlug.Codegen.RustExpr`: the expressions of the Rust host caller

The Rust generator asks whether a type is `Copy` and whether it holds a buffer, and writes the
expressions that turn a value of the domain into one of the ABI and back. Each of the four follows
the type: the fields of a struct, the element of an array, the payloads of a tagged enum.

The depth of the calls is fuel. A tagged enum has its recursive calls as parameters, and of
the two callers of `tagged_host_abi_from_domain_expr` only the host is here.
-/

set_option autoImplicit false

namespace PolyPlug.Codegen

/-- Why a generator returns no text. -/
inductive GenError where
  | outOfFuel
  | unreachable (message : String)
deriving DecidableEq

/-- `resolved_type_ref_for_name`. -/
def resolvedTypeRefForName (name : String) : ResolvedTypeRef :=
  match PrimitiveType.parse name with
  | some p => .primitive p
  | none   =>
    match AbiBuiltin.parse name with
    | some b => .abiType b
    | none   => .userDefined name

/-- `rust_type_name`. -/
def rustTypeName : ResolvedTypeRef → String
  | .primitive p         => p.rustName
  | .abiType .stringView => "StringView"
  | .abiType .buffer     => "Buffer"
  | .abiType .ptr        => "*mut ()"
  | .abiType .void       => "()"
  | .userDefined name    => name

/-- The enum of a name. -/
def enumNamed (ir : ApiIr) (name : String) : Option EnumDef :=
  ir.enums.find? fun item => item.name = name

/-- The type of a name. -/
def typeNamed (ir : ApiIr) (name : String) : Option ResolvedType :=
  ir.types.find? fun item => item.name = name

/-! ### Questions -/

/-- `rust_type_ref_is_copy`. -/
def rustTypeRefIsCopy (ir : ApiIr) : Nat → ResolvedTypeRef → Option Bool
  | 0, _         => none
  | fuel + 1, ty =>
    match ty with
    | .primitive _       => some true
    | .abiType .buffer   => some false
    | .abiType _         => some true
    | .userDefined name =>
      if (arrayElementName name).isSome ∨ (enumNamed ir name).isSome then some true
      else
        match typeNamed ir name with
        | some s => s.fields.allM fun f => rustTypeRefIsCopy ir fuel f.ty
        | none   => some true

/-- `domain_type_contains_buffer`. -/
def domainTypeContainsBuffer (ir : ApiIr) : Nat → ResolvedTypeRef → Option Bool
  | 0, _         => none
  | fuel + 1, ty =>
    match ty with
    | .abiType .buffer  => some true
    | .userDefined name =>
      match arrayElementName name with
      | some element => domainTypeContainsBuffer ir fuel (resolvedTypeRefForName element)
      | none         =>
        match typeNamed ir name with
        | some item => item.fields.anyM fun field => domainTypeContainsBuffer ir fuel field.ty
        | none      => some false
    | _ => some false

/-! ### Values of the ABI -/

/-- A struct expression. -/
def structExpr (name fields : String) : String := name ++ " \x7b " ++ fields ++ " \x7d"

/-- A `match`. -/
def matchExpr (value arms : String) : String :=
  "match " ++ value ++ " \x7b " ++ arms ++ " \x7d"

/-- `canonical_abi_value_expr`. -/
def canonicalAbiValueExpr (ir : ApiIr) : Nat → ResolvedTypeRef → Except GenError String
  | 0, _         => .error .outOfFuel
  | fuel + 1, ty =>
    match ty with
    | .primitive .bool     => .ok "false"
    | .primitive .f32      => .ok "0.0"
    | .primitive .f64      => .ok "0.0"
    | .primitive _         => .ok "0"
    | .abiType .stringView => .ok "polyplug_abi::string_view_null()"
    | .abiType .buffer     =>
      .ok "polyplug_abi::Buffer \x7b ptr: core::ptr::null_mut(), len: 0, cap: 0 \x7d"
    | .abiType .ptr        => .ok "core::ptr::null_mut()"
    | .abiType .void       => .ok "()"
    | .userDefined name    =>
      match enumNamed ir name with
      | some enumDef =>
        match enumDef.variants.head? with
        | some variant => .ok ("super::types::" ++ name ++ "::" ++ variant.name)
        | none         => .error (.unreachable "generated ABI enum has a variant")
      | none =>
        match typeNamed ir name with
        | none      => .error (.unreachable "validated ABI struct is present")
        | some item => do
          let fields ← item.fields.mapM fun field => do
            let value ← canonicalAbiValueExpr ir fuel field.ty
            .ok (field.name ++ ": " ++ value)
          .ok (structExpr ("super::types::" ++ name) (", ".intercalate fields))

/-- `tagged_enum_type`. -/
def taggedEnumType (ir : ApiIr) (name : String) : Option (ResolvedType × RustTaggedEnum) := do
  let ty ← typeNamed ir name
  let projection ← ty.taggedEnum
  some (ty, projection)

/-- The name of the enum of the tag. -/
def tagNameOf (ty : ResolvedType) (projection : RustTaggedEnum) : Except GenError String :=
  match ty.fields.find? fun field => field.name = projection.tagField with
  | none       => .error (.unreachable "validated tagged enum tag field")
  | some field =>
    match field.ty with
    | .userDefined tagName => .ok tagName
    | _                    => .error (.unreachable "validated tagged enum tag field is an enum")

/-- The field of `tagged_abi_struct_expr`: the tag, the payload, or a value that stands for
nothing. -/
def taggedAbiField (projection : RustTaggedEnum) (mapping : RustTaggedEnumVariant)
    (tagName : String) (payloadValue canonical : ResolvedTypeRef → Except GenError String)
    (field : ResolvedField) :
    Except GenError String := do
  let value ←
    if field.name = projection.tagField then
      .ok ("super::types::" ++ tagName ++ "::" ++ mapping.tag)
    else if mapping.payload = some field.name then payloadValue field.ty
    else canonical field.ty
  .ok (field.name ++ ": " ++ value)

/-- `tagged_abi_struct_expr`. -/
def taggedAbiStructExpr (name : String) (ty : ResolvedType) (projection : RustTaggedEnum)
    (mapping : RustTaggedEnumVariant)
    (payloadValue canonical : ResolvedTypeRef → Except GenError String) :
    Except GenError String := do
  let tagName ← tagNameOf ty projection
  let fields ← ty.fields.mapM (taggedAbiField projection mapping tagName payloadValue canonical)
  .ok (structExpr ("super::types::" ++ name) (", ".intercalate fields))

/-- `tagged_host_abi_from_domain_expr`, for a type that is projected. -/
def taggedHostAbiFromDomainExpr (name value : String) (ty : ResolvedType)
    (projection : RustTaggedEnum)
    (payloadValue canonical : ResolvedTypeRef → Except GenError String) :
    Except GenError String := do
  let variants ← projection.variants.mapM fun mapping => do
    let bind := if mapping.payload.isSome then "(payload)" else ""
    let abi ← taggedAbiStructExpr name ty projection mapping payloadValue canonical
    .ok ("super::domain::" ++ name ++ "::" ++ mapping.name ++ bind ++ " => " ++ abi)
  .ok (matchExpr value (", ".intercalate variants))

/-- The value of an enum, in one of the two modules, as one of the other. -/
def enumExpr (source target name value : String) (enumDef : EnumDef) : String :=
  if enumDef.bitflag then "*(" ++ value ++ ")"
  else
    matchExpr ("*(" ++ value ++ ")") (", ".intercalate (enumDef.variants.map fun variant =>
      "super::" ++ source ++ "::" ++ name ++ "::" ++ variant.name ++ " => super::" ++ target ++
        "::" ++ name ++ "::" ++ variant.name))

/-- The value of a field, behind a reference. -/
def fieldValue (value field : String) : String := "&((*(" ++ value ++ "))." ++ field ++ ")"

/-- `host_abi_from_domain_expr`. -/
def hostAbiFromDomainExpr (ir : ApiIr) :
    Nat → ResolvedTypeRef → String → Bool → Except GenError String
  | 0, _, _, _                    => .error .outOfFuel
  | fuel + 1, ty, value, borrowed =>
    match ty with
    | .primitive _         => .ok (if borrowed then "*(" ++ value ++ ")" else value)
    | .abiType .ptr        => .ok (if borrowed then "*(" ++ value ++ ")" else value)
    | .abiType .void       => .ok "()"
    | .abiType .stringView =>
      .ok ("StringView \x7b ptr: (" ++ value ++ ").as_ptr().cast_mut(), len: (" ++ value ++
        ").len() \x7d")
    | .abiType .buffer     =>
      .ok ("Buffer \x7b ptr: (" ++ value ++ ").as_ptr().cast_mut(), len: (" ++ value ++
        ").len(), cap: (" ++ value ++ ").len() \x7d")
    | .userDefined name    =>
      match enumNamed ir name with
      | some enumDef => .ok (enumExpr "domain" "types" name value enumDef)
      | none         =>
        match arrayElementName name with
        | some element => do
          let item ← hostAbiFromDomainExpr ir fuel (resolvedTypeRefForName element) "item" true
          .ok ("\x7b let values: Vec<" ++ rustTypeName (resolvedTypeRefForName element) ++
            "> = (" ++ value ++
            ").iter().map(|item| -> Result<_, ContractError> \x7b Ok(" ++ item ++
            ") \x7d).collect::<Result<Vec<_>, ContractError>>()?; let (items, len) = " ++
            "caller_arena_array(&mut self.arena, &values)?; super::types::" ++ name ++
            " \x7b items, len \x7d \x7d")
        | none =>
          match taggedEnumType ir name with
          | some (projected, projection) =>
            taggedHostAbiFromDomainExpr name value projected projection
              (fun ty => hostAbiFromDomainExpr ir fuel ty "payload" true)
              (canonicalAbiValueExpr ir fuel)
          | none =>
            match typeNamed ir name with
            | none      => .error (.unreachable "validated domain struct is present")
            | some item => do
              let mapped ← item.fields.mapM fun field => do
                let text ← hostAbiFromDomainExpr ir fuel field.ty (fieldValue value field.name) true
                .ok (field.name ++ ": " ++ text)
              .ok (structExpr ("super::types::" ++ name) (", ".intercalate mapped))

/-! ### Values of the domain -/

/-- The payload of a variant of a tagged enum. -/
def taggedDomainPayload (ty : ResolvedType) (value : String)
    (payloadValue : ResolvedTypeRef → String → Except GenError String) :
    Option String → Except GenError String
  | none         => .ok ""
  | some payload =>
    match ty.fields.find? fun field => field.name = payload with
    | none       => .error (.unreachable "validated tagged enum payload")
    | some field => do
      let text ← payloadValue field.ty (fieldValue value payload)
      .ok ("(" ++ text ++ ")")

/-- `tagged_host_domain_from_abi_expr`, for a type that is projected by a tag that is no primitive
and no builtin. -/
def taggedHostDomainFromAbiExpr (name value tagName : String) (ty : ResolvedType)
    (projection : RustTaggedEnum)
    (payloadValue : ResolvedTypeRef → String → Except GenError String) :
    Except GenError String := do
  let variants ← projection.variants.mapM fun mapping => do
    let payload ← taggedDomainPayload ty value payloadValue mapping.payload
    .ok ("super::types::" ++ tagName ++ "::" ++ mapping.tag ++ " => super::domain::" ++ name ++
      "::" ++ mapping.name ++ payload)
  .ok (matchExpr ("(*(" ++ value ++ "))." ++ projection.tagField) (", ".intercalate variants))

/-- The type of a name, its projection and the enum of its tag. -/
def taggedDomainType (ir : ApiIr) (name : String) :
    Option (ResolvedType × RustTaggedEnum × String) := do
  let (ty, projection) ← taggedEnumType ir name
  let tag ← ty.fields.find? fun field => field.name = projection.tagField
  match tag.ty with
  | .userDefined tagName => some (ty, projection, tagName)
  | _                    => none

/-- `host_domain_from_abi_expr`. -/
def hostDomainFromAbiExpr (ir : ApiIr) (host returnedFromNative : String) :
    Nat → ResolvedTypeRef → String → Except GenError String
  | 0, _, _              => .error .outOfFuel
  | fuel + 1, ty, value =>
    match ty with
    | .primitive _         => .ok ("*(" ++ value ++ ")")
    | .abiType .ptr        => .ok ("*(" ++ value ++ ")")
    | .abiType .void       => .ok "()"
    | .abiType .stringView =>
      .ok ("\x7b\n// SAFETY: a successful dispatch returned a valid UTF-8 StringView in its " ++
        "initialized out slot.\nunsafe \x7b (" ++ value ++
        ").try_as_str().expect(\"valid ABI string\") \x7d.to_owned()\n\x7d")
    | .abiType .buffer     =>
      .ok ("\x7b\nlet buffer: &Buffer = " ++ value ++
        ";\n// SAFETY: a successful dispatch returned \x60buffer\x60 backed by readable ABI " ++
        "memory.\nlet bytes = unsafe \x7b buffer.as_slice() \x7d.to_vec();\nif " ++
        returnedFromNative ++
        " && !buffer.ptr.is_null() \x7b\nlet host = " ++ host ++
        ";\n// SAFETY: native dispatch transferred this buffer's allocation to the host " ++
        "allocator that owns \x60host\x60.\n" ++
        "unsafe \x7b ((*host).free)(host, buffer.ptr, buffer.cap, 1) \x7d;\n" ++
        "\x7d\nbytes\n\x7d")
    | .userDefined name    =>
      match enumNamed ir name with
      | some enumDef => .ok (enumExpr "types" "domain" name value enumDef)
      | none         =>
        match arrayElementName name with
        | some element => do
          let item ← hostDomainFromAbiExpr ir host returnedFromNative fuel
            (resolvedTypeRefForName element) "item"
          .ok ("\x7b\n// SAFETY: a successful dispatch returned an initialized array wrapper " ++
            "whose elements remain valid for this conversion.\nunsafe \x7b (" ++ value ++
            ").as_slice() \x7d.iter().map(|item| " ++ item ++ ").collect()\n\x7d")
        | none =>
          match taggedDomainType ir name with
          | some (projected, projection, tagName) =>
            taggedHostDomainFromAbiExpr name value tagName projected projection
              (hostDomainFromAbiExpr ir host returnedFromNative fuel)
          | none =>
            match typeNamed ir name with
            | none      => .error (.unreachable "validated domain struct is present")
            | some item => do
              let mapped ← item.fields.mapM fun field => do
                let text ← hostDomainFromAbiExpr ir host returnedFromNative fuel field.ty
                  (fieldValue value field.name)
                .ok (field.name ++ ": " ++ text)
              .ok (structExpr ("super::domain::" ++ name) (", ".intercalate mapped))

end PolyPlug.Codegen
