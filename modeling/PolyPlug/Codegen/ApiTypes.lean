import PolyPlug.Codegen.Enums

/-!
# `PolyPlug.Codegen.ApiTypes`: the types of `api.toml`

`lowerApi` checks an API schema and resolves its type references: those of the fields, and those
of the parameters and the returns of both kinds of contracts. A reference is a primitive, a
builtin of the ABI, the name of a type or an enum of the schema, or `Array<T>`. An array becomes a
reference to a wrapper named `ArrayOf_T`. `collectArrayWrapperTypes` adds the wrappers to the
types, and `topologicallyOrderTypes` lists a type behind the types of its fields.

Docs and language rules are left out, but for the projection of a type to a tagged enum, which the
generators read. The depth of the search is fuel, and as many levels as there are types
are enough.
-/

set_option autoImplicit false

namespace PolyPlug.Codegen

open PolyPlug.Rust
open PolyPlug.Abi

/-! ### Type references -/

/-- `PrimitiveType`. -/
inductive PrimitiveType where
  | u8
  | u16
  | u32
  | u64
  | i8
  | i16
  | i32
  | i64
  | f32
  | f64
  | bool
deriving DecidableEq

/-- `PrimitiveType::rust_name`. -/
def PrimitiveType.rustName : PrimitiveType → String
  | .u8   => "u8"
  | .u16  => "u16"
  | .u32  => "u32"
  | .u64  => "u64"
  | .i8   => "i8"
  | .i16  => "i16"
  | .i32  => "i32"
  | .i64  => "i64"
  | .f32  => "f32"
  | .f64  => "f64"
  | .bool => "bool"

/-- `PrimitiveType::parse`. -/
def PrimitiveType.parse (s : String) : Option PrimitiveType :=
  [.u8, .u16, .u32, .u64, .i8, .i16, .i32, .i64, .f32, .f64, .bool].find? fun p => p.rustName = s

/-- `AbiBuiltin`. -/
inductive AbiBuiltin where
  | stringView
  | buffer
  | ptr
  | void
deriving DecidableEq

/-- `AbiBuiltin::parse`. -/
def AbiBuiltin.parse (s : String) : Option AbiBuiltin :=
  if s = "StringView" then some .stringView
  else if s = "Buffer" then some .buffer
  else if s = "ptr" ∨ s = "Ptr" then some .ptr
  else if s = "void" ∨ s = "Void" then some .void
  else none

/-- `ResolvedTypeRef`. -/
inductive ResolvedTypeRef where
  | primitive (p : PrimitiveType)
  | abiType (b : AbiBuiltin)
  | userDefined (name : String)
deriving DecidableEq

/-- The errors of a schema. The locations and suggestions are left out. -/
inductive ApiError where
  | names (error : PolyplugcError)
  | enumDef (error : EnumError)
  | enumNameCollision (name : String)
  | unknownType (typeRef contract : String)
  | hostContractNameMissingStart (name : String)
deriving DecidableEq

/-- `str::strip_prefix`, on the characters. -/
def stripStart (start : String) (s : String) : Option String :=
  if start.toList.isPrefixOf s.toList then
    some (String.ofList (s.toList.drop start.toList.length))
  else none

/-- `str::strip_suffix` on one character. -/
def stripLast (last : Char) (s : String) : Option String :=
  if s.toList.getLast? = some last then some (String.ofList s.toList.dropLast) else none

/-- The trimmed text between `Array<` and `>`. -/
def arrayInner (typeStr : String) : Option String :=
  ((stripStart "Array<" typeStr).bind (stripLast '>')).map trim

/-- `array_wrapper_name`. -/
def arrayWrapperName (inner : String) : String := "ArrayOf_" ++ inner

/-- `array_element_name`. -/
def arrayElementName (name : String) : Option String := stripStart "ArrayOf_" name

/-- `resolve_type_ref`, but for arrays. -/
def resolvePlainRef (typeStr : String) (knownTypes : List String) : Option ResolvedTypeRef :=
  match PrimitiveType.parse typeStr with
  | some p => some (.primitive p)
  | none   =>
    match AbiBuiltin.parse typeStr with
    | some b => some (.abiType b)
    -- The built-in names win over those of the schema.
    | none   => if typeStr ∈ knownTypes then some (.userDefined typeStr) else none

/-- `resolve_type_ref`. The element of an array is no array, so the call for it goes no
further. -/
def resolveTypeRef (typeStr contract : String) (knownTypes : List String) :
    Except ApiError ResolvedTypeRef :=
  match resolvePlainRef typeStr knownTypes with
  | some ref => .ok ref
  | none     =>
    match arrayInner typeStr with
    | none       => .error (.unknownType typeStr contract)
    | some inner =>
      -- Arrays do not nest.
      if (stripStart "Array<" inner).isSome then .error (.unknownType typeStr contract)
      else
        match resolvePlainRef inner knownTypes with
        | some _ => .ok (.userDefined (arrayWrapperName inner))
        | none   => .error (.unknownType inner contract)

/-- `resolve_type_ref_spanned`: the error is about the whole reference. -/
def resolveTypeRefSpanned (typeStr contract : String) (knownTypes : List String) :
    Except ApiError ResolvedTypeRef :=
  (resolveTypeRef typeStr contract knownTypes).mapError fun _ => .unknownType typeStr contract

/-! ### The authored schema -/

/-- `RawField`, and `RawParam`. -/
structure RawField where
  name : String
  ty : String
deriving DecidableEq

/-- `RustTaggedEnumVariant`. A variant without a name has that of its tag. -/
structure RustTaggedEnumVariant where
  tag : String
  name : String
  payload : Option String
  isDefault : Bool
deriving DecidableEq

/-- `RustTaggedEnum`. -/
structure RustTaggedEnum where
  tagField : String
  variants : List RustTaggedEnumVariant
deriving DecidableEq

/-- `RawType`. -/
structure RawType where
  name : String
  fields : List RawField
  taggedEnum : Option RustTaggedEnum
deriving DecidableEq

/-- `RawFunction`, with the types of its parameters and its return. -/
structure RawApiFunction where
  name : String
  params : List RawField
  returns : Option String
deriving DecidableEq

/-- `RawGuestContract`, and `RawHostContract`. -/
structure RawApiContract where
  name : String
  version : String
  functions : List RawApiFunction
deriving DecidableEq

/-- `RawApiSchema`. -/
structure RawApiSchema where
  types : List RawType
  enums : List RawEnum
  guestContracts : List RawApiContract
  hostContracts : List RawApiContract
deriving DecidableEq

/-- The names that a reference may use. -/
def RawApiSchema.knownNames (raw : RawApiSchema) : List String :=
  raw.types.map RawType.name ++ raw.enums.map RawEnum.name

/-! ### The resolved schema -/

/-- `ResolvedField`, and `ResolvedParam`. -/
structure ResolvedField where
  name : String
  ty : ResolvedTypeRef
deriving DecidableEq

/-- `ResolvedType`. -/
structure ResolvedType where
  name : String
  fields : List ResolvedField
  taggedEnum : Option RustTaggedEnum
deriving DecidableEq

/-- `ResolvedFunction`. -/
structure ApiFunction where
  name : String
  params : List ResolvedField
  returns : Option ResolvedTypeRef
deriving DecidableEq

/-- `ResolvedContract`, and `ResolvedHostContract`. -/
structure ApiContract where
  name : String
  version : Version
  functions : List ApiFunction
deriving DecidableEq

/-- `ValidatedIr`, without a bundle. -/
structure ApiIr where
  types : List ResolvedType
  enums : List EnumDef
  contracts : List ApiContract
  hostContracts : List ApiContract
deriving DecidableEq

/-! ### Array wrappers -/

/-- The references of the functions of a contract. -/
def ApiContract.refs (c : ApiContract) : List ResolvedTypeRef :=
  c.functions.flatMap fun f => f.params.map ResolvedField.ty ++ f.returns.toList

/-- `note`. -/
def noteWrapper (names : List String) (ty : ResolvedTypeRef) : List String :=
  match ty with
  | .userDefined n =>
    if (arrayElementName n).isSome ∧ n ∉ names then names ++ [n] else names
  | _ => names

/-- A synthesized wrapper. -/
def arrayWrapperType (name : String) : ResolvedType :=
  ⟨name, [⟨"items", .primitive .u64⟩, ⟨"len", .primitive .u64⟩], none⟩

/-- `collect_array_wrapper_types`. -/
def collectArrayWrapperTypes (types : List ResolvedType)
    (contracts hostContracts : List ApiContract) : List ResolvedType :=
  let refs := types.flatMap (fun t => t.fields.map ResolvedField.ty) ++
    contracts.flatMap ApiContract.refs ++ hostContracts.flatMap ApiContract.refs
  -- A declared type of the name of a wrapper takes its place.
  ((refs.foldl noteWrapper []).filter fun n => !types.any fun t => t.name = n).map arrayWrapperType

/-! ### The order of the types -/

/-- The sets and the list of `visit_type_deps`. -/
structure TypeVisit where
  emitted : Finset String
  inProgress : Finset String
  ordered : List ResolvedType
deriving DecidableEq

/-- The loop body of `visit_type_deps`: a field of a listed type is visited. -/
def visitField (types : List ResolvedType) (visit : String → TypeVisit → Option TypeVisit)
    (s : TypeVisit) (f : ResolvedField) : Option TypeVisit :=
  match f.ty with
  -- Enums and built-in types are not visited.
  | .userDefined dep => if dep ∈ types.map ResolvedType.name then visit dep s else some s
  | _                => some s

/-- `visit_type_deps`. -/
def visitTypeDeps (types : List ResolvedType) : Nat → String → TypeVisit → Option TypeVisit
  | 0, _, _           => none
  | fuel + 1, name, s =>
    -- A type in progress is on a cycle. It is not an error.
    if name ∈ s.emitted ∨ name ∈ s.inProgress then some s
    else
      match types.find? fun t => t.name = name with
      | none    => some s
      | some ty => do
        let s ← ty.fields.foldlM (visitField types (visitTypeDeps types fuel))
          { s with inProgress := insert name s.inProgress }
        some ⟨insert name s.emitted, s.inProgress.erase name, s.ordered ++ [ty]⟩

/-- The loop of `topologically_order_types`. -/
def visitTypes (types : List ResolvedType) : Option TypeVisit :=
  types.foldlM (fun s t => visitTypeDeps types (types.length + 1) t.name s) ⟨∅, ∅, []⟩

/-- `topologically_order_types`. The search always has fuel left. -/
def topologicallyOrderTypes (types : List ResolvedType) : List ResolvedType :=
  match visitTypes types with
  | some s => s.ordered
  | none   => types

/-! ### Lowering -/

/-- The types of `lower_api`. -/
def lowerType (knownTypes : List String) (raw : RawType) : Except ApiError ResolvedType := do
  (validateIdentifier reservedIn raw.name "type" raw.name).mapError .names
  let fields ← raw.fields.mapM fun field => do
    (validateIdentifier reservedIn field.name "field" raw.name).mapError .names
    let ty ← resolveTypeRefSpanned field.ty raw.name knownTypes
    .ok (⟨field.name, ty⟩ : ResolvedField)
  .ok ⟨raw.name, fields, raw.taggedEnum⟩

/-- A function of a contract. A return of `void` is none. -/
def lowerFunction (knownTypes : List String) (contract : String) (raw : RawApiFunction) :
    Except ApiError ApiFunction := do
  let params ← raw.params.mapM fun p => do
    let ty ← resolveTypeRefSpanned p.ty contract knownTypes
    .ok (⟨p.name, ty⟩ : ResolvedField)
  match raw.returns with
  | none     => .ok ⟨raw.name, params, none⟩
  | some ret => do
    let ty ← resolveTypeRef ret contract knownTypes
    .ok ⟨raw.name, params, if ty = .abiType .void then none else some ty⟩

/-- A contract of `lower_api`. -/
def lowerApiContract (knownTypes : List String) (kind : String) (raw : RawApiContract) :
    Except ApiError ApiContract := do
  (validateContractMembers reservedIn raw.name kind
    (raw.functions.map fun f => ⟨f.name, f.params.map RawField.name⟩)).mapError .names
  let version ← (parseVersion raw.version).mapError .names
  let functions ← raw.functions.mapM (lowerFunction knownTypes raw.name)
  .ok ⟨raw.name, version, functions⟩

/-- The first name that an earlier one of the list equals. -/
def duplicateName : List String → List String → Option String
  | [], _             => none
  | name :: rest, seen => if name ∈ seen then some name else duplicateName rest (seen ++ [name])

/-- The checks of `lower_api` on the names of the host contracts. -/
def checkHostNames (guestNames hostNames : List String) : Except ApiError Unit := do
  hostNames.forM fun name =>
    if (stripStart "host." name).isNone then .error (.hostContractNameMissingStart name)
    else if name ∈ guestNames then .error (.names (.duplicateContractName name))
    else .ok ()
  match duplicateName hostNames [] with
  | some name => .error (.names (.duplicateContractName name))
  | none      => .ok ()

/-! ### Tagged enums -/

/-- `validate_rust_identifier`. -/
def validateRustIdentifier (name kind context : String) : Except PolyplugcError Unit :=
  if isValidIdentifier name then
    match reservedIn name with
    | some languages =>
      if "Rust" ∈ reservingLanguages name ∨ "polyplug" ∈ reservingLanguages name ∨
          reservedPrefixes.any (fun beginning => beginning.toList.isPrefixOf name.toList) then
        .error (.reservedIdentifier kind name context languages)
      else .ok ()
    | none => .ok ()
  else .error (.invalidIdentifier kind name context)

/-- What the loop over the variants of a projection has seen: the tags, the names, the payloads, and
the number of defaults. -/
structure TaggedSeen where
  tags : List String
  names : List String
  payloads : List String
  defaults : Nat
deriving DecidableEq

/-- `ValidationFailed` with a text about a tagged enum. -/
def taggedError (message : String) : ApiError := .names (.validationFailed message)

/-- One variant of a projection. -/
def validateTaggedVariant (ty : ResolvedType) (tagEnum : EnumDef) (tagField : String)
    (seen : TaggedSeen) (mapping : RustTaggedEnumVariant) : Except ApiError TaggedSeen := do
  (validateRustIdentifier mapping.name "Rust tagged_enum variant" ty.name).mapError .names
  if mapping.name ∈ seen.names then
    .error (taggedError ("Rust tagged_enum \x60" ++ ty.name ++
      "\x60 reuses projected variant name \x60" ++ mapping.name ++ "\x60"))
  else if (¬ tagEnum.variants.any fun variant => variant.name = mapping.tag) ∨
      mapping.tag ∈ seen.tags then
    .error (taggedError ("Rust tagged_enum \x60" ++ ty.name ++ "\x60 maps tag \x60" ++
      mapping.tag ++ "\x60 incorrectly"))
  else if mapping.isDefault ∧ mapping.payload.isSome then
    .error (taggedError ("Rust tagged_enum \x60" ++ ty.name ++ "\x60 default variant must be unit"))
  else do
    match mapping.payload with
    | none         => .ok ()
    | some payload =>
      if ¬ ty.fields.any fun field => field.name = payload then
        .error (taggedError ("Rust tagged_enum \x60" ++ ty.name ++ "\x60 payload field \x60" ++
          payload ++ "\x60 does not exist"))
      else if payload = tagField ∨ payload ∈ seen.payloads then
        .error (taggedError ("Rust tagged_enum \x60" ++ ty.name ++ "\x60 reuses field \x60" ++
          payload ++ "\x60"))
      else .ok ()
    .ok ⟨seen.tags ++ [mapping.tag], seen.names ++ [mapping.name],
      seen.payloads ++ mapping.payload.toList, seen.defaults + mapping.isDefault.toNat⟩

/-- The enum of the tag field. -/
def tagEnumOf (enums : List EnumDef) (ty : ResolvedType) (tagField : String) :
    Except ApiError EnumDef :=
  match ty.fields.find? fun field => field.name = tagField with
  | none       => .error (taggedError ("Rust tagged_enum type \x60" ++ ty.name ++
      "\x60 has no tag field \x60" ++ tagField ++ "\x60"))
  | some field =>
    let notOrdinary := taggedError ("Rust tagged_enum tag field \x60" ++ tagField ++
      "\x60 must name an ordinary enum")
    match field.ty with
    | .userDefined tagName =>
      match enums.find? fun item => item.name = tagName with
      | none      => .error notOrdinary
      | some item =>
        if item.bitflag then
          .error (taggedError ("Rust tagged_enum tag enum \x60" ++ tagName ++
            "\x60 must not be a bitflag"))
        else .ok item
    | _ => .error notOrdinary

/-- The part of `validate_rust_semantic_rules` about one projected type. -/
def validateTaggedEnum (enums : List EnumDef) (ty : ResolvedType) : Except ApiError Unit :=
  match ty.taggedEnum with
  | none            => .ok ()
  | some projection => do
    if (arrayElementName ty.name).isSome then
      .error (taggedError ("Rust tagged_enum cannot target generated type \x60" ++ ty.name ++
        "\x60"))
    else do
      let tagEnum ← tagEnumOf enums ty projection.tagField
      if projection.variants.length ≠ tagEnum.variants.length then
        .error (taggedError ("Rust tagged_enum \x60" ++ ty.name ++
          "\x60 must map every tag variant exactly once"))
      else do
        let seen ← projection.variants.foldlM
          (validateTaggedVariant ty tagEnum projection.tagField) ⟨[], [], [], 0⟩
        if 1 < seen.defaults then
          .error (taggedError ("Rust tagged_enum \x60" ++ ty.name ++
            "\x60 has more than one default variant"))
        else .ok ()

/-! ### The schema -/

section
variable (classes : CharClasses)

/-- The first name of an enum that a type has. -/
def enumCollision (raw : RawApiSchema) : Option String :=
  (raw.enums.map RawEnum.name).find? fun name => name ∈ raw.types.map RawType.name

/-- `lower_api`. -/
def lowerApi (raw : RawApiSchema) : Except ApiError ApiIr := do
  match enumCollision raw with
  | some name => .error (.enumNameCollision name)
  | none      => do
    let types ← raw.types.mapM (lowerType raw.knownNames)
    let enums ← raw.enums.mapM fun e => (lowerEnum classes e).mapError .enumDef
    match duplicateName (raw.guestContracts.map RawApiContract.name) [] with
    | some name => .error (.names (.duplicateContractName name))
    | none      => do
      let contracts ← raw.guestContracts.mapM (lowerApiContract raw.knownNames "guest contract")
      let hostContracts ← raw.hostContracts.mapM (lowerApiContract raw.knownNames "host contract")
      checkHostNames (raw.guestContracts.map RawApiContract.name)
        (raw.hostContracts.map RawApiContract.name)
      -- The wrappers come after the declared types, and both are ordered together.
      let ordered := topologicallyOrderTypes
        (types ++ collectArrayWrapperTypes types contracts hostContracts)
      -- The projections are checked last, on the resolved fields.
      ordered.forM (validateTaggedEnum enums)
      .ok ⟨ordered, enums, contracts, hostContracts⟩

end

end PolyPlug.Codegen
