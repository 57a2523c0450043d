import PolyPlug.Codegen.Bundle

/-!
# `PolyPlug.Codegen.Contracts`: the guest contracts of `api.toml`

`lowerContracts` checks the guest contracts of an API schema and resolves their ids.
Every segment of a contract name is an identifier that no target language reserves, and
no two contracts have one name. The table of reserved words is a parameter.

`parseBundleWithApi` puts a bundle beside the contracts it implements. The types, the
enums and the host contracts of the schema are left out. They can only refuse it.
-/

set_option autoImplicit false

namespace PolyPlug.Codegen

open PolyPlug.Rust
open PolyPlug.Abi

/-! ### Names -/

/-- A character of an identifier: `is_ascii_alphanumeric`, or an underscore. -/
def isIdentifierChar (c : Char) : Bool := c.isAlphanum || c = '_'

/-- `is_valid_identifier`: `[A-Za-z_][A-Za-z0-9_]*`. -/
def isValidIdentifier (name : String) : Bool :=
  match name.toList with
  | []      => false
  | c :: cs => (c.isAlpha || c = '_') && cs.all isIdentifierChar

section
variable (reservedIn : String → Option String)

/-- `validate_not_reserved`. -/
def validateNotReserved (name kind context : String) : Except PolyplugcError Unit :=
  match reservedIn name with
  | some languages => .error (.reservedIdentifier kind name context languages)
  | none           => .ok ()

/-- `validate_identifier`. -/
def validateIdentifier (name kind context : String) : Except PolyplugcError Unit :=
  if isValidIdentifier name then validateNotReserved reservedIn name kind context
  else .error (.invalidIdentifier kind name context)

/-- `validate_contract_name`. -/
def validateContractName (name kind : String) : Except PolyplugcError Unit :=
  if name.isEmpty || !(split name '.').all isValidIdentifier then
    .error (.invalidIdentifier kind name name)
  else (split name '.').forM fun segment => validateNotReserved reservedIn segment kind name

/-! ### Contracts -/

/-- `RawFunction`: its name and those of its parameters. -/
structure RawFunction where
  name : String
  params : List String
deriving DecidableEq

/-- `RawGuestContract`. -/
structure RawGuestContract where
  name : String
  version : String
  functions : List RawFunction
deriving DecidableEq

/-- `ResolvedContract`, with the names of its functions. -/
structure ResolvedContract where
  name : String
  contractId : UInt64
  version : Version
  functions : List String
deriving DecidableEq

/-- The loop of `validate_contract_members`. -/
def validateFunctions (contractName : String) :
    List RawFunction → List String → Except PolyplugcError Unit
  | [], _                => .ok ()
  | rawFn :: rest, seen => do
    validateIdentifier reservedIn rawFn.name "function" contractName
    if rawFn.name ∈ seen then .error (.duplicateFunctionName contractName rawFn.name)
    else do
      rawFn.params.forM fun p => validateIdentifier reservedIn p "parameter" rawFn.name
      validateFunctions contractName rest (seen ++ [rawFn.name])

/-- `validate_contract_members`. -/
def validateContractMembers (contractName kind : String) (functions : List RawFunction) :
    Except PolyplugcError Unit := do
  validateContractName reservedIn contractName kind
  validateFunctions reservedIn contractName functions []

/-- The name of the first contract whose name an earlier one has. -/
def duplicateContract : List RawGuestContract → List String → Option String
  | [], _            => none
  | raw :: rest, seen =>
    if raw.name ∈ seen then some raw.name else duplicateContract rest (seen ++ [raw.name])

/-- One guest contract of `lower_api`. -/
def lowerContract (raw : RawGuestContract) : Except PolyplugcError ResolvedContract := do
  validateContractMembers reservedIn raw.name "guest contract" raw.functions
  let version ← parseVersion raw.version
  .ok {
    name := raw.name
    contractId := (GuestContractId.new raw.name version.major).id
    version
    functions := raw.functions.map RawFunction.name }

/-- The guest contracts of `lower_api`. -/
def lowerContracts (raws : List RawGuestContract) :
    Except PolyplugcError (List ResolvedContract) :=
  match duplicateContract raws [] with
  | some name => .error (.duplicateContractName name)
  | none      => raws.mapM (lowerContract reservedIn)

/-! ### A bundle and its contracts -/

/-- `ValidatedIr`: the contracts and the bundle. -/
structure ValidatedIr where
  contracts : List ResolvedContract
  bundle : ResolvedBundle
deriving DecidableEq

/-- `check_bundle_name_conflict`. -/
def checkBundleNameConflict (bundleName : String) (contracts : List ResolvedContract) :
    Except PolyplugcError Unit :=
  if contracts.any fun contract => contract.name = bundleName then
    .error (.bundleNameConflict bundleName)
  else .ok ()

/-- `parse_bundle_with_api_mode`, after both files are parsed as TOML. A bundle without an
API schema has no contracts. -/
def parseBundleWithApi (api : Option (List RawGuestContract)) (raw : RawBundleSchema)
    (mode : BundleParseMode) : Except PolyplugcError ValidatedIr := do
  let contracts ← match api with
    | some raws => lowerContracts reservedIn raws
    | none      => .ok []
  checkBundleNameConflict raw.name contracts
  let bundle ← lowerBundle raw mode
  .ok ⟨contracts, bundle⟩

end

end PolyPlug.Codegen
