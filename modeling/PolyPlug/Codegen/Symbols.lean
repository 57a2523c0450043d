import PolyPlug.Codegen.ApiTypes
import PolyPlug.Lib.Words

/-!
# `PolyPlug.Codegen.Symbols`: the names of generated symbols

The generators make the names of types, traits and statics from the names of a schema and of the
plugins of a bundle: they cut a name into words and begin each with a capital, or write
it in upper case. The case mapping of characters is a parameter.
-/

set_option autoImplicit false

namespace PolyPlug.Codegen

open PolyPlug.Lib

/-- `char::to_uppercase`. -/
structure CaseMap where
  upper : Char → List Char
  upper_ascii : ∀ c, c.toNat < 128 → upper c = [c.toUpper]

/-- The case mapping of ASCII. -/
def asciiCase : CaseMap where
  upper c := [c.toUpper]
  upper_ascii _ _ := rfl

/-- `str::replace`, of a character. -/
def replaceChar (s : String) (old new : Char) : String :=
  String.ofList (s.toList.map fun c => if c = old then new else c)

/-- The characters that end a word. -/
def isWordSeparator (c : Char) : Bool := c = '.' || c = '_' || c = '-'

section
variable (caseMap : CaseMap)

/-- `str::to_uppercase`. -/
def toUppercase (s : String) : String := String.ofList (s.toList.flatMap caseMap.upper)

/-- `canonical_pascal_case`. -/
def canonicalPascalCase (value : String) : String :=
  String.ofList (((value.toList.splitOnP isWordSeparator).filter fun segment =>
    !segment.isEmpty).flatMap (capitalizeWord caseMap.upper))

/-- `contract_name_to_struct`. -/
def contractNameToStruct (name : String) : String := canonicalPascalCase caseMap name ++ "Contract"

/-- `contract_name_to_guest_trait`. -/
def contractNameToGuestTrait (name : String) : String :=
  canonicalPascalCase caseMap name ++ "GuestContract"

/-- `contract_name_to_upper_snake`. -/
def contractNameToUpperSnake (name : String) : String :=
  toUppercase caseMap (replaceChar name '.' '_')

/-- `host_contract_name_to_trait`. -/
def hostContractNameToTrait (name : String) : String :=
  let pascal := canonicalPascalCase caseMap ((stripStart "host." name).getD name)
  if "Host".toList.isPrefixOf pascal.toList then pascal else "Host" ++ pascal

/-- The interface of a plugin. -/
def interfaceSymbol (pluginName : String) : String :=
  replaceChar (toUppercase caseMap pluginName) '.' '_' ++ "_INTERFACE"

/-- `arg_pack_struct_name`. -/
def argPackStructName (contractStruct fnName : String) : String :=
  let fnPascal := String.ofList
    ((fnName.toList.splitOnP fun c => c = '_').flatMap (capitalizeWord caseMap.upper))
  contractStruct ++ fnPascal ++ "Args"

/-- `needs_arg_pack`. -/
def needsArgPack (params : List ResolvedField) : Bool := 1 < params.length

/-- The names of the structs for the arguments of a contract. -/
def packNames (contractStruct : String) (contract : ApiContract) : List String :=
  (contract.functions.filter fun f => needsArgPack f.params).map fun f =>
    argPackStructName caseMap contractStruct f.name

/-- The names of the structs for the arguments of a schema: all of them stand in one file. -/
def argPackNames (ir : ApiIr) : List String :=
  ir.contracts.flatMap (fun c => packNames caseMap (contractNameToStruct caseMap c.name) c) ++
    ir.hostContracts.flatMap fun c => packNames caseMap (hostContractNameToTrait caseMap c.name) c

end

end PolyPlug.Codegen
