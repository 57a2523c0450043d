import PolyPlug.Codegen.RustProviders
import PolyPlug.Js.Registration

/-!
# `PolyPlug.Codegen.QuickJs`: the providers of a generated QuickJS bundle

For each entry of `implements` the module `contracts.ts` declares an interface, a descriptor,
the wrappers of the functions and the setter of the author's factory, all under names made of
the plugin's. The module `init.ts` imports the interface of each plugin by its name
and pushes one registration for it.

A module is given by the names it declares and by its interfaces. It does not load when a
name is no identifier or is declared twice, and `init.ts` does not load when the
module lacks an interface it imports. The types are left out. So are the bodies of the
functions.
-/

set_option autoImplicit false

namespace PolyPlug.Codegen

open PolyPlug.Rust
open PolyPlug.Abi
open PolyPlug.Registry
open PolyPlug.Js

/-- `str::to_uppercase`, `str::to_lowercase`, and what JavaScript accepts as an identifier. -/
structure TextRules where
  toUppercase : String → String
  toLowercase : String → String
  isIdentifier : String → Bool

/-! ### Names -/

/-- `replace(['.', '-'], "_")`. -/
def replaceDotDash (name : String) : String :=
  String.ofList (name.toList.map fun c => if c = '.' || c = '-' then '_' else c)

section
variable (rules : TextRules)

/-- `plugin_var`. -/
def pluginVar (pluginName : String) : String := replaceDotDash (rules.toUppercase pluginName)

/-- A segment with its first letter in upper case. -/
def capitalize (segment : String) : String :=
  match segment.toList with
  | []            => ""
  | first :: rest => rules.toUppercase (String.singleton first) ++ String.ofList rest

/-- `js_factory_setter_name`. -/
def jsFactorySetterName (pluginName : String) : String :=
  "set" ++ String.join ((split (replaceDotDash pluginName) '_').map (capitalize rules)) ++ "Factory"

/-! ### `contracts.ts` -/

/-- A constant `X_INTERFACE`, before its setter was called. -/
structure JsInterfaceConst where
  contractLo : Nat
  contractHi : Nat
  fnCount : Nat
  functions : List String
  factory : Option FactoryCall
  contractName : String
  version : Nat
deriving DecidableEq

/-- What is declared for one entry. -/
structure JsProvider where
  pluginName : String
  interfaceName : String
  descriptorName : String
  wrappers : List String
  setFactoryName : String
  interface : JsInterfaceConst
deriving DecidableEq

/-- `render_plugin_interface_quickjs`. -/
def renderPluginInterfaceQuickjs (pluginName : String) (contract : ResolvedContract)
    (interfaceVar setFactoryName : String) : JsProvider :=
  let contractId := (GuestContractId.new contract.name contract.version.major).id
  { pluginName
    interfaceName := interfaceVar ++ "_INTERFACE"
    descriptorName := interfaceVar ++ "_DESCRIPTOR"
    wrappers := contract.functions.zipIdx.map fun (_, idx) =>
      rules.toLowercase interfaceVar ++ "_fn" ++ decimal idx ++ "_abi_wrapper"
    setFactoryName
    interface :=
      { contractLo := (contractId &&& 0xFFFFFFFF).toNat
        contractHi := (contractId >>> 32).toNat
        fnCount := contract.functions.length
        functions := []
        factory := none
        contractName := contract.majorName
        version := asU32 (contract.version.major <<< 16) } }

/-- The names in the order of their declarations. -/
def JsProvider.names (provider : JsProvider) : List String :=
  provider.interfaceName :: provider.descriptorName :: provider.wrappers
    ++ [provider.setFactoryName]

/-- The setter, called with the author's factory. -/
def JsProvider.setFactory (provider : JsProvider) (factory : FactoryCall) : JsProvider :=
  { provider with
    interface := { provider.interface with
      factory := some factory
      functions := provider.wrappers } }

/-- `generate_contracts_ts`: what is declared, entry by entry. -/
def generateContractsTs (ir : ValidatedIr) : List JsProvider :=
  ir.bundle.plugins.flatMap fun plugin =>
    plugin.implements.filterMap fun contractImpl =>
      (contractOf ir contractImpl).map fun contract =>
        renderPluginInterfaceQuickjs rules plugin.name contract (pluginVar rules plugin.name)
          (jsFactorySetterName rules plugin.name)

/-- The names that `contracts.ts` declares. -/
def declaredNames (ir : ValidatedIr) : List String :=
  "DispatchType" :: "_ppEncodeUtf8" :: (generateContractsTs rules ir).flatMap JsProvider.names

/-- `contracts.ts` loads. -/
def ContractsLoad (ir : ValidatedIr) : Prop :=
  (declaredNames rules ir).Nodup ∧ ∀ name ∈ declaredNames rules ir, rules.isIdentifier name = true

instance (ir : ValidatedIr) : Decidable (ContractsLoad rules ir) :=
  inferInstanceAs (Decidable (_ ∧ _))

/-! ### `init.ts` -/

/-- The registration that reads an interface. -/
def JsInterfaceConst.registration (interface : JsInterfaceConst) : JsRegistration where
  contractLo := some interface.contractLo
  contractHi := some interface.contractHi
  interface := some ⟨some (interface.functions.map some), interface.factory⟩
  fnCount := some interface.fnCount
  contractName := some interface.contractName
  version := some interface.version

/-- The registrations of `polyplug_init`, after the author has set the factories. `none` is a
module that does not load. -/
def generateInitTs (factories : String → FactoryCall) (ir : ValidatedIr) :
    Option (List JsRegistration) :=
  if ContractsLoad rules ir then
    let providers := (generateContractsTs rules ir).map fun provider =>
      provider.setFactory (factories provider.pluginName)
    ir.bundle.plugins.mapM fun plugin =>
      (providers.find? fun provider =>
        provider.interfaceName = pluginVar rules plugin.name ++ "_INTERFACE").map fun provider =>
          provider.interface.registration
  else none

end

/-- `polyplug_init`. The loader passes a host, a context and a bridge. -/
def polyplugInit (registrations : List JsRegistration)
    (hostIsNull ctxIsNull bridgeIsMissing : Bool) : JsInitValue :=
  if hostIsNull then ⟨some [], some ⟨some 1, some "null host pointer in polyplug_init"⟩⟩
  else if ctxIsNull then ⟨some [], some ⟨some 1, some "null ctx pointer in polyplug_init"⟩⟩
  else if bridgeIsMissing then ⟨some [], some ⟨some 1, some "missing bridge in polyplug_init"⟩⟩
  else ⟨some registrations, some ⟨some 0, some ""⟩⟩

/-! ### The manifest -/

/-- `generate_manifest_toml`. -/
def generateManifestToml (ir : ValidatedIr) : GeneratedManifest :=
  let provides := sortDedup ((allImplements ir).map truncateToMajor)
  { provides
    functionCount := (ir.contracts.filter fun c => c.majorName ∈ provides).map fun c =>
      (c.majorName, asU32 c.functions.length) }

end PolyPlug.Codegen
