import Mathlib.Data.Finset.Sort
import Mathlib.Data.String.Basic
import PolyPlug.Codegen.Symbols
import PolyPlug.Lifecycle.Load

/-!
# `PolyPlug.Codegen.RustProviders`: the providers of a generated Rust bundle

The Rust generator writes two things about the contracts a bundle provides: the `provides`
and `function_count` of the manifest, and the registration code. Each takes the entries of
`implements` apart by itself. A disk bundle registers in `polyplug_init`, one contract for
each plugin. The internal profile stages one contract for each entry.

In between stands `interfaces.rs`. It declares the items of one interface for every entry, under
names made of the plugin's, in the internal profile of the plugin's and the contract's. The
constant for the id of a contract is named after the contract in upper case, declared for
the first entry that gives the name, and shared by all others.

A manifest is given by the two fields, and a registration by what it passes to the
runtime. The registrations are `none` when the generated code does not compile: a name that is
made of plugins and contracts is declared twice in one scope or is no identifier, a registration
refers to an interface or a constant that is not declared, or the compiler refuses the rest of the
crate, which is a parameter. Layouts with files of their own for the types are left out.
-/

set_option autoImplicit false

namespace PolyPlug.Codegen

open PolyPlug.Rust
open PolyPlug.Abi
open PolyPlug.Common
open PolyPlug.Registry
open PolyPlug.Lifecycle

/-! ### Names of a contract -/

/-- `name@major.minor`. -/
def ResolvedContract.fullName (contract : ResolvedContract) : String :=
  contract.name ++ "@" ++ decimal contract.version.major ++ "." ++ decimal contract.version.minor

/-- `name@major`. -/
def ResolvedContract.majorName (contract : ResolvedContract) : String :=
  contract.name ++ "@" ++ decimal contract.version.major

/-! ### The manifest -/

/-- The providers of a generated manifest. -/
structure GeneratedManifest where
  provides : List String
  functionCount : List (String × Nat)
deriving DecidableEq

/-- The sorted texts, without repetitions: `sort` and `dedup`, or a `BTreeSet`. -/
def sortDedup (texts : List String) : List String := texts.toFinset.sort (· ≤ ·)

/-- All entries of all plugins. -/
def allImplements (ir : ValidatedIr) : List String :=
  ir.bundle.plugins.flatMap ResolvedPlugin.implements

/-- `name@major.minor` without what follows the major. -/
def truncateToMajor (implStr : String) : String :=
  match splitOnce implStr '@' with
  | none                             => implStr
  -- What follows the first dot goes.
  | some (contractName, versionPart) =>
    match splitOnce versionPart '.' with
    | none            => implStr
    | some (major, _) => contractName ++ "@" ++ major

/-- `generate_bundle_manifest`. -/
def generateBundleManifest (ir : ValidatedIr) : GeneratedManifest :=
  let provides := sortDedup ((allImplements ir).map truncateToMajor)
  let providesSet := provides.map truncateToMajor
  { provides
    -- The counts follow the order of the contracts, not of `provides`.
    functionCount := (ir.contracts.filter fun c => c.majorName ∈ providesSet).map fun c =>
      (c.majorName, asU32 c.functions.length) }

/-- The provider of an entry, in the internal profile. -/
def internalProvider (provider : String) : String :=
  -- An entry without a version is one of major 0.
  let (contract, version) := (splitOnce provider '@').getD (provider, "0")
  let major := (split version '.').headD version
  contract ++ "@" ++ major

/-- `generate_internal_profile_manifest`. -/
def generateInternalProfileManifest (ir : ValidatedIr) : GeneratedManifest :=
  let provides := sortDedup ((allImplements ir).map internalProvider)
  { provides
    functionCount := (ir.contracts.filter fun c => c.majorName ∈ provides).map fun c =>
      (c.majorName, c.functions.length) }

/-- The runtime reads the manifest. A function count has 32 bits. -/
structure GeneratedManifest.ReadAs (generated : GeneratedManifest) (m : ManifestData) : Prop where
  provides : m.provides = generated.provides
  functionCount : m.functionCount =
    (generated.functionCount.map fun e => (⟨e.1, e.2⟩ : Sigma fun _ : String => Nat)).toFinmap
  fits : ∀ e ∈ generated.functionCount, e.2 < 2 ^ 32

/-! ### `interfaces.rs` -/

/-- `GuestRustOutputMode`. -/
inductive GuestRustOutputMode where
  | disk
  | internalProfile
deriving DecidableEq

/-- The case mappings of Rust's strings, and what the compiler accepts. -/
structure RustText extends CaseMap where
  toLowercase : String → String
  isIdentifier : String → Bool
  /-- The bodies, the types and the other files of the crate compile. -/
  restCompiles : GuestRustOutputMode → ValidatedIr → Bool
  /-- Only a dot is a dot in upper case. -/
  upper_dot : ∀ c, '.' ∈ upper c → c = '.'

/-- `GuestProvider`: an entry of a plugin. -/
abbrev GuestProvider := ResolvedPlugin × ResolvedContract

/-- The contract of an entry. -/
def contractOf (ir : ValidatedIr) (implStr : String) : Option ResolvedContract :=
  ir.contracts.find? fun contract => contract.fullName = implStr

/-- `guest_providers`. The loops of `generate_guest_interfaces_file` walk over the same list. -/
def guestProviders (ir : ValidatedIr) : List GuestProvider :=
  ir.bundle.plugins.flatMap fun plugin =>
    plugin.implements.filterMap fun implStr => (contractOf ir implStr).map fun c => (plugin, c)

section
variable (text : RustText)

/-- `internal_provider_symbol`. -/
def internalProviderSymbol (provider : GuestProvider) : String :=
  replaceChar (text.toLowercase provider.1.name) '.' '_' ++ "_" ++
    replaceChar (text.toLowercase provider.2.name) '.' '_'

/-- `internal_provider_upper`. -/
def internalProviderUpper (provider : GuestProvider) : String :=
  toUppercase text.toCaseMap (internalProviderSymbol text provider)

/-- `plugin_symbol`: what the items of an entry are named after. -/
def pluginSymbol : GuestRustOutputMode → GuestProvider → String
  | .disk, provider            => provider.1.name
  | .internalProfile, provider => internalProviderSymbol text provider

/-- `plugin_upper`. -/
def pluginUpper (symbol : String) : String :=
  replaceChar (toUppercase text.toCaseMap symbol) '.' '_'

/-- `plugin_lower`. -/
def pluginLower (symbol : String) : String := replaceChar (text.toLowercase symbol) '.' '_'

/-- The constant that the interfaces of a contract refer to. -/
def contractIdConst (contract : ResolvedContract) : String :=
  contractNameToUpperSnake text.toCaseMap contract.name ++ "_CONTRACT_ID"

/-- The constants with their values: one for each name, `emitted_consts` has those of before. -/
def contractIdConsts : List ResolvedContract → List String → List (String × UInt64)
  | [], _                         => []
  | contract :: rest, emittedConsts =>
    let name := contractIdConst text contract
    -- The first contract of the name gives the value.
    if name ∈ emittedConsts then contractIdConsts rest emittedConsts
    else (name, contract.contractId) :: contractIdConsts rest (name :: emittedConsts)

/-- The functions and statics of one entry: `generate_guest_plugin_interface` with
`emit_guest_instance_machinery` and `generate_guest_abi_wrapper`. -/
def entryValues (mode : GuestRustOutputMode) (provider : GuestProvider) : List String :=
  let upper := pluginUpper text (pluginSymbol text mode provider)
  let lower := pluginLower text (pluginSymbol text mode provider)
  -- The profile declares its factories by themselves.
  (if mode = .disk then ["polyplug_create_" ++ lower] else []) ++
    [upper ++ "_create_instance", upper ++ "_destroy_instance"] ++
    (provider.2.functions.map fun func => lower ++ "_" ++ func ++ "_abi") ++
    [upper ++ "_FNS", upper ++ "_INTERFACE"]

/-- The struct for the instances of one entry. -/
def stateStruct (mode : GuestRustOutputMode) (provider : GuestProvider) : String :=
  canonicalPascalCase text.toCaseMap (pluginLower text (pluginSymbol text mode provider)) ++
    "PluginState"

/-- `profile_adapter_name`, of an entry. -/
def profileAdapterName (provider : GuestProvider) : String :=
  canonicalPascalCase text.toCaseMap (internalProviderSymbol text provider) ++ "DomainAdapter"

/-- The functions and statics of `interfaces.rs`. -/
def interfaceValues (mode : GuestRustOutputMode) (ir : ValidatedIr) : List String :=
  let providers := guestProviders ir
  ["plugin_error_to_abi_error", "FnPtr"] ++
    (if mode = .internalProfile then
      providers.map fun p => "internal_provider_factory_" ++ internalProviderSymbol text p
    else []) ++
    (contractIdConsts text (providers.map Prod.snd) []).map Prod.fst ++
    providers.flatMap (entryValues text mode)

/-- The types of `interfaces.rs`. An adapter is emitted once. -/
def interfaceTypes (mode : GuestRustOutputMode) (ir : ValidatedIr) : List String :=
  let providers := guestProviders ir
  "FnPtr" ::
    (if mode = .internalProfile then
      ["InternalProviderFactory", "InternalProviders"] ++
        (providers.map (profileAdapterName text)).dedup
    else []) ++
    providers.map (stateStruct text mode)

/-- The names that are declared in one scope each: the two namespaces of `interfaces.rs`, the traits
of `contracts.rs`, and in the profile the fields of `InternalProviders` and `Registration`. -/
def rustScopes (mode : GuestRustOutputMode) (ir : ValidatedIr) : List (List String) :=
  let fields := (guestProviders ir).map (internalProviderSymbol text)
  [interfaceValues text mode ir, interfaceTypes text mode ir,
    ir.contracts.map fun c => contractNameToGuestTrait text.toCaseMap c.name] ++
    (if mode = .internalProfile then [fields, "bundle_id" :: fields] else [])

/-- No scope has a name twice, and all names are identifiers. -/
def ScopesCompile (mode : GuestRustOutputMode) (ir : ValidatedIr) : Prop :=
  ∀ scope ∈ rustScopes text mode ir, scope.Nodup ∧ ∀ name ∈ scope, text.isIdentifier name = true

instance (mode : GuestRustOutputMode) (ir : ValidatedIr) : Decidable (ScopesCompile text mode ir) :=
  inferInstanceAs (Decidable (∀ scope ∈ _, _ ∧ _))

/-- The crate compiles. -/
def CrateCompiles (mode : GuestRustOutputMode) (ir : ValidatedIr) : Prop :=
  ScopesCompile text mode ir ∧ text.restCompiles mode ir = true

instance (mode : GuestRustOutputMode) (ir : ValidatedIr) : Decidable (CrateCompiles text mode ir) :=
  inferInstanceAs (Decidable (_ ∧ _))

/-- The entry whose static has the name. -/
def interfaceNamed (mode : GuestRustOutputMode) (ir : ValidatedIr) (name : String) :
    Option ResolvedContract :=
  ((guestProviders ir).find? fun provider =>
    pluginUpper text (pluginSymbol text mode provider) ++ "_INTERFACE" = name).map Prod.snd

/-- The value of a constant. -/
def constNamed (ir : ValidatedIr) (name : String) : Option UInt64 :=
  (contractIdConsts text ((guestProviders ir).map Prod.snd) []).lookup name

end

/-! ### The registrations -/

/-- What a registration passes to the runtime. -/
structure Registration where
  pluginName : String
  contractName : String
  version : Version
  /-- The contract the generated interface is of. -/
  interface : ResolvedContract
  /-- The value of the constant that the interface refers to. -/
  contractId : UInt64
  native : Bool
deriving DecidableEq

/-- `is_native_runtime`. -/
def isNativeRuntime (runtime : String) : Bool := toLowercase runtime = "native"

section
variable (text : RustText)

/-- The registration of one plugin in `polyplug_init`. The file imports the constant of the first
entry and the interface that is named after the plugin. -/
def initRegistration (ir : ValidatedIr) (plugin : ResolvedPlugin) : Option Registration := do
  -- A plugin without entries imports a constant without a name in front.
  let imported := (plugin.implements.head?.map fun implStr =>
    contractNameToUpperSnake text.toCaseMap ((split implStr '@').headD "")).getD ""
  let _ ← constNamed text ir (imported ++ "_CONTRACT_ID")
  let contractImpl := plugin.implements.head?.getD ""
  let (contractName, versionStr) := (splitOnce contractImpl '@').getD (contractImpl, "1.0.0")
  let (versionMajor, versionMinorPatch) := (splitOnce versionStr '.').getD (versionStr, "0")
  let versionMinor := (split versionMinorPatch '.').headD "0"
  let major ← parseU32 versionMajor
  let minor ← parseU32 versionMinor
  -- The static is named after the plugin alone.
  let interface ← interfaceNamed text .disk ir (pluginUpper text plugin.name ++ "_INTERFACE")
  let contractId ← constNamed text ir (contractIdConst text interface)
  some {
    pluginName := plugin.name
    contractName := contractName ++ "@" ++ versionMajor
    version := ⟨major, minor, 0⟩
    interface
    contractId
    native := isNativeRuntime ir.bundle.loader }

/-- The disk crate compiles. A plugin's name stands in a byte string, which takes ASCII only. -/
def DiskCompiles (ir : ValidatedIr) : Prop :=
  CrateCompiles text .disk ir ∧
    ∀ plugin ∈ ir.bundle.plugins, ∀ c ∈ plugin.name.toList, c.toNat < 128

instance (ir : ValidatedIr) : Decidable (DiskCompiles text ir) :=
  -- The list is checked, not every character.
  have (plugin : ResolvedPlugin) : Decidable (∀ c ∈ plugin.name.toList, c.toNat < 128) :=
    List.decidableBAll _ _
  inferInstanceAs (Decidable (_ ∧ ∀ plugin ∈ ir.bundle.plugins, _))

/-- `generate_guest_init_file`: the registrations of `polyplug_init`. -/
def generateGuestInit (ir : ValidatedIr) : Option (List Registration) :=
  if DiskCompiles text ir then ir.bundle.plugins.mapM (initRegistration text ir) else none

/-- What `stage` registers for an entry. -/
def stageRegistration (ir : ValidatedIr) (provider : GuestProvider) : Option Registration := do
  let interface ← interfaceNamed text .internalProfile ir
    (internalProviderUpper text provider ++ "_INTERFACE")
  let contractId ← constNamed text ir (contractIdConst text interface)
  some {
    pluginName := provider.1.name
    -- `canonical_contract_diagnostic_name`
    contractName := bareName provider.2.name
    version := provider.2.version
    interface
    contractId
    native := true }

/-- `generate_internal_profile_guest_init_file`: what `stage` registers. -/
def generateInternalInit (ir : ValidatedIr) : Option (List Registration) :=
  if CrateCompiles text .internalProfile ir then
    (guestProviders ir).mapM (stageRegistration text ir)
  else none

end

/-! ### Registering at the runtime -/

/-- A text as the generated code passes it. -/
def stringView (text : String) : StringView := ⟨some text.toUTF8.data.toList⟩

/-- The descriptor of the generated code. -/
def Registration.descriptor (r : Registration) : PluginDescriptor :=
  ⟨stringView r.pluginName, stringView r.contractName, r.version⟩

/-- The interface of the generated code, with the addresses the compiler gives it. -/
def Registration.rawInterface (r : Registration)
    (createInstance destroyInstance functions : Nat) : RawGuestContractInterface where
  contractId := ⟨r.contractId⟩
  contractVersion := r.interface.version
  dispatchType := if r.native then 0 else 1
  adapterContext := 0
  createInstance := createInstance
  destroyInstance := destroyInstance
  dispatch := ⟨r.interface.functions.length, functions⟩

/-- The runtime stages the contract for the registration. -/
def Registration.Stages (r : Registration) (c : PreparedGuestContract) : Prop :=
  ∃ createInstance destroyInstance functions adapterContext ptr,
    prepareGuestContract r.descriptor (r.rawInterface createInstance destroyInstance functions)
      r.contractName adapterContext ptr = .ok c

end PolyPlug.Codegen
