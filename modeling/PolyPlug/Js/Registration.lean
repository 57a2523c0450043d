import PolyPlug.Lifecycle.State
import PolyPlug.Registry.Data

/-!
# `PolyPlug.Js.Registration`: what the QuickJS loader registers

`polyplug_init` returns a list of registrations and an error code. `load_inner` reads every
registration, calls its factory once, and only then passes one descriptor and one interface
for each to the runtime. All descriptors have the name `js-quickjs-plugin`, and the version
is the upper half of the registration's number.

A field is `none` when it is absent or of another type. Numbers are those a generated bundle
gives, whole and not negative. The texts of the JavaScript engine are left out.
-/

set_option autoImplicit false

namespace PolyPlug.Js

open PolyPlug.Rust
open PolyPlug.Abi
open PolyPlug.Registry
open PolyPlug.Lifecycle

/-! ### What `polyplug_init` returns -/

/-- What a call of an author's factory ends with, a value or an exception. -/
abbrev FactoryCall := Except String Unit

/-- The `interface` of a registration. The entry of `functions` that is no function is
`none`. -/
structure JsInterface where
  functions : Option (List (Option String))
  factory : Option FactoryCall
deriving DecidableEq

/-- A registration. -/
structure JsRegistration where
  contractLo : Option Nat
  contractHi : Option Nat
  interface : Option JsInterface
  fnCount : Option Nat
  contractName : Option String
  version : Option Nat
deriving DecidableEq

/-- The `AbiError` object. -/
structure JsAbiError where
  code : Option Nat
  message : Option String
deriving DecidableEq

/-- The array that `polyplug_init` returns. -/
structure JsInitValue where
  registrations : Option (List JsRegistration)
  abiError : Option JsAbiError
deriving DecidableEq

/-! ### Reading it -/

/-- `get::<f64>(..).unwrap_or(0.0) as u32`. -/
def numberAsU32 (field : Option Nat) : Nat := min (field.getD 0) (2 ^ 32 - 1)

/-- `JsRegistrationData`. -/
structure JsRegistrationData where
  contractId : UInt64
  contractVersion : Nat
  contractName : String
  functions : List String
deriving DecidableEq

section
variable (bundle : String)

/-- `InitFailed` of the loader. -/
def jsInitFailed (error : String) : LoaderError :=
  .initFailed bundle ("JS runtime js-quickjs error: " ++ error)

/-- The loop over `functions`. -/
def readFunctions (contractName : String) (fnCount : Nat) (functions : List (Option String)) :
    Except LoaderError (List String) :=
  (List.range fnCount).mapM fun functionIndex =>
    match functions[functionIndex]? with
    | some (some function) => .ok function
    | _                    =>
      .error (jsInitFailed bundle ("interface for contract '" ++ contractName
        ++ "' declares fnCount=" ++ decimal fnCount ++ " but functions[" ++ decimal functionIndex
        ++ "] is missing or not a function"))

/-- One registration. Its factory is called last. -/
def readRegistration (index : Nat) (entry : JsRegistration) :
    Except LoaderError JsRegistrationData :=
  let contractLo := numberAsU32 entry.contractLo
  let contractHi := numberAsU32 entry.contractHi
  let contractId := UInt64.ofNat contractHi <<< 32 ||| UInt64.ofNat contractLo
  let fnCount := numberAsU32 entry.fnCount
  match entry.contractName with
  | none              =>
    .error (jsInitFailed bundle ("registrations[" ++ decimal index ++ "] missing contractName"))
  | some contractName =>
    let contractVersion := numberAsU32 entry.version
    match entry.interface with
    | none           =>
      .error (jsInitFailed bundle ("registration entry for '" ++ contractName
        ++ "' missing interface"))
    | some interface =>
      match interface.functions with
      | none                =>
        .error (jsInitFailed bundle ("interface for contract '" ++ contractName
          ++ "' has no 'functions' array"))
      | some functionsArray =>
        match readFunctions bundle contractName fnCount functionsArray with
        | .error e      => .error e
        | .ok functions =>
          match interface.factory with
          | none            =>
            .error (jsInitFailed bundle ("interface for contract '" ++ contractName
              ++ "' has no 'factory' function"))
          | some (.error e) =>
            .error (jsInitFailed bundle ("default impl factory call failed: " ++ e))
          | some (.ok ())   => .ok { contractId, contractVersion, contractName, functions }

/-- What `polyplug_init` returned, up to the first registration with the runtime. -/
def readInit (init : JsInitValue) : Except LoaderError (List JsRegistrationData) :=
  match init.abiError with
  | none          => .error (jsInitFailed bundle "polyplug_init did not return an AbiError")
  | some abiError =>
    let initCode := numberAsU32 abiError.code
    if initCode ≠ 0 then
      let message := abiError.message.getD ""
      let detail := if message.isEmpty then "" else " (" ++ message ++ ")"
      .error (jsInitFailed bundle
        ("polyplug_init returned error code " ++ decimal initCode ++ detail))
    else
      match init.registrations with
      | none               =>
        .error (jsInitFailed bundle "polyplug_init did not return a registrations array")
      | some registrations =>
        if registrations.isEmpty then
          .error (jsInitFailed bundle "polyplug_init returned an empty registrations array")
        else registrations.zipIdx.mapM fun (entry, index) => readRegistration bundle index entry

end

/-! ### Passing it to the runtime -/

/-- The addresses of the loader's functions, and of the data of one registration. -/
structure JsAddresses where
  createInstance : Nat
  destroyInstance : Nat
  call : Nat
  loaderData : Nat
deriving DecidableEq

/-- The bytes of a text. -/
def textView (text : String) : StringView := ⟨some text.toUTF8.data.toList⟩

/-- The version that is registered. -/
def JsRegistrationData.version (registration : JsRegistrationData) : Version :=
  ⟨registration.contractVersion >>> 16, 0, 0⟩

/-- The descriptor that `load_inner` passes. -/
def JsRegistrationData.descriptor (registration : JsRegistrationData) : PluginDescriptor where
  name := textView "js-quickjs-plugin"
  contractName := textView registration.contractName
  version := registration.version

/-- The interface that `load_inner` passes. -/
def JsRegistrationData.pluginInterface (registration : JsRegistrationData)
    (addresses : JsAddresses) : RawGuestContractInterface where
  contractId := ⟨registration.contractId⟩
  contractVersion := registration.version
  dispatchType := 1
  adapterContext := addresses.loaderData
  createInstance := addresses.createInstance
  destroyInstance := addresses.destroyInstance
  dispatch := ⟨addresses.call, addresses.loaderData⟩

/-- The runtime stages the contract for what `load_inner` passes. -/
def JsRegistrationData.Stages (registration : JsRegistrationData) (c : PreparedGuestContract) :
    Prop :=
  ∃ addresses contractName adapterContext ptr,
    stringViewToOwnedString registration.descriptor.contractName "PluginDescriptor.contract_name"
        = .ok contractName ∧
      prepareGuestContract registration.descriptor (registration.pluginInterface addresses)
        contractName adapterContext ptr = .ok c

end PolyPlug.Js
