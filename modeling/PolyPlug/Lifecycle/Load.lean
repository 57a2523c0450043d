import PolyPlug.Lifecycle.State

/-!
# `PolyPlug.Lifecycle.Load`: loading one bundle

`Runtime.loadManifestWithSource` is `load_manifest_with_source` on one thread, with
nothing running beside it. It stages the bundle on the thread's stack of prepared
bundles, runs the loader, and commits what the guest registered, or discards it.

`LoaderRun` is what one call of a loader's `load` does to the runtime:
registrations of the guest and nested loads, then its result. The loaders run the
guest between `push_init_bundle_id` and `pop_init_bundle_id`. A loader that fails
before the push is a `LoaderRun` without registrations.

The signature check reads the bundle directory, and the loader table only grows;
both are fields of `LoadEnv`. The log, the last-error text and the `unload` hook
that follows a failed load are left out. The hook works on the loader's own state.
-/

set_option autoImplicit false

namespace PolyPlug.Lifecycle

open PolyPlug.Rust
open PolyPlug.Abi
open PolyPlug.Common
open PolyPlug.Registry

/-- `LoadOptions`. -/
structure LoadOptions where
  compatibility : Compatibility
  ignoreFunctionCountMismatch : Bool
deriving DecidableEq

/-- `SignaturePolicy`. -/
inductive SignaturePolicy where
  | off
  | warnOnly
  | required
deriving DecidableEq

/-- What a load reads beside the runtime. -/
structure LoadEnv where
  thread : ThreadId
  signaturePolicy : SignaturePolicy
  /-- `verify_bundle_signature` on the bundle directory and the bundle name. -/
  verifyBundleSignature : String → String → Except RuntimeError Unit
  /-- `loader_for` finds a loader of this name. -/
  hasLoader : String → Bool

/-! ### Manifest fields -/

/-- The `Debug` form of a `ParseVersionError`. -/
def debugParseVersionError : ParseVersionError → String
  | .invalidFormat => "InvalidFormat"
  | .invalidInt    => "InvalidInt"

/-- `parse_manifest_version`. -/
def parseManifestVersion (v manifestPath : String) : Except RuntimeError Version :=
  if v.isEmpty then .ok ⟨0, 0, 0⟩
  else
    match Version.fromStr v with
    | .ok version => .ok version
    | .error e    =>
      .error (.loader (.manifestParse manifestPath
        ("invalid version '" ++ v ++ "': " ++ debugParseVersionError e)))

/-- `parsed_bundle_dependencies`. -/
def parsedBundleDependencies (m : ManifestData) : List BundleDependency :=
  m.bundleDependencies.map fun spec =>
    match splitOnce spec '@' with
    | some (name, versionStr) => ⟨name, (Version.fromStr versionStr).toOption⟩
    | none                    => ⟨spec, none⟩

/-- `supported_language_from_str`. -/
def supportedLanguageFromStr (s : String) : SupportedLanguage :=
  if s = "native" ∨ s = "rust" then .rust
  else if s = "python" then .python
  else if s = "lua" then .lua
  else if s = "javascript" ∨ s = "js" ∨ s = "js-quickjs" then .javaScript
  else if s = "dotnet" ∨ s = "csharp" then .dotnet
  else if s = "cpp" then .cpp
  else .rust

/-! ### The checks of a commit -/

/-- A declared version is a bare major or a full version. -/
def versionMatches (declared : String) (actual : Version) : Bool :=
  match parseU32 declared with
  -- Minor and patch are free.
  | some major => major = actual.major
  | none       =>
    match Version.fromStr declared with
    | .ok version => version = actual
    | .error _    => false

/-- The three components, as the messages print them. -/
def displayVersion (v : Version) : String :=
  decimal v.major ++ "." ++ decimal v.minor ++ "." ++ decimal v.patch

/-- The `expected` of `validate_prepared_provider_set`. -/
def expectedProviders (m : ManifestData) : List (String × Option String) :=
  m.provides.map fun spec =>
    match splitOnce spec '@' with
    | some (name, version) => (name, some version)
    | none                 => (spec, none)

/-- The position of the first declaration that covers a provider. -/
def expectedIndex (m : ManifestData) (providerName : String) (version : Version) : Option Nat :=
  (expectedProviders m).findIdx? fun p =>
    -- A declaration without a version covers every version of its name.
    p.1 = providerName && (p.2.all fun declared => versionMatches declared version)

/-- The loop of `validate_prepared_provider_set`: the declarations matched so far. -/
def matchProviders (m : ManifestData) :
    List (String × Version) → List Bool → Except RuntimeError (List Bool)
  | [], matched                             => .ok matched
  | (actualName, actualVersion) :: rest, matched =>
    -- The name of the provider may have a version of its own.
    let (providerName, declaredVersion) : String × Option String :=
      match splitOnce actualName '@' with
      | some (name, version) => (name, some version)
      | none                 => (actualName, none)
    if declaredVersion.any (fun declared => !versionMatches declared actualVersion) then
      .error (.loader (.initFailed m.name ("loader registered provider `" ++ actualName
        ++ "` with version " ++ displayVersion actualVersion)))
    else
      match expectedIndex m providerName actualVersion with
      -- Several providers may mark one declaration.
      | some index => matchProviders m rest (matched.set index true)
      | none       =>
        .error (.loader (.initFailed m.name ("loader registered provider `" ++ actualName ++ "@"
          ++ displayVersion actualVersion ++ "` not declared by manifest provides "
          ++ debugStrs m.provides)))

/-- `validate_prepared_provider_set`. -/
def validatePreparedProviderSet (m : ManifestData) (contracts : List PreparedGuestContract) :
    Except RuntimeError Unit :=
  match matchProviders m (contracts.map fun c => (c.contractName, c.descriptor.version))
      ((expectedProviders m).map fun _ => false) with
  | .error e    => .error e
  | .ok matched =>
    if matched.all id then .ok ()
    else
      .error (.loader (.initFailed m.name ("manifest provides " ++ debugStrs m.provides
        ++ ", but the loader did not register every declared provider")))

/-- `prepared_native_function_counts` on one contract. -/
def nativeFunctionCount (c : PreparedGuestContract) : Option Nat :=
  if c.interface.val.dispatchType = .native then some c.interface.val.dispatch.functionCount
  else none

/-- `validate_prepared_function_counts`. Only the strict mode has an error; the
warnings of the relaxed one go to the log. -/
def validatePreparedFunctionCounts (m : ManifestData) (compatibility : Compatibility) :
    List PreparedGuestContract → Except RuntimeError Unit
  | []        => .ok ()
  | c :: rest =>
    match nativeFunctionCount c with
    | none        => validatePreparedFunctionCounts m compatibility rest
    | some actual =>
      let key := bareName c.contractName ++ "@"
        ++ decimal c.interface.val.contractVersion.major
      match m.functionCount.lookup key with
      | none          =>
        if compatibility = .strict then
          .error (.loader (.functionCountMismatch key 0 actual))
        else validatePreparedFunctionCounts m compatibility rest
      | some declared =>
        if declared ≠ actual ∧ compatibility = .strict then
          .error (.loader (.functionCountMismatch key declared actual))
        else validatePreparedFunctionCounts m compatibility rest

namespace Runtime

/-! ### The init stack -/

/-- The init stack of a thread, outermost bundle first. -/
def initStackOn (rt : Runtime) (thread : ThreadId) : List UInt64 :=
  (rt.initBundleStack.lookup thread).getD []

/-- `push_init_bundle_id`. -/
def pushInitBundleId (rt : Runtime) (thread : ThreadId) (bundleId : UInt64) : Runtime :=
  { rt with
      initBundleStack := rt.initBundleStack.insert thread (rt.initStackOn thread ++ [bundleId]) }

/-- `pop_init_bundle_id`. The key of a thread is dropped with its last entry. -/
def popInitBundleId (rt : Runtime) (thread : ThreadId) : Runtime :=
  match rt.initBundleStack.lookup thread with
  | none       => rt
  | some stack =>
    { rt with
        initBundleStack :=
          if stack.dropLast.isEmpty then rt.initBundleStack.erase thread
          else rt.initBundleStack.insert thread stack.dropLast }

/-- `current_init_bundle_id`. -/
def currentInitBundleId (rt : Runtime) (thread : ThreadId) : UInt64 :=
  (rt.initStackOn thread).getLast?.getD 0

/-! ### The prepared-bundle transaction -/

/-- `begin_prepared_bundle_transaction`. -/
def beginPreparedBundleTransaction (rt : Runtime) (thread : ThreadId) (manifest : ManifestData)
    (language : SupportedLanguage) (source : BundleSource) :
    Except RuntimeError BundleId × Runtime :=
  match manifest.validateMetadata with
  | .error e => (.error (.loader (.ofManifest e)), rt)
  | .ok ()   =>
    let bundleId := BundleId.new manifest.name
    if (rt.registry.getBundleDescriptor bundleId).isSome then
      (.error (.registry (.bundleAlreadyRegistered manifest.name)), rt)
    else
      (.ok bundleId,
        { rt with registry := rt.registry.beginPreparedBundle thread manifest language source })

/-- The descriptor a commit registers. -/
def preparedDescriptor (prepared : PreparedBundleRegistration) (bundleId : BundleId)
    (version : Version) : BundleDescriptor :=
  ⟨bundleId, prepared.manifest.name, version, prepared.runtime, prepared.source.origin,
    parsedBundleDependencies prepared.manifest⟩

/-- The contract dependencies a commit declares. -/
def preparedDependencies (manifest : ManifestData) : Finset GuestContractId :=
  (manifest.dependencies.map RawManifestDependency.contractId).toFinset

/-- The part of `commit_prepared_bundle_transaction_with_handles` after the staged
bundle is taken. -/
def publishPrepared (rt : Runtime) (prepared : PreparedBundleRegistration) (bundleId : BundleId)
    (opts : LoadOptions) : Except RuntimeError (List GuestContractHandle) × Runtime :=
  let manifest := prepared.manifest
  match validatePreparedProviderSet manifest prepared.contracts with
  | .error e => (.error e, rt)
  | .ok ()   =>
    match (if opts.ignoreFunctionCountMismatch = false ∧ opts.compatibility ≠ .yolo then
        validatePreparedFunctionCounts manifest opts.compatibility prepared.contracts
      else .ok ()) with
    | .error e => (.error e, rt)
    | .ok ()   =>
      match parseManifestVersion manifest.version manifest.path with
      | .error e    => (.error e, rt)
      | .ok version =>
        match rt.registry.registerPreparedBundle (preparedDescriptor prepared bundleId version)
            (preparedDependencies manifest) prepared.contracts with
        | (.error e, registry)    => (.error (.registry e), { rt with registry := registry })
        | (.ok handles, registry) =>
          (.ok handles,
            { rt with
                -- The staged resident moves into the map of the registry.
                registry := { registry with
                  internalPluginResidents := match prepared.resident with
                    | none          => registry.internalPluginResidents
                    | some resident => registry.internalPluginResidents.insert bundleId resident }
                bundleManifests := rt.bundleManifests.insert manifest.name manifest })

/-- `commit_prepared_bundle_transaction_with_handles`. -/
def commitPreparedBundleTransactionWithHandles (rt : Runtime) (thread : ThreadId)
    (bundleId : BundleId) (opts : LoadOptions) :
    Except RuntimeError (List GuestContractHandle) × Runtime :=
  match rt.registry.takePreparedBundle thread bundleId with
  | (none, registry)          =>
    (.error (.registry (.missingBundleMetadata bundleId.id)), { rt with registry := registry })
  | (some prepared, registry) =>
    { rt with registry := registry }.publishPrepared prepared bundleId opts

/-- `discard_prepared_bundle` on the registry. -/
def discardPreparedBundle (rt : Runtime) (thread : ThreadId) (bundleId : BundleId) : Runtime :=
  { rt with registry := (rt.registry.discardPreparedBundle thread bundleId).2 }

end Runtime

/-! ### Registration by a guest -/

/-- `AbiErrorCode`: the codes of a registration. -/
inductive AbiErrorCode where
  | ok
  | generic
  | duplicateProvider
  | invalidPointer
deriving DecidableEq

/-- `AbiError`; `none` is the null message. -/
structure AbiError where
  code : AbiErrorCode
  message : Option String
deriving DecidableEq

/-- `validate_interface_fn_ptrs` for a guest. `functions` reads the pointer table of
a native interface. -/
def validateInterfaceFnPtrs (interface : RawGuestContractInterface) (functions : Nat → Nat) :
    Option String :=
  if interface.createInstance = 0 then
    some ("register_guest_contract: create_instance is null — the field is required; signal "
      ++ "create failure by returning a null instance handle instead")
  else if interface.destroyInstance = 0 then
    some ("register_guest_contract: destroy_instance is null — the field is required; use a "
      ++ "no-op function for stateless contracts")
  else
    match DispatchType.fromU32 interface.dispatchType with
    | some .virtualMachine =>
      if interface.dispatch.word0 = 0 then
        some ("register_guest_contract: dispatch.vm.call is null — required for VirtualMachine "
          ++ "dispatch")
      else none
    | some .native         =>
      if interface.dispatch.functionCount = 0 then none
      else if interface.dispatch.word1 = 0 then
        some "register_guest_contract: dispatch.native.functions is null while function_count > 0"
      else if (List.range interface.dispatch.functionCount).any fun i => functions i = 0 then
        some ("register_guest_contract: dispatch.native.functions contains a null entry within "
          ++ "function_count")
      else none
    | none                 => none

/-- The bytes of a text view, `[]` for a null pointer. -/
def textBytes (sv : StringView) : List UInt8 := sv.bytes.getD []

/-- The error a registration reports. -/
def AbiError.ofRegistration : Except RegistryError Unit → AbiError
  | .ok ()                         => ⟨.ok, none⟩
  | .error (.duplicateProvider ..) => ⟨.duplicateProvider, none⟩
  | .error _                       => ⟨.generic, none⟩

/-- A bundle that is being loaded stages its contracts. One that is being reloaded
registers them. -/
def RuntimeStore.stageOrRegister (s : RuntimeStore) (thread : ThreadId) (bundleId : BundleId)
    (descriptor : PluginDescriptor) (interface : RawGuestContractInterface) (ptr : Nat)
    (contractName : String) : Except RegistryError Unit × RuntimeStore :=
  if (s.preparedManifest thread bundleId).isSome then
    s.stageGuestContract thread bundleId descriptor interface ptr contractName
  else
    ((s.registerGuestContract descriptor interface ptr contractName bundleId).1.map fun _ => (),
      (s.registerGuestContract descriptor interface ptr contractName bundleId).2)

/-- `host_register_guest_contract_impl`. `none` is a null pointer, `ptr` the address
of the copy of the interface. -/
def Runtime.hostRegisterGuestContract (rt : Runtime) (thread : ThreadId)
    (descriptor : Option PluginDescriptor) (interface : Option RawGuestContractInterface)
    (functions : Nat → Nat) (ptr : Nat) : AbiError × Runtime :=
  match descriptor, interface with
  | none, _ =>
    (⟨.invalidPointer, some "register_guest_contract: descriptor pointer is null"⟩, rt)
  | _, none =>
    (⟨.invalidPointer, some "register_guest_contract: interface pointer is null"⟩, rt)
  | some desc, some interface =>
    match validateInterfaceFnPtrs interface functions with
    | some violation => (⟨.invalidPointer, some violation⟩, rt)
    | none           =>
      let bundleId := rt.currentInitBundleId thread
      -- No init window is open on this thread.
      if bundleId = 0 then
        (⟨.generic, some "register_guest_contract is only valid during loader initialization"⟩, rt)
      else if (textBytes desc.contractName).isEmpty then
        (⟨.generic, some "PluginDescriptor.contract_name is null or empty"⟩, rt)
      else
        match stringViewToOwnedString desc.contractName "PluginDescriptor.contract_name" with
        | .error _         => (⟨.generic, none⟩, rt)
        | .ok contractName =>
          let registration := RuntimeStore.stageOrRegister rt.registry thread ⟨bundleId⟩ desc
            interface ptr
            contractName
          (.ofRegistration registration.1, { rt with registry := registration.2 })

/-! ### One load -/

namespace Runtime

/-- The signature step of `load_manifest_with_source`. -/
def checkSignature (env : LoadEnv) (manifest : ManifestData) : Except RuntimeError Unit :=
  match env.signaturePolicy with
  | .off      => .ok ()
  | .warnOnly => .ok ()
  | .required => env.verifyBundleSignature manifest.path manifest.name

/-- `load_manifest_with_source` up to the staged transaction. -/
def admitLoad (env : LoadEnv) (rt : Runtime) (manifest : ManifestData) (source : BundleSource) :
    Except RuntimeError BundleId × Runtime :=
  match manifest.validate with
  | .error e => (.error (.loader (.ofManifest e)), rt)
  | .ok ()   =>
    match checkSignature env manifest with
    | .error e => (.error e, rt)
    | .ok ()   =>
      if env.hasLoader manifest.loader = false then
        (.error (.loader (.noLoaderForName manifest.name manifest.loader)), rt)
      else
        match parseManifestVersion manifest.version manifest.path with
        | .error e => (.error e, rt)
        | .ok _    =>
          rt.beginPreparedBundleTransaction env.thread manifest
            (supportedLanguageFromStr manifest.loader) source

/-- `load_manifest_with_source` once the loader has returned. -/
def finishLoad (env : LoadEnv) (rt : Runtime) (bundleId : BundleId) (opts : LoadOptions) :
    Except LoaderError Unit → Except RuntimeError Unit × Runtime
  | .error e => (.error (.loader e), rt.discardPreparedBundle env.thread bundleId)
  | .ok ()   =>
    match rt.commitPreparedBundleTransactionWithHandles env.thread bundleId opts with
    -- The commit has taken the staged bundle already.
    | (.error e, rt) => (.error e, rt.discardPreparedBundle env.thread bundleId)
    | (.ok _, rt)    => (.ok (), rt)

/-- `load_manifest_with_source`, around the loader's `load`. -/
def loadManifestWithSource (env : LoadEnv) (rt : Runtime) (manifest : ManifestData)
    (source : BundleSource) (opts : LoadOptions)
    (load : Runtime → Except LoaderError Unit × Runtime) : Except RuntimeError Unit × Runtime :=
  match rt.admitLoad env manifest source with
  | (.error e, rt)     => (.error e, rt)
  | (.ok bundleId, rt) => finishLoad env (load rt).2 bundleId opts (load rt).1

end Runtime

/-- What one call of a loader's `load` does to the runtime. -/
inductive LoaderRun where
  | done (result : Except LoaderError Unit)
  /-- The guest registers a contract. -/
  | register (descriptor : Option PluginDescriptor)
      (interface : Option RawGuestContractInterface) (functions : Nat → Nat) (ptr : Nat)
      (rest : LoaderRun)
  /-- The guest loads another bundle, whose loader does `inner`. -/
  | load (manifest : ManifestData) (source : BundleSource) (opts : LoadOptions)
      (inner rest : LoaderRun)

/-- The guest runs inside the init window of its bundle. -/
def Runtime.inInitWindow {α : Type} (thread : ThreadId) (bundleId : BundleId)
    (init : Runtime → α × Runtime) (rt : Runtime) : α × Runtime :=
  ((init (rt.pushInitBundleId thread bundleId.id)).1,
    (init (rt.pushInitBundleId thread bundleId.id)).2.popInitBundleId thread)

namespace LoaderRun

/-- The steps of a loader, inside the init window. -/
def exec (env : LoadEnv) : LoaderRun → Runtime → Except LoaderError Unit × Runtime
  | .done result, rt => (result, rt)
  | .register descriptor interface functions ptr rest, rt =>
    rest.exec env
      (rt.hostRegisterGuestContract env.thread descriptor interface functions ptr).2
  | .load manifest source opts inner rest, rt =>
    rest.exec env (rt.loadManifestWithSource env manifest source opts
      (Runtime.inInitWindow env.thread (BundleId.new manifest.name)
        fun rt => inner.exec env rt)).2

end LoaderRun

/-- A load of a bundle whose loader does `body`. -/
def Runtime.loadBundle (env : LoadEnv) (rt : Runtime) (manifest : ManifestData)
    (source : BundleSource) (opts : LoadOptions) (body : LoaderRun) :
    Except RuntimeError Unit × Runtime :=
  rt.loadManifestWithSource env manifest source opts
    (Runtime.inInitWindow env.thread (BundleId.new manifest.name) (body.exec env))

end PolyPlug.Lifecycle
