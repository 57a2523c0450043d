import PolyPlug.Abi.Types

/-!
# `PolyPlug.Common.Manifest`: the bundle manifest and its validation

`ManifestData` is the parsed `manifest.toml`, with every field the runtime
reads. `validateMetadata` is the identity and dependency check that every
prepared-bundle transaction runs; `validate` adds the acquisition fields of a
bundle that a loader fetches from outside. Both report the first failing field,
in the order of the source.

A path is kept as its displayed text.
-/

set_option autoImplicit false

namespace PolyPlug.Common

open PolyPlug.Rust
open PolyPlug.Abi

/-- `ManifestError`. -/
inductive ManifestError where
  | parse (path reason : String)
  | missingFile (bundle : String)
  | tampered (bundle : String) (expected found : UInt64)
deriving DecidableEq, Repr

/-- One `[[dependency]]` table. -/
structure RawManifestDependency where
  kind : String
  contract : String
  minVersion : String
  bundle : Option String
  contractId : GuestContractId
  bundleId : Option BundleId
deriving DecidableEq

/-- The parsed manifest. -/
structure ManifestData where
  loader : String
  name : String
  dependencies : List RawManifestDependency
  id : UInt64
  version : String
  file : String
  provides : List String
  functionCount : Finmap fun _ : String => Nat
  needsReinitOnDepReload : Bool
  bundleDependencies : List String
  path : String
deriving DecidableEq

/-- `ManifestDependency`. -/
inductive ManifestDependency where
  | byContract (contract : String) (contractId : GuestContractId) (minVersion : String)
  | byBundle (bundle : String) (bundleId : BundleId) (contract : String)
      (contractId : GuestContractId) (minVersion : String)
deriving DecidableEq

/-- The contract a resolved dependency asks for. -/
def ManifestDependency.contractId : ManifestDependency → GuestContractId
  | .byContract _ contractId _   => contractId
  | .byBundle _ _ _ contractId _ => contractId

/-- `RawManifestDependency::resolve`. -/
def RawManifestDependency.resolve (dep : RawManifestDependency) : Option ManifestDependency :=
  match dep.bundle with
  | none        => some (.byContract dep.contract dep.contractId dep.minVersion)
  | some bundle => dep.bundleId.map fun bid =>
      .byBundle bundle bid dep.contract dep.contractId dep.minVersion

/-- `ManifestData::resolved_dependencies`, and `resolved_dependencies_with_logger`, which
also logs the ones it skips. -/
def ManifestData.resolvedDependencies (m : ManifestData) : List ManifestDependency :=
  m.dependencies.filterMap (·.resolve)

/-- The name before the first `@`, or the whole text. -/
def bareName (spec : String) : String :=
  match splitOnce spec '@' with
  | some (name, _) => name
  | none           => spec

/-- `validate_name_version_spec`. -/
def validateNameVersionSpec (spec field path : String) : Except ManifestError Unit :=
  let (name, version) : String × Option String := match splitOnce spec '@' with
    | some (name, versionStr) => (name, some versionStr)
    | none                    => (spec, none)
  if (trim name).isEmpty then
    .error (.parse path (field ++ " entry \"" ++ spec ++ "\" has an empty contract/bundle name"))
  else
    match version with
    | none            => .ok ()
    | some versionStr =>
      if (parseU32 versionStr).isNone && (Version.fromStr versionStr).toOption.isNone then
        .error (.parse path (field ++ " entry \"" ++ spec
          ++ "\" has an unparseable version spec \"" ++ versionStr
          ++ "\" (expected a bare major like \"name@1\" or a full version)"))
      else .ok ()

/-- The dependency part of `validate_metadata`: a declared id is the canonical
id of the bare contract name at the major of `min_version` (`0` when that does
not parse). A zero id is skipped. -/
def validateDependency (path : String) (dep : RawManifestDependency) :
    Except ManifestError Unit :=
  if dep.contractId.id = 0 then .ok ()
  else
    let bareContract := bareName dep.contract
    let depMajor := match Version.fromStr dep.minVersion with
      | .ok v    => v.major
      | .error _ => 0
    let expected := GuestContractId.new bareContract depMajor
    if dep.contractId ≠ expected then
      .error (.parse path ("dependency \"" ++ dep.contract ++ "\" declares contract_id "
        ++ decimal dep.contractId.id.toNat ++ " but the canonical id for contract \""
        ++ bareContract ++ "\" at major " ++ decimal depMajor ++ " is "
        ++ decimal expected.id.toNat))
    else .ok ()

/-- `ManifestData::validate_metadata`. -/
def ManifestData.validateMetadata (m : ManifestData) : Except ManifestError Unit := do
  if m.name.isEmpty then
    throw (.parse m.path "name field is required but was empty")
  if m.id = 0 then
    throw (.parse m.path "id field is required but was 0 or missing")
  let expectedId := (BundleId.new m.name).id
  if m.id ≠ expectedId then
    throw (.tampered m.name expectedId m.id)
  m.provides.forM fun spec => validateNameVersionSpec spec "provides" m.path
  m.bundleDependencies.forM fun spec =>
    validateNameVersionSpec spec "bundle_dependencies" m.path
  m.dependencies.forM (validateDependency m.path)

/-- `ManifestData::validate_file`. -/
def ManifestData.validateFile (m : ManifestData) : Except ManifestError Unit :=
  if (trim m.file).isEmpty then .error (.missingFile m.name) else .ok ()

/-- `ManifestData::validate_acquisition`. -/
def ManifestData.validateAcquisition (m : ManifestData) : Except ManifestError Unit :=
  if m.loader.isEmpty then
    .error (.parse m.path "loader field is required but was empty")
  else m.validateFile

/-- `ManifestData::validate`. -/
def ManifestData.validate (m : ManifestData) : Except ManifestError Unit := do
  m.validateMetadata
  m.validateAcquisition

/-- A manifest that passes `validateMetadata` carries the id of its own name. -/
theorem ManifestData.id_of_validateMetadata {m : ManifestData}
    (h : m.validateMetadata = .ok ()) : m.id = (BundleId.new m.name).id := by
  by_contra hne
  unfold ManifestData.validateMetadata at h
  by_cases hname : m.name.isEmpty
  · simp [hname, throw, throwThe, MonadExceptOf.throw, bind, Except.bind] at h
  · by_cases hid : m.id = 0
    · simp [hname, hid, throw, throwThe, MonadExceptOf.throw, bind, Except.bind] at h
    · simp [hname, hid, hne, throw, throwThe, MonadExceptOf.throw, bind, Except.bind] at h

/-- The id of a manifest that passes `validateMetadata` is not zero. -/
theorem ManifestData.id_ne_zero {m : ManifestData} (h : m.validateMetadata = .ok ()) :
    m.id ≠ 0 := by
  intro hid
  unfold ManifestData.validateMetadata at h
  by_cases hname : m.name.isEmpty
  · simp [hname, throw, throwThe, MonadExceptOf.throw, bind, Except.bind] at h
  · simp [hname, hid, throw, throwThe, MonadExceptOf.throw, bind, Except.bind] at h

/-- A manifest that passes `validate` passes `validateMetadata`. -/
theorem ManifestData.validateMetadata_of_validate {m : ManifestData}
    (h : m.validate = .ok ()) : m.validateMetadata = .ok () := by
  unfold ManifestData.validate at h
  cases hm : m.validateMetadata with
  | error e => simp [hm, bind, Except.bind] at h
  | ok u    => rfl

end PolyPlug.Common
