import PolyPlug.Common.Manifest
import PolyPlug.Lib.Toml

/-!
# `PolyPlug.Codegen.Bundle`: `bundle.toml` and the tables emitted for it

`lowerBundle` checks a parsed `bundle.toml` and resolves its dependencies to
identifiers. `emitManifestDependencies` writes the `[[dependency]]` tables of the
generated manifest, by string formatting, and `RawManifestDependency.ofTable` is how
`serde` takes such a table apart when the runtime parses the manifest.

The source locations and suggestions of the errors are left out, as are the fields of a
plugin nothing here reads.
-/

set_option autoImplicit false

namespace PolyPlug.Codegen

open PolyPlug.Rust
open PolyPlug.Abi
open PolyPlug.Common

/-- `PolyplugcError`: the variants a bundle or its contracts are refused with. The message
of a duplicate plugin also spells a generated symbol. -/
inductive PolyplugcError where
  | validationFailed (message : String)
  | duplicatePlugin (bundleName pluginName : String)
  | versionOverflow (component : String) (value : Nat) (versionStr : String)
  | invalidIdentifier (kind name context : String)
  | reservedIdentifier (kind name context languages : String)
  | duplicateContractName (name : String)
  | duplicateFunctionName (contract function : String)
  | bundleNameConflict (bundleName : String)
deriving DecidableEq

/-! ### Versions -/

/-- One component of a version. -/
def parseComponent (versionStr component : String) : Except PolyplugcError Nat :=
  match parseU32 component with
  | some n => .ok n
  | none   => .error (.validationFailed
      ("invalid version component \x60" ++ component ++ "\x60 in \x60" ++ versionStr ++ "\x60"))

/-- `Version::parse` of the code generator: `major`, `major.minor` or `major.minor.patch`.
Further components are not read, and the minor and the patch have 16 bits. -/
def parseVersion (s : String) : Except PolyplugcError Version := do
  let parts := split s '.'
  let major ← parseComponent s (parts.getD 0 "0")
  let minor ← parseComponent s (parts.getD 1 "0")
  let patch ← parseComponent s (parts.getD 2 "0")
  if 65535 < minor then .error (.versionOverflow "minor" minor s)
  else if 65535 < patch then .error (.versionOverflow "patch" patch s)
  else .ok ⟨major, minor, patch⟩

/-! ### The authored bundle -/

/-- `RawDependency`. -/
structure RawDependency where
  kind : String
  contract : String
  minVersion : String
  bundle : Option String
deriving DecidableEq

/-- `RawBundlePlugin`. -/
structure RawBundlePlugin where
  name : String
  implements : List String
deriving DecidableEq

/-- `RawBundleFile`. The maps are lists of entries with distinct keys. -/
inductive RawBundleFile where
  | single (path : String)
  | platformMap (osMap : List (String × List (String × String)))
deriving DecidableEq

/-- `RawBundleSchema`, with the fields of its `[bundle]` table. -/
structure RawBundleSchema where
  name : String
  version : String
  loader : String
  file : RawBundleFile
  needsReinitOnDepReload : Bool
  plugin : List RawBundlePlugin
  dependencies : List RawDependency
deriving DecidableEq

/-- `BundleParseMode`. -/
inductive BundleParseMode where
  | external
  | internal
deriving DecidableEq

/-! ### The resolved bundle -/

/-- `ResolvedDependency`. -/
inductive ResolvedDependency where
  | byContract (contract : String) (contractId : UInt64) (minVersion : Nat)
  | byBundle (bundle : String) (bundleId : UInt64) (contract : String) (contractId : UInt64)
      (minVersion : Nat)
deriving DecidableEq

/-- `ResolvedPlugin`. -/
structure ResolvedPlugin where
  name : String
  implements : List String
deriving DecidableEq

/-- `ResolvedBundleFile`. A platform is an operating system and an architecture. -/
inductive ResolvedBundleFile where
  | absent
  | single (path : String)
  | platformMap (map : List ((String × String) × String))
deriving DecidableEq

/-- `ResolvedBundle`. -/
structure ResolvedBundle where
  name : String
  version : Version
  loader : String
  file : ResolvedBundleFile
  plugins : List ResolvedPlugin
  bundleId : UInt64
  dependencies : List ResolvedDependency
  needsReinitOnDepReload : Bool
deriving DecidableEq

/-- The name of the first plugin whose name an earlier one has. -/
def duplicatePlugin : List ResolvedPlugin → List String → Option String
  | [], _                => none
  | plugin :: rest, seen =>
      if plugin.name ∈ seen then some plugin.name
      else duplicatePlugin rest (plugin.name :: seen)

/-- `validate_bundle_plugin_uniqueness`. -/
def validateBundlePluginUniqueness (plugins : List ResolvedPlugin) (bundleName : String) :
    Except PolyplugcError Unit :=
  match duplicatePlugin plugins [] with
  | some pluginName => .error (.duplicatePlugin bundleName pluginName)
  | none            => .ok ()

/-- The major of a dependency's `min_version`, `0` when it does not parse. -/
def dependencyMajor (minVersion : String) : Nat :=
  match parseVersion minVersion with
  | .ok version => version.major
  | .error _    => 0

/-- The dependency part of `lower_bundle`. -/
def lowerDependency (dep : RawDependency) : ResolvedDependency :=
  let depMajor := dependencyMajor dep.minVersion
  let contractId := (GuestContractId.new dep.contract depMajor).id
  if dep.kind = "bundle" then
    let bundle := dep.bundle.getD ""
    .byBundle bundle (BundleId.new bundle).id dep.contract contractId depMajor
  else .byContract dep.contract contractId depMajor

/-- `to_lowercase`, on the letters of ASCII. -/
def toLowercase (s : String) : String := String.ofList (s.toList.map Char.toLower)

/-- The artifact part of `lower_bundle`. -/
def lowerFile (raw : RawBundleSchema) : BundleParseMode → Except PolyplugcError ResolvedBundleFile
  | .internal => .ok .absent
  | .external =>
    let loader := toLowercase raw.loader
    if loader.isEmpty then .error (.validationFailed "bundle.loader field is required")
    else
      let isNative : Bool := loader = "rust" || loader = "cpp" || loader = "native"
      match raw.file with
      | .platformMap osMap =>
        if isNative then
          .ok (.platformMap (osMap.flatMap fun (os, archMap) =>
            archMap.map fun (arch, path) => ((os, arch), path)))
        else
          .error (.validationFailed ("loader '" ++ loader
            ++ "' requires a flat file field (file = \"path\"), not [bundle.file] table"))
      | .single path =>
        if path.isEmpty then .error (.validationFailed "bundle.file field is required")
        else if isNative then
          .error (.validationFailed ("loader '" ++ loader
            ++ "' requires [bundle.file] table with platform entries, not a flat file field"))
        else .ok (.single path)

/-- `lower_bundle`: the bundle of the IR. -/
def lowerBundle (raw : RawBundleSchema) (mode : BundleParseMode) :
    Except PolyplugcError ResolvedBundle := do
  let version ← parseVersion raw.version
  let plugins := raw.plugin.map fun p =>
    ({ name := p.name, implements := p.implements } : ResolvedPlugin)
  validateBundlePluginUniqueness plugins raw.name
  let file ← lowerFile raw mode
  .ok {
    name := raw.name
    version
    loader := if mode = .external then raw.loader else ""
    file
    plugins
    bundleId := (BundleId.new raw.name).id
    dependencies := raw.dependencies.map lowerDependency
    needsReinitOnDepReload := raw.needsReinitOnDepReload }

/-! ### The emitted tables -/

/-- `emit_manifest_dependencies` on one dependency. -/
def emitDependency : ResolvedDependency → String
  | .byContract contract contractId minVersion =>
      "\n[[dependency]]\n"
        ++ "kind = \"contract\"\n"
        ++ "contract = \"" ++ contract ++ "\"\n"
        ++ "contract_id = 0x" ++ Lib.Toml.hexUpper16 contractId.toNat ++ "\n"
        ++ "min_version = \"" ++ decimal minVersion ++ ".0\"\n"
  | .byBundle bundle bundleId contract contractId minVersion =>
      "\n[[dependency]]\n"
        ++ "kind = \"bundle\"\n"
        ++ "bundle = \"" ++ bundle ++ "\"\n"
        ++ "bundle_id = 0x" ++ Lib.Toml.hexUpper16 bundleId.toNat ++ "\n"
        ++ "contract = \"" ++ contract ++ "\"\n"
        ++ "contract_id = 0x" ++ Lib.Toml.hexUpper16 contractId.toNat ++ "\n"
        ++ "min_version = \"" ++ decimal minVersion ++ ".0\"\n"

/-- `emit_manifest_dependencies`. -/
def emitManifestDependencies (dependencies : List ResolvedDependency) : String :=
  dependencies.foldl (fun depToml dep => depToml ++ emitDependency dep) ""

/-! ### Reading a table -/

open Lib.Toml in
/-- A 64-bit number under a key: absent, present, or of another kind. -/
def getU64 (table : Table) (key : String) : Option (Option UInt64) :=
  match table.lookup key with
  | none          => some none
  | some (.hex n) => if n < 2 ^ 64 then some (some (UInt64.ofNat n)) else none
  | some (.str _) => none

open Lib.Toml in
/-- `RawManifestDependency::deserialize`: three required texts, and the defaults of the rest. -/
def rawManifestDependencyOfTable (table : Table) : Option RawManifestDependency := do
  let kind ← getStr table "kind"
  let contract ← getStr table "contract"
  let minVersion ← getStr table "min_version"
  let bundle ← match table.lookup "bundle" with
    | none             => some none
    | some (.str text) => some (some text)
    | some (.hex _)    => none
  let contractId ← getU64 table "contract_id"
  let bundleId ← getU64 table "bundle_id"
  some {
    kind
    contract
    minVersion
    bundle
    contractId := ⟨contractId.getD 0⟩
    bundleId := bundleId.map BundleId.mk }

/-- The dependencies of a manifest text, with the reader of its tables. -/
def parseManifestDependencies (read : String → Option (List Lib.Toml.Table)) (text : String) :
    Option (List RawManifestDependency) :=
  (read text).bind fun tables => tables.mapM rawManifestDependencyOfTable

end PolyPlug.Codegen
