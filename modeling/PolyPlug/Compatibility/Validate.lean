import PolyPlug.Compatibility.CapabilityGraph
import PolyPlug.Lifecycle.Load

/-!
# `PolyPlug.Compatibility.Validate`: the version check of discovered bundles

Before anything is loaded, `validate_bundle_compatibility` compares the version each
dependency asks for with the version of a provider. The provider is looked up by the
bare contract name. The log is left out.
-/

set_option autoImplicit false

namespace PolyPlug.Compatibility

open PolyPlug.Rust
open PolyPlug.Abi
open PolyPlug.Common
open PolyPlug.Lifecycle

/-- `Version::is_compatible_with`. -/
def isCompatibleWith (self required : Version) : Bool :=
  self.major = required.major && required.minor ≤ self.minor

/-- The contract name and the version a resolved dependency asks for. -/
def dependencySpec : ManifestDependency → String × String
  | .byContract contract _ minVersion   => (contract, minVersion)
  | .byBundle _ _ contract _ minVersion => (contract, minVersion)

/-- The errors of the check: those of the version parser, and `VersionMismatch`. -/
inductive ValidationError where
  | runtime (error : RuntimeError)
  | versionMismatch (contract : String) (required found : Version)
deriving DecidableEq

/-- The `provider_map` of `validate_bundle_compatibility`: a later insert replaces an
earlier one. -/
def bareProviderMap (manifests : List (String × ManifestData)) :
    Finmap fun _ : String => ManifestData :=
  manifests.foldl (fun map (_, m) =>
    m.provides.foldl (fun map spec => map.insert (bareName spec) m) map) ∅

/-- The check of one dependency of the bundle at `path`. -/
def validateDependency (providers : Finmap fun _ : String => ManifestData)
    (compatibility : Compatibility) (path : String) (dep : ManifestDependency) :
    Except ValidationError Unit :=
  let (contract, minVersion) := dependencySpec dep
  if minVersion.isEmpty then .ok ()
  else
    match providers.lookup contract with
    | none          => .ok ()
    | some provider =>
      match Version.fromStr minVersion with
      | .error e     =>
        .error (.runtime (.loader (.manifestParse path
          ("invalid version '" ++ minVersion ++ "': " ++ debugParseVersionError e))))
      | .ok required =>
        match parseManifestVersion provider.version path with
        | .error e     => .error (.runtime e)
        | .ok provided =>
          if isCompatibleWith provided required then .ok ()
          else
            match compatibility with
            | .strict  => .error (.versionMismatch contract required provided)
            | .relaxed => .ok ()
            | .yolo    => .ok ()

/-- `validate_bundle_compatibility`. -/
def validateBundleCompatibility (manifests : List (String × ManifestData))
    (compatibility : Compatibility) : Except ValidationError Unit :=
  manifests.forM fun (path, m) =>
    m.resolvedDependencies.forM (validateDependency (bareProviderMap manifests) compatibility path)

end PolyPlug.Compatibility
