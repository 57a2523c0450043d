import PolyPlug.Registry.Ops

/-!
# `PolyPlug.Lifecycle.State`: the runtime and its errors

`Runtime` holds the registry and, each behind a lock of its own, the manifest
cache, the init stacks of the threads, the internal-plugin roots and lifecycle
markers, and the live-instance counts. `active_init_count` is left out: it is the
total length of the init stacks, kept as a fast-path hint.

A root is a boxed value of the host; only its presence is read, so it is an
opaque number here.
-/

set_option autoImplicit false

namespace PolyPlug.Lifecycle

open PolyPlug.Rust
open PolyPlug.Abi
open PolyPlug.Common
open PolyPlug.Registry

/-! ### Errors -/

/-- `LoaderError`: the variants the load and unload paths return. -/
inductive LoaderError where
  | initFailed (bundle error : String)
  | manifestParse (path reason : String)
  | manifestMissingFile (bundle : String)
  | bundleTampered (bundle : String) (expected found : UInt64)
  | noLoaderForName (bundle loaderName : String)
  | functionCountMismatch (contract : String) (expected found : Nat)
  | unsignedBundle (bundle : String)
  | untrustedSigningKey (bundle : String)
  | signatureVerificationFailed (bundle reason : String)
deriving DecidableEq

/-- `From<ManifestError> for LoaderError`. -/
def LoaderError.ofManifest : ManifestError → LoaderError
  | .parse path reason              => .manifestParse path reason
  | .missingFile bundle             => .manifestMissingFile bundle
  | .tampered bundle expected found => .bundleTampered bundle expected found

/-- `RuntimeError`: the variants the load, reload and unload paths return. -/
inductive RuntimeError where
  | loader (error : LoaderError)
  | registry (error : RegistryError)
  | bundleNotFound (bundleName contractName : String)
  | hotReloadDisabled
  | dependencyInUse (provider : String) (dependents : List String)
  | internalPluginInUse (bundle : String) (activeInstances : Nat)
  | internalPluginResidentWrongThread (bundle : String) (ownerThreadId currentThreadId : Nat)
deriving DecidableEq

/-- `format!("{:#x}")` of a 64-bit number. -/
def hex (n : UInt64) : String := "0x" ++ String.ofList (Nat.toDigits 16 n.toNat)

/-! ### The runtime -/

/-- `Runtime`. -/
structure Runtime where
  registry : RuntimeStore
  bundleManifests : Finmap fun _ : String => ManifestData
  initBundleStack : Finmap fun _ : ThreadId => List UInt64
  internalPluginRoots : Finmap fun _ : BundleId => Nat
  internalPluginLifecycle : Finset BundleId
  instanceCounts : Finmap fun _ : BundleId => Nat

/-- A runtime nothing is loaded in. -/
def Runtime.new : Runtime := ⟨RuntimeStore.new, ∅, ∅, ∅, ∅, ∅⟩

end PolyPlug.Lifecycle
