import PolyPlug.Rust.Str
import PolyPlug.Abi.Types
import PolyPlug.Common.Manifest
import PolyPlug.Registry.Data
import PolyPlug.Registry.Store
import PolyPlug.Lib.Run
import PolyPlug.Lib.Reconcile
import PolyPlug.Lib.Window
import PolyPlug.Lib.Map
import PolyPlug.Lib.Stack
import PolyPlug.Lib.Region
import PolyPlug.Abi.CallArena
import PolyPlug.Proofs.Abi.CallArena
import PolyPlug.Registry.Lookup
import PolyPlug.Registry.Ops
import PolyPlug.Proofs.Registry.Catalogue
import PolyPlug.Proofs.Registry.Register
import PolyPlug.Proofs.Registry.Reload
import PolyPlug.Proofs.Registry.Swap
import PolyPlug.Proofs.Registry.Views
import PolyPlug.Proofs.Registry.WellFormed
import PolyPlug.Proofs.Registry.Lookups
import PolyPlug.Proofs.Registry.Mirror
import PolyPlug.Proofs.Registry.Tidy
import PolyPlug.Proofs.Registry.Frame
import PolyPlug.Proofs.Registry.Bundles
import PolyPlug.Proofs.Registry.Commit
import PolyPlug.Proofs.Registry.Handles
import PolyPlug.Proofs.Registry.Conflicts
import PolyPlug.Lifecycle.State
import PolyPlug.Lifecycle.Unload
import PolyPlug.Lifecycle.Load
import PolyPlug.Lifecycle.InternalPlugin
import PolyPlug.Lifecycle.ReloadSteps
import PolyPlug.Proofs.Lifecycle.InitStack
import PolyPlug.Proofs.Lifecycle.Isolation
import PolyPlug.Proofs.Lifecycle.Unload
import PolyPlug.Proofs.Lifecycle.Staging
import PolyPlug.Proofs.Lifecycle.Nested
import PolyPlug.Proofs.Lifecycle.Visibility
import PolyPlug.Proofs.Lifecycle.Transaction
import PolyPlug.Codegen.HostCaller
import PolyPlug.Proofs.Codegen.Staleness
import PolyPlug.Lib.Visit
import PolyPlug.Lifecycle.Residents
import PolyPlug.Proofs.Lifecycle.Residents
import PolyPlug.Codegen.Bundle
import PolyPlug.Codegen.Contracts
import PolyPlug.Codegen.EnumExpr
import PolyPlug.Codegen.QuickJs
import PolyPlug.Compatibility.CapabilityGraph
import PolyPlug.Compatibility.Validate
import PolyPlug.Host.Contracts
import PolyPlug.Js.Loader
import PolyPlug.Lib.Encoding
import PolyPlug.Lib.FirstMatch
import PolyPlug.Lib.Loop
import PolyPlug.Lib.Pairing
import PolyPlug.Lib.Postorder
import PolyPlug.Lib.Topological
import PolyPlug.Lifecycle.Backing
import PolyPlug.Lifecycle.Host
import PolyPlug.Lifecycle.InitLookup
import PolyPlug.Lifecycle.UnloadCascade
import PolyPlug.Proofs.Abi.ArenaReuse
import PolyPlug.Proofs.Codegen.Dependencies
import PolyPlug.Proofs.Codegen.EnumEmission
import PolyPlug.Proofs.Codegen.Enums
import PolyPlug.Proofs.Codegen.QuickJs
import PolyPlug.Proofs.Compatibility.Discovery
import PolyPlug.Proofs.Compatibility.Specs
import PolyPlug.Proofs.Host.Contracts
import PolyPlug.Proofs.Js.Loader
import PolyPlug.Proofs.Lifecycle.Backing
import PolyPlug.Proofs.Lifecycle.Cascade
import PolyPlug.Proofs.Lifecycle.Covered
import PolyPlug.Proofs.Lifecycle.InitLookup
import PolyPlug.Proofs.Lifecycle.Manifests
import PolyPlug.Proofs.Lifecycle.Notify
import PolyPlug.Proofs.Lifecycle.ProviderSet
import PolyPlug.Proofs.Lifecycle.Signature
import PolyPlug.Proofs.Lifecycle.UnloadCascade
import PolyPlug.Proofs.Registry.Invisible
import PolyPlug.Proofs.Registry.Names
import PolyPlug.Proofs.Signing.Digest
import PolyPlug.Proofs.Signing.Verify
import PolyPlug.Codegen.ApiTypes
import PolyPlug.Codegen.Callers
import PolyPlug.Codegen.JsMarshal
import PolyPlug.Codegen.Symbols
import PolyPlug.Js.HostInterface
import PolyPlug.Lib.CLayout
import PolyPlug.Lib.Descent
import PolyPlug.Proofs.Codegen.ApiTypes
import PolyPlug.Proofs.Codegen.ArrayRefs
import PolyPlug.Proofs.Codegen.Callers
import PolyPlug.Proofs.Codegen.EnumLanguage
import PolyPlug.Proofs.Codegen.JsLayout
import PolyPlug.Proofs.Codegen.JsMarshal
import PolyPlug.Proofs.Codegen.JsReturns
import PolyPlug.Proofs.Codegen.Recursion
import PolyPlug.Proofs.Codegen.Symbols
import PolyPlug.Proofs.Js.HostInterface
import PolyPlug.Proofs.Lifecycle.ContractNames
import PolyPlug.Codegen.DenoRead
import PolyPlug.Proofs.Codegen.DenoFrees
import PolyPlug.Lib.Owners
import PolyPlug.Codegen.LuaHostContract
import PolyPlug.Proofs.Codegen.LuaHostContract
import PolyPlug.Lifecycle.GuestRoutes
import PolyPlug.Proofs.Lifecycle.GuestRoutes
import PolyPlug.Lib.Epoch
import PolyPlug.Concurrency.EpochModel
import PolyPlug.Proofs.Concurrency.EpochModel
import PolyPlug.Registry.ReadPath
import PolyPlug.Proofs.Registry.ReadPath
import PolyPlug.Lib.Custody
import PolyPlug.Lifecycle.NativeLibraries
import PolyPlug.Proofs.Lifecycle.LibraryCustody
import PolyPlug.Lib.Exclusive
import PolyPlug.Proofs.Lifecycle.LibraryCalls
import PolyPlug.Proofs.Lifecycle.LibrarySafety
import PolyPlug.Proofs.Lifecycle.LibraryRuns
import PolyPlug.Lib.Mixing
import PolyPlug.Sdk.ContractIds
import PolyPlug.Proofs.Sdk.ContractIds
