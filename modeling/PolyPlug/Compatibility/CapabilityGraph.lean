import PolyPlug.Common.Manifest

/-!
# `PolyPlug.Compatibility.CapabilityGraph`: the load order of discovered bundles

The builder makes one node of every discovered manifest, with the contracts it
provides and the contracts its dependencies require, draws an edge from each
requirer to the provider of each requirement, and loads the bundles in a
topological order of the graph, providers first.

A node is its position in `nodes`. `petgraph` is not part of the repository:
`toposort` and `tarjan_scc` are parameters.
-/

set_option autoImplicit false

namespace PolyPlug.Compatibility

open PolyPlug.Rust
open PolyPlug.Abi
open PolyPlug.Common

/-- `GraphError`. -/
inductive GraphError where
  | unsatisfiedCapability (requester capability : String)
  | dependencyCycle (participants : List String)
deriving DecidableEq

/-- `ContractCapability`. -/
structure ContractCapability where
  contractName : String
  contractId : GuestContractId
  version : Version
deriving DecidableEq

/-- `ContractCapability::new`. -/
def ContractCapability.new (name : String) (version : Version) : ContractCapability where
  contractName := name
  contractId := GuestContractId.new name version.major
  version := version

/-- `BundleNode`. -/
structure BundleNode where
  name : String
  provides : List ContractCapability
  requires : List ContractCapability
deriving DecidableEq

/-- `DependencyEdge`. -/
structure DependencyEdge where
  contractName : String
  contractId : GuestContractId
deriving DecidableEq

/-- The graph: the nodes by index, and the edges with their weights. -/
structure DiGraph where
  nodes : List BundleNode
  edges : List (Nat × Nat × DependencyEdge)
deriving DecidableEq

/-- The empty graph. -/
def DiGraph.new : DiGraph := ⟨[], []⟩

/-- `self.graph[idx].name`. -/
def DiGraph.name (g : DiGraph) (idx : Nat) : String := (g.nodes[idx]?.map (·.name)).getD ""

/-! ### Edges -/

/-- The `provider_map` of `build_edges`: a later insert replaces an earlier one. -/
def providerMap (nodes : List BundleNode) : Finmap fun _ : GuestContractId => String × Nat :=
  nodes.zipIdx.foldl (fun map (node, idx) =>
    node.provides.foldl (fun map cap => map.insert cap.contractId (node.name, idx)) map) ∅

/-- The edges of one requirer. -/
def requirerEdges (providers : Finmap fun _ : GuestContractId => String × Nat)
    (requirerName : String) (requirerIdx : Nat) :
    List ContractCapability → Except GraphError (List (Nat × Nat × DependencyEdge))
  | [] => .ok []
  | req :: reqs =>
    match providers.lookup req.contractId with
    -- An edge points from the requirer to its provider.
    | some (_, providerIdx) => do
        let edges ← requirerEdges providers requirerName requirerIdx reqs
        .ok ((requirerIdx, providerIdx, ⟨req.contractName, req.contractId⟩) :: edges)
    | none => .error (.unsatisfiedCapability requirerName req.contractName)

/-- The loop over the requirers. -/
def edgesToAdd (providers : Finmap fun _ : GuestContractId => String × Nat) :
    List (BundleNode × Nat) → Except GraphError (List (Nat × Nat × DependencyEdge))
  | [] => .ok []
  | (node, idx) :: more => do
      let edges ← requirerEdges providers node.name idx node.requires
      let rest ← edgesToAdd providers more
      .ok (edges ++ rest)

/-- `build_edges`. -/
def DiGraph.buildEdges (g : DiGraph) : Except GraphError DiGraph := do
  let edges ← edgesToAdd (providerMap g.nodes) g.nodes.zipIdx
  .ok { g with edges := g.edges ++ edges }

/-! ### Cycles and the order -/

/-- `detect_cycles`. -/
def DiGraph.detectCycles (tarjanScc : DiGraph → List (List Nat)) (g : DiGraph) :
    Except GraphError Unit :=
  match (tarjanScc g).find? fun scc => 1 < scc.length with
  | some scc => .error (.dependencyCycle (scc.map g.name))
  | none     => .ok ()

/-- `topological_order`. -/
def DiGraph.topologicalOrder (toposort : DiGraph → Except Nat (List Nat)) (g : DiGraph) :
    Except GraphError (List String) :=
  match toposort g with
  -- Providers come first, which reverses the order of the edges.
  | .ok order => .ok (order.reverse.map g.name)
  | .error n  => .error (.dependencyCycle [g.name n])

/-! ### From manifests -/

/-- The bundle's own version, `1.0.0` when it does not parse. -/
def bundleVersion (m : ManifestData) : Version :=
  match Version.fromStr m.version with
  | .ok version => version
  | .error _    => ⟨1, 0, 0⟩

/-- The capability of a `provides` entry. -/
def providedCapability (bundleVersion : Version) (spec : String) : ContractCapability :=
  match splitOnce spec '@' with
  | some (name, versionStr) =>
      .new name (match Version.fromStr versionStr with
        | .ok version => version
        | .error _    => bundleVersion)
  | none => .new spec bundleVersion

/-- The version a dependency requires, `0.0.0` when it does not parse. -/
def requiredVersion (minVersion : String) : Version :=
  match Version.fromStr minVersion with
  | .ok version => version
  | .error _    => ⟨0, 0, 0⟩

/-- The requirement of a resolved dependency of `requester`. A `ByBundle` dependency names a
discovered bundle that lists the bare contract. -/
def requiredCapability (discoveredBundles : List String)
    (providesMap : Finmap fun _ : String => List String) (requester : String) :
    ManifestDependency → Except GraphError ContractCapability
  | .byContract contract contractId minVersion =>
      .ok ⟨contract, contractId, requiredVersion minVersion⟩
  | .byBundle bundle _ contract contractId minVersion =>
      -- The bundle is looked up here, and is no part of the requirement.
      if bundle ∉ discoveredBundles then
        .error (.unsatisfiedCapability requester
          (contract ++ " (from bundle " ++ bundle ++ ")"))
      else if ((providesMap.lookup bundle).getD []).any (fun spec => bareName spec = contract) then
        .ok ⟨contract, contractId, requiredVersion minVersion⟩
      else
        .error (.unsatisfiedCapability requester
          (contract ++ " not provided by bundle " ++ bundle))

/-- The node of a manifest. -/
def bundleNode (discoveredBundles : List String)
    (providesMap : Finmap fun _ : String => List String) (m : ManifestData) :
    Except GraphError BundleNode := do
  let provides := m.provides.map (providedCapability (bundleVersion m))
  let requires ← m.resolvedDependencies.mapM
    (requiredCapability discoveredBundles providesMap m.name)
  .ok { name := m.name, provides, requires }

/-- `provides_map`: the `provides` of each bundle name, the last one listed. -/
def providesMap (manifests : List ManifestData) : Finmap fun _ : String => List String :=
  manifests.foldl (fun map m => map.insert m.name m.provides) ∅

/-- `from_manifests_with_logger`. The paths beside the manifests are not read. -/
def fromManifests (tarjanScc : DiGraph → List (List Nat)) (manifests : List ManifestData) :
    Except GraphError DiGraph := do
  let discoveredBundles := manifests.map (·.name)
  let nodes ← manifests.mapM (bundleNode discoveredBundles (providesMap manifests))
  let graph ← DiGraph.buildEdges { DiGraph.new with nodes }
  graph.detectCycles tarjanScc
  .ok graph

end PolyPlug.Compatibility
