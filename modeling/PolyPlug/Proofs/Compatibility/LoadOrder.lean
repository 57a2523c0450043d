import PolyPlug.Compatibility.CapabilityGraph
import PolyPlug.Lib.Loop
import PolyPlug.Lib.Map
import PolyPlug.Lib.Topological

/-!
# `PolyPlug.Proofs.Compatibility.LoadOrder`: what the load order respects

The graph draws, for each resolved dependency, one edge: to the last listed bundle that
provides the contract (`edge_iff`). So the load order puts that provider before the
dependent, and what any topological order respects is reachability along the drawn
edges. Two things follow. A bundle that is the last listed provider of a contract it
depends on has an edge to itself, which the component check lets through and the
topological sort refuses. And a bundle that a dependency names is loaded before the
dependent only where the drawn edges lead to it.

What is assumed of `petgraph` is its documentation: `tarjan_scc` puts two nodes in one
component when each can be reached from the other, and `toposort` gives an order in
which every edge goes forward, or a node on a cycle.
-/

set_option autoImplicit false

namespace PolyPlug.Compatibility

open PolyPlug.Abi
open PolyPlug.Common
open PolyPlug.Lib
open Relation

/-! ### What is assumed of the graph library -/

/-- An edge between two nodes. -/
def DiGraph.Edge (g : DiGraph) (a b : Nat) : Prop := ∃ weight, (a, b, weight) ∈ g.edges

/-- Edges are between nodes of the graph. -/
def DiGraph.WellFormed (g : DiGraph) : Prop :=
  ∀ a b, g.Edge a b → a < g.nodes.length ∧ b < g.nodes.length

/-- `tarjan_scc`: two nodes are in one component when each can be reached from the other. -/
def TarjanCorrect (tarjanScc : DiGraph → List (List Nat)) : Prop :=
  ∀ g : DiGraph, g.WellFormed → ∀ a < g.nodes.length, ∀ b < g.nodes.length,
    (∃ scc ∈ tarjanScc g, a ∈ scc ∧ b ∈ scc) ↔
      a = b ∨ (TransGen g.Edge a b ∧ TransGen g.Edge b a)

/-- `toposort`: every node once and every edge forward, or a node on a cycle. -/
def ToposortCorrect (toposort : DiGraph → Except Nat (List Nat)) : Prop :=
  ∀ g : DiGraph, g.WellFormed →
    match toposort g with
    | .ok order => Topological g.Edge (List.range g.nodes.length) order
    | .error n  => TransGen g.Edge n n

/-! ### Nodes of manifests -/

/-- The capability a dependency that passes the checks requires. -/
def requirementOf : ManifestDependency → ContractCapability
  | .byContract contract contractId minVersion => ⟨contract, contractId, requiredVersion minVersion⟩
  | .byBundle _ _ contract contractId minVersion =>
      ⟨contract, contractId, requiredVersion minVersion⟩

@[simp] theorem contractId_requirementOf (dep : ManifestDependency) :
    (requirementOf dep).contractId = dep.contractId := by
  cases dep <;> rfl

/-- The node of a manifest whose dependencies pass the checks. -/
def nodeOf (m : ManifestData) : BundleNode where
  name := m.name
  provides := m.provides.map (providedCapability (bundleVersion m))
  requires := m.resolvedDependencies.map requirementOf

theorem requiredCapability_ok {discovered : List String}
    {provides : Finmap fun _ : String => List String} {requester : String}
    (dep : ManifestDependency) (cap : ContractCapability)
    (h : requiredCapability discovered provides requester dep = .ok cap) :
    cap = requirementOf dep := by
  cases dep with
  | byContract contract contractId minVersion => exact (Except.ok.inj h).symm
  | byBundle bundle bundleId contract contractId minVersion =>
      simp only [requiredCapability] at h
      split at h
      · cases h
      · split at h
        · exact (Except.ok.inj h).symm
        · cases h

theorem bundleNode_ok {discovered : List String} {provides : Finmap fun _ : String => List String}
    (m : ManifestData) (node : BundleNode) (h : bundleNode discovered provides m = .ok node) :
    node = nodeOf m := by
  rw [bundleNode] at h
  cases hreq : m.resolvedDependencies.mapM (requiredCapability discovered provides m.name) with
  | error e => rw [hreq] at h; cases h
  | ok requires =>
      rw [hreq] at h
      rw [← Except.ok.inj h, mapM_ok requiredCapability_ok hreq]
      rfl

/-! ### The recorded provider -/

/-- The bundle provides the contract. -/
def ProvidesContract (m : ManifestData) (contractId : GuestContractId) : Prop :=
  ∃ cap ∈ (nodeOf m).provides, cap.contractId = contractId

instance (m : ManifestData) (contractId : GuestContractId) :
    Decidable (ProvidesContract m contractId) :=
  inferInstanceAs (Decidable (∃ cap ∈ (nodeOf m).provides, cap.contractId = contractId))

/-- The last listed bundle that provides the contract. -/
def recordedProvider (manifests : List ManifestData) (contractId : GuestContractId) :
    Option ManifestData :=
  (manifests.filter fun m => ProvidesContract m contractId).getLast?

theorem providerMap_append (nodes : List BundleNode) (node : BundleNode)
    (contractId : GuestContractId) :
    (providerMap (nodes ++ [node])).lookup contractId =
      if ∃ cap ∈ node.provides, cap.contractId = contractId then some (node.name, nodes.length)
      else (providerMap nodes).lookup contractId := by
  rw [providerMap, List.zipIdx_append, List.foldl_append]
  simp only [List.zipIdx_cons, List.zipIdx_nil, List.foldl_cons, List.foldl_nil, Nat.zero_add]
  rw [lookup_foldl_insert_const]
  rfl

theorem recordedProvider_append (manifests : List ManifestData) (m : ManifestData)
    (contractId : GuestContractId) :
    recordedProvider (manifests ++ [m]) contractId =
      if ProvidesContract m contractId then some m else recordedProvider manifests contractId := by
  rw [recordedProvider, List.filter_append]
  by_cases h : ProvidesContract m contractId
  · simp [h]
  · simp [h, recordedProvider]

/-- **The map holds the last listed provider.** -/
theorem rel_lookup_providerMap (manifests : List ManifestData) (contractId : GuestContractId) :
    Option.Rel (fun entry m => manifests[entry.2]? = some m)
      ((providerMap (manifests.map nodeOf)).lookup contractId)
      (recordedProvider manifests contractId) := by
  induction manifests using List.reverseRecOn with
  | nil => exact .none
  | append_singleton manifests m ih =>
      rw [List.map_append, List.map_singleton, providerMap_append, recordedProvider_append]
      by_cases h : ProvidesContract m contractId
      · rw [if_pos h, if_pos (show ∃ cap ∈ (nodeOf m).provides, _ from h)]
        exact .some (by simp)
      · rw [if_neg h, if_neg (show ¬ ∃ cap ∈ (nodeOf m).provides, _ from h)]
        generalize (providerMap (manifests.map nodeOf)).lookup contractId = entry at ih ⊢
        generalize recordedProvider manifests contractId = recorded at ih ⊢
        cases ih with
        | none => exact .none
        | some hm =>
            refine .some ?_
            rw [List.getElem?_append_left (List.getElem?_eq_some_iff.1 hm).1]
            exact hm

/-- A recorded provider is listed, and provides the contract. -/
theorem recordedProvider_spec {manifests : List ManifestData} {contractId : GuestContractId}
    {p : ManifestData} (h : recordedProvider manifests contractId = some p) :
    p ∈ manifests ∧ ProvidesContract p contractId := by
  have hmem := List.mem_of_getLast? h
  simpa using hmem

/-! ### The drawn edges -/

theorem requirerEdges_ok {providers : Finmap fun _ : GuestContractId => String × Nat}
    {name : String} {idx : Nat} : ∀ {reqs : List ContractCapability}
    {edges : List (Nat × Nat × DependencyEdge)},
    requirerEdges providers name idx reqs = .ok edges →
      (∀ req ∈ reqs, (providers.lookup req.contractId).isSome) ∧
        ∀ a b, (∃ weight, (a, b, weight) ∈ edges) ↔
          a = idx ∧ ∃ req ∈ reqs, ∃ n, providers.lookup req.contractId = some (n, b) := by
  intro reqs
  induction reqs with
  | nil =>
      intro edges h
      rw [← Except.ok.inj h]
      simp
  | cons req reqs ih =>
      intro edges h
      rw [requirerEdges] at h
      split at h
      · next n providerIdx hlookup =>
        cases hrest : requirerEdges providers name idx reqs with
        | error e => rw [hrest] at h; cases h
        | ok rest =>
            rw [hrest] at h
            obtain ⟨hall, hiff⟩ := ih hrest
            rw [← Except.ok.inj h]
            refine ⟨fun r hr => ?_, fun a b => ?_⟩
            · rcases List.mem_cons.1 hr with rfl | hr
              · simp [hlookup]
              · exact hall r hr
            · constructor
              · rintro ⟨weight, hw⟩
                rcases List.mem_cons.1 hw with heq | hw
                · simp only [Prod.mk.injEq] at heq
                  obtain ⟨rfl, rfl, _⟩ := heq
                  exact ⟨rfl, req, by simp, n, hlookup⟩
                · obtain ⟨rfl, r, hr, m, hm⟩ := (hiff a b).1 ⟨weight, hw⟩
                  exact ⟨rfl, r, List.mem_cons_of_mem _ hr, m, hm⟩
              · rintro ⟨rfl, r, hr, m, hm⟩
                rcases List.mem_cons.1 hr with rfl | hr
                · rw [hlookup] at hm
                  simp only [Option.some.injEq, Prod.mk.injEq] at hm
                  exact ⟨_, by rw [← hm.2]; exact List.mem_cons_self⟩
                · obtain ⟨weight, hw⟩ := (hiff a b).2 ⟨rfl, r, hr, m, hm⟩
                  exact ⟨weight, List.mem_cons_of_mem _ hw⟩
      · cases h

theorem edgesToAdd_ok {providers : Finmap fun _ : GuestContractId => String × Nat} :
    ∀ {nodes : List (BundleNode × Nat)} {edges : List (Nat × Nat × DependencyEdge)},
      edgesToAdd providers nodes = .ok edges →
        (∀ p ∈ nodes, ∀ req ∈ p.1.requires, (providers.lookup req.contractId).isSome) ∧
          ∀ a b, (∃ weight, (a, b, weight) ∈ edges) ↔
            ∃ p ∈ nodes, p.2 = a ∧
              ∃ req ∈ p.1.requires, ∃ n, providers.lookup req.contractId = some (n, b) := by
  intro nodes
  induction nodes with
  | nil =>
      intro edges h
      rw [← Except.ok.inj h]
      simp
  | cons p nodes ih =>
      intro edges h
      obtain ⟨node, idx⟩ := p
      rw [edgesToAdd] at h
      cases hfirst : requirerEdges providers node.name idx node.requires with
      | error e => rw [hfirst] at h; cases h
      | ok first =>
          cases hrest : edgesToAdd providers nodes with
          | error e => rw [hfirst, hrest] at h; cases h
          | ok rest =>
              rw [hfirst, hrest] at h
              obtain ⟨hall, hiff⟩ := requirerEdges_ok hfirst
              obtain ⟨hallRest, hiffRest⟩ := ih hrest
              rw [← Except.ok.inj h]
              refine ⟨fun q hq => ?_, fun a b => ?_⟩
              · rcases List.mem_cons.1 hq with rfl | hq
                · exact hall
                · exact hallRest q hq
              · simp only [List.mem_append, exists_or, hiff, hiffRest, List.exists_mem_cons_iff]
                exact or_congr_left (and_congr_left fun _ => eq_comm)

/-- What an accepted list of manifests gives: every requirement has a recorded provider, and
an edge leads from each requirer to the recorded provider of each requirement. -/
structure Accepted (manifests : List ManifestData) (g : DiGraph) : Prop where
  nodes : g.nodes = manifests.map nodeOf
  provided : ∀ m ∈ manifests, ∀ dep ∈ m.resolvedDependencies,
    (recordedProvider manifests dep.contractId).isSome
  edge_iff : ∀ a b, g.Edge a b ↔ ∃ m, manifests[a]? = some m ∧ ∃ dep ∈ m.resolvedDependencies,
    ∃ n, (providerMap (manifests.map nodeOf)).lookup dep.contractId = some (n, b)

/-- **What `from_manifests` builds.** -/
theorem fromManifests_ok {tarjanScc : DiGraph → List (List Nat)} {manifests : List ManifestData}
    {g : DiGraph} (h : fromManifests tarjanScc manifests = .ok g) :
    Accepted manifests g ∧ g.detectCycles tarjanScc = .ok () := by
  rw [fromManifests] at h
  cases hnodes : manifests.mapM (bundleNode (manifests.map (·.name)) (providesMap manifests)) with
  | error e => simp only [hnodes] at h; cases h
  | ok nodes =>
      simp only [hnodes] at h
      obtain rfl : nodes = manifests.map nodeOf := mapM_ok bundleNode_ok hnodes
      cases hedges : edgesToAdd (providerMap (manifests.map nodeOf))
          (manifests.map nodeOf).zipIdx with
      | error e =>
          simp only [bind, Except.bind, DiGraph.buildEdges, hedges] at h
          cases h
      | ok edges =>
          simp only [bind, Except.bind, DiGraph.buildEdges, hedges] at h
          obtain ⟨hall, hiff⟩ := edgesToAdd_ok hedges
          split at h
          · cases h
          · next hcycles =>
            obtain rfl := Except.ok.inj h
            have hmem : ∀ {m : ManifestData} {a : Nat}, manifests[a]? = some m →
                (nodeOf m, a) ∈ (manifests.map nodeOf).zipIdx := fun hm => by
              rw [List.mk_mem_zipIdx_iff_getElem?, List.getElem?_map, hm]
              rfl
            refine ⟨⟨rfl, ?_, fun a b => ?_⟩, hcycles⟩
            · intro m hm dep hdep
              obtain ⟨a, ha⟩ := List.getElem?_of_mem hm
              have hsome := hall _ (hmem ha) (requirementOf dep) (List.mem_map.2 ⟨dep, hdep, rfl⟩)
              rw [contractId_requirementOf] at hsome
              have hrel := rel_lookup_providerMap manifests dep.contractId
              obtain ⟨entry, hentry⟩ := Option.isSome_iff_exists.1 hsome
              rw [hentry] at hrel
              generalize recordedProvider manifests dep.contractId = recorded at hrel ⊢
              cases hrel
              rfl
            · show (∃ weight, (a, b, weight) ∈ DiGraph.new.edges ++ edges) ↔ _
              rw [show DiGraph.new.edges ++ edges = edges from rfl, hiff]
              constructor
              · rintro ⟨⟨node, i⟩, hp, rfl, req, hreq, n, hn⟩
                rw [List.mk_mem_zipIdx_iff_getElem?, List.getElem?_map,
                  Option.map_eq_some_iff] at hp
                obtain ⟨m, hm, rfl⟩ := hp
                obtain ⟨dep, hdep, rfl⟩ := List.mem_map.1 hreq
                exact ⟨m, hm, dep, hdep, n, by rwa [contractId_requirementOf] at hn⟩
              · rintro ⟨m, hm, dep, hdep, n, hn⟩
                exact ⟨_, hmem hm, rfl, requirementOf dep, List.mem_map.2 ⟨dep, hdep, rfl⟩, n,
                  by rwa [contractId_requirementOf]⟩

/-! ### Edges by name -/

/-- The dependencies of the bundle `x` draw an edge to the bundle `y`: it is the last listed
provider of a contract that one of them requires. -/
def DrawsTo (manifests : List ManifestData) (x y : String) : Prop :=
  ∃ m ∈ manifests, m.name = x ∧ ∃ dep ∈ m.resolvedDependencies,
    ∃ p, recordedProvider manifests dep.contractId = some p ∧ p.name = y

section
variable {manifests : List ManifestData} {g : DiGraph} (h : Accepted manifests g)
include h

theorem Accepted.length_nodes : g.nodes.length = manifests.length := by
  rw [h.nodes, List.length_map]

theorem Accepted.name_eq {a : Nat} {m : ManifestData} (ha : manifests[a]? = some m) :
    g.name a = m.name := by
  rw [DiGraph.name, h.nodes, List.getElem?_map, ha]
  rfl

/-- The names in the order of the nodes. -/
theorem Accepted.map_name : (List.range g.nodes.length).map g.name = manifests.map (·.name) := by
  refine List.ext_getElem? fun a => ?_
  rw [List.getElem?_map, List.getElem?_map, h.length_nodes]
  cases ha : manifests[a]? with
  | none => simpa using ha
  | some m =>
      have hlt := (List.getElem?_eq_some_iff.1 ha).1
      simp [hlt, h.name_eq ha]

/-- An edge leads to the recorded provider of a requirement. -/
theorem Accepted.edge {a b : Nat} (hab : g.Edge a b) :
    ∃ m, manifests[a]? = some m ∧ ∃ p, manifests[b]? = some p ∧
      ∃ dep ∈ m.resolvedDependencies, recordedProvider manifests dep.contractId = some p := by
  obtain ⟨m, hm, dep, hdep, n, hn⟩ := (h.edge_iff a b).1 hab
  have hrel := rel_lookup_providerMap manifests dep.contractId
  rw [hn] at hrel
  generalize hp : recordedProvider manifests dep.contractId = recorded at hrel
  cases hrel with
  | some hb => exact ⟨m, hm, _, hb, dep, hdep, hp⟩

theorem Accepted.wellFormed : g.WellFormed := by
  intro a b hab
  obtain ⟨m, hm, p, hp, _⟩ := h.edge hab
  rw [h.length_nodes]
  exact ⟨(List.getElem?_eq_some_iff.1 hm).1, (List.getElem?_eq_some_iff.1 hp).1⟩

/-- An edge is drawn between the bundles of its nodes. -/
theorem Accepted.drawsTo {a b : Nat} (hab : g.Edge a b) :
    DrawsTo manifests (g.name a) (g.name b) := by
  obtain ⟨m, hm, p, hp, dep, hdep, hrec⟩ := h.edge hab
  rw [h.name_eq hm, h.name_eq hp]
  exact ⟨m, List.mem_of_getElem? hm, rfl, dep, hdep, p, hrec, rfl⟩

theorem Accepted.transGen_drawsTo {a b : Nat} (hab : TransGen g.Edge a b) :
    TransGen (DrawsTo manifests) (g.name a) (g.name b) :=
  hab.lift g.name fun _ _ => h.drawsTo

variable (hnames : (manifests.map (·.name)).Nodup)
include hnames

theorem Accepted.name_injOn : Set.InjOn g.name { a | a ∈ List.range g.nodes.length } := by
  have hnodup : ((List.range g.nodes.length).map g.name).Nodup := by rwa [h.map_name]
  intro a ha b hb hab
  exact List.inj_on_of_nodup_map hnodup ha hb hab

/-- What is drawn between two bundles is an edge between their nodes. -/
theorem Accepted.edge_of_drawsTo {a b : Nat} (ha : a < g.nodes.length) (hb : b < g.nodes.length)
    (hab : DrawsTo manifests (g.name a) (g.name b)) : g.Edge a b := by
  obtain ⟨m, hm, hma, dep, hdep, p, hrec, hpb⟩ := hab
  have hrel := rel_lookup_providerMap manifests dep.contractId
  rw [hrec] at hrel
  generalize hentry : (providerMap (manifests.map nodeOf)).lookup dep.contractId = entry at hrel
  cases hrel with
  | @some entry _ hi =>
      obtain ⟨j, hj⟩ := List.getElem?_of_mem hm
      have hlt : ∀ {i : Nat} {q : ManifestData}, manifests[i]? = some q →
          i ∈ List.range g.nodes.length := fun hq => by
        rw [List.mem_range, h.length_nodes]
        exact (List.getElem?_eq_some_iff.1 hq).1
      have hja : j = a := h.name_injOn hnames (hlt hj) (List.mem_range.2 ha)
        ((h.name_eq hj).trans hma)
      have hib : entry.2 = b := h.name_injOn hnames (hlt hi) (List.mem_range.2 hb)
        ((h.name_eq hi).trans hpb)
      refine (h.edge_iff a b).2 ⟨m, hja ▸ hj, dep, hdep, entry.1, ?_⟩
      rw [hentry, ← hib]

/-- **A topological order of the nodes is one of the names.** -/
theorem Accepted.topological_map {order : List Nat}
    (horder : Topological g.Edge (List.range g.nodes.length) order) :
    Topological (DrawsTo manifests) (manifests.map (·.name)) (order.map g.name) := by
  refine ⟨?_, ?_⟩
  · rw [← h.map_name]
    exact horder.perm.map _
  · rw [← h.map_name]
    intro x hx y hy hxy
    obtain ⟨a, ha, rfl⟩ := List.mem_map.1 hx
    obtain ⟨b, hb, rfl⟩ := List.mem_map.1 hy
    have hedge := h.edge_of_drawsTo hnames (List.mem_range.1 ha) (List.mem_range.1 hb) hxy
    refine (before_map ?_ (horder.perm.mem_iff.2 ha) (horder.perm.mem_iff.2 hb)).2
      (horder.forward a ha b hb hedge)
    exact (h.name_injOn hnames).mono fun c hc => horder.perm.mem_iff.1 hc

end

/-! ### The two cycle checks -/

/-- **Past the component check, the only cycles are edges of a node to itself.** -/
theorem edge_self_of_transGen {tarjanScc : DiGraph → List (List Nat)}
    (htarjan : TarjanCorrect tarjanScc) {g : DiGraph} (hg : g.WellFormed)
    (hcycles : g.detectCycles tarjanScc = .ok ()) {a : Nat} (haa : TransGen g.Edge a a) :
    g.Edge a a := by
  obtain ⟨b, hab, hba⟩ := TransGen.head'_iff.1 haa
  by_contra hself
  have hne : b ≠ a := fun heq => hself (heq ▸ hab)
  rcases reflTransGen_iff_eq_or_transGen.1 hba with heq | hba
  · exact hne heq.symm
  · obtain ⟨ha, hb⟩ := hg a b hab
    obtain ⟨scc, hscc, hmema, hmemb⟩ := (htarjan g hg a ha b hb).2 (.inr ⟨.single hab, hba⟩)
    have hlen : 1 < scc.length := by
      match scc, hmema, hmemb with
      | [], hmema, _ => cases hmema
      | [c], hmema, hmemb =>
          exact absurd ((List.mem_singleton.1 hmemb).trans (List.mem_singleton.1 hmema).symm) hne
      | _ :: _ :: _, _, _ => simp
    rw [DiGraph.detectCycles] at hcycles
    split at hcycles
    · cases hcycles
    · next hnone => exact absurd hlen (by simpa using List.find?_eq_none.1 hnone scc hscc)

/-- An order in which the edges go forward, or a node on a cycle. -/
noncomputable def someOrder (g : DiGraph) : Except Nat (List Nat) :=
  open Classical in
  if h : ∃ order, Topological g.Edge (List.range g.nodes.length) order then .ok h.choose
  else if h : ∃ n, TransGen g.Edge n n then .error h.choose else .ok []

theorem toposortCorrect_someOrder : ToposortCorrect someOrder := by
  intro g _
  by_cases hsorted : ∃ order, Topological g.Edge (List.range g.nodes.length) order
  · rw [someOrder, dif_pos hsorted]
    exact hsorted.choose_spec
  · by_cases hcycle : ∃ n, TransGen g.Edge n n
    · rw [someOrder, dif_neg hsorted, dif_pos hcycle]
      exact hcycle.choose_spec
    · exact absurd (exists_topological (fun a ha => hcycle ⟨a, ha⟩) List.nodup_range) hsorted

/-- Every order in which the edges go forward is one that `toposort` may give. -/
theorem exists_toposort {g : DiGraph} {order : List Nat}
    (horder : Topological g.Edge (List.range g.nodes.length) order) :
    ∃ toposort, ToposortCorrect toposort ∧ toposort g = .ok order := by
  classical
  refine ⟨Function.update someOrder g (.ok order), fun g' hg' => ?_, Function.update_self ..⟩
  by_cases heq : g' = g
  · subst heq
    rw [Function.update_self]
    exact horder
  · rw [Function.update_of_ne heq]
    exact toposortCorrect_someOrder g' hg'

/-! ### The load order -/

/-- The names are the bundles, and each dependency is loaded first: some provider of its
contract, and the bundle it names. -/
structure LoadOrderRespects (manifests : List ManifestData) (names : List String) : Prop where
  perm : names.Perm (manifests.map (·.name))
  provider_before : ∀ m ∈ manifests, ∀ dep ∈ m.resolvedDependencies,
    ∃ p ∈ manifests, ProvidesContract p dep.contractId ∧ Before names p.name m.name
  bundle_before : ∀ m ∈ manifests, ∀ bundle bundleId contract contractId minVersion,
    .byBundle bundle bundleId contract contractId minVersion ∈ m.resolvedDependencies →
      Before names bundle m.name

/-- No bundle is the last listed provider of a contract it requires. -/
def NoOwnProvider (manifests : List ManifestData) : Prop :=
  ∀ x, ¬ DrawsTo manifests x x

/-- The drawn edges lead from each bundle to the bundles its dependencies name. -/
def NamedReachable (manifests : List ManifestData) : Prop :=
  ∀ m ∈ manifests, ∀ bundle bundleId contract contractId minVersion,
    .byBundle bundle bundleId contract contractId minVersion ∈ m.resolvedDependencies →
      TransGen (DrawsTo manifests) m.name bundle

/-- What a topological order of the graph respects. -/
theorem Accepted.loadOrderRespects {manifests : List ManifestData} {g : DiGraph}
    (h : Accepted manifests g) (hnames : (manifests.map (·.name)).Nodup)
    (hnamed : NamedReachable manifests) {order : List Nat}
    (horder : Topological g.Edge (List.range g.nodes.length) order) :
    LoadOrderRespects manifests (order.reverse.map g.name) := by
  have htop := h.topological_map hnames horder
  rw [List.map_reverse]
  have hmem : ∀ x y, DrawsTo manifests x y →
      x ∈ manifests.map (·.name) ∧ y ∈ manifests.map (·.name) := by
    rintro x y ⟨m, hm, rfl, dep, _, p, hp, rfl⟩
    exact ⟨List.mem_map.2 ⟨m, hm, rfl⟩, List.mem_map.2 ⟨p, (recordedProvider_spec hp).1, rfl⟩⟩
  refine ⟨(List.reverse_perm _).trans htop.perm, ?_, ?_⟩
  · intro m hm dep hdep
    obtain ⟨p, hp⟩ := Option.isSome_iff_exists.1 (h.provided m hm dep hdep)
    obtain ⟨hpm, hprovides⟩ := recordedProvider_spec hp
    refine ⟨p, hpm, hprovides, before_reverse.2 ?_⟩
    exact htop.before_of_transGen hnames hmem (.single ⟨m, hm, rfl, dep, hdep, p, hp, rfl⟩)
  · intro m hm bundle bundleId contract contractId minVersion hdep
    exact before_reverse.2 (htop.before_of_transGen hnames hmem
      (hnamed m hm bundle bundleId contract contractId minVersion hdep))

/-- **The load order respects every dependency exactly when no bundle is the last listed provider
of a contract it requires, and the drawn edges lead to every bundle a dependency names.** -/
theorem loadOrder_respects_iff {tarjanScc : DiGraph → List (List Nat)}
    (htarjan : TarjanCorrect tarjanScc) {manifests : List ManifestData}
    (hnames : (manifests.map (·.name)).Nodup) {g : DiGraph}
    (hg : fromManifests tarjanScc manifests = .ok g) :
    (∀ toposort, ToposortCorrect toposort →
      ∃ names, g.topologicalOrder toposort = .ok names ∧ LoadOrderRespects manifests names) ↔
        NoOwnProvider manifests ∧ NamedReachable manifests := by
  obtain ⟨h, hcycles⟩ := fromManifests_ok hg
  constructor
  · intro hall
    -- an order the library gives is topological
    have hok : ∀ toposort, ToposortCorrect toposort → ∃ order, toposort g = .ok order ∧
        Topological g.Edge (List.range g.nodes.length) order ∧
          LoadOrderRespects manifests (order.reverse.map g.name) := by
      intro toposort htoposort
      obtain ⟨names, hnamesOk, hrespects⟩ := hall toposort htoposort
      have hsort := htoposort g h.wellFormed
      rw [DiGraph.topologicalOrder] at hnamesOk
      cases hgives : toposort g with
      | ok order =>
        rw [hgives] at hsort hnamesOk
        obtain rfl := Except.ok.inj hnamesOk
        exact ⟨order, rfl, hsort, hrespects⟩
      | error n =>
        rw [hgives] at hnamesOk
        cases hnamesOk
    obtain ⟨toposort, htoposort, _⟩ := @exists_toposort DiGraph.new []
      ⟨.refl _, fun a ha => absurd ha (by simp [DiGraph.new])⟩
    obtain ⟨order, _, horder, hrespects⟩ := hok toposort htoposort
    have hrange : ∀ a b, g.Edge a b →
        a ∈ List.range g.nodes.length ∧ b ∈ List.range g.nodes.length := fun a b hab => by
      simpa using h.wellFormed a b hab
    have hacyclic : ∀ a, ¬ TransGen g.Edge a a :=
      horder.acyclic List.nodup_range hrange
    have hindex : ∀ x ∈ manifests.map (·.name), ∃ a ∈ List.range g.nodes.length, g.name a = x := by
      rw [← h.map_name]
      exact fun x hx => List.mem_map.1 hx
    constructor
    · intro x hx
      obtain ⟨m, hm, hmx, _⟩ := id hx
      obtain ⟨a, ha, rfl⟩ := hindex x (List.mem_map.2 ⟨m, hm, hmx⟩)
      exact hacyclic a (.single
        (h.edge_of_drawsTo hnames (List.mem_range.1 ha) (List.mem_range.1 ha) hx))
    · intro m hm bundle bundleId contract contractId minVersion hdep
      by_contra hreach
      have hbefore := hrespects.bundle_before m hm bundle bundleId contract contractId
        minVersion hdep
      obtain ⟨p, hp, hpname⟩ := hindex bundle (hrespects.perm.mem_iff.1 hbefore.left_mem)
      obtain ⟨i, hi, hiname⟩ := hindex m.name (List.mem_map.2 ⟨m, hm, rfl⟩)
      have hnot : ¬ ReflTransGen g.Edge i p := by
        intro hip
        rcases reflTransGen_iff_eq_or_transGen.1 hip with rfl | hip
        · rw [← hpname, ← hiname] at hbefore
          exact Before.irrefl (hrespects.perm.nodup_iff.2 hnames) _ hbefore
        · have hlift := h.transGen_drawsTo hip
          rw [hiname, hpname] at hlift
          exact hreach hlift
      -- an order that the library may give, with the named bundle after the dependent
      obtain ⟨order', horder', hpi⟩ :=
        exists_topological_before hacyclic List.nodup_range hp hi hnot
      obtain ⟨toposort', htoposort', hgives⟩ := exists_toposort horder'
      obtain ⟨order'', heq, _, hrespects'⟩ := hok toposort' htoposort'
      obtain rfl : order' = order'' := Except.ok.inj (hgives.symm.trans heq)
      have hbefore' :=
        hrespects'.bundle_before m hm bundle bundleId contract contractId minVersion hdep
      rw [List.map_reverse, before_reverse, ← hpname, ← hiname] at hbefore'
      have hinj : Set.InjOn g.name { a | a ∈ order' } :=
        (h.name_injOn hnames).mono fun c hc => horder'.perm.mem_iff.1 hc
      have hnodup : order'.Nodup := horder'.perm.nodup_iff.2 List.nodup_range
      exact Before.asymm hnodup hpi
        ((before_map hinj (horder'.perm.mem_iff.2 hi) (horder'.perm.mem_iff.2 hp)).1 hbefore')
  · rintro ⟨hown, hnamed⟩ toposort htoposort
    have hsort := htoposort g h.wellFormed
    rw [DiGraph.topologicalOrder]
    cases hgives : toposort g with
    | ok order =>
      rw [hgives] at hsort
      exact ⟨_, rfl, h.loadOrderRespects hnames hnamed hsort⟩
    | error n =>
      rw [hgives] at hsort
      exact absurd (h.drawsTo (edge_self_of_transGen htarjan h.wellFormed hcycles hsort)) (hown _)

/-! ### Three bundles -/

/-- The components of a graph, one for each node. -/
noncomputable def components (g : DiGraph) : List (List Nat) :=
  open Classical in
  (List.range g.nodes.length).map fun a => (List.range g.nodes.length).filter fun b =>
    a = b ∨ (TransGen g.Edge a b ∧ TransGen g.Edge b a)

theorem tarjanCorrect_components : TarjanCorrect components := by
  intro g _ a ha b hb
  simp only [components, List.mem_map, List.mem_range, exists_exists_and_eq_and, List.mem_filter,
    decide_eq_true_eq]
  constructor
  · rintro ⟨c, _, ⟨_, hca⟩, _, hcb⟩
    rcases hca with rfl | ⟨hca, hac⟩
    · exact hcb
    · rcases hcb with rfl | ⟨hcb, hbc⟩
      · exact .inr ⟨hac, hca⟩
      · exact .inr ⟨hac.trans hcb, hbc.trans hca⟩
  · intro h
    exact ⟨a, ha, ⟨ha, .inl rfl⟩, hb, h⟩

theorem length_le_one_of_nodup {l : List Nat} (hl : l.Nodup) {a : Nat} (h : ∀ b ∈ l, b = a) :
    l.length ≤ 1 := by
  have hcount := List.nodup_iff_count_le_one.1 hl a
  rwa [List.eq_replicate_of_mem h, List.count_replicate_self] at hcount

/-- A graph whose edges lead to later nodes or to themselves has components of one node. -/
theorem detectCycles_components {g : DiGraph} (hg : ∀ a b, g.Edge a b → a ≤ b) :
    g.detectCycles components = .ok () := by
  have hle : ∀ {a b}, TransGen g.Edge a b → a ≤ b := fun hab => by
    induction hab with
    | single hab => exact hg _ _ hab
    | tail _ hbc ih => exact ih.trans (hg _ _ hbc)
  rw [DiGraph.detectCycles, List.find?_eq_none.2]
  intro scc hscc
  obtain ⟨a, _, rfl⟩ := List.mem_map.1 hscc
  rw [decide_eq_true_eq, Nat.not_lt]
  refine length_le_one_of_nodup (List.nodup_range.filter _) (a := a) fun b hb => ?_
  simp only [List.mem_filter, decide_eq_true_eq] at hb
  rcases hb.2 with heq | ⟨hab, hba⟩
  · exact heq.symm
  · exact Nat.le_antisymm (hle hba) (hle hab)

/-- The graph of a list of manifests, before the cycle check. -/
def builtGraph (manifests : List ManifestData) : Except GraphError DiGraph := do
  let nodes ← manifests.mapM (bundleNode (manifests.map (·.name)) (providesMap manifests))
  DiGraph.buildEdges { DiGraph.new with nodes }

theorem fromManifests_of {tarjanScc : DiGraph → List (List Nat)} {manifests : List ManifestData}
    {g : DiGraph} (hbuild : builtGraph manifests = .ok g)
    (hcycles : g.detectCycles tarjanScc = .ok ()) : fromManifests tarjanScc manifests = .ok g := by
  rw [builtGraph] at hbuild
  rw [fromManifests]
  cases hnodes : manifests.mapM (bundleNode (manifests.map (·.name)) (providesMap manifests)) with
  | error e => rw [hnodes] at hbuild; cases hbuild
  | ok nodes =>
      rw [hnodes] at hbuild
      dsimp only [bind, Except.bind] at hbuild ⊢
      rw [hbuild]
      dsimp only
      rw [hcycles]

/-- A native bundle. -/
def nativeManifest (name : String) (provides : List String)
    (dependencies : List RawManifestDependency) : ManifestData where
  loader := "native"
  name := name
  dependencies := dependencies
  id := (BundleId.new name).id
  version := "1.0.0"
  file := "lib.so"
  provides := provides
  functionCount := ∅
  needsReinitOnDepReload := false
  bundleDependencies := []
  path := ""

/-- A dependency on `codec` at major 1, of the bundle `first`. -/
def namesFirst : RawManifestDependency where
  kind := "bundle"
  contract := "codec"
  minVersion := "1.0"
  bundle := some "first"
  contractId := GuestContractId.new "codec" 1
  bundleId := some (BundleId.new "first")

/-- A dependency on `codec` at major 1, of any bundle. -/
def namesCodec : RawManifestDependency where
  kind := "contract"
  contract := "codec"
  minVersion := "1.0"
  bundle := none
  contractId := GuestContractId.new "codec" 1
  bundleId := none

/-- Two bundles provide the contract, and the dependent names the one listed first. -/
def twoProviders : List ManifestData :=
  [nativeManifest "app" [] [namesFirst], nativeManifest "first" ["codec@1.0"] [],
    nativeManifest "second" ["codec@1.0"] []]

/-- A bundle that provides the contract it depends on. -/
def ownProvider : List ManifestData := [nativeManifest "first" ["codec@1.0"] [namesCodec]]

/-- One provider. -/
def oneProvider : List ManifestData :=
  [nativeManifest "app" [] [namesFirst], nativeManifest "first" ["codec@1.0"] []]

/-- The graph that was built, empty where none was. -/
def graphOf (manifests : List ManifestData) : DiGraph :=
  match builtGraph manifests with
  | .ok g    => g
  | .error _ => DiGraph.new

theorem edge_iff_of_edges {g : DiGraph} {edges : List (Nat × Nat)}
    (h : g.edges.map (fun e => (e.1, e.2.1)) = edges) (a b : Nat) :
    g.Edge a b ↔ (a, b) ∈ edges := by
  rw [← h, List.mem_map]
  constructor
  · rintro ⟨weight, hw⟩
    exact ⟨_, hw, rfl⟩
  · rintro ⟨⟨a', b', weight⟩, hw, heq⟩
    obtain ⟨rfl, rfl⟩ := Prod.mk.inj heq
    exact ⟨weight, hw⟩

/-- The edges of the three graphs. -/
theorem edges_graphOf :
    (graphOf twoProviders).edges.map (fun e => (e.1, e.2.1)) = [(0, 2)] ∧
      (graphOf ownProvider).edges.map (fun e => (e.1, e.2.1)) = [(0, 0)] ∧
        (graphOf oneProvider).edges.map (fun e => (e.1, e.2.1)) = [(0, 1)] := by
  decide +kernel

/-- The three graphs are built. -/
theorem builtGraph_graphOf :
    builtGraph twoProviders = .ok (graphOf twoProviders) ∧
      builtGraph ownProvider = .ok (graphOf ownProvider) ∧
        builtGraph oneProvider = .ok (graphOf oneProvider) := by
  decide +kernel

theorem edge_twoProviders (a b : Nat) : (graphOf twoProviders).Edge a b ↔ (a, b) ∈ [(0, 2)] :=
  edge_iff_of_edges edges_graphOf.1 a b

theorem edge_ownProvider (a b : Nat) : (graphOf ownProvider).Edge a b ↔ (a, b) ∈ [(0, 0)] :=
  edge_iff_of_edges edges_graphOf.2.1 a b

theorem edge_oneProvider (a b : Nat) : (graphOf oneProvider).Edge a b ↔ (a, b) ∈ [(0, 1)] :=
  edge_iff_of_edges edges_graphOf.2.2 a b

theorem fromManifests_twoProviders :
    fromManifests components twoProviders = .ok (graphOf twoProviders) := by
  refine fromManifests_of builtGraph_graphOf.1 (detectCycles_components fun a b hab => ?_)
  have hab := (edge_twoProviders a b).1 hab
  simp only [List.mem_singleton, Prod.mk.injEq] at hab
  omega

theorem fromManifests_ownProvider :
    fromManifests components ownProvider = .ok (graphOf ownProvider) := by
  refine fromManifests_of builtGraph_graphOf.2.1 (detectCycles_components fun a b hab => ?_)
  have hab := (edge_ownProvider a b).1 hab
  simp only [List.mem_singleton, Prod.mk.injEq] at hab
  omega

theorem fromManifests_oneProvider :
    fromManifests components oneProvider = .ok (graphOf oneProvider) := by
  refine fromManifests_of builtGraph_graphOf.2.2 (detectCycles_components fun a b hab => ?_)
  have hab := (edge_oneProvider a b).1 hab
  simp only [List.mem_singleton, Prod.mk.injEq] at hab
  omega

/-- **A named bundle can be loaded after the bundle that names it, and a bundle that provides what
it depends on gets no load order at all.** -/
theorem load_order_misses_named_bundle :
    (∃ toposort, ToposortCorrect toposort ∧
      fromManifests components twoProviders = .ok (graphOf twoProviders) ∧
        (graphOf twoProviders).topologicalOrder toposort = .ok ["second", "app", "first"] ∧
          ¬ LoadOrderRespects twoProviders ["second", "app", "first"]) ∧
      fromManifests components ownProvider = .ok (graphOf ownProvider) ∧
        ∀ toposort, ToposortCorrect toposort → ∃ e,
          (graphOf ownProvider).topologicalOrder toposort = .error e := by
  refine ⟨?_, fromManifests_ownProvider, ?_⟩
  · obtain ⟨toposort, htoposort, hgives⟩ := @exists_toposort (graphOf twoProviders) [1, 0, 2]
      ⟨by decide +kernel, fun a _ b _ hab => by
        have hab := (edge_twoProviders a b).1 hab
        simp only [List.mem_singleton, Prod.mk.injEq] at hab
        rw [hab.1, hab.2]
        exact ⟨[1, 0], [2], rfl, by decide, by decide⟩⟩
    refine ⟨toposort, htoposort, fromManifests_twoProviders, ?_, fun hrespects => ?_⟩
    · rw [DiGraph.topologicalOrder, hgives]
      decide +kernel
    · have hbefore := hrespects.bundle_before (nativeManifest "app" [] [namesFirst])
        (by decide +kernel)
        "first" (BundleId.new "first") "codec" (GuestContractId.new "codec" 1) "1.0"
        (by decide +kernel)
      exact Before.asymm (by decide +kernel) hbefore
        ⟨["second", "app"], ["first"], rfl, by decide +kernel, by decide +kernel⟩
  · intro toposort htoposort
    have hwf := (fromManifests_ok fromManifests_ownProvider).1.wellFormed
    have hsort := htoposort _ hwf
    rw [DiGraph.topologicalOrder]
    cases hgives : toposort (graphOf ownProvider) with
    | ok order =>
      rw [hgives] at hsort
      refine absurd (.single ((edge_ownProvider 0 0).2 (by decide)))
        (hsort.acyclic List.nodup_range (fun a b hab => ?_) 0)
      simpa using hwf a b hab
    | error n => exact ⟨_, rfl⟩

theorem loadOrder_respects_instance :
    ∃ names, (graphOf oneProvider).topologicalOrder someOrder = .ok names ∧
      LoadOrderRespects oneProvider names := by
  refine (loadOrder_respects_iff tarjanCorrect_components (by decide +kernel)
    fromManifests_oneProvider).2 ⟨?_, ?_⟩ someOrder toposortCorrect_someOrder
  · rintro x ⟨m, hm, rfl, dep, hdep, p, hp, hpm⟩
    have hall : ∀ m ∈ oneProvider, ∀ dep ∈ m.resolvedDependencies,
        (recordedProvider oneProvider dep.contractId).all (fun p => p.name ≠ m.name) = true := by
      decide +kernel
    have hne := hall m hm dep hdep
    rw [hp] at hne
    simp [hpm] at hne
  · intro m hm bundle bundleId contract contractId minVersion hdep
    have hall : ∀ m ∈ oneProvider, ∀ dep ∈ m.resolvedDependencies,
        m.name = "app" ∧ dep = .byBundle "first" (BundleId.new "first") "codec"
          (GuestContractId.new "codec" 1) "1.0" := by
      decide +kernel
    obtain ⟨hname, heq⟩ := hall m hm _ hdep
    have hrecorded : recordedProvider oneProvider (GuestContractId.new "codec" 1) =
        some (nativeManifest "first" ["codec@1.0"] []) := by decide +kernel
    simp only [ManifestDependency.byBundle.injEq] at heq
    obtain ⟨rfl, rfl, rfl, rfl, rfl⟩ := heq
    exact .single ⟨m, hm, rfl, _, hdep, _, hrecorded, rfl⟩

end PolyPlug.Compatibility
