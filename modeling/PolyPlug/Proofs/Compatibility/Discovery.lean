import PolyPlug.Compatibility.Validate
import PolyPlug.Proofs.Compatibility.LoadOrder

/-!
# `PolyPlug.Proofs.Compatibility.Discovery`: what the order of discovery changes

Both checks of the startup resolve a contract to the last listed bundle that provides
it: the graph by contract id, the version check by the bare name, across majors. Each
outcome is first said without the loops. The graph is ordered exactly when every
dependency is met by some listed bundle, which no permutation changes, and what the
dependencies draw to the recorded providers has no cycle (`loadOrder_isOk_iff`). The
version check passes exactly when no recorded provider of a bare name refuses a
dependency (`validateBundleCompatibility_isOk_iff`). So two orders of discovery agree
exactly when their recorded providers agree on these two facts
(`startup_agrees_iff`).
-/

set_option autoImplicit false

namespace PolyPlug.Compatibility

open PolyPlug.Rust
open PolyPlug.Abi
open PolyPlug.Common
open PolyPlug.Lifecycle
open PolyPlug.Lib
open Relation

/-! ### The load order -/

/-- `from_manifests` followed by `topological_order`. -/
def loadOrder (tarjanScc : DiGraph → List (List Nat)) (toposort : DiGraph → Except Nat (List Nat))
    (manifests : List ManifestData) : Except GraphError (List String) := do
  let graph ← fromManifests tarjanScc manifests
  graph.topologicalOrder toposort

/-- `tarjan_scc`: a component has each of its nodes once. -/
def TarjanDistinct (tarjanScc : DiGraph → List (List Nat)) : Prop :=
  ∀ g : DiGraph, g.WellFormed → ∀ scc ∈ tarjanScc g,
    scc.Nodup ∧ ∀ a ∈ scc, a < g.nodes.length

/-- The dependency is met by the listed bundles: one provides its contract, and the bundle that
it names lists the bare contract. -/
structure Met (manifests : List ManifestData) (dep : ManifestDependency) : Prop where
  provided : ∃ p ∈ manifests, ProvidesContract p dep.contractId
  named : ∀ bundle bundleId contract contractId minVersion,
    dep = .byBundle bundle bundleId contract contractId minVersion →
      ∃ p ∈ manifests, p.name = bundle ∧ ∃ spec ∈ p.provides, bareName spec = contract

/-- Every dependency is met. -/
def Resolvable (manifests : List ManifestData) : Prop :=
  ∀ m ∈ manifests, ∀ dep ∈ m.resolvedDependencies, Met manifests dep

/-- What the dependencies draw to the recorded providers has a cycle. -/
def Cyclic (manifests : List ManifestData) : Prop := ∃ x, TransGen (DrawsTo manifests) x x

theorem Resolvable.perm {manifests manifests' : List ManifestData} (h : manifests.Perm manifests')
    (hres : Resolvable manifests) : Resolvable manifests' := by
  intro m hm dep hdep
  obtain ⟨⟨p, hp, hprovides⟩, hnamed⟩ := hres m (h.mem_iff.2 hm) dep hdep
  refine ⟨⟨p, h.mem_iff.1 hp, hprovides⟩,
    fun bundle bundleId contract contractId minVersion heq => ?_⟩
  obtain ⟨q, hq, hspec⟩ := hnamed bundle bundleId contract contractId minVersion heq
  exact ⟨q, h.mem_iff.1 hq, hspec⟩

theorem recordedProvider_isSome_iff {manifests : List ManifestData} {contractId : GuestContractId} :
    (recordedProvider manifests contractId).isSome ↔
      ∃ p ∈ manifests, ProvidesContract p contractId := by
  rw [recordedProvider, List.getLast?_isSome, ne_eq, List.filter_eq_nil_iff]
  simp

/-- Under distinct names `provides_map` holds the list of each bundle. -/
theorem lookup_providesMap {manifests : List ManifestData}
    (hnames : (manifests.map (·.name)).Nodup) {p : ManifestData} (hp : p ∈ manifests) :
    (providesMap manifests).lookup p.name = some p.provides := by
  have hfilter : (manifests.filter fun m => m.name = p.name) = [p] := by
    obtain ⟨front, back, rfl⟩ := List.append_of_mem hp
    have hne : ∀ q, q ∈ front ∨ q ∈ back → q.name ≠ p.name := by
      simp only [List.map_append, List.map_cons, List.nodup_append, List.nodup_cons,
        List.mem_map, List.mem_cons] at hnames
      rintro q (hq | hq) heq
      · exact hnames.2.2 q.name ⟨q, hq, rfl⟩ p.name (.inl rfl) heq
      · exact hnames.2.1.1 ⟨q, hq, heq⟩
    rw [List.filter_append, List.filter_cons_of_pos (by simp),
      List.filter_eq_nil_iff.2 fun q hq => by simpa using hne q (.inl hq),
      List.filter_eq_nil_iff.2 fun q hq => by simpa using hne q (.inr hq)]
    rfl
  rw [providesMap, lookup_foldl_insert ManifestData.name ManifestData.provides, hfilter]
  rfl

/-- The requirement of a dependency is built when the bundle that it names lists the contract. -/
theorem requiredCapability_isOk_iff {manifests : List ManifestData}
    (hnames : (manifests.map (·.name)).Nodup) {requester : String} {dep : ManifestDependency} :
    (requiredCapability (manifests.map (·.name)) (providesMap manifests) requester dep).isOk ↔
      ∀ bundle bundleId contract contractId minVersion,
        dep = .byBundle bundle bundleId contract contractId minVersion →
          ∃ p ∈ manifests, p.name = bundle ∧ ∃ spec ∈ p.provides, bareName spec = contract := by
  cases dep with
  | byContract contract contractId minVersion =>
      refine ⟨fun _ _ _ _ _ _ heq => ?_, fun _ => rfl⟩
      cases heq
  | byBundle bundle bundleId contract contractId minVersion =>
      simp only [requiredCapability]
      split
      · next hnot =>
        refine ⟨fun h => absurd h Bool.false_ne_true, fun h => ?_⟩
        obtain ⟨p, hp, hname, _⟩ := h _ _ _ _ _ rfl
        exact absurd (List.mem_map.2 ⟨p, hp, hname⟩) hnot
      · next hmem =>
        obtain ⟨p, hp, rfl⟩ := List.mem_map.1 (not_not.1 hmem)
        rw [lookup_providesMap hnames hp, Option.getD_some]
        split
        · next hany =>
          refine ⟨fun _ _ _ _ _ _ heq => ?_, fun _ => rfl⟩
          cases heq
          exact ⟨p, hp, rfl, by simpa using hany⟩
        · next hany =>
          refine ⟨fun h => absurd h Bool.false_ne_true, fun h => absurd ?_ hany⟩
          obtain ⟨q, hq, hname, hspec⟩ := h _ _ _ _ _ rfl
          obtain rfl : q = p := List.inj_on_of_nodup_map hnames hq hp hname
          simpa using hspec

theorem requirerEdges_isOk {providers : Finmap fun _ : GuestContractId => String × Nat}
    {name : String} {idx : Nat} {reqs : List ContractCapability}
    (h : ∀ req ∈ reqs, (providers.lookup req.contractId).isSome) :
    (requirerEdges providers name idx reqs).isOk := by
  induction reqs with
  | nil => rfl
  | cons req reqs ih =>
      rw [List.forall_mem_cons] at h
      obtain ⟨entry, hentry⟩ := Option.isSome_iff_exists.1 h.1
      obtain ⟨edges, hedges⟩ := isOk_iff.1 (ih h.2)
      rw [requirerEdges, hentry, hedges]
      rfl

theorem edgesToAdd_isOk {providers : Finmap fun _ : GuestContractId => String × Nat}
    {nodes : List (BundleNode × Nat)}
    (h : ∀ p ∈ nodes, ∀ req ∈ p.1.requires, (providers.lookup req.contractId).isSome) :
    (edgesToAdd providers nodes).isOk := by
  induction nodes with
  | nil => rfl
  | cons p nodes ih =>
      rw [List.forall_mem_cons] at h
      obtain ⟨edges, hedges⟩ := isOk_iff.1 (@requirerEdges_isOk providers p.1.name p.2 _ h.1)
      obtain ⟨rest, hrest⟩ := isOk_iff.1 (ih h.2)
      rw [edgesToAdd, hedges, hrest]
      rfl

/-- The nodes are built when every named bundle lists its contract. -/
theorem mapM_bundleNode_isOk_iff {manifests : List ManifestData}
    (hnames : (manifests.map (·.name)).Nodup) :
    (manifests.mapM (bundleNode (manifests.map (·.name)) (providesMap manifests))).isOk ↔
      ∀ m ∈ manifests, ∀ dep ∈ m.resolvedDependencies,
        ∀ bundle bundleId contract contractId minVersion,
          dep = .byBundle bundle bundleId contract contractId minVersion →
            ∃ p ∈ manifests, p.name = bundle ∧ ∃ spec ∈ p.provides, bareName spec = contract := by
  rw [mapM_isOk_iff]
  refine forall₂_congr fun m _ => ?_
  rw [← forall₂_congr fun dep _ =>
    @requiredCapability_isOk_iff manifests hnames m.name dep,
    ← mapM_isOk_iff, bundleNode]
  cases m.resolvedDependencies.mapM
      (requiredCapability (manifests.map (·.name)) (providesMap manifests) m.name) <;>
    simp [Except.isOk, Except.toBool, bind, Except.bind]

/-- **The graph is built when every dependency is met.** -/
theorem builtGraph_of_resolvable {manifests : List ManifestData}
    (hnames : (manifests.map (·.name)).Nodup) (hres : Resolvable manifests) :
    ∃ g, builtGraph manifests = .ok g := by
  obtain ⟨nodes, hnodes⟩ := isOk_iff.1
    ((mapM_bundleNode_isOk_iff hnames).2 fun m hm dep hdep => (hres m hm dep hdep).named)
  obtain rfl : nodes = manifests.map nodeOf := mapM_ok bundleNode_ok hnodes
  have hadd : (edgesToAdd (providerMap (manifests.map nodeOf))
    (manifests.map nodeOf).zipIdx).isOk := by
    refine edgesToAdd_isOk fun p hp req hreq => ?_
    obtain ⟨m, hm, hpm⟩ := List.mem_map.1 (List.fst_mem_of_mem_zipIdx hp)
    rw [← hpm] at hreq
    obtain ⟨dep, hdep, rfl⟩ := List.mem_map.1 hreq
    have hsome := recordedProvider_isSome_iff.2 (hres m hm dep hdep).provided
    have hrel := rel_lookup_providerMap manifests dep.contractId
    rw [contractId_requirementOf]
    generalize (providerMap (manifests.map nodeOf)).lookup dep.contractId = entry at hrel ⊢
    generalize recordedProvider manifests dep.contractId = recorded at hrel hsome
    cases hrel with
    | none => exact absurd hsome (by simp)
    | some => rfl
  obtain ⟨edges, hedges⟩ := isOk_iff.1 hadd
  rw [builtGraph, hnodes]
  refine isOk_iff.1 ?_
  simp only [bind, Except.bind, DiGraph.buildEdges, hedges]
  rfl

/-- A graph that is built is accepted. -/
theorem accepted_of_builtGraph {manifests : List ManifestData} {g : DiGraph}
    (h : builtGraph manifests = .ok g) : Accepted manifests g :=
  (@fromManifests_ok (fun _ => []) _ _ (fromManifests_of h rfl)).1

/-- Past the component check there is nothing to refuse in a graph without cycles. -/
theorem detectCycles_of_acyclic {tarjanScc : DiGraph → List (List Nat)}
    (htarjan : TarjanCorrect tarjanScc) (hdistinct : TarjanDistinct tarjanScc) {g : DiGraph}
    (hg : g.WellFormed) (hacyclic : ∀ a, ¬ TransGen g.Edge a a) :
    g.detectCycles tarjanScc = .ok () := by
  rw [DiGraph.detectCycles, List.find?_eq_none.2]
  intro scc hscc
  rw [decide_eq_true_eq, Nat.not_lt]
  obtain ⟨hnodup, hlt⟩ := hdistinct g hg scc hscc
  rcases scc with _ | ⟨a, _ | ⟨b, rest⟩⟩
  · simp
  · simp
  · have hne : a ≠ b := fun heq => by simp [heq] at hnodup
    rcases (htarjan g hg a (hlt a (by simp)) b (hlt b (by simp))).1
      ⟨_, hscc, by simp, by simp⟩ with heq | ⟨hab, hba⟩
    · exact absurd heq hne
    · exact absurd (hab.trans hba) (hacyclic a)

/-- **When there is a load order.** -/
theorem loadOrder_isOk_iff {tarjanScc : DiGraph → List (List Nat)}
    {toposort : DiGraph → Except Nat (List Nat)} (htarjan : TarjanCorrect tarjanScc)
    (hdistinct : TarjanDistinct tarjanScc) (htoposort : ToposortCorrect toposort)
    {manifests : List ManifestData} (hnames : (manifests.map (·.name)).Nodup) :
    (loadOrder tarjanScc toposort manifests).isOk ↔ Resolvable manifests ∧ ¬ Cyclic manifests := by
  constructor
  · intro hok
    obtain ⟨names, hok⟩ := isOk_iff.1 hok
    rw [loadOrder] at hok
    cases hg : fromManifests tarjanScc manifests with
    | error e => rw [hg] at hok; cases hok
    | ok g =>
        have hok : g.topologicalOrder toposort = .ok names := by rwa [hg] at hok
        obtain ⟨h, _⟩ := fromManifests_ok hg
        refine ⟨fun m hm dep hdep => ⟨?_, ?_⟩, ?_⟩
        · exact recordedProvider_isSome_iff.1 (h.provided m hm dep hdep)
        · -- the nodes were built
          refine (mapM_bundleNode_isOk_iff hnames).1 ?_ m hm dep hdep
          rw [fromManifests] at hg
          cases hnodes : manifests.mapM
              (bundleNode (manifests.map (·.name)) (providesMap manifests)) with
          | error e => simp only [hnodes] at hg; cases hg
          | ok nodes => rfl
        · rintro ⟨x, hx⟩
          have hsort := htoposort g h.wellFormed
          rw [DiGraph.topologicalOrder] at hok
          cases hgives : toposort g with
          | ok order =>
            rw [hgives] at hsort
            refine (h.topological_map hnames hsort).acyclic hnames (fun a b hab => ?_) x hx
            obtain ⟨m, hm, rfl, dep, _, p, hp, rfl⟩ := hab
            exact ⟨List.mem_map_of_mem hm, List.mem_map_of_mem (recordedProvider_spec hp).1⟩
          | error n =>
            rw [hgives] at hok
            cases hok
  · rintro ⟨hres, hacyclic⟩
    obtain ⟨g, hg⟩ := builtGraph_of_resolvable hnames hres
    have h := accepted_of_builtGraph hg
    have hedges : ∀ a, ¬ TransGen g.Edge a a := fun a ha => hacyclic ⟨_, h.transGen_drawsTo ha⟩
    have hcycles := detectCycles_of_acyclic htarjan hdistinct h.wellFormed hedges
    have hsort := htoposort g h.wellFormed
    rw [loadOrder, fromManifests_of hg hcycles]
    show (g.topologicalOrder toposort).isOk
    rw [DiGraph.topologicalOrder]
    cases hgives : toposort g with
    | ok order => rfl
    | error n =>
      rw [hgives] at hsort
      exact absurd hsort (hedges n)

/-! ### The version check -/

/-- The last listed bundle that lists the bare name. -/
def recordedByName (manifests : List ManifestData) (name : String) : Option ManifestData :=
  (manifests.filter fun m => m.provides.any fun spec => bareName spec = name).getLast?

theorem lookup_bareProviderMap (manifests : List (String × ManifestData)) (name : String) :
    (bareProviderMap manifests).lookup name = recordedByName (manifests.map (·.2)) name := by
  induction manifests using List.reverseRecOn with
  | nil => rfl
  | append_singleton manifests entry ih =>
      rw [bareProviderMap, List.foldl_append, List.foldl_cons, List.foldl_nil,
        lookup_foldl_insert_const, ← bareProviderMap, ih]
      simp only [recordedByName, List.map_append, List.filter_append]
      by_cases h : ∃ spec ∈ entry.2.provides, bareName spec = name
      · simp [h]
      · simp [h]

/-- The bundle's version meets the version the dependency asks for. -/
def Satisfies (provider : ManifestData) (minVersion : String) : Prop :=
  ∃ required provided, Version.fromStr minVersion = .ok required ∧
    parseManifestVersion provider.version "" = .ok provided ∧ isCompatibleWith provided required

/-- The recorded provider of the dependency's bare name does not meet the version it asks for. -/
def Refuses (manifests : List ManifestData) (dep : ManifestDependency) : Prop :=
  (dependencySpec dep).2 ≠ "" ∧
    ∃ p, recordedByName manifests (dependencySpec dep).1 = some p ∧
      ¬ Satisfies p (dependencySpec dep).2

/-- Some dependency is refused. -/
def Refused (manifests : List ManifestData) : Prop :=
  ∃ m ∈ manifests, ∃ dep ∈ m.resolvedDependencies, Refuses manifests dep

/-- The path is in the error only. -/
theorem parseManifestVersion_ok_iff {v path : String} (p : String) {version : Version} :
    parseManifestVersion v path = .ok version ↔ parseManifestVersion v p = .ok version := by
  simp only [parseManifestVersion]
  split
  · rfl
  · split <;> simp

theorem validateDependency_isOk_iff {manifests : List (String × ManifestData)} {path : String}
    {dep : ManifestDependency} :
    (validateDependency (bareProviderMap manifests) .strict path dep).isOk ↔
      ¬ Refuses (manifests.map (·.2)) dep := by
  rw [validateDependency, Refuses]
  generalize dependencySpec dep = spec
  obtain ⟨contract, minVersion⟩ := spec
  dsimp only
  rw [lookup_bareProviderMap]
  by_cases hempty : minVersion = ""
  · simp [hempty, Except.isOk, Except.toBool]
  · rw [if_neg (by simpa using hempty)]
    cases recordedByName (manifests.map (·.2)) contract with
    | none => simp [Except.isOk, Except.toBool]
    | some p =>
        simp only [hempty, ne_eq, not_false_eq_true, Option.some.injEq, exists_eq_left', true_and,
          not_not, Satisfies]
        cases hreq : Version.fromStr minVersion with
        | error e => simp [Except.isOk, Except.toBool]
        | ok required =>
            cases hprov : parseManifestVersion p.version path with
            | error e =>
                have hnone : ∀ provided, parseManifestVersion p.version "" ≠ .ok provided :=
                  fun provided h => by
                    rw [parseManifestVersion_ok_iff path, hprov] at h
                    cases h
                simp [Except.isOk, Except.toBool, hnone]
            | ok provided =>
                rw [parseManifestVersion_ok_iff ""] at hprov
                by_cases hcompat : isCompatibleWith provided required
                · simp [hcompat, hprov, Except.isOk, Except.toBool]
                · simp [hcompat, hprov, Except.isOk, Except.toBool]

/-- **When the version check passes.** -/
theorem validateBundleCompatibility_isOk_iff (manifests : List (String × ManifestData)) :
    (validateBundleCompatibility manifests .strict).isOk ↔ ¬ Refused (manifests.map (·.2)) := by
  rw [validateBundleCompatibility, forM_isOk_iff, Refused]
  simp only [forM_isOk_iff, validateDependency_isOk_iff, List.mem_map, exists_exists_and_eq_and,
    not_exists, not_and]

/-! ### Two orders of discovery -/

/-- **Two orders of discovery agree exactly when, in both or in neither, what the dependencies draw
to the last listed providers has a cycle, and the last listed bundle of some bare name refuses
a dependency.** -/
theorem startup_agrees_iff {tarjanScc : DiGraph → List (List Nat)}
    {toposort : DiGraph → Except Nat (List Nat)} (htarjan : TarjanCorrect tarjanScc)
    (hdistinct : TarjanDistinct tarjanScc) (htoposort : ToposortCorrect toposort)
    {manifests manifests' : List (String × ManifestData)} (hperm : manifests.Perm manifests')
    (hnames : (manifests.map (·.2.name)).Nodup) :
    (((loadOrder tarjanScc toposort (manifests.map (·.2))).isOk ↔
        (loadOrder tarjanScc toposort (manifests'.map (·.2))).isOk) ∧
      ((validateBundleCompatibility manifests .strict).isOk ↔
        (validateBundleCompatibility manifests' .strict).isOk)) ↔
      (Resolvable (manifests.map (·.2)) →
        (Cyclic (manifests.map (·.2)) ↔ Cyclic (manifests'.map (·.2)))) ∧
      (Refused (manifests.map (·.2)) ↔ Refused (manifests'.map (·.2))) := by
  have hnames : ((manifests.map (·.2)).map (·.name)).Nodup := by rwa [List.map_map]
  have hmap : (manifests.map (·.2)).Perm (manifests'.map (·.2)) := hperm.map _
  have hnames' : ((manifests'.map (·.2)).map (·.name)).Nodup := (hmap.map _).nodup_iff.1 hnames
  rw [loadOrder_isOk_iff htarjan hdistinct htoposort hnames,
    loadOrder_isOk_iff htarjan hdistinct htoposort hnames',
    validateBundleCompatibility_isOk_iff, validateBundleCompatibility_isOk_iff, not_iff_not]
  have hres : Resolvable (manifests'.map (·.2)) ↔ Resolvable (manifests.map (·.2)) :=
    ⟨.perm hmap.symm, .perm hmap⟩
  rw [hres, and_congr_right_iff, not_iff_not]

/-- Where every dependency resolves to the same providers in both orders, the orders agree. -/
theorem cyclic_and_refused_of_same_providers {manifests manifests' : List ManifestData}
    (hperm : manifests.Perm manifests')
    (hids : ∀ m ∈ manifests, ∀ dep ∈ m.resolvedDependencies,
      recordedProvider manifests dep.contractId = recordedProvider manifests' dep.contractId)
    (hspecs : ∀ m ∈ manifests, ∀ dep ∈ m.resolvedDependencies,
      recordedByName manifests (dependencySpec dep).1 =
        recordedByName manifests' (dependencySpec dep).1) :
    (Cyclic manifests ↔ Cyclic manifests') ∧ (Refused manifests ↔ Refused manifests') := by
  have hdraws : DrawsTo manifests = DrawsTo manifests' := by
    funext x y
    refine propext (exists_congr fun m => ?_)
    rw [hperm.mem_iff]
    refine and_congr_right fun hm => and_congr_right fun _ => exists_congr fun dep =>
      and_congr_right fun hdep => ?_
    rw [hids m (hperm.mem_iff.2 hm) dep hdep]
  refine ⟨by rw [Cyclic, hdraws, Cyclic], exists_congr fun m => ?_⟩
  rw [hperm.mem_iff]
  refine and_congr_right fun hm => exists_congr fun dep => and_congr_right fun hdep => ?_
  rw [Refuses, hspecs m (hperm.mem_iff.2 hm) dep hdep, Refuses]

/-! ### Two majors of a contract, and a provider that depends on its own contract -/

theorem tarjanDistinct_components : TarjanDistinct components := by
  intro g _ scc hscc
  obtain ⟨a, _, rfl⟩ := List.mem_map.1 hscc
  refine ⟨List.nodup_range.filter _, fun b hb => ?_⟩
  rw [List.mem_filter, List.mem_range] at hb
  exact hb.1

/-- Some `toposort` is as documented. -/
theorem exists_toposortCorrect : ∃ toposort, ToposortCorrect toposort := by
  obtain ⟨toposort, htoposort, _⟩ := @exists_toposort DiGraph.new []
    ⟨.refl _, fun a ha => absurd ha (by simp [DiGraph.new])⟩
  exact ⟨toposort, htoposort⟩

/-- A bundle that depends on `codec` at major 1. -/
def app : String × ManifestData :=
  ("app", nativeManifest "app" [] [namesCodec])

/-- A provider of `codec` at major 1. -/
def oldCodec : String × ManifestData :=
  ("old", nativeManifest "old" ["codec@1.0"] [])

/-- A provider of `codec` at major 2. -/
def newCodec : String × ManifestData :=
  ("new", { nativeManifest "new" ["codec@2.0"] [] with version := "2.0.0" })

/-- A provider of `codec` at major 1 that also depends on it. -/
def wrapper : String × ManifestData :=
  ("wrapper", nativeManifest "wrapper" ["codec@1.0"] [namesCodec])

/-- **The startup depends on the order of discovery.** With a second major of the contract
listed last, its version is compared with what a dependency on the first major asks for. A
bundle that wraps the contract it provides is its own provider when it is listed last. -/
theorem startup_depends_on_order :
    (validateBundleCompatibility [app, newCodec, oldCodec] .strict = .ok () ∧
      validateBundleCompatibility [app, oldCodec, newCodec] .strict =
        .error (.versionMismatch "codec" ⟨1, 0, 0⟩ ⟨2, 0, 0⟩)) ∧
      ∀ tarjanScc toposort, TarjanCorrect tarjanScc → TarjanDistinct tarjanScc →
        ToposortCorrect toposort →
          (loadOrder tarjanScc toposort ([wrapper, oldCodec].map (·.2))).isOk ∧
            ¬ (loadOrder tarjanScc toposort ([oldCodec, wrapper].map (·.2))).isOk := by
  refine ⟨by decide +kernel, fun tarjanScc toposort htarjan hdistinct htoposort => ⟨?_, ?_⟩⟩
  · rw [loadOrder_isOk_iff htarjan hdistinct htoposort (by decide +kernel)]
    have hdraws : ∀ x y, DrawsTo ([wrapper, oldCodec].map (·.2)) x y →
        x = "wrapper" ∧ y = "old" := by
      rintro x y ⟨m, hm, rfl, dep, hdep, p, hp, rfl⟩
      have hall : ∀ m ∈ [wrapper, oldCodec].map (·.2), ∀ dep ∈ m.resolvedDependencies,
          m.name = "wrapper" ∧
            recordedProvider ([wrapper, oldCodec].map (·.2)) dep.contractId = some oldCodec.2 := by
        decide +kernel
      obtain ⟨hname, hrecorded⟩ := hall m hm dep hdep
      rw [hrecorded] at hp
      exact ⟨hname, by rw [← Option.some.inj hp]; rfl⟩
    refine ⟨fun m hm dep hdep => ⟨?_, ?_⟩, ?_⟩
    · have hall : ∀ m ∈ [wrapper, oldCodec].map (·.2), ∀ dep ∈ m.resolvedDependencies,
          ∃ p ∈ [wrapper, oldCodec].map (·.2), ProvidesContract p dep.contractId := by
        decide +kernel
      exact hall m hm dep hdep
    · have hall : ∀ m ∈ [wrapper, oldCodec].map (·.2), ∀ dep ∈ m.resolvedDependencies,
          dep = .byContract "codec" (GuestContractId.new "codec" 1) "1.0" := by
        decide +kernel
      rintro bundle bundleId contract contractId minVersion rfl
      cases hall m hm _ hdep
    · rintro ⟨x, hx⟩
      obtain ⟨y, hxy, _⟩ := TransGen.head'_iff.1 hx
      obtain ⟨z, _, hzx⟩ := TransGen.tail'_iff.1 hx
      exact absurd ((hdraws _ _ hxy).1.symm.trans (hdraws _ _ hzx).2) (by decide)
  · rw [loadOrder_isOk_iff htarjan hdistinct htoposort (by decide +kernel)]
    rintro ⟨_, hacyclic⟩
    refine hacyclic ⟨"wrapper", .single ⟨wrapper.2, by decide +kernel, rfl, ?_⟩⟩
    exact ⟨.byContract "codec" (GuestContractId.new "codec" 1) "1.0", by decide +kernel, wrapper.2,
      by decide +kernel, rfl⟩

theorem startup_agrees_one_provider :
    ∃ toposort, ToposortCorrect toposort ∧
      ((loadOrder components toposort ([app, oldCodec].map (·.2))).isOk ↔
          (loadOrder components toposort ([oldCodec, app].map (·.2))).isOk) ∧
        ((validateBundleCompatibility [app, oldCodec] .strict).isOk ↔
          (validateBundleCompatibility [oldCodec, app] .strict).isOk) := by
  obtain ⟨toposort, htoposort⟩ := exists_toposortCorrect
  have hperm : [app, oldCodec].Perm [oldCodec, app] := .swap _ _ _
  have hsame := cyclic_and_refused_of_same_providers (hperm.map (·.2)) (by decide +kernel)
    (by decide +kernel)
  exact ⟨toposort, htoposort, (startup_agrees_iff tarjanCorrect_components
    tarjanDistinct_components htoposort hperm (by decide +kernel)).2
      ⟨fun _ => hsame.1, hsame.2⟩⟩

end PolyPlug.Compatibility
