import PolyPlug.Proofs.Lifecycle.Visibility

/-!
# `PolyPlug.Proofs.Lifecycle.Transaction`: a load is a transaction

`Transaction` compares a load with the run of its nested loads alone. A load that
succeeds adds the bundle in one snapshot (`Commits`), a load that fails leaves the
state of the nested loads (`SameState`), and no contract of the bundle is visible
while the loader runs (`Hides`).

A commit that is refused has taken its own staged bundle, and the clean-up discards
the topmost bundle of the id once more. With one of an outer load below it, that one
is lost. `load_transaction_iff` says that nothing else can go wrong.
-/

set_option autoImplicit false

namespace PolyPlug.Lifecycle

open PolyPlug.Rust
open PolyPlug.Abi
open PolyPlug.Lib
open PolyPlug.Common
open PolyPlug.Registry
open RuntimeStore

/-! ### The property -/

/-- The same runtime, up to keys of emptied stacks. -/
structure SameState (rt rt' : Runtime) : Prop where
  core : rt.core = rt'.core
  prepared : ∀ t, rt.registry.preparedOn t = rt'.registry.preparedOn t
  init : ∀ t, rt.initStackOn t = rt'.initStackOn t

/-- The bundle of the manifest is added to `rt` with its contracts. -/
structure Commits (manifest : ManifestData) (source : BundleSource)
    (contracts : List PreparedGuestContract) (rt rt' : Runtime) : Prop where
  registry : ∃ version handles,
    parseManifestVersion manifest.version manifest.path = .ok version ∧
    AddsSlots (BundleId.new manifest.name)
      (!decide (BundleId.new manifest.name ∈ rt.registry.data.reloadingBundles))
      (contracts.map fun c => c.registration (BundleId.new manifest.name)) handles
      rt.registry.data rt'.registry.data ∧
    Recorded
      ⟨BundleId.new manifest.name, manifest.name, version,
        supportedLanguageFromStr manifest.loader, source.origin,
        parsedBundleDependencies manifest⟩
      (Runtime.preparedDependencies manifest) rt.registry.data rt'.registry.data
  /-- One publish. -/
  published : rt'.registry.published = ReadView.rebuild rt'.registry.data
  revision : rt'.registry.revision = (rt.registry.revision + 1) % 2 ^ 64
  manifests : rt'.bundleManifests = rt.bundleManifests.insert manifest.name manifest
  residents : rt'.registry.internalPluginResidents = rt.registry.internalPluginResidents
  roots : rt'.internalPluginRoots = rt.internalPluginRoots
  lifecycle : rt'.internalPluginLifecycle = rt.internalPluginLifecycle
  instances : rt'.instanceCounts = rt.instanceCounts
  prepared : ∀ t, rt'.registry.preparedOn t = rt.registry.preparedOn t
  init : ∀ t, rt'.initStackOn t = rt.initStackOn t

/-- The checks of a commit accept the contracts, in the runtime of the commit. -/
structure CommitAccepts (rt : Runtime) (manifest : ManifestData)
    (contracts : List PreparedGuestContract) (opts : LoadOptions) : Prop where
  providers : validatePreparedProviderSet manifest contracts = .ok ()
  counts : opts.ignoreFunctionCountMismatch = false → opts.compatibility ≠ .yolo →
    validatePreparedFunctionCounts manifest opts.compatibility contracts = .ok ()
  staged : validatePreparedBundleContracts contracts = .ok ()
  registered : validateAll rt.registry.data (BundleId.new manifest.name)
    (decide (BundleId.new manifest.name ∈ rt.registry.data.reloadingBundles)) contracts = .ok ()
  fresh : rt.registry.data.bundleData.lookup (BundleId.new manifest.name) = none

/-- A load of a bundle is a transaction. -/
structure Transaction (env : LoadEnv) (rt : Runtime) (manifest : ManifestData)
    (source : BundleSource) (opts : LoadOptions) (body : LoaderRun) : Prop where
  committed : (rt.loadBundle env manifest source opts body).1 = .ok () →
    Commits manifest source body.contracts (body.nested env rt)
      (rt.loadBundle env manifest source opts body).2
  /-- A load that is refused before the loader runs has no nested loads. -/
  failed : ∀ e, (rt.loadBundle env manifest source opts body).1 = .error e →
    SameState (rt.loadBundle env manifest source opts body).2
      (if (rt.admitLoad env manifest source).1.toOption.isSome then body.nested env rt else rt)
  hidden : ∀ bundleId rt', rt.admitLoad env manifest source = (.ok bundleId, rt') →
    ∀ rt'' ∈ body.visited env (rt'.pushInitBundleId env.thread bundleId.id),
      Hides bundleId rt rt''

/-! ### The ends of a load -/

namespace SameState

variable {rt rt' : Runtime}

theorem refl (rt : Runtime) : SameState rt rt := ⟨rfl, fun _ => rfl, fun _ => rfl⟩

theorem staged (h : SameState rt rt') (thread : ThreadId) :
    rt.registry.staged thread = rt'.registry.staged thread := by
  simp only [RuntimeStore.staged, h.prepared]

theorem data (h : SameState rt rt') : rt.registry.data = rt'.registry.data := by
  show rt.core.registry.data = rt'.core.registry.data
  rw [h.core]

theorem discard (h : SameState rt rt') (thread : ThreadId) (b : BundleId) :
    SameState (rt.discardPreparedBundle thread b) (rt'.discardPreparedBundle thread b) := by
  have hstaged := h.staged thread
  rcases discardPreparedBundle_cases rt thread b with ⟨hnone, heq⟩ | ⟨r, l, hr, hl, heq⟩
  · rcases discardPreparedBundle_cases rt' thread b with ⟨-, heq'⟩ | ⟨r', l', hr', -, -⟩
    · rw [heq, heq']
      exact h
    · rw [← hstaged, hnone] at hr'
      cases hr'
  · rcases discardPreparedBundle_cases rt' thread b with ⟨hnone, -⟩ | ⟨r', l', -, hl', heq'⟩
    · rw [← hstaged, hr] at hnone
      cases hnone
    · rw [heq, heq']
      obtain rfl : l = l' := by rw [← List.reverse_inj, hl, hl', hstaged]
      refine ⟨h.core, fun t => ?_, h.init⟩
      simp only [Runtime.setStaged]
      by_cases ht : t = thread
      · rw [ht, preparedOn_setPreparedOn, preparedOn_setPreparedOn]
      · rw [preparedOn_setPreparedOn_ne _ _ _ ht, preparedOn_setPreparedOn_ne _ _ _ ht, h.prepared]

theorem commitAccepts (h : SameState rt rt') {manifest : ManifestData}
    {contracts : List PreparedGuestContract} {opts : LoadOptions} :
    CommitAccepts rt manifest contracts opts ↔ CommitAccepts rt' manifest contracts opts := by
  constructor
  · rintro ⟨hproviders, hcounts, hstaged, hregistered, hfresh⟩
    rw [h.data] at hregistered hfresh
    exact ⟨hproviders, hcounts, hstaged, hregistered, hfresh⟩
  · rintro ⟨hproviders, hcounts, hstaged, hregistered, hfresh⟩
    rw [← h.data] at hregistered hfresh
    exact ⟨hproviders, hcounts, hstaged, hregistered, hfresh⟩

/-- A commit into one of them is a commit into the other. -/
theorem commits (h : SameState rt rt') {manifest : ManifestData} {source : BundleSource}
    {contracts : List PreparedGuestContract} {rt'' : Runtime}
    (hcommits : Commits manifest source contracts rt rt'') :
    Commits manifest source contracts rt' rt'' := by
  have hdata : rt.core.registry.data = rt'.core.registry.data := by rw [h.core]
  have hrevision : rt.core.registry.revision = rt'.core.registry.revision := by rw [h.core]
  have hmanifests : rt.core.bundleManifests = rt'.core.bundleManifests := by rw [h.core]
  have hresidents : rt.core.registry.internalPluginResidents
      = rt'.core.registry.internalPluginResidents := by rw [h.core]
  have hroots : rt.core.internalPluginRoots = rt'.core.internalPluginRoots := by rw [h.core]
  have hlifecycle : rt.core.internalPluginLifecycle = rt'.core.internalPluginLifecycle := by
    rw [h.core]
  have hinstances : rt.core.instanceCounts = rt'.core.instanceCounts := by rw [h.core]
  exact
    { registry := by
        rw [← show rt.registry.data = rt'.registry.data from hdata]
        exact hcommits.registry
      published := hcommits.published
      revision := hcommits.revision.trans (congrArg (fun n => (n + 1) % 2 ^ 64) hrevision)
      manifests := hcommits.manifests.trans
        (congrArg (Finmap.insert manifest.name manifest) hmanifests)
      residents := hcommits.residents.trans hresidents
      roots := hcommits.roots.trans hroots
      lifecycle := hcommits.lifecycle.trans hlifecycle
      instances := hcommits.instances.trans hinstances
      prepared := fun t => (hcommits.prepared t).trans (h.prepared t)
      init := fun t => (hcommits.init t).trans (h.init t) }

end SameState

/-- The publishing half of a commit commits, or fails and changes nothing. -/
theorem publishPrepared_cases (rt : Runtime) {manifest : ManifestData} {source : BundleSource}
    (contracts : List PreparedGuestContract) (opts : LoadOptions)
    (hversion : (parseManifestVersion manifest.version manifest.path).toOption.isSome) :
    (CommitAccepts rt manifest contracts opts ∧
      ∃ handles rt', rt.publishPrepared (staging manifest source contracts)
          (BundleId.new manifest.name) opts = (.ok handles, rt') ∧
        (rt'.registry.data.slots.length ≤ 2 ^ 32 →
          Commits manifest source contracts rt rt')) ∨
    ¬CommitAccepts rt manifest contracts opts ∧
      ∃ e, rt.publishPrepared (staging manifest source contracts)
        (BundleId.new manifest.name) opts = (.error e, rt) := by
  simp only [Runtime.publishPrepared, staging_manifest, staging_contracts, staging_resident]
  cases hproviders : validatePreparedProviderSet manifest contracts with
  | error e =>
    refine Or.inr ⟨fun h => ?_, e, rfl⟩
    rw [h.providers] at hproviders
    cases hproviders
  | ok u =>
    dsimp only
    split
    · rename_i e hcounts
      refine Or.inr ⟨fun h => ?_, e, rfl⟩
      split at hcounts
      · rename_i hstrict
        rw [h.counts hstrict.1 hstrict.2] at hcounts
        cases hcounts
      · cases hcounts
    · rename_i hcounts
      cases hparse : parseManifestVersion manifest.version manifest.path with
      | error e =>
        rw [hparse] at hversion
        cases hversion
      | ok version =>
        dsimp only
        rcases registerPreparedBundle_cases rt.registry
            (Runtime.preparedDescriptor (staging manifest source contracts)
              (BundleId.new manifest.name) version)
            (Runtime.preparedDependencies manifest) contracts with
          ⟨e, heq⟩ | ⟨handles, data', hstaged, hall, hnew, hins, heq⟩
        · refine Or.inr ⟨fun h => ?_, .registry e, by rw [heq]⟩
          obtain ⟨hs, s', hok⟩ := registerPreparedBundle_ok
            (Runtime.preparedDescriptor (staging manifest source contracts)
              (BundleId.new manifest.name) version) h.staged h.registered h.fresh
          rw [hok] at heq
          cases heq
        · rw [heq]
          refine Or.inl ⟨⟨hproviders, fun hmode hcompat => ?_, hstaged, hall, hnew⟩,
            handles, _, rfl,
            fun hlen => ?_⟩
          · rw [if_pos ⟨hmode, hcompat⟩] at hcounts
            exact hcounts
          · obtain ⟨hadds, hrecorded⟩ := registerPreparedBundle_adds hnew hins hlen
            exact ⟨⟨version, handles, hparse, hadds, hrecorded⟩, rfl, rfl, rfl, rfl, rfl, rfl, rfl,
              fun _ => rfl, fun _ => rfl⟩

/-- When the loader has returned, the bundle's own entry is found, and without it
the runtime is the one of the nested loads. -/
theorem Inside.close {thread : ThreadId} {b : BundleId} {e : PreparedBundleRegistration}
    {rt rt' : Runtime} (h : Inside thread b e [] rt rt') :
    ((rt.popInitBundleId thread).registry.staged thread).find? (·.isFor b) = some e ∧
      ∀ l : List PreparedBundleRegistration,
        l.reverse = ((rt.popInitBundleId thread).registry.staged thread).eraseP (·.isFor b) →
        SameState ((rt.popInitBundleId thread).setStaged thread l) rt' := by
  obtain ⟨outer, hrt, hrt'⟩ := h.init
  rw [registry_pop]
  refine ⟨h.staged.find?_mine h.mine, fun l hl => ⟨?_, fun t => ?_, fun t => ?_⟩⟩
  · rw [core_setStaged, core_pop, h.core]
  · by_cases ht : t = thread
    · subst ht
      rw [h.staged.eraseP_mine h.mine] at hl
      rw [Runtime.setStaged, preparedOn_setPreparedOn, ← List.reverse_inj, hl]
      rfl
    · rw [Runtime.setStaged, preparedOn_setPreparedOn_ne _ _ _ ht, registry_pop]
      exact (h.elsewhere t ht).1
  · rw [initStackOn_setStaged]
    by_cases ht : t = thread
    · subst ht
      rw [initStackOn_pop, hrt, List.dropLast_concat, hrt', List.append_nil]
    · rw [initStackOn_pop_ne _ _ ht]
      exact (h.elsewhere t ht).2

section
variable {env : LoadEnv} {rt nested : Runtime} {manifest : ManifestData} {source : BundleSource}
  {contracts : List PreparedGuestContract} (opts : LoadOptions)

/-- The end of a load whose loader fails. -/
theorem finishLoad_error
    (hfind : (rt.registry.staged env.thread).find? (·.isFor (BundleId.new manifest.name))
      = some (staging manifest source contracts))
    (hclose : ∀ l : List PreparedBundleRegistration, l.reverse
        = (rt.registry.staged env.thread).eraseP (·.isFor (BundleId.new manifest.name)) →
      SameState (rt.setStaged env.thread l) nested) (e : LoaderError) :
    ∃ rt', rt.finishLoad env (BundleId.new manifest.name) opts (.error e)
        = (.error (.loader e), rt') ∧ SameState rt' nested := by
  rcases discardPreparedBundle_cases rt env.thread (BundleId.new manifest.name) with
    ⟨hnone, -⟩ | ⟨r, l, -, hl, heq⟩
  · rw [hfind] at hnone
    cases hnone
  · exact ⟨rt.setStaged env.thread l, by simp only [Runtime.finishLoad, heq], hclose l hl⟩

/-- The end of a load whose loader succeeds: a commit, or a discard after one that was
refused. -/
theorem finishLoad_ok
    (hfind : (rt.registry.staged env.thread).find? (·.isFor (BundleId.new manifest.name))
      = some (staging manifest source contracts))
    (hclose : ∀ l : List PreparedBundleRegistration, l.reverse
        = (rt.registry.staged env.thread).eraseP (·.isFor (BundleId.new manifest.name)) →
      SameState (rt.setStaged env.thread l) nested)
    (hversion : (parseManifestVersion manifest.version manifest.path).toOption.isSome) :
    (CommitAccepts nested manifest contracts opts ∧
      ∃ rt', rt.finishLoad env (BundleId.new manifest.name) opts (.ok ()) = (.ok (), rt') ∧
        (rt'.registry.data.slots.length ≤ 2 ^ 32 →
          Commits manifest source contracts nested rt')) ∨
    ¬CommitAccepts nested manifest contracts opts ∧
      ∃ e rt', rt.finishLoad env (BundleId.new manifest.name) opts (.ok ()) = (.error e, rt') ∧
        SameState rt' (nested.discardPreparedBundle env.thread (BundleId.new manifest.name)) := by
  simp only [Runtime.finishLoad]
  rcases commit_cases rt env.thread (BundleId.new manifest.name) opts with
    ⟨hnone, -⟩ | ⟨r, l, hr, hl, heq⟩
  · rw [hfind] at hnone
    cases hnone
  · rw [hfind] at hr
    cases hr
    rw [heq]
    have hsame := hclose l hl
    rcases publishPrepared_cases (rt.setStaged env.thread l) contracts opts hversion with
      ⟨haccepts, handles, rt', hpub, hcommits⟩ | ⟨hrefuses, e, hpub⟩
    · rw [hpub]
      exact Or.inl ⟨hsame.commitAccepts.mp haccepts, rt', rfl,
        fun hlen => hsame.commits (hcommits hlen)⟩
    · rw [hpub]
      exact Or.inr ⟨fun h => hrefuses (hsame.commitAccepts.mpr h), e, _, rfl, hsame.discard _ _⟩

end

/-- The runtime in which the loader of an admitted load starts. -/
def begun (env : LoadEnv) (rt : Runtime) (manifest : ManifestData) (source : BundleSource) :
    Runtime :=
  (rt.setStaged env.thread (rt.registry.preparedOn env.thread ++
    [staging manifest source []])).pushInitBundleId env.thread (BundleId.new manifest.name).id

section
variable {env : LoadEnv} {rt : Runtime} {manifest : ManifestData} {source : BundleSource}
  {opts : LoadOptions} {body : LoaderRun}

theorem inside_begun (env : LoadEnv) (rt : Runtime) (source : BundleSource)
    (hid : manifest.id = (BundleId.new manifest.name).id) :
    Inside env.thread (BundleId.new manifest.name) (staging manifest source []) []
      (begun env rt manifest source) rt := by
  have hmine : (staging manifest source []).isFor (BundleId.new manifest.name) = true := by
    simp [PreparedBundleRegistration.isFor, staging, hid]
  refine ⟨rfl, ?_, hmine, fun t ht => ⟨?_, ?_⟩, ⟨rt.initStackOn env.thread, ?_, ?_⟩, ?_⟩
  · rw [begun, registry_push, Runtime.setStaged, staged_setPreparedOn, List.reverse_append]
    exact .here _
  · rw [begun, registry_push, Runtime.setStaged, preparedOn_setPreparedOn_ne _ _ _ ht]
  · rw [begun, initStackOn_push_ne _ _ _ ht, initStackOn_setStaged]
  · rw [begun, initStackOn_push, initStackOn_setStaged]
  · rw [List.append_nil]
  · exact List.not_mem_nil

/-- A load that is refused before it stages anything. -/
theorem transaction_of_refused {e : RuntimeError}
    (heq : rt.admitLoad env manifest source = (.error e, rt)) :
    Transaction env rt manifest source opts body := by
  refine ⟨fun hok => ?_, fun _ _ => ?_, fun bundleId rt' hadmitted => ?_⟩
  · simp only [Runtime.loadBundle, Runtime.loadManifestWithSource, heq] at hok
    cases hok
  · simp only [Runtime.loadBundle, Runtime.loadManifestWithSource, heq]
    exact SameState.refl rt
  · rw [heq] at hadmitted
    cases hadmitted

/-- A load of a bundle is a transaction, unless it stands above a staged bundle of the
same id and its commit is refused. -/
theorem load_transaction_iff (env : LoadEnv) (rt : Runtime) (manifest : ManifestData)
    (source : BundleSource) (opts : LoadOptions) (body : LoaderRun)
    (hbody : body.Avoids (BundleId.new manifest.name))
    (hlen : (rt.loadBundle env manifest source opts body).2.registry.data.slots.length
      ≤ 2 ^ 32) :
    Transaction env rt manifest source opts body ↔
      ¬Admitted env rt manifest ∨
      rt.registry.preparedManifest env.thread (BundleId.new manifest.name) = none ∨
      (∃ e, body.result = .error e) ∨
      CommitAccepts (body.nested env rt) manifest body.contracts opts := by
  have hadmitted := admitLoad_isOk_iff rt env manifest source
  -- A load that is refused before its loader is called has changed nothing.
  rcases admitLoad_cases rt env manifest source with ⟨e, heq⟩ | ⟨hid, hzero, hversion, -, heq⟩
  · rw [heq] at hadmitted
    exact iff_of_true (transaction_of_refused heq) (Or.inl fun h => by cases hadmitted.mpr h)
  have hb : (BundleId.new manifest.name).id ≠ 0 := hid ▸ hzero
  have hbegun := inside_begun env rt source hid
  obtain ⟨hresult, hinside⟩ := hbegun.outer rfl hb hbody
  obtain ⟨hfind, hclose⟩ := hinside.close
  -- The load is its end, on the state in which the loader has returned.
  have hload : rt.loadBundle env manifest source opts body
      = ((body.exec env (begun env rt manifest source)).2.popInitBundleId env.thread).finishLoad
          env (BundleId.new manifest.name) opts body.result := by
    rw [← hresult]
    simp only [Runtime.loadBundle, Runtime.loadManifestWithSource, heq, Runtime.inInitWindow]
    rfl
  have hhidden : ∀ bundleId rt', rt.admitLoad env manifest source = (.ok bundleId, rt') →
      ∀ rt'' ∈ body.visited env (rt'.pushInitBundleId env.thread bundleId.id),
        Hides bundleId rt rt'' := by
    intro bundleId rt' hadmitted
    rw [heq] at hadmitted
    cases hadmitted
    exact hbegun.hides_visited env hb hbody ((Hides.refl _ rt).of_core rfl)
  -- For a load that fails, only the state it leaves is left to compare.
  have hfailed : ∀ {e rt'}, rt.loadBundle env manifest source opts body = (.error e, rt') →
      (Transaction env rt manifest source opts body ↔ SameState rt' (body.nested env rt)) := by
    intro e rt' hfail
    constructor
    · intro h
      have hsame := h.failed e (by rw [hfail])
      rw [hfail, heq] at hsame
      exact hsame
    · refine fun hsame => ⟨fun hok => ?_, fun _ _ => ?_, hhidden⟩
      · rw [hfail] at hok
        cases hok
      · rw [hfail, heq]
        exact hsame
  have hadmitted' : Admitted env rt manifest := hadmitted.mp (by rw [heq]; rfl)
  cases hloader : body.result with
  | error e =>
    rw [hloader] at hload
    obtain ⟨rt', hfinish, hsame⟩ := finishLoad_error opts hfind hclose e
    exact iff_of_true ((hfailed (hload.trans hfinish)).mpr hsame)
      (Or.inr (Or.inr (Or.inl ⟨e, rfl⟩)))
  | ok u =>
    rw [hloader] at hload
    rcases finishLoad_ok opts hfind hclose hversion with
      ⟨haccepts, rt', hfinish, hcommits⟩ | ⟨hrefuses, e, rt', hfinish, hsame⟩
    · refine iff_of_true ⟨fun _ => ?_, fun e herr => ?_, hhidden⟩
        (Or.inr (Or.inr (Or.inr haccepts)))
      · rw [hload, hfinish] at hlen ⊢
        exact hcommits hlen
      · rw [hload, hfinish] at herr
        cases herr
    · -- The clean-up discards once more, below the bundle that the commit took.
      rw [hfailed (hload.trans hfinish), preparedManifest_eq, Option.map_eq_none_iff]
      have hleaves := leaves_nested env hbody rt
      rcases discardPreparedBundle_cases (body.nested env rt) env.thread
          (BundleId.new manifest.name) with ⟨hnone, hdiscard⟩ | ⟨r, l, hr, hl, hdiscard⟩
      · rw [hdiscard] at hsame
        rw [hleaves.found] at hnone
        exact iff_of_true hsame (Or.inr (Or.inl hnone))
      · refine iff_of_false (fun h => ?_) ?_
        · have hall := (hsame.staged env.thread).symm.trans (h.staged env.thread)
          rw [hdiscard, Runtime.setStaged, staged_setPreparedOn, hl] at hall
          exact List.eraseP_eq_self_iff.mp hall r (List.mem_of_find?_eq_some hr)
            (List.find?_some hr)
        · rintro (h | hnone | ⟨e, h⟩ | h)
          · exact h hadmitted'
          · rw [← hleaves.found, hr] at hnone
            cases hnone
          · cases h
          · exact hrefuses h

end

/-! ### Two loads -/

/-- Thread 1, without signatures, with every loader. -/
def unsignedEnv : LoadEnv := ⟨1, .off, fun _ _ => .ok (), fun _ => true⟩

/-- A guest that registers `x` and loads `c`, whose loader provides nothing. -/
def registersAndLoads : LoaderRun :=
  .register (some ⟨⟨none⟩, ⟨some [120]⟩, ⟨1, 0, 0⟩⟩)
    (some ⟨⟨7⟩, ⟨1, 0, 0⟩, 0, 0, 1, 1, ⟨0, 0⟩⟩) (fun _ => 0) 0
    (.load (providing "c" ["y@1"]) (.path "c") ⟨.strict, true⟩ (.done (.ok ())) (.done (.ok ())))

/-- The load of `a` commits, though the one inside it fails. -/
theorem load_transaction_iff_nested :
    Transaction unsignedEnv Runtime.new (providing "a" ["x@1"]) (.path "a") ⟨.strict, true⟩
      registersAndLoads := by
  have hbody : registersAndLoads.Avoids (BundleId.new (providing "a" ["x@1"]).name) := by
    refine ⟨?_, trivial, trivial⟩
    decide +kernel
  exact (load_transaction_iff unsignedEnv Runtime.new (providing "a" ["x@1"]) (.path "a")
    ⟨.strict, true⟩ registersAndLoads hbody (by decide +kernel)).mpr (Or.inr (Or.inl rfl))

/-- The guest of `a` loads `a` again, and that load registers nothing. Its commit is
refused, and the clean-up drops the staged bundle of the outer load. -/
theorem nested_load_drops_outer :
    ¬Transaction unsignedEnv
      (begun unsignedEnv Runtime.new (providing "a" ["x@1"]) (.path "a"))
      (providing "a" ["x@1"]) (.path "a") ⟨.strict, true⟩ (.done (.ok ())) := by
  intro h
  have hsame := h.failed (.loader (.initFailed "a" ("manifest provides [\"x@1\"], but the loader "
    ++ "did not register every declared provider"))) (by decide +kernel)
  have hlost := hsame.prepared 1
  revert hlost
  decide +kernel

end PolyPlug.Lifecycle
