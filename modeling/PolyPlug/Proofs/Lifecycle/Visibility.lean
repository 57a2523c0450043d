import PolyPlug.Proofs.Lifecycle.Nested
import PolyPlug.Proofs.Registry.Commit

/-!
# `PolyPlug.Proofs.Lifecycle.Visibility`: nothing is visible before the commit

`Hides b rt rt'` says that no contract of `b` has become visible from `rt` to `rt'`.
It holds at every runtime a loader passes through (`LoaderRun.visited`): below a
nested load, whose calls are of other bundles (`hides_exec`), and in the bundle's own
loader, which only stages (`Inside.hides_visited`).

Calls of other bundles also leave the staged bundles of `b` and the init stack
(`Withdraws`).
-/

set_option autoImplicit false

namespace PolyPlug.Lifecycle

open PolyPlug.Abi
open PolyPlug.Lib
open PolyPlug.Common
open PolyPlug.Registry
open RuntimeStore

/-! ### The property -/

/-- No contract of the bundle has become visible. The locked data has no new entry
of it, and the published view is the old one or the one of the locked data. -/
structure Hides (b : BundleId) (rt rt' : Runtime) : Prop where
  entries : NoneNewOf b rt.registry.data rt'.registry.data
  published : rt'.registry.published = rt.registry.published ∨
    rt'.registry.published = ReadView.rebuild rt'.registry.data

namespace LoaderRun

/-- The runtimes the loader's run passes through, nested loads included. -/
def visited (env : LoadEnv) : LoaderRun → Runtime → List Runtime
  | .done _, rt => [rt]
  | .register descriptor interface functions ptr rest, rt =>
    rt :: rest.visited env
      (rt.hostRegisterGuestContract env.thread descriptor interface functions ptr).2
  | .load manifest source opts inner rest, rt =>
    rt :: (match rt.admitLoad env manifest source with
      | (.error _, _)      => []
      | (.ok bundleId, rt) => inner.visited env (rt.pushInitBundleId env.thread bundleId.id))
      ++ rest.visited env (rt.loadBundle env manifest source opts inner).2

end LoaderRun

/-! ### Calls of other bundles -/

namespace Hides

variable {b c : BundleId} {rt rt' : Runtime}

theorem refl (b : BundleId) (rt : Runtime) : Hides b rt rt := ⟨.refl b _, Or.inl rfl⟩

/-- The stacks do not matter. -/
theorem of_core {rt'' : Runtime} (h : Hides b rt rt') (hcore : rt''.core = rt'.core) :
    Hides b rt rt'' := by
  have hdata : rt''.core.registry.data = rt'.core.registry.data := by rw [hcore]
  have hpub : rt''.core.registry.published = rt'.core.registry.published := by rw [hcore]
  obtain ⟨hentries, hview⟩ := h
  constructor
  · rw [show rt''.registry.data = rt'.registry.data from hdata]
    exact hentries
  · rw [show rt''.registry.data = rt'.registry.data from hdata,
      show rt''.registry.published = rt'.registry.published from hpub]
    exact hview

/-- A registration of another bundle. -/
theorem registerGuestContract (h : Hides b rt rt') (hc : c ≠ b) (descriptor : PluginDescriptor)
    (interface : RawGuestContractInterface) (ptr : Nat) (contractName : String) :
    Hides b rt { rt' with registry :=
      (rt'.registry.registerGuestContract descriptor interface ptr contractName c).2 } := by
  rcases registerGuestContract_cases rt'.registry descriptor interface ptr contractName c with
    ⟨e, heq⟩ | ⟨contract, handle, data', -, -, hins, heq⟩
  · rw [heq]
    exact h
  · rw [heq]
    refine ⟨h.entries.trans fun i entry hentry hb => ?_, Or.inr rfl⟩
    have hold := noneNewOf_insertPreparedGuestContract hins hc i entry hentry hb
    rw [← hold]
    simp only [RuntimeStoreData.entryAt,
      (sameSlots_ensureDefaultBundleData rt'.registry.data c).slots]

/-- The publishing half of a commit of another bundle. -/
theorem publishPrepared (h : Hides b rt rt') (hc : c ≠ b) (prepared : PreparedBundleRegistration)
    (opts : LoadOptions) : Hides b rt (rt'.publishPrepared prepared c opts).2 := by
  unfold Runtime.publishPrepared
  dsimp only
  split
  · exact h
  · split
    · exact h
    · split
      · exact h
      · rename_i version _
        rcases registerPreparedBundle_cases rt'.registry
            (Runtime.preparedDescriptor prepared c version)
            (Runtime.preparedDependencies prepared.manifest) prepared.contracts with
          ⟨e, heq⟩ | ⟨hs, data', -, -, -, hins, heq⟩
        · rw [heq]
          exact h
        · rw [heq]
          have hnone : NoneNewOf b (insertBundle rt'.registry.data
              (Runtime.preparedDescriptor prepared c version)
              (Runtime.preparedDependencies prepared.manifest)) data' :=
            noneNewOf_insertAll hc hins
          exact ⟨h.entries.trans hnone, Or.inr rfl⟩

end Hides

/-- The topmost staged bundle of `b` and the init stack of a thread are left. -/
structure Withdraws (thread : ThreadId) (b : BundleId) (rt rt' : Runtime) : Prop where
  found : (rt'.registry.staged thread).find? (·.isFor b)
    = (rt.registry.staged thread).find? (·.isFor b)
  init : rt'.initStackOn thread = rt.initStackOn thread

namespace Withdraws

variable {thread : ThreadId} {b c : BundleId} {rt rt' rt'' : Runtime}

theorem refl (thread : ThreadId) (b : BundleId) (rt : Runtime) : Withdraws thread b rt rt :=
  ⟨rfl, rfl⟩

theorem trans (h : Withdraws thread b rt rt') (h' : Withdraws thread b rt' rt'') :
    Withdraws thread b rt rt'' :=
  ⟨h'.found.trans h.found, h'.init.trans h.init⟩

theorem setStaged {l : List PreparedBundleRegistration}
    (hl : l.reverse.find? (·.isFor b) = (rt.registry.staged thread).find? (·.isFor b)) :
    Withdraws thread b rt (rt.setStaged thread l) :=
  ⟨by rw [Runtime.setStaged, staged_setPreparedOn, hl], rfl⟩

theorem coreOnly {α : Type} {op : Runtime → α × Runtime} (hop : CoreOnly op) (rt : Runtime) :
    Withdraws thread b rt (op rt).2 := by
  obtain ⟨hprep, hinit⟩ := hop.stacks rt
  constructor
  · simp only [RuntimeStore.staged, preparedOn, hprep]
  · simp only [Runtime.initStackOn, hinit]

/-- The removal of a staged bundle of another id. -/
theorem erase {r : PreparedBundleRegistration} {l : List PreparedBundleRegistration}
    (hc : c ≠ b) (hr : (rt.registry.staged thread).find? (·.isFor c) = some r)
    (hl : l.reverse = (rt.registry.staged thread).eraseP (·.isFor c)) :
    Withdraws thread b rt (rt.setStaged thread l) :=
  setStaged (by rw [hl, find?_eraseP_other hr (isFor_of_ne (List.find?_some hr) hc.symm)])

end Withdraws

section
variable (env : LoadEnv) {b : BundleId} {rt₀ : Runtime}

/-- A registration below a nested load. -/
theorem hides_register {rt : Runtime} (h : Hides b rt₀ rt)
    (hcurrent : rt.currentInitBundleId env.thread ≠ b.id) (descriptor : Option PluginDescriptor)
    (interface : Option RawGuestContractInterface) (functions : Nat → Nat) (ptr : Nat) :
    Hides b rt₀
        (rt.hostRegisterGuestContract env.thread descriptor interface functions ptr).2 ∧
      Withdraws env.thread b rt
        (rt.hostRegisterGuestContract env.thread descriptor interface functions ptr).2 := by
  rw [hostRegisterGuestContract_state]
  cases checkedArguments descriptor interface functions with
  | none => exact ⟨h, .refl _ _ _⟩
  | some args =>
    obtain ⟨desc, interface, contractName⟩ := args
    dsimp only
    split
    · exact ⟨h, .refl _ _ _⟩
    · have hc : (⟨rt.currentInitBundleId env.thread⟩ : BundleId) ≠ b := by
        rintro rfl
        exact hcurrent rfl
      unfold RuntimeStore.stageOrRegister
      split
      · rcases stageGuestContract_cases rt.registry env.thread
            ⟨rt.currentInitBundleId env.thread⟩ desc interface ptr contractName with
          ⟨e, heq, -⟩ | ⟨contract, r, l, -, -, hl, heq⟩
        · rw [heq]
          exact ⟨h, .refl _ _ _⟩
        · rw [heq]
          refine ⟨h.of_core rfl, .setStaged ?_⟩
          rw [hl]
          exact find?_modifyFirst_other fun r hr =>
            ⟨isFor_of_ne hr hc.symm, isFor_of_ne (e := r.stage contract) hr hc.symm⟩
      · exact ⟨h.registerGuestContract hc desc interface ptr contractName,
          .coreOnly (coreOnly_registerGuestContract desc interface ptr contractName _) rt⟩

/-- A discard of another bundle. -/
theorem hides_discard {rt : Runtime} (h : Hides b rt₀ rt) {c : BundleId} (hc : c ≠ b) :
    Hides b rt₀ (rt.discardPreparedBundle env.thread c) ∧
      Withdraws env.thread b rt (rt.discardPreparedBundle env.thread c) := by
  rcases discardPreparedBundle_cases rt env.thread c with ⟨-, heq⟩ | ⟨r, l, hr, hl, heq⟩
  · rw [heq]
    exact ⟨h, .refl _ _ _⟩
  · rw [heq]
    exact ⟨h.of_core rfl, .erase hc hr hl⟩

/-- A commit of another bundle. -/
theorem hides_commit {rt : Runtime} (h : Hides b rt₀ rt) {c : BundleId} (hc : c ≠ b)
    (opts : LoadOptions) :
    Hides b rt₀ (rt.commitPreparedBundleTransactionWithHandles env.thread c opts).2 ∧
      Withdraws env.thread b rt
        (rt.commitPreparedBundleTransactionWithHandles env.thread c opts).2 := by
  rcases commit_cases rt env.thread c opts with ⟨-, heq⟩ | ⟨r, l, hr, hl, heq⟩
  · rw [heq]
    exact ⟨h, .refl _ _ _⟩
  · rw [heq]
    have hstaged : Hides b rt₀ (rt.setStaged env.thread l) := h.of_core rfl
    exact ⟨hstaged.publishPrepared hc r opts,
      (Withdraws.erase hc hr hl).trans (.coreOnly (coreOnly_publishPrepared r c opts) _)⟩

/-- The end of a load of another bundle. -/
theorem hides_finishLoad {rt : Runtime} (h : Hides b rt₀ rt) {c : BundleId} (hc : c ≠ b)
    (opts : LoadOptions) (loaded : Except LoaderError Unit) :
    Hides b rt₀ (rt.finishLoad env c opts loaded).2 ∧
      Withdraws env.thread b rt (rt.finishLoad env c opts loaded).2 := by
  cases loaded with
  | error e => exact hides_discard env h hc
  | ok u =>
    have hcommit := hides_commit env h hc opts
    simp only [Runtime.finishLoad]
    generalize rt.commitPreparedBundleTransactionWithHandles env.thread c opts = q at hcommit
    obtain ⟨committed, rt₁⟩ := q
    cases committed with
    | error e =>
      obtain ⟨hhides, hleaves⟩ := hides_discard env hcommit.1 hc
      exact ⟨hhides, hcommit.2.trans hleaves⟩
    | ok handles => exact hcommit

/-- A load of another bundle, whose loader makes nothing of `b` visible. -/
theorem hides_loadManifestWithSource {rt : Runtime} (h : Hides b rt₀ rt)
    {manifest : ManifestData} (hc : BundleId.new manifest.name ≠ b) (source : BundleSource)
    (opts : LoadOptions) {init : Runtime → Except LoaderError Unit × Runtime}
    (hinit : ∀ rt', Hides b rt₀ rt' →
      rt'.currentInitBundleId env.thread = (BundleId.new manifest.name).id →
      Hides b rt₀ (init rt').2 ∧ Withdraws env.thread b rt' (init rt').2) :
    Hides b rt₀ (rt.loadManifestWithSource env manifest source opts
        (Runtime.inInitWindow env.thread (BundleId.new manifest.name) init)).2 ∧
      Withdraws env.thread b rt (rt.loadManifestWithSource env manifest source opts
        (Runtime.inInitWindow env.thread (BundleId.new manifest.name) init)).2 := by
  unfold Runtime.loadManifestWithSource
  rcases admitLoad_cases rt env manifest source with ⟨e, heq⟩ | ⟨hid, -, -, -, heq⟩
  · rw [heq]
    exact ⟨h, .refl _ _ _⟩
  · rw [heq]
    dsimp only [Runtime.inInitWindow]
    have hnew : (staging manifest source []).isFor b = false :=
      isFor_of_ne (by simp [PreparedBundleRegistration.isFor, staging, hid]) hc.symm
    have hstage : Withdraws env.thread b rt (rt.setStaged env.thread
        (rt.registry.preparedOn env.thread ++ [staging manifest source []])) := by
      refine .setStaged ?_
      rw [List.reverse_append, List.reverse_singleton, List.singleton_append,
        List.find?_cons_of_neg (by simp [hnew])]
      rfl
    generalize rt.registry.preparedOn env.thread ++ _ = l at hstage
    obtain ⟨hhides, hleaves⟩ := hinit
      ((rt.setStaged env.thread l).pushInitBundleId env.thread (BundleId.new manifest.name).id)
      (h.of_core rfl) (by simp [Runtime.currentInitBundleId])
    generalize init _ = p at hhides hleaves
    have hpop : Hides b rt₀ (p.2.popInitBundleId env.thread) := hhides.of_core (core_pop _ _)
    have hwindow : Withdraws env.thread b rt (p.2.popInitBundleId env.thread) := by
      refine hstage.trans ⟨by rw [registry_pop, hleaves.found, registry_push], ?_⟩
      rw [initStackOn_pop, hleaves.init, initStackOn_push, List.dropLast_concat]
    obtain ⟨hfinal, hsame⟩ := hides_finishLoad env hpop hc opts p.1
    exact ⟨hfinal, hwindow.trans hsame⟩

/-- The same with the states the loader passes through. -/
theorem hides_loadBundle {rt : Runtime} (h : Hides b rt₀ rt) {manifest : ManifestData}
    (hc : BundleId.new manifest.name ≠ b) (source : BundleSource) (opts : LoadOptions)
    {inner : LoaderRun}
    (hinner : ∀ rt', Hides b rt₀ rt' → rt'.currentInitBundleId env.thread ≠ b.id →
      (Hides b rt₀ (inner.exec env rt').2 ∧ Withdraws env.thread b rt' (inner.exec env rt').2) ∧
        ∀ rt'' ∈ inner.visited env rt', Hides b rt₀ rt'') :
    (Hides b rt₀ (rt.loadBundle env manifest source opts inner).2 ∧
      Withdraws env.thread b rt (rt.loadBundle env manifest source opts inner).2) ∧
      ∀ rt' ∈ (match rt.admitLoad env manifest source with
        | (.error _, _)      => []
        | (.ok bundleId, rt) => inner.visited env (rt.pushInitBundleId env.thread bundleId.id)),
        Hides b rt₀ rt' := by
  -- The init window of the other bundle is on top of the init stack.
  have hwindow : ∀ rt', Hides b rt₀ rt' →
      rt'.currentInitBundleId env.thread = (BundleId.new manifest.name).id →
      (Hides b rt₀ (inner.exec env rt').2 ∧ Withdraws env.thread b rt' (inner.exec env rt').2) ∧
        ∀ rt'' ∈ inner.visited env rt', Hides b rt₀ rt'' := fun rt' h' htop =>
    hinner rt' h' fun heq => hc (congrArg BundleId.mk (htop.symm.trans heq))
  refine ⟨hides_loadManifestWithSource env h hc source opts
    fun rt' h' htop => (hwindow rt' h' htop).1, fun rt' hmem => ?_⟩
  rcases admitLoad_cases rt env manifest source with ⟨e, heq⟩ | ⟨-, -, -, -, heq⟩
  · rw [heq] at hmem
    cases hmem
  · rw [heq] at hmem
    generalize rt.registry.preparedOn env.thread ++ _ = l at hmem
    exact (hwindow ((rt.setStaged env.thread l).pushInitBundleId env.thread
      (BundleId.new manifest.name).id) (h.of_core rfl)
      (by simp [Runtime.currentInitBundleId])).2 rt' hmem

/-- The steps of a nested loader, at any depth. -/
theorem hides_exec {body : LoaderRun} (hbody : body.Avoids b) {rt : Runtime}
    (h : Hides b rt₀ rt) (hcurrent : rt.currentInitBundleId env.thread ≠ b.id) :
    (Hides b rt₀ (body.exec env rt).2 ∧ Withdraws env.thread b rt (body.exec env rt).2) ∧
      ∀ rt' ∈ body.visited env rt, Hides b rt₀ rt' := by
  induction body generalizing rt with
  | done result =>
    refine ⟨⟨h, .refl _ _ _⟩, fun rt' hmem => ?_⟩
    rw [List.mem_singleton.mp hmem]
    exact h
  | register descriptor interface functions ptr rest ih =>
    obtain ⟨hnext, hleaves⟩ := hides_register env h hcurrent descriptor interface functions ptr
    obtain ⟨⟨hafter, hrest⟩, hvisited⟩ := ih hbody hnext (by
      rwa [Runtime.currentInitBundleId, hleaves.init])
    refine ⟨⟨hafter, hleaves.trans hrest⟩, fun rt' hmem => ?_⟩
    rcases List.mem_cons.mp hmem with rfl | hmem
    · exact h
    · exact hvisited rt' hmem
  | load manifest source opts inner rest ihInner ihRest =>
    obtain ⟨hc, hinner, hrest⟩ := hbody
    obtain ⟨⟨hnext, hleaves⟩, hinside⟩ := hides_loadBundle env h hc source opts
      fun rt' h' hcurrent' => ihInner hinner h' hcurrent'
    obtain ⟨⟨hafter, hsame⟩, hvisited⟩ := ihRest hrest hnext (by
      rwa [Runtime.currentInitBundleId, hleaves.init])
    refine ⟨⟨hafter, hleaves.trans hsame⟩, fun rt' hmem => ?_⟩
    rcases List.mem_append.mp hmem with hmem | hmem
    · rcases List.mem_cons.mp hmem with rfl | hmem
      · exact h
      · exact hinside rt' hmem
    · exact hvisited rt' hmem

/-- The nested loads alone leave the staged bundles of `b`. -/
theorem leaves_nested {body : LoaderRun} (hbody : body.Avoids b) (rt : Runtime) :
    Withdraws env.thread b rt (body.nested env rt) := by
  induction body generalizing rt with
  | done result => exact .refl _ _ _
  | register descriptor interface functions ptr rest ih => exact ih hbody rt
  | load manifest source opts inner rest _ ihRest =>
    obtain ⟨hc, hinner, hrest⟩ := hbody
    have hload := hides_loadBundle env (Hides.refl b rt) hc source opts
      fun rt' h' hcurrent' => hides_exec env hinner h' hcurrent'
    exact hload.1.2.trans (ihRest hrest _)

/-- The steps of the bundle's own loader. -/
theorem Inside.hides_visited (hb : b.id ≠ 0) {body : LoaderRun} (hbody : body.Avoids b)
    {e : PreparedBundleRegistration} {rt rt' : Runtime} (h : Inside env.thread b e [] rt rt')
    (hhides : Hides b rt₀ rt) : ∀ rt'' ∈ body.visited env rt, Hides b rt₀ rt'' := by
  induction body generalizing e rt rt' with
  | done result =>
    intro rt'' hmem
    rw [List.mem_singleton.mp hmem]
    exact hhides
  | register descriptor interface functions ptr rest ih =>
    have hnext := h.stage hb descriptor interface functions ptr
    intro rt'' hmem
    rcases List.mem_cons.mp hmem with rfl | hmem
    · exact hhides
    · -- A staged contract is not in the core.
      exact ih hbody hnext (hhides.of_core (hnext.core.trans h.core.symm)) rt'' hmem
  | load manifest source opts inner rest _ ihRest =>
    obtain ⟨hc, hinner, hrest⟩ := hbody
    obtain ⟨⟨hnext, -⟩, hinside⟩ := hides_loadBundle env hhides hc source opts
      fun rt' h' hcurrent' => hides_exec env hinner h' hcurrent'
    have hrelated := (h.loadManifestWithSource rfl hc source opts
      fun h => Inside.exec rfl hinner (by simp) h).2
    intro rt'' hmem
    rcases List.mem_append.mp hmem with hmem | hmem
    · rcases List.mem_cons.mp hmem with rfl | hmem
      · exact hhides
      · exact hinside rt'' hmem
    · exact ihRest hrest hrelated hnext rt'' hmem

end

end PolyPlug.Lifecycle
