import PolyPlug.Lifecycle.InitLookup
import PolyPlug.Proofs.Lifecycle.Cascade
import PolyPlug.Proofs.Lifecycle.InitStack
import PolyPlug.Proofs.Lifecycle.Restore
import PolyPlug.Proofs.Lifecycle.Unload

/-!
# `PolyPlug.Proofs.Lifecycle.InitLookup`: lookups follow the declarations

While internal-plugin calls are nested (`NestedStep`), the init stack of each thread
lists the inits that run on it, and the counter of the fast path counts them
(`Tracked`). So a thread without an init gets the registry's own results, and the
innermost init is the one a lookup is checked for.

The check reads the staged manifest and the published declarations, not the manifest
whose code runs. A load stages that manifest. A reload does not, and the published
declarations are still those of the version it replaces. `enforces_run_iff` says that
the lookups follow the running manifest exactly if the three agree on every contract
that is offered.
-/

set_option autoImplicit false

namespace PolyPlug.Lifecycle

open PolyPlug.Abi
open PolyPlug.Lib
open PolyPlug.Common
open PolyPlug.Registry
open RuntimeStore

/-! ### The property and the condition -/

/-- The registry's own result of a find. -/
def RuntimeStore.findOrNull (s : RuntimeStore) (cid : GuestContractId) (v : Nat) :
    GuestContractHandle :=
  match s.findGuestContract cid v with
  | .ok handle => handle
  | .error _   => .null

/-- Both lookups of a contract give the registry's own result. -/
def Answers (h : InitStacks) (thread : ThreadId) (cid : GuestContractId) : Prop :=
  ∀ v, h.hostFindGuestContract thread cid v = RuntimeStore.findOrNull h.runtime.registry cid v ∧
    h.hostFindAllGuestContracts thread cid v = h.runtime.registry.collectGuestContracts cid v

/-- Both lookups of a contract find nothing. -/
def FindsNothing (h : InitStacks) (thread : ThreadId) (cid : GuestContractId) : Prop :=
  ∀ v, h.hostFindGuestContract thread cid v = .null ∧
    h.hostFindAllGuestContracts thread cid v = []

/-- The manifest declares a dependency on the contract. -/
def DeclaresDependency (m : ManifestData) (cid : GuestContractId) : Prop :=
  ∃ dependency ∈ m.dependencies, dependency.contractId = cid

/-- What the lookups of a thread should do. -/
def InitSystem.Enforces (s : InitSystem) (thread : ThreadId) : Prop :=
  match s.frames thread with
  | []         => ∀ cid, Answers s.host thread cid
  | frame :: _ => ∀ cid,
    (DeclaresDependency frame.manifest cid → Answers s.host thread cid) ∧
    (¬DeclaresDependency frame.manifest cid → FindsNothing s.host thread cid)

/-- Some lookup of the contract finds a provider. -/
def Offered (s : RuntimeStore) (cid : GuestContractId) : Prop :=
  ∃ v, RuntimeStore.findOrNull s cid v ≠ .null ∨ s.collectGuestContracts cid v ≠ []

/-- On the offered contracts the manifest of the innermost init has the dependencies of
the manifest that is staged for its bundle and of the published version, together. -/
def InitSystem.Agrees (s : InitSystem) (thread : ThreadId) : Prop :=
  ∀ frame ∈ (s.frames thread).head?, ∀ cid, Offered s.host.runtime.registry cid →
    (DeclaresDependency frame.manifest cid ↔
      (∃ m ∈ s.host.runtime.registry.preparedManifest thread frame.bundleId,
        DeclaresDependency m cid) ∨
      cid ∈ s.host.runtime.registry.data.declaredOf frame.bundleId)

/-- The innermost init is the open transaction of this internal plugin. -/
def InitSystem.Innermost (s : InitSystem) (thread : ThreadId) (b : BundleId) : Prop :=
  (s.frames thread).head?.any (·.isPlugin b) = true

/-- A call that ends the transaction if it finds it staged names the innermost init, or
no transaction. -/
def InitSystem.EndsInnermost (s : InitSystem) (thread : ThreadId) (b : BundleId) : Prop :=
  if (s.host.runtime.registry.preparedManifest thread b).isSome then s.Innermost thread b
  else ∀ frame ∈ s.frames thread, frame.isPlugin b = false

/-- An internal-plugin call that pops names the innermost init. -/
def InitSystem.NestedStep (s : InitSystem) : InitStep → Prop
  | .plugin _ thread call =>
    match call with
    | .commit b                             => s.frames thread = [] ∨ s.Innermost thread b
    | .commitIntoHandles b _ | .abort b     => s.EndsInnermost thread b
    | .begin .. | .attach .. | .register .. => True
  | .beginLoad .. | .endLoad .. | .beginReload .. | .endReload .. | .unload .. => True

/-! ### The stacks -/

/-- The init stacks list the inits that run, and the counter counts them. -/
structure InitSystem.Tracked (s : InitSystem) : Prop where
  initStack : ∀ thread, s.host.runtime.initStackOn thread
    = ((s.frames thread).map fun frame => frame.bundleId.id).reverse
  counter : s.host.activeInitCount = s.host.runtime.initTotal
  nonzero : ∀ thread, ∀ frame ∈ s.frames thread, frame.bundleId.id ≠ 0

namespace InitSystem

variable {s : InitSystem} {thread : ThreadId}

theorem tracked_new : Tracked new where
  initStack _ := rfl
  counter := rfl
  nonzero _ _ h := nomatch h

/-- The current bundle is that of the innermost init. -/
theorem Tracked.current (h : s.Tracked) (thread : ThreadId) :
    s.host.currentInitBundleId thread
      = ((s.frames thread).head?.map fun frame => frame.bundleId.id).getD 0 := by
  have hvisible : s.host.currentInitBundleId thread
      = s.host.visible.currentInitBundleId thread := by
    unfold InitStacks.currentInitBundleId InitStacks.visible
    split
    · simp [Runtime.currentInitBundleId, Runtime.initStackOn]
    · rfl
  rw [hvisible, currentInitBundleId_visible s.host thread h.counter, Runtime.currentInitBundleId,
    h.initStack, List.getLast?_reverse, List.head?_map]

/-! ### What a step does to the stacks -/

/-- The stacks and the frames are as they were. -/
theorem Tracked.of_kept (h : s.Tracked) {s' : InitSystem}
    (hstack : s'.host.runtime.initBundleStack = s.host.runtime.initBundleStack)
    (hcount : s'.host.activeInitCount = s.host.activeInitCount) (hframes : s'.frames = s.frames) :
    s'.Tracked where
  initStack thread := by
    rw [Runtime.initStackOn, hstack, hframes]
    exact h.initStack thread
  counter := by
    rw [hcount, initTotal_congr hstack]
    exact h.counter
  nonzero := hframes ▸ h.nonzero

/-- An init starts. -/
theorem Tracked.enter (h : s.Tracked) (thread : ThreadId) {frame : InitFrame}
    (hid : frame.bundleId.id ≠ 0) : (s.enter thread frame).Tracked where
  initStack t := by
    by_cases ht : t = thread
    · subst ht
      simp [InitSystem.enter, setFrames, InitStacks.pushInitBundleId, h.initStack t]
    · show (s.host.runtime.pushInitBundleId thread _).initStackOn t = _
      rw [initStackOn_push_ne _ _ _ ht, h.initStack]
      simp [InitSystem.enter, setFrames, ht]
  counter := counter_push s.host thread _ h.counter
  nonzero t f hf := by
    by_cases ht : t = thread
    · subst ht
      simp only [InitSystem.enter, setFrames, Function.update_self] at hf
      rcases List.mem_cons.mp hf with rfl | hold
      · exact hid
      · exact h.nonzero t f hold
    · exact h.nonzero t f (by simpa [InitSystem.enter, setFrames, ht] using hf)

/-- The innermost init of a thread ends. -/
theorem Tracked.leave (h : s.Tracked) {t : ThreadId} {rest : List InitFrame}
    (hrest : s.frames t = [] ∧ rest = [] ∨ ∃ frame, s.frames t = frame :: rest)
    {host : InitStacks}
    (hstack : host.runtime.initBundleStack
      = (s.host.popInitBundleId t).runtime.initBundleStack)
    (hcount : host.activeInitCount = (s.host.popInitBundleId t).activeInitCount) :
    ({ s with host := host }.setFrames t rest).Tracked := by
  have hframes : (((s.frames t).map fun frame => frame.bundleId.id).reverse).dropLast
      = (rest.map fun frame => frame.bundleId.id).reverse := by
    rcases hrest with ⟨hnil, rfl⟩ | ⟨frame, hcons⟩
    · rw [hnil]
      rfl
    · rw [hcons, List.map_cons, List.reverse_cons, List.dropLast_concat]
  refine ⟨fun u => ?_, ?_, fun u f hf => ?_⟩
  · show host.runtime.initStackOn u = _
    rw [Runtime.initStackOn, hstack]
    show (s.host.runtime.popInitBundleId t).initStackOn u = _
    by_cases hu : u = t
    · subst hu
      rw [initStackOn_pop, h.initStack, hframes]
      simp [setFrames]
    · rw [initStackOn_pop_ne _ _ hu, h.initStack]
      simp [setFrames, hu]
  · show host.activeInitCount = host.runtime.initTotal
    rw [hcount, initTotal_congr hstack]
    exact counter_pop s.host t h.counter
  · by_cases hu : u = t
    · subst hu
      simp only [setFrames, Function.update_self] at hf
      rcases hrest with ⟨-, rfl⟩ | ⟨frame, hcons⟩
      · cases hf
      · exact h.nonzero u f (hcons ▸ List.mem_cons_of_mem _ hf)
    · exact h.nonzero u f (by simpa [setFrames, hu] using hf)

/-! ### One step -/

section
variable (rt : Runtime)

theorem finishLoad_initBundleStack (env : LoadEnv) (b : BundleId) (opts : LoadOptions)
    (loaded : Except LoaderError Unit) :
    (rt.finishLoad env b opts loaded).2.initBundleStack = rt.initBundleStack := by
  cases loaded with
  | error e => rfl
  | ok u =>
    have hcommit := (commit_stacks rt env.thread b opts).2.1
    simp only [Runtime.finishLoad]
    generalize rt.commitPreparedBundleTransactionWithHandles env.thread b opts = q at hcommit
    obtain ⟨committed, rt'⟩ := q
    cases committed with
    | error e => exact hcommit
    | ok handles => exact hcommit

theorem closeReload_initBundleStack (r : Replacement) (slotIndices : List Nat)
    (loaded : Except LoaderError Unit) :
    (rt.closeReload r slotIndices loaded).2.initBundleStack = rt.initBundleStack := by
  cases loaded with
  | error e => rfl
  | ok u =>
    simp only [Runtime.closeReload]
    generalize rt.registry.applyReloadSwap r.descriptor.id slotIndices r.descriptor
      r.dependencies = q
    obtain ⟨_ | _, registry⟩ := q <;> rfl

theorem unloadBundle_initBundleStack (hooks : Hooks) (thread : ThreadId) (b : BundleId) :
    (rt.unloadBundle hooks thread b).2.initBundleStack = rt.initBundleStack := by
  rcases unloadBundle_cases hooks thread rt b with ⟨e, heq, -⟩ | ⟨d, -, -, -, heq⟩
  · rw [heq]
  · rw [heq]
    unfold Runtime.invalidateRegistered
    dsimp only
    split <;> rfl

end

/-- A replacement is one of a bundle with an id. -/
theorem checkReload_nonzero {env : ReloadEnv} {path : String} {r : Replacement}
    (h : env.checkReload path = .ok r) : r.descriptor.id.id ≠ 0 := by
  unfold ReloadEnv.checkReload at h
  split at h
  · cases h
  · split at h
    · cases h
    · dsimp only at h
      split at h
      · cases h
      · rename_i manifest _ _ hvalid
        have hmeta := ManifestData.validateMetadata_of_validate hvalid
        have hid : (BundleId.new manifest.name).id ≠ 0 :=
          ManifestData.id_of_validateMetadata hmeta ▸ ManifestData.id_ne_zero hmeta
        split at h
        · cases h
        · cases h
        · split at h
          · cases h
          · split at h
            · cases h
            · cases h
              exact hid

/-- The runtime changes apart from the stacks. -/
theorem Tracked.withRuntime (h : s.Tracked) {rt : Runtime}
    (hstack : rt.initBundleStack = s.host.runtime.initBundleStack) :
    InitSystem.Tracked { s with host := { s.host with runtime := rt } } :=
  h.of_kept hstack rfl rfl

/-- The frames of the thread stay. -/
theorem Tracked.stay (h : s.Tracked) (thread : ThreadId) {host : InitStacks}
    (hstack : host.runtime.initBundleStack = s.host.runtime.initBundleStack)
    (hcount : host.activeInitCount = s.host.activeInitCount) :
    ({ s with host := host }.setFrames thread (s.frames thread)).Tracked :=
  h.of_kept hstack hcount (Function.update_eq_self _ _)

/-- The transaction of the innermost init ends. -/
theorem eraseP_innermost {b : BundleId} {frames : List InitFrame}
    (h : frames.head?.any (·.isPlugin b) = true) :
    ∃ frame, frames = frame :: frames.eraseP (·.isPlugin b) := by
  cases frames with
  | nil => cases h
  | cons frame rest =>
    have hplugin : frame.isPlugin b = true := h
    exact ⟨frame, by rw [List.eraseP_cons_of_pos hplugin]⟩

theorem commitInternal_initBundleStack (rt : Runtime) (compatibility : Compatibility)
    (thread : ThreadId) (b : BundleId) :
    (rt.commitInternalPluginWithHandles compatibility thread b).2.initBundleStack
      = rt.initBundleStack := by
  have hcommit := (commit_stacks rt thread b ⟨compatibility, false⟩).2.1
  unfold Runtime.commitInternalPluginWithHandles
  generalize rt.commitPreparedBundleTransactionWithHandles thread b ⟨compatibility, false⟩ = q
    at hcommit
  obtain ⟨_ | _, rt'⟩ := q
  · exact hcommit
  · exact hcommit

/-- A commit pops. -/
theorem Tracked.commitPlugin (h : s.Tracked) (compatibility : Compatibility)
    {b : BundleId} (hnested : s.frames thread = [] ∨ s.Innermost thread b) :
    InitSystem.Tracked ({ s with
      host := (s.host.commitInternalPluginWithHandles compatibility thread b).2 }.setFrames thread
        ((s.frames thread).eraseP (·.isPlugin b))) := by
  have hcommitted := h.withRuntime
    (commitInternal_initBundleStack s.host.runtime compatibility thread b)
  refine hcommitted.leave (t := thread) ?_ rfl rfl
  rcases hnested with hnil | hhead
  · exact Or.inl ⟨hnil, by rw [hnil]; rfl⟩
  · exact Or.inr (eraseP_innermost hhead)

/-- An abort pops if it finds the staged bundle. -/
theorem Tracked.abortPlugin (h : s.Tracked) {b : BundleId} (hnested : s.EndsInnermost thread b) :
    InitSystem.Tracked ({ s with host := s.host.abortInternalPlugin thread b }.setFrames thread
      ((s.frames thread).eraseP (·.isPlugin b))) := by
  obtain ⟨hfound, -, hstack, -⟩ := abort_stacks s.host.runtime thread b
  have haborted := h.withRuntime hstack
  unfold EndsInnermost at hnested
  rw [preparedManifest_eq, Option.isSome_map, ← hfound] at hnested
  unfold InitStacks.abortInternalPlugin
  generalize s.host.runtime.abortInternalPlugin thread b = q at haborted hnested hstack
  obtain ⟨found, rt⟩ := q
  cases found with
  | false =>
    rw [List.eraseP_of_forall_not fun frame hmem => by simp [hnested frame hmem]]
    exact h.stay thread hstack rfl
  | true => exact haborted.leave (t := thread) (Or.inr (eraseP_innermost hnested)) rfl rfl

/-- An internal-plugin call that is nested. -/
theorem Tracked.plugin (h : s.Tracked) (compatibility : Compatibility) (thread : ThreadId)
    (call : PluginCall) (hnested : s.NestedStep (.plugin compatibility thread call)) :
    (s.exec (.plugin compatibility thread call)).Tracked := by
  cases call with
  | begin manifest language =>
    simp only [InitSystem.exec, InitStacks.exec, InitStacks.beginInternalPlugin]
    rcases begin_cases s.host.runtime thread manifest language with
      ⟨e, heq⟩ | ⟨hid, hnonzero, -, heq⟩
    · rw [heq]
      exact h.stay thread rfl rfl
    · rw [heq]
      have hbegun := @Tracked.withRuntime s h
        (s.host.runtime.begunInternal thread manifest language) rfl
      exact @Tracked.enter _ hbegun thread ⟨BundleId.new manifest.name, manifest, .plugin⟩
        (hid ▸ hnonzero)
  | attach b resident =>
    exact h.stay thread (attach_stacks s.host.runtime thread b resident).2.1 rfl
  | register descriptor interface functions ptr => exact h.stay thread rfl rfl
  | commit b => exact h.commitPlugin compatibility hnested
  | commitIntoHandles b outHandles =>
    have habort : InitSystem.Tracked ({ s with host := s.host.abortInternalPlugin thread b
        }.setFrames thread ((s.frames thread).eraseP (·.isPlugin b))) := h.abortPlugin hnested
    simp only [InitSystem.exec, InitStacks.exec, InitStacks.commitInternalPluginIntoHandles]
    cases hcount : s.host.runtime.registry.preparedBundleContractCount thread b with
    | none => exact habort
    | some expected =>
      dsimp only
      split
      · exact habort
      · -- The bundle is staged, so the commit names the innermost init.
        have hstaged : (s.host.runtime.registry.preparedManifest thread b).isSome = true := by
          rw [preparedManifest_eq, Option.isSome_map]
          exact (Option.isSome_map ..).symm.trans (congrArg Option.isSome hcount)
        have hinnermost : s.EndsInnermost thread b := hnested
        rw [EndsInnermost, if_pos hstaged] at hinnermost
        exact h.commitPlugin compatibility (Or.inr hinnermost)
  | abort b => exact h.abortPlugin hnested

/-- Every step of a nested run keeps track. -/
theorem Tracked.exec (h : s.Tracked) {step : InitStep} (hnested : s.NestedStep step) :
    (s.exec step).Tracked := by
  cases step with
  | beginLoad env manifest source =>
    simp only [InitSystem.exec]
    rcases admitLoad_cases s.host.runtime env manifest source with
      ⟨e, heq⟩ | ⟨hid, hnonzero, -, -, heq⟩
    · rw [heq]
      exact h.of_kept rfl rfl rfl
    · rw [heq]
      have hstaged := @Tracked.withRuntime s h (s.host.runtime.setStaged env.thread
        (s.host.runtime.registry.preparedOn env.thread ++ [staging manifest source []])) rfl
      exact @Tracked.enter _ hstaged env.thread ⟨BundleId.new manifest.name, manifest, .load⟩
        (hid ▸ hnonzero)
  | endLoad env opts loaded =>
    simp only [InitSystem.exec]
    split
    · rename_i b manifest rest heq
      exact h.leave (Or.inr ⟨_, heq⟩) (finishLoad_initBundleStack _ env b opts loaded) rfl
    · exact h
  | beginReload env path =>
    simp only [InitSystem.exec]
    split
    · exact h
    · rename_i r hcheck
      have hopened := @Tracked.withRuntime s h { s.host.runtime with
        registry := s.host.runtime.registry.beginReload r.descriptor.id } rfl
      exact hopened.enter env.load.thread (checkReload_nonzero hcheck)
  | endReload thread loaded =>
    simp only [InitSystem.exec]
    split
    · rename_i b manifest r slotIndices rest heq
      exact h.leave (Or.inr ⟨_, heq⟩) (closeReload_initBundleStack _ r slotIndices loaded) rfl
    · exact h
  | plugin compatibility thread call => exact h.plugin compatibility thread call hnested
  | unload hooks thread b =>
    exact h.of_kept (unloadBundle_initBundleStack s.host.runtime hooks thread b) rfl rfl

/-! ### Lookups -/

theorem mem_declaredOf {rt : Runtime} {b : BundleId} {cid : GuestContractId} :
    rt.registry.isBundleDependencyDeclared b cid = true ↔ cid ∈ rt.registry.data.declaredOf b :=
  decide_eq_true_iff

/-- The check of the source, as a proposition. -/
theorem bundleDeclaresDependency_iff {rt : Runtime} {thread : ThreadId} {b : BundleId}
    {cid : GuestContractId} :
    rt.bundleDeclaresDependency thread b cid = true ↔
      (∃ m ∈ rt.registry.preparedManifest thread b, DeclaresDependency m cid) ∨
        cid ∈ rt.registry.data.declaredOf b := by
  unfold Runtime.bundleDeclaresDependency
  rw [Bool.or_eq_true, mem_declaredOf]
  simp [Option.any_eq_true, DeclaresDependency]

/-- A lookup that is let through. -/
theorem answers_of_allowed {h : InitStacks} {cid : GuestContractId}
    (hallowed : h.refusesLookup thread cid = false) : Answers h thread cid := by
  intro v
  cases hfound : h.runtime.registry.findGuestContract cid v with
  | error e => simp [InitStacks.hostFindGuestContract, InitStacks.hostFindAllGuestContracts,
      hallowed, RuntimeStore.findOrNull, hfound]
  | ok handle => simp [InitStacks.hostFindGuestContract, InitStacks.hostFindAllGuestContracts,
      hallowed, RuntimeStore.findOrNull, hfound]

/-- A lookup that is refused. -/
theorem findsNothing_of_refused {h : InitStacks} {cid : GuestContractId}
    (hrefused : h.refusesLookup thread cid = true) : FindsNothing h thread cid := by
  intro v
  simp [InitStacks.hostFindGuestContract, InitStacks.hostFindAllGuestContracts, hrefused]

/-- Both answers are the same exactly if the contract is not offered. -/
theorem answers_and_findsNothing_iff {h : InitStacks} {cid : GuestContractId} :
    (Answers h thread cid ↔ FindsNothing h thread cid) ↔ ¬Offered h.runtime.registry cid := by
  cases hlookup : h.refusesLookup thread cid with
  | true =>
    have hnothing := findsNothing_of_refused hlookup
    rw [iff_true_right hnothing]
    unfold Offered
    push Not
    refine forall_congr' fun v => ?_
    rw [(hnothing v).1, (hnothing v).2]
    exact and_congr eq_comm eq_comm
  | false =>
    have hanswers := answers_of_allowed hlookup
    rw [iff_true_left hanswers]
    unfold Offered
    push Not
    refine forall_congr' fun v => ?_
    rw [(hanswers v).1, (hanswers v).2]

/-- The lookups of a tracked host follow the manifest exactly if the tables agree. -/
theorem enforces_iff (h : s.Tracked) (thread : ThreadId) :
    s.Enforces thread ↔ s.Agrees thread := by
  unfold Enforces Agrees
  have hcurrent := h.current thread
  cases hframes : s.frames thread with
  | nil =>
    rw [hframes] at hcurrent
    refine iff_of_true (fun cid => answers_of_allowed ?_) nofun
    unfold InitStacks.refusesLookup
    rw [hcurrent]
    rfl
  | cons frame rest =>
    rw [hframes] at hcurrent
    have hcaller : s.host.currentInitBundleId thread = frame.bundleId.id := hcurrent
    have hnonzero : frame.bundleId.id ≠ 0 :=
      h.nonzero thread frame (hframes ▸ List.mem_cons_self ..)
    have hrefuses : ∀ cid, s.host.refusesLookup thread cid
        = !s.host.runtime.bundleDeclaresDependency thread frame.bundleId cid := by
      intro cid
      unfold InitStacks.refusesLookup
      simp [hcaller, hnonzero]
    simp only [List.head?_cons, Option.mem_some_iff, forall_eq']
    refine forall_congr' fun cid => ?_
    rw [← bundleDeclaresDependency_iff]
    have hboth := @answers_and_findsNothing_iff thread s.host cid
    cases hdeclares : s.host.runtime.bundleDeclaresDependency thread frame.bundleId cid with
    | true =>
      have hanswers : Answers s.host thread cid :=
        answers_of_allowed (by rw [hrefuses, hdeclares]; rfl)
      rw [iff_true_left hanswers] at hboth
      by_cases hmanifest : DeclaresDependency frame.manifest cid
      · simp [hmanifest, hanswers]
      · simp [hmanifest, hboth]
    | false =>
      have hnothing : FindsNothing s.host thread cid :=
        findsNothing_of_refused (by rw [hrefuses, hdeclares]; rfl)
      rw [iff_true_right hnothing] at hboth
      by_cases hmanifest : DeclaresDependency frame.manifest cid
      · simp [hmanifest, hboth]
      · simp [hmanifest, hnothing]

/-- The innermost init has its manifest staged: what is published of the bundle must not
add to it. So it is for a load, and nothing is published of a bundle without a record. -/
theorem agrees_of_staged_iff {frame : InitFrame} {rest : List InitFrame}
    (hframes : s.frames thread = frame :: rest)
    (hstaged : s.host.runtime.registry.preparedManifest thread frame.bundleId
      = some frame.manifest) :
    s.Agrees thread ↔ ∀ cid, Offered s.host.runtime.registry cid →
      cid ∈ s.host.runtime.registry.data.declaredOf frame.bundleId →
        DeclaresDependency frame.manifest cid := by
  unfold Agrees
  simp only [hframes, List.head?_cons, Option.mem_some_iff, forall_eq', hstaged, exists_eq_left']
  refine forall_congr' fun cid => forall_congr' fun _ => ?_
  exact ⟨fun h hdeclared => h.mpr (Or.inr hdeclared), fun h =>
    ⟨Or.inl, fun hor => hor.elim id h⟩⟩

/-- The innermost init has nothing staged: the manifest must have the dependencies of the
published version. So it is for a reload. -/
theorem agrees_of_published_iff {frame : InitFrame} {rest : List InitFrame}
    (hframes : s.frames thread = frame :: rest)
    (hnone : s.host.runtime.registry.preparedManifest thread frame.bundleId = none) :
    s.Agrees thread ↔ ∀ cid, Offered s.host.runtime.registry cid →
      (DeclaresDependency frame.manifest cid ↔
        cid ∈ s.host.runtime.registry.data.declaredOf frame.bundleId) := by
  unfold Agrees
  simp [hframes, hnone]

end InitSystem

/-! ### The run -/

/-- In every state of a run whose internal-plugin calls are nested, the lookups of a
thread follow the manifest of its innermost init exactly if the declarations agree. -/
theorem enforces_run_iff (steps : List InitStep)
    (hsteps : Steps InitSystem.exec InitSystem.NestedStep InitSystem.new steps)
    (thread : ThreadId) :
    (run InitSystem.exec InitSystem.new steps).Enforces thread ↔
      (run InitSystem.exec InitSystem.new steps).Agrees thread := by
  have htracked : (run InitSystem.exec InitSystem.new steps).Tracked :=
    hsteps.invariant InitSystem.tracked_new fun s step h hnested => h.exec hnested
  exact InitSystem.enforces_iff htracked thread

/-! ### A reload with a new dependency -/

/-- The manifest of `b`, which provides nothing. -/
def nothingB : ManifestData := { providing "b" [] with path := "/b" }

/-- `a` is loaded and registers `x`, and then `b` is loaded with the first manifest. -/
def loadsAB (manifest : ManifestData) : List InitStep :=
  [.beginLoad unsignedEnv { providing "a" ["x@1"] with path := "/a" } (.path "/a"),
    .plugin .strict 1 (.register (some ⟨⟨none⟩, ⟨some [120]⟩, ⟨1, 0, 0⟩⟩)
      (some ⟨GuestContractId.new "x" 1, ⟨1, 0, 0⟩, 0, 0, 1, 1, ⟨0, 0⟩⟩) (fun _ => 0) 0),
    .endLoad unsignedEnv ⟨.strict, true⟩ (.ok ()),
    .beginLoad unsignedEnv manifest (.path "/b")]

/-- In its load `b` sees `x`, which its manifest declares. -/
theorem enforces_run_iff_load :
    (run InitSystem.exec InitSystem.new (loadsAB (dependingOnX "b"))).host.hostFindGuestContract 1
        (GuestContractId.new "x" 1) 1 = ⟨0, 0⟩ ∧
      (run InitSystem.exec InitSystem.new (loadsAB (dependingOnX "b"))).Enforces 1 := by
  have hframes : (run InitSystem.exec InitSystem.new (loadsAB (dependingOnX "b"))).frames 1
      = [⟨BundleId.new "b", dependingOnX "b", .load⟩] := by
    decide +kernel
  have hnew : (run InitSystem.exec InitSystem.new
      (loadsAB (dependingOnX "b"))).host.runtime.registry.data.declaredOf (BundleId.new "b")
        = ∅ := by
    decide +kernel
  refine ⟨by decide +kernel, (enforces_run_iff (loadsAB (dependingOnX "b"))
    (by simp [Steps, loadsAB, InitSystem.NestedStep]) 1).mpr ?_⟩
  refine (InitSystem.agrees_of_staged_iff hframes (by decide +kernel)).mpr fun cid _ hcid => ?_
  rw [hnew] at hcid
  exact absurd hcid (Finset.notMem_empty cid)

/-- `b` is loaded, and reloaded with a manifest that declares `x`. -/
def reloadsB : List InitStep :=
  loadsAB nothingB ++ [.endLoad unsignedEnv ⟨.strict, true⟩ (.ok ()),
    .beginReload { strayEnv with manifestFile := fun _ => .ok (dependingOnX "b") } "/b"]

/-- In the reload its code does not see `x`, which is offered. -/
theorem reload_hides_declared : ¬(run InitSystem.exec InitSystem.new reloadsB).Enforces 1 := by
  intro h
  have hframes : (run InitSystem.exec InitSystem.new reloadsB).frames 1 ≠ [] := by
    decide +kernel
  obtain ⟨frame, rest, hcons⟩ := List.exists_cons_of_ne_nil hframes
  have hmanifest : ((run InitSystem.exec InitSystem.new reloadsB).frames 1).map
      InitFrame.manifest = [{ dependingOnX "b" with path := "/b" }] := by
    decide +kernel
  rw [hcons] at hmanifest
  unfold InitSystem.Enforces at h
  rw [hcons] at h
  have hfind := ((h (GuestContractId.new "x" 1)).1 ?_ 1).1
  · revert hfind
    decide +kernel
  · rw [(List.cons.inj hmanifest).1]
    exact ⟨_, List.mem_singleton_self _, rfl⟩

end PolyPlug.Lifecycle
