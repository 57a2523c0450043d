import PolyPlug.Proofs.Lifecycle.Staging

/-!
# `PolyPlug.Proofs.Lifecycle.Nested`: loads inside a load

While the loader of a bundle runs, the guest stages contracts and loads other
bundles. `LoaderRun.nested` is the same run with the nested loads only, from the
runtime in which the outer load never began.

`Inside` relates the two runtimes. They have the same core, and the real one has
one staged bundle and one entry of the init stack more. Every operation of a
load of another bundle returns the same in both and keeps them related
(`Inside.loadManifestWithSource`, `Inside.exec`). A registration of the outer
bundle changes its staged entry and nothing else (`Inside.stage`). So the run of
the loader ends in a runtime related to `LoaderRun.nested` (`Inside.outer`).
-/

set_option autoImplicit false

namespace PolyPlug.Lifecycle

open PolyPlug.Abi
open PolyPlug.Lib
open PolyPlug.Common
open PolyPlug.Registry
open RuntimeStore

/-! ### Readings of a loader's run -/

namespace LoaderRun

/-- No load inside the run, at any depth, is of the bundle. -/
def Avoids (b : BundleId) : LoaderRun → Prop
  | .done _                     => True
  | .register _ _ _ _ rest      => rest.Avoids b
  | .load manifest _ _ inner rest =>
    BundleId.new manifest.name ≠ b ∧ inner.Avoids b ∧ rest.Avoids b

/-- The result of the loader. -/
def result : LoaderRun → Except LoaderError Unit
  | .done result           => result
  | .register _ _ _ _ rest => rest.result
  | .load _ _ _ _ rest     => rest.result

/-- The run with its nested loads only. -/
def nested (env : LoadEnv) : LoaderRun → Runtime → Runtime
  | .done _, rt                               => rt
  | .register _ _ _ _ rest, rt                => rest.nested env rt
  | .load manifest source opts inner rest, rt =>
    rest.nested env (rt.loadBundle env manifest source opts inner).2

end LoaderRun

/-- The arguments of a registration that pass the pointer and name checks, with the
contract name. -/
def checkedArguments (descriptor : Option PluginDescriptor)
    (interface : Option RawGuestContractInterface) (functions : Nat → Nat) :
    Option (PluginDescriptor × RawGuestContractInterface × String) :=
  match descriptor, interface with
  | some desc, some interface =>
    if (validateInterfaceFnPtrs interface functions).isSome then none
    else if (textBytes desc.contractName).isEmpty then none
    else
      (stringViewToOwnedString desc.contractName "PluginDescriptor.contract_name").toOption.map
        fun contractName => (desc, interface, contractName)
  | _, _                      => none

/-- The contract a registration stages, when it is accepted. -/
def stagedContract (descriptor : Option PluginDescriptor)
    (interface : Option RawGuestContractInterface) (functions : Nat → Nat) (ptr : Nat) :
    Option PreparedGuestContract :=
  (checkedArguments descriptor interface functions).bind fun (desc, interface, contractName) =>
    (prepareGuestContract desc interface contractName interface.adapterContext ptr).toOption

/-- The contracts the bundle itself registers, in order. -/
def LoaderRun.contracts : LoaderRun → List PreparedGuestContract
  | .done _                                       => []
  | .register descriptor interface functions ptr rest =>
    (stagedContract descriptor interface functions ptr).toList ++ rest.contracts
  | .load _ _ _ _ rest                            => rest.contracts

/-! ### A registration -/

section
variable (rt : Runtime) (thread : ThreadId) (descriptor : Option PluginDescriptor)
  (interface : Option RawGuestContractInterface) (functions : Nat → Nat) (ptr : Nat)

/-- The runtime after a registration. -/
theorem hostRegisterGuestContract_state :
    (rt.hostRegisterGuestContract thread descriptor interface functions ptr).2
      = match checkedArguments descriptor interface functions with
        | none => rt
        | some (desc, interface, contractName) =>
          if rt.currentInitBundleId thread = 0 then rt
          else
            { rt with registry := (RuntimeStore.stageOrRegister rt.registry thread
                ⟨rt.currentInitBundleId thread⟩ desc interface ptr contractName).2 } := by
  unfold Runtime.hostRegisterGuestContract checkedArguments
  cases descriptor with
  | none => rfl
  | some desc =>
    cases interface with
    | none => rfl
    | some interface =>
      dsimp only
      cases validateInterfaceFnPtrs interface functions with
      | some violation => rfl
      | none =>
        simp only [Option.isSome_none, Bool.false_eq_true, if_false]
        by_cases hid : rt.currentInitBundleId thread = 0
        · -- Outside an init window nothing happens, whatever the arguments.
          simp only [hid, if_true]
          split <;> rfl
        · simp only [hid, if_false]
          by_cases hempty : (textBytes desc.contractName).isEmpty
          · simp only [hempty, if_true]
          · rw [if_neg hempty, if_neg hempty]
            cases stringViewToOwnedString desc.contractName "PluginDescriptor.contract_name" with
            | error e => rfl
            | ok contractName => rfl

end

/-! ### The two runtimes -/

/-- `rt` is `rt'` with the load of `b` in progress: its staged entry `e`, its place
in the init stack, and above it the entries `inner` of nested loads. -/
structure Inside (thread : ThreadId) (b : BundleId) (e : PreparedBundleRegistration)
    (inner : List UInt64) (rt rt' : Runtime) : Prop where
  core : rt.core = rt'.core
  /-- Its entry is above any other one of `b`. -/
  staged : OneMore (·.isFor b) e (rt.registry.staged thread) (rt'.registry.staged thread)
  mine : e.isFor b = true
  elsewhere : ∀ t, t ≠ thread → rt.registry.preparedOn t = rt'.registry.preparedOn t ∧
    rt.initStackOn t = rt'.initStackOn t
  init : ∃ outer, rt.initStackOn thread = outer ++ b.id :: inner ∧
    rt'.initStackOn thread = outer ++ inner
  avoids : b.id ∉ inner

/-- An entry of one bundle is none of another. -/
theorem isFor_of_ne {e : PreparedBundleRegistration} {b c : BundleId} (h : e.isFor b = true)
    (hc : c ≠ b) : e.isFor c = false := by
  simp only [PreparedBundleRegistration.isFor, decide_eq_true_eq, decide_eq_false_iff_not] at h ⊢
  intro he
  apply hc
  cases b
  cases c
  simp_all

namespace Inside

variable {thread : ThreadId} {b c : BundleId} {e : PreparedBundleRegistration}
  {inner : List UInt64} {rt rt' : Runtime}

theorem data_eq (h : Inside thread b e inner rt rt') : rt.registry.data = rt'.registry.data := by
  show rt.core.registry.data = rt'.core.registry.data
  rw [h.core]

/-- The topmost staged bundle of another id is the same. -/
theorem find?_eq (h : Inside thread b e inner rt rt') (hc : c ≠ b) :
    (rt.registry.staged thread).find? (·.isFor c)
      = (rt'.registry.staged thread).find? (·.isFor c) :=
  h.staged.find?_other (isFor_of_ne h.mine hc)

/-- Below a nested load the top of the init stack is the same, and not `b`. -/
theorem current_eq (h : Inside thread b e inner rt rt') (hinner : inner ≠ []) :
    rt.currentInitBundleId thread = rt'.currentInitBundleId thread ∧
      rt'.currentInitBundleId thread ≠ b.id := by
  obtain ⟨outer, hrt, hrt'⟩ := h.init
  obtain ⟨front, last, rfl⟩ := List.eq_nil_or_concat inner |>.resolve_left hinner
  simp only [Runtime.currentInitBundleId, hrt, hrt', List.concat_eq_append,
    ← List.append_assoc, ← List.cons_append, List.getLast?_append, List.getLast?_singleton,
    Option.some_or, Option.getD_some]
  refine ⟨trivial, ?_⟩
  rintro rfl
  exact h.avoids (by simp)

/-- New staged entries on both sides. -/
theorem setStaged (h : Inside thread b e inner rt rt') {e' : PreparedBundleRegistration}
    {l l' : List PreparedBundleRegistration} (hmore : OneMore (·.isFor b) e' l.reverse l'.reverse)
    (hmine : e'.isFor b = true) :
    Inside thread b e' inner (rt.setStaged thread l) (rt'.setStaged thread l') := by
  refine ⟨h.core, ?_, hmine, fun t ht => ?_, h.init, h.avoids⟩
  · simpa only [Runtime.setStaged, staged_setPreparedOn] using hmore
  · simp only [Runtime.setStaged, preparedOn_setPreparedOn_ne _ _ _ ht]
    exact h.elsewhere t ht

/-- An operation on the core returns the same in both. -/
theorem coreOnly (h : Inside thread b e inner rt rt') {α : Type} {op : Runtime → α × Runtime}
    (hop : CoreOnly op) :
    (op rt).1 = (op rt').1 ∧ Inside thread b e inner (op rt).2 (op rt').2 := by
  obtain ⟨hresult, hcore⟩ := hop.congr h.core
  obtain ⟨hprep, hinit⟩ := hop.stacks rt
  obtain ⟨hprep', hinit'⟩ := hop.stacks rt'
  refine ⟨hresult, hcore, ?_, h.mine, ?_, ?_, h.avoids⟩
  · simpa only [RuntimeStore.staged, preparedOn, hprep, hprep'] using h.staged
  · simpa only [preparedOn, Runtime.initStackOn, hprep, hprep', hinit, hinit'] using h.elsewhere
  · simpa only [Runtime.initStackOn, hinit, hinit'] using h.init

theorem push (h : Inside thread b e inner rt rt') (hc : c ≠ b) :
    Inside thread b e (inner ++ [c.id]) (rt.pushInitBundleId thread c.id)
      (rt'.pushInitBundleId thread c.id) := by
  obtain ⟨outer, hrt, hrt'⟩ := h.init
  refine ⟨h.core, h.staged, h.mine, fun t ht => ?_, ⟨outer, ?_, ?_⟩, ?_⟩
  · rw [initStackOn_push_ne _ _ _ ht, initStackOn_push_ne _ _ _ ht]
    exact h.elsewhere t ht
  · simp [hrt]
  · simp [hrt']
  · intro hmem
    rcases List.mem_append.mp hmem with hold | hnew
    · exact h.avoids hold
    · refine hc ?_
      cases b
      cases c
      simp_all

theorem pop (h : Inside thread b e (inner ++ [c.id]) rt rt') :
    Inside thread b e inner (rt.popInitBundleId thread) (rt'.popInitBundleId thread) := by
  obtain ⟨outer, hrt, hrt'⟩ := h.init
  refine ⟨?_, ?_, h.mine, fun t ht => ?_, ⟨outer, ?_, ?_⟩, fun hmem => h.avoids (by simp [hmem])⟩
  · rw [core_pop, core_pop, h.core]
  · simpa only [registry_pop] using h.staged
  · simp only [registry_pop, initStackOn_pop_ne _ _ ht]
    exact h.elsewhere t ht
  · rw [initStackOn_pop, hrt, ← List.cons_append, ← List.append_assoc, List.dropLast_concat]
  · rw [initStackOn_pop, hrt', ← List.append_assoc, List.dropLast_concat]

/-- A registration below a nested load. -/
theorem register (h : Inside thread b e inner rt rt') (hinner : inner ≠ [])
    (descriptor : Option PluginDescriptor) (interface : Option RawGuestContractInterface)
    (functions : Nat → Nat) (ptr : Nat) :
    Inside thread b e inner
      (rt.hostRegisterGuestContract thread descriptor interface functions ptr).2
      (rt'.hostRegisterGuestContract thread descriptor interface functions ptr).2 := by
  obtain ⟨hcurrent, hne⟩ := h.current_eq hinner
  rw [hostRegisterGuestContract_state, hostRegisterGuestContract_state, hcurrent]
  cases checkedArguments descriptor interface functions with
  | none => exact h
  | some args =>
    obtain ⟨desc, interface, contractName⟩ := args
    dsimp only
    split
    · exact h
    · -- The registration is of another bundle, the one on top of the init stack.
      have hc : (⟨rt'.currentInitBundleId thread⟩ : BundleId) ≠ b := by
        rintro rfl
        exact hne rfl
      have hfind := h.find?_eq hc
      simp only [RuntimeStore.stageOrRegister, preparedManifest_eq, Option.isSome_map, hfind]
      split
      · rcases stageGuestContract_cases rt.registry thread ⟨rt'.currentInitBundleId thread⟩ desc
          interface ptr contractName with
          ⟨err, heq, hwhy⟩ | ⟨contract, r, l, hprep, hr, hl, heq⟩
        · rcases stageGuestContract_cases rt'.registry thread ⟨rt'.currentInitBundleId thread⟩
            desc interface ptr contractName with
            ⟨err', heq', -⟩ | ⟨contract, r, l, hprep, hr, hl, heq'⟩
          · rw [heq, heq']
            exact h
          · rcases hwhy with hnone | herr
            · rw [hfind, hr] at hnone
              cases hnone
            · rw [hprep] at herr
              cases herr
        · rcases stageGuestContract_cases rt'.registry thread ⟨rt'.currentInitBundleId thread⟩
            desc interface ptr contractName with
            ⟨err', heq', hnone | herr⟩ | ⟨contract', r', l', hprep', hr', hl', heq'⟩
          · rw [← hfind, hr] at hnone
            cases hnone
          · rw [hprep] at herr
            cases herr
          · rw [hprep] at hprep'
            cases hprep'
            rw [heq, heq']
            refine h.setStaged ?_ h.mine
            rw [hl, hl']
            exact h.staged.modifyFirst_other (isFor_of_ne h.mine hc) fun _ => rfl
      · exact (h.coreOnly (coreOnly_registerGuestContract desc interface ptr contractName _)).2

theorem admitLoad (h : Inside thread b e inner rt rt') {env : LoadEnv} (henv : env.thread = thread)
    {manifest : ManifestData} (hc : BundleId.new manifest.name ≠ b) (source : BundleSource) :
    (rt.admitLoad env manifest source).1 = (rt'.admitLoad env manifest source).1 ∧
      Inside thread b e inner (rt.admitLoad env manifest source).2
        (rt'.admitLoad env manifest source).2 := by
  have hresult : (rt.admitLoad env manifest source).1 = (rt'.admitLoad env manifest source).1 := by
    simp only [Runtime.admitLoad, Runtime.beginPreparedBundleTransaction, getBundleDescriptor,
      h.data_eq]
    repeat' split
    all_goals first | rfl | simp_all
  refine ⟨hresult, ?_⟩
  subst henv
  rcases admitLoad_cases rt env manifest source with ⟨err, heq⟩ | ⟨hid, -, -, -, heq⟩
  · rcases admitLoad_cases rt' env manifest source with ⟨err', heq'⟩ | ⟨-, -, -, -, heq'⟩
    · rw [heq, heq']
      exact h
    · rw [heq, heq'] at hresult
      cases hresult
  · rcases admitLoad_cases rt' env manifest source with ⟨err', heq'⟩ | ⟨-, -, -, -, heq'⟩
    · rw [heq, heq'] at hresult
      cases hresult
    · rw [heq, heq']
      have hnew : (staging manifest source []).isFor (BundleId.new manifest.name) = true := by
        simp [PreparedBundleRegistration.isFor, staging, hid]
      refine h.setStaged ?_ h.mine
      simp only [List.reverse_append, List.reverse_singleton, List.singleton_append]
      exact .there _ (isFor_of_ne hnew hc.symm) h.staged

theorem discard (h : Inside thread b e inner rt rt') (hc : c ≠ b) :
    Inside thread b e inner (rt.discardPreparedBundle thread c)
      (rt'.discardPreparedBundle thread c) := by
  have hfind := h.find?_eq hc
  rcases discardPreparedBundle_cases rt thread c with ⟨hnone, heq⟩ | ⟨r, l, hr, hl, heq⟩
  · rcases discardPreparedBundle_cases rt' thread c with ⟨-, heq'⟩ | ⟨r', l', hr', -, -⟩
    · rw [heq, heq']
      exact h
    · rw [← hfind, hnone] at hr'
      cases hr'
  · rcases discardPreparedBundle_cases rt' thread c with ⟨hnone, -⟩ | ⟨r', l', -, hl', heq'⟩
    · rw [← hfind, hr] at hnone
      cases hnone
    · rw [heq, heq']
      refine h.setStaged ?_ h.mine
      rw [hl, hl']
      exact h.staged.eraseP_other (isFor_of_ne h.mine hc)

theorem commit (h : Inside thread b e inner rt rt') (hc : c ≠ b) (opts : LoadOptions) :
    (rt.commitPreparedBundleTransactionWithHandles thread c opts).1
        = (rt'.commitPreparedBundleTransactionWithHandles thread c opts).1 ∧
      Inside thread b e inner (rt.commitPreparedBundleTransactionWithHandles thread c opts).2
        (rt'.commitPreparedBundleTransactionWithHandles thread c opts).2 := by
  have hfind := h.find?_eq hc
  rcases commit_cases rt thread c opts with ⟨hnone, heq⟩ | ⟨r, l, hr, hl, heq⟩
  · rcases commit_cases rt' thread c opts with ⟨-, heq'⟩ | ⟨r', l', hr', -, -⟩
    · rw [heq, heq']
      exact ⟨rfl, h⟩
    · rw [← hfind, hnone] at hr'
      cases hr'
  · rcases commit_cases rt' thread c opts with ⟨hnone, -⟩ | ⟨r', l', hr', hl', heq'⟩
    · rw [← hfind, hr] at hnone
      cases hnone
    · rw [← hfind, hr] at hr'
      cases hr'
      rw [heq, heq']
      refine (h.setStaged ?_ h.mine).coreOnly (coreOnly_publishPrepared r c opts)
      rw [hl, hl']
      exact h.staged.eraseP_other (isFor_of_ne h.mine hc)

/-- The end of a load of another bundle. -/
theorem finish (h : Inside thread b e inner rt rt') {env : LoadEnv} (henv : env.thread = thread)
    (hc : c ≠ b) (opts : LoadOptions) (loaded : Except LoaderError Unit) :
    (rt.finishLoad env c opts loaded).1 = (rt'.finishLoad env c opts loaded).1 ∧
      Inside thread b e inner (rt.finishLoad env c opts loaded).2
        (rt'.finishLoad env c opts loaded).2 := by
  subst henv
  cases loaded with
  | error err => exact ⟨rfl, h.discard hc⟩
  | ok u =>
    obtain ⟨hresult, hafter⟩ := h.commit hc opts
    simp only [Runtime.finishLoad]
    generalize rt.commitPreparedBundleTransactionWithHandles env.thread c opts = q
      at hresult hafter
    generalize rt'.commitPreparedBundleTransactionWithHandles env.thread c opts = q'
      at hresult hafter
    obtain ⟨committed, rt₁⟩ := q
    obtain ⟨committed', rt₁'⟩ := q'
    obtain rfl : committed = committed' := hresult
    cases committed with
    | error err => exact ⟨rfl, hafter.discard hc⟩
    | ok handles => exact ⟨rfl, hafter⟩

/-- A load of another bundle, whose loader keeps the runtimes related. -/
theorem loadManifestWithSource (h : Inside thread b e inner rt rt') {env : LoadEnv}
    (henv : env.thread = thread) {manifest : ManifestData}
    (hc : BundleId.new manifest.name ≠ b) (source : BundleSource) (opts : LoadOptions)
    {init : Runtime → Except LoaderError Unit × Runtime}
    (hinit : ∀ {rt rt'}, Inside thread b e (inner ++ [(BundleId.new manifest.name).id]) rt rt' →
      (init rt).1 = (init rt').1 ∧
        Inside thread b e (inner ++ [(BundleId.new manifest.name).id]) (init rt).2 (init rt').2) :
    (rt.loadManifestWithSource env manifest source opts
        (Runtime.inInitWindow thread (BundleId.new manifest.name) init)).1
      = (rt'.loadManifestWithSource env manifest source opts
          (Runtime.inInitWindow thread (BundleId.new manifest.name) init)).1 ∧
    Inside thread b e inner
      (rt.loadManifestWithSource env manifest source opts
        (Runtime.inInitWindow thread (BundleId.new manifest.name) init)).2
      (rt'.loadManifestWithSource env manifest source opts
        (Runtime.inInitWindow thread (BundleId.new manifest.name) init)).2 := by
  obtain ⟨hresult, hadmitted⟩ := h.admitLoad henv hc source
  unfold Runtime.loadManifestWithSource
  rcases admitLoad_cases rt env manifest source with ⟨err, heq⟩ | ⟨-, -, -, -, heq⟩
  · rcases admitLoad_cases rt' env manifest source with ⟨err', heq'⟩ | ⟨-, -, -, -, heq'⟩
    · rw [heq, heq'] at hresult
      rw [heq, heq']
      exact ⟨by cases hresult; rfl, h⟩
    · rw [heq, heq'] at hresult
      cases hresult
  · rcases admitLoad_cases rt' env manifest source with ⟨err', heq'⟩ | ⟨-, -, -, -, heq'⟩
    · rw [heq, heq'] at hresult
      cases hresult
    · rw [heq, heq'] at hadmitted
      rw [heq, heq']
      obtain ⟨hloaded, hinside⟩ := hinit (hadmitted.push hc)
      dsimp only [Runtime.inInitWindow]
      rw [hloaded]
      exact hinside.pop.finish henv hc opts _

/-- The steps of a nested loader, at any depth. -/
theorem exec {env : LoadEnv} (henv : env.thread = thread) {body : LoaderRun}
    (hbody : body.Avoids b) {inner : List UInt64} (hinner : inner ≠ []) {rt rt' : Runtime}
    (h : Inside thread b e inner rt rt') :
    (body.exec env rt).1 = (body.exec env rt').1 ∧
      Inside thread b e inner (body.exec env rt).2 (body.exec env rt').2 := by
  induction body generalizing inner rt rt' with
  | done result => exact ⟨rfl, h⟩
  | register descriptor interface functions ptr rest ih =>
    simp only [LoaderRun.exec]
    subst henv
    exact ih hbody hinner (h.register hinner descriptor interface functions ptr)
  | load manifest source opts body rest ihBody ihRest =>
    obtain ⟨hc, hbody, hrest⟩ := hbody
    simp only [LoaderRun.exec]
    rw [henv]
    exact ihRest hrest hinner (h.loadManifestWithSource henv hc source opts
      fun h => ihBody hbody (by simp) h).2

end Inside

/-! ### The outer loader -/

namespace Inside

variable {thread : ThreadId} {b : BundleId} {e : PreparedBundleRegistration} {rt rt' : Runtime}

/-- A registration of the bundle itself. -/
theorem stage (h : Inside thread b e [] rt rt') (hb : b.id ≠ 0)
    (descriptor : Option PluginDescriptor) (interface : Option RawGuestContractInterface)
    (functions : Nat → Nat) (ptr : Nat) :
    Inside thread b
      { e with contracts := e.contracts ++
          (stagedContract descriptor interface functions ptr).toList } []
      (rt.hostRegisterGuestContract thread descriptor interface functions ptr).2 rt' := by
  obtain ⟨outer, hrt, hrt'⟩ := h.init
  have hcurrent : rt.currentInitBundleId thread = b.id := by
    simp [Runtime.currentInitBundleId, hrt]
  have hself : e = { e with contracts := e.contracts ++ [] } := by simp
  rw [hostRegisterGuestContract_state, hcurrent]
  unfold stagedContract
  cases checkedArguments descriptor interface functions with
  | none => exact hself ▸ h
  | some args =>
    obtain ⟨desc, interface, contractName⟩ := args
    have hfind := h.staged.find?_mine h.mine
    simp only [hb, if_false, RuntimeStore.stageOrRegister, preparedManifest_eq,
      Option.isSome_map, hfind, Option.isSome_some, if_true, Option.bind_some]
    rcases stageGuestContract_cases rt.registry thread b desc interface ptr contractName with
      ⟨err, heq, hnone | herr⟩ | ⟨contract, r, l, hprep, -, hl, heq⟩
    · rw [hfind] at hnone
      cases hnone
    · rw [heq, herr]
      exact hself ▸ h
    · rw [heq, hprep]
      have hmore := h.staged.modifyFirst_mine h.mine (·.stage contract)
      refine ⟨h.core, ?_, h.mine, fun t ht => ?_, h.init, h.avoids⟩
      · show OneMore _ _ ((rt.registry.setPreparedOn thread l).staged thread) _
        rw [staged_setPreparedOn, hl]
        exact hmore
      · rw [← (h.elsewhere t ht).1, ← (h.elsewhere t ht).2]
        exact ⟨preparedOn_setPreparedOn_ne _ _ _ ht, rfl⟩

/-- The run of the loader is the run of its nested loads, with the contracts staged
in order. -/
theorem outer {env : LoadEnv} (henv : env.thread = thread) (hb : b.id ≠ 0) {body : LoaderRun}
    (hbody : body.Avoids b) {e : PreparedBundleRegistration} {rt rt' : Runtime}
    (h : Inside thread b e [] rt rt') :
    (body.exec env rt).1 = body.result ∧
      Inside thread b { e with contracts := e.contracts ++ body.contracts } []
        (body.exec env rt).2 (body.nested env rt') := by
  induction body generalizing e rt rt' with
  | done result =>
    refine ⟨rfl, ?_⟩
    rw [LoaderRun.contracts, List.append_nil]
    exact h
  | register descriptor interface functions ptr rest ih =>
    have hstaged := ih hbody (h.stage hb descriptor interface functions ptr)
    simp only [LoaderRun.exec, LoaderRun.result, LoaderRun.contracts, LoaderRun.nested, henv]
    simpa only [List.append_assoc] using hstaged
  | load manifest source opts inner rest _ ihRest =>
    obtain ⟨hc, hinner, hrest⟩ := hbody
    simp only [LoaderRun.exec, LoaderRun.result, LoaderRun.contracts, LoaderRun.nested,
      Runtime.loadBundle]
    subst henv
    exact ihRest hrest (h.loadManifestWithSource rfl hc source opts
      fun h => Inside.exec rfl hinner (by simp) h).2

end Inside

end PolyPlug.Lifecycle
