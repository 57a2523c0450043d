import PolyPlug.Lib.Run
import PolyPlug.Lib.Total
import PolyPlug.Lifecycle.InternalPlugin
import PolyPlug.Proofs.Lifecycle.Nested
import PolyPlug.Proofs.Registry.Commit

/-!
# `PolyPlug.Proofs.Lifecycle.InitStack`: nesting of internal-plugin transactions

A thread keeps two stacks, the staged bundles and the init ids. A commit or an abort
removes a staged bundle by id, wherever it stands, and pops the innermost init id. The
two stay in step exactly while each call that pops names the innermost open
transaction (`Innermost`). A commit pops even when it names no open transaction.

`PluginRun` records the open transactions. `Nests` is what a call should do, and
`internalPlugin_run_iff` says that it does so along a run exactly if every call of the
run meets `Innermost`.
-/

set_option autoImplicit false

namespace PolyPlug.Lifecycle

open PolyPlug.Abi
open PolyPlug.Lib
open PolyPlug.Common
open PolyPlug.Registry
open RuntimeStore

/-! ### The counter -/

/-- The total length of the init stacks. -/
def Runtime.initTotal (rt : Runtime) : Nat :=
  ∑ t ∈ rt.initBundleStack.keys, (rt.initStackOn t).length

theorem initStackOn_of_notMem (rt : Runtime) {t : ThreadId} (h : t ∉ rt.initBundleStack.keys) :
    rt.initStackOn t = [] := by
  rw [Finmap.mem_keys, ← Finmap.lookup_eq_none] at h
  simp [Runtime.initStackOn, h]

/-- Two runtimes with the same stacks on the other threads. -/
theorem initTotal_add {rt rt' : Runtime} {thread : ThreadId}
    (h : ∀ t, t ≠ thread → rt'.initStackOn t = rt.initStackOn t) :
    rt'.initTotal + (rt.initStackOn thread).length
      = rt.initTotal + (rt'.initStackOn thread).length :=
  total_add (g := fun _ stack => (stack.getD []).length) (fun _ => rfl) fun t ht =>
    congrArg List.length (h t ht)

/-! ### What each call does to the two stacks -/

section
variable (rt : Runtime) (thread : ThreadId) (b : BundleId)

/-- A commit takes the topmost staged bundle of its id and leaves the init stacks. When
it is refused, nothing else changes. -/
theorem commit_stacks (opts : LoadOptions) :
    (rt.commitPreparedBundleTransactionWithHandles thread b opts).2.registry.staged thread
        = (rt.registry.staged thread).eraseP (·.isFor b) ∧
      (rt.commitPreparedBundleTransactionWithHandles thread b opts).2.initBundleStack
        = rt.initBundleStack ∧
      ((∃ e, (rt.commitPreparedBundleTransactionWithHandles thread b opts).1 = .error e) →
        (rt.commitPreparedBundleTransactionWithHandles thread b opts).2.core = rt.core) := by
  rcases commit_cases rt thread b opts with ⟨hnone, heq⟩ | ⟨r, l, hr, hl, heq⟩
  · rw [heq]
    exact ⟨(List.eraseP_of_forall_not (List.find?_eq_none.mp hnone)).symm, rfl, fun _ => rfl⟩
  · rw [heq]
    obtain ⟨hstaged, hinit⟩ :=
      (coreOnly_publishPrepared r b opts).stacks (rt.setStaged thread l)
    refine ⟨?_, hinit, fun ⟨e, herr⟩ => ?_⟩
    · show ((Runtime.publishPrepared _ _ _ _).2.registry.preparedOn thread).reverse = _
      rw [preparedOn, hstaged, ← hl]
      exact staged_setPreparedOn rt.registry thread l
    · rcases publishPrepared_ends (rt.setStaged thread l) b r opts with
        ⟨e', hpub⟩ | ⟨version, handles, registry, -, hpub⟩
      · rw [hpub]
        rfl
      · rw [hpub] at herr
        cases herr

/-- An abort takes the topmost staged bundle of its id, and says whether there was one. -/
theorem abort_stacks :
    (rt.abortInternalPlugin thread b).1
        = ((rt.registry.staged thread).find? (·.isFor b)).isSome ∧
      (rt.abortInternalPlugin thread b).2.registry.staged thread
        = (rt.registry.staged thread).eraseP (·.isFor b) ∧
      (rt.abortInternalPlugin thread b).2.initBundleStack = rt.initBundleStack ∧
      (rt.abortInternalPlugin thread b).2.registry.data = rt.registry.data ∧
      (rt.abortInternalPlugin thread b).2.registry.published = rt.registry.published := by
  unfold Runtime.abortInternalPlugin discardPreparedBundle
  rcases takePreparedBundle_cases rt.registry thread b with ⟨hnone, heq⟩ | ⟨r, l, hr, hl, heq⟩
  · rw [heq]
    refine ⟨by rw [hnone]; rfl, ?_, rfl, rfl, rfl⟩
    exact (List.eraseP_of_forall_not (List.find?_eq_none.mp hnone)).symm
  · rw [heq]
    refine ⟨by rw [hr]; rfl, ?_, rfl, rfl, rfl⟩
    show (rt.registry.setPreparedOn thread l).staged thread = _
    rw [staged_setPreparedOn, hl]

/-- The runtime with a new staged bundle and its marker. -/
def Runtime.begunInternal (manifest : ManifestData) (language : SupportedLanguage) : Runtime :=
  { rt.setStaged thread (rt.registry.preparedOn thread
      ++ [⟨manifest, language, .internal, [], none⟩]) with
    internalPluginLifecycle :=
      insert (BundleId.new manifest.name) rt.internalPluginLifecycle }

/-- A transaction that begins stages a bundle of its id, which is not zero. -/
theorem begin_cases (manifest : ManifestData) (language : SupportedLanguage) :
    (∃ e, rt.beginInternalPlugin thread manifest language = (.error e, rt)) ∨
    manifest.id = (BundleId.new manifest.name).id ∧ manifest.id ≠ 0 ∧
      rt.registry.getBundleDescriptor (BundleId.new manifest.name) = none ∧
      rt.beginInternalPlugin thread manifest language
        = (.ok (BundleId.new manifest.name), rt.begunInternal thread manifest language) := by
  unfold Runtime.beginInternalPlugin Runtime.beginPreparedBundleTransaction
  cases hmeta : manifest.validateMetadata with
  | error e => exact Or.inl ⟨_, rfl⟩
  | ok u =>
    dsimp only
    by_cases hrecord : (rt.registry.getBundleDescriptor (BundleId.new manifest.name)).isSome
    · rw [if_pos hrecord]
      exact Or.inl ⟨_, rfl⟩
    · rw [if_neg hrecord]
      exact Or.inr ⟨ManifestData.id_of_validateMetadata hmeta, ManifestData.id_ne_zero hmeta,
        Option.not_isSome_iff_eq_none.mp hrecord, rfl⟩

/-- Outside every init window a registration is refused. -/
theorem register_outside (hcurrent : rt.currentInitBundleId thread = 0)
    (descriptor : Option PluginDescriptor) (interface : Option RawGuestContractInterface)
    (functions : Nat → Nat) (ptr : Nat) :
    (rt.hostRegisterGuestContract thread descriptor interface functions ptr).1.code ≠ .ok ∧
      (rt.hostRegisterGuestContract thread descriptor interface functions ptr).2 = rt := by
  constructor
  · unfold Runtime.hostRegisterGuestContract
    cases descriptor with
    | none => simp
    | some desc =>
      cases interface with
      | none => simp
      | some interface =>
        dsimp only
        cases validateInterfaceFnPtrs interface functions with
        | some violation => simp
        | none => simp [hcurrent]
  · rw [hostRegisterGuestContract_state]
    split
    · rfl
    · rw [if_pos hcurrent]

theorem code_ofRegistration (result : Except RegistryError Unit) :
    (AbiError.ofRegistration result).code = .ok ↔ result = .ok () := by
  cases result with
  | ok u => exact ⟨fun _ => rfl, fun _ => rfl⟩
  | error e => cases e <;> simp [AbiError.ofRegistration]

/-- Inside a window a registration reports what the registry returns. -/
theorem register_code (hcurrent : rt.currentInitBundleId thread ≠ 0)
    (descriptor : Option PluginDescriptor) (interface : Option RawGuestContractInterface)
    (functions : Nat → Nat) (ptr : Nat) :
    (rt.hostRegisterGuestContract thread descriptor interface functions ptr).1.code = .ok ↔
      ∃ desc interface' contractName,
        checkedArguments descriptor interface functions = some (desc, interface', contractName) ∧
        (RuntimeStore.stageOrRegister rt.registry thread ⟨rt.currentInitBundleId thread⟩ desc
          interface' ptr contractName).1 = .ok () := by
  unfold Runtime.hostRegisterGuestContract checkedArguments
  cases descriptor with
  | none => simp
  | some desc =>
    cases interface with
    | none => simp
    | some interface =>
      dsimp only
      cases validateInterfaceFnPtrs interface functions with
      | some violation => simp
      | none =>
        simp only [Option.isSome_none, Bool.false_eq_true, if_false, if_neg hcurrent]
        by_cases hempty : (textBytes desc.contractName).isEmpty
        · simp [hempty]
        · rw [if_neg hempty, if_neg hempty]
          cases stringViewToOwnedString desc.contractName "PluginDescriptor.contract_name" with
          | error e => simp [Except.toOption]
          | ok contractName => simp [Except.toOption, code_ofRegistration]

/-- Inside the window of the topmost staged bundle a registration is staged there. -/
theorem register_inside (hb : b.id ≠ 0) (hcurrent : rt.currentInitBundleId thread = b.id)
    {r : PreparedBundleRegistration} {l : List PreparedBundleRegistration}
    (hstaged : rt.registry.staged thread = r :: l) (hr : r.isFor b = true)
    (descriptor : Option PluginDescriptor) (interface : Option RawGuestContractInterface)
    (functions : Nat → Nat) (ptr : Nat) :
    ((rt.hostRegisterGuestContract thread descriptor interface functions ptr).1.code = .ok ↔
      (stagedContract descriptor interface functions ptr).isSome) ∧
    (rt.hostRegisterGuestContract thread descriptor interface functions ptr).2.registry.staged
        thread
      = { r with contracts := r.contracts ++
          (stagedContract descriptor interface functions ptr).toList } :: l ∧
    (rt.hostRegisterGuestContract thread descriptor interface functions ptr).2.registry.data
      = rt.registry.data ∧
    (rt.hostRegisterGuestContract thread descriptor interface functions ptr).2.registry.published
      = rt.registry.published := by
  have hself : { r with contracts := r.contracts ++ [] } = r := by simp
  rw [register_code rt thread (hcurrent ▸ hb), hostRegisterGuestContract_state, hcurrent]
  unfold stagedContract
  cases checkedArguments descriptor interface functions with
  | none =>
    dsimp only [Option.bind_none, Option.toList_none]
    rw [hself]
    exact ⟨by simp, hstaged, rfl, rfl⟩
  | some args =>
    obtain ⟨desc, interface, contractName⟩ := args
    simp only [hb, if_false, RuntimeStore.stageOrRegister, preparedManifest_eq, hstaged,
      List.find?_cons_of_pos hr, Option.map_some, Option.isSome_some, if_true, Option.bind_some]
    rcases stageGuestContract_cases rt.registry thread b desc interface ptr contractName with
      ⟨err, heq, hnone | herr⟩ | ⟨contract, r', l', hprep, -, hl', heq⟩
    · rw [hstaged, List.find?_cons_of_pos hr] at hnone
      cases hnone
    · rw [show (⟨b.id⟩ : BundleId) = b from rfl, heq, herr]
      dsimp only [Except.toOption, Option.toList_none]
      rw [hself]
      refine ⟨?_, hstaged, rfl, rfl⟩
      constructor
      · rintro ⟨_, _, _, hargs, hok⟩
        cases hargs
        rw [heq] at hok
        cases hok
      · intro hsome
        cases hsome
    · rw [show (⟨b.id⟩ : BundleId) = b from rfl, heq, hprep]
      refine ⟨⟨fun _ => rfl, fun _ => ⟨_, _, _, rfl, by rw [heq]⟩⟩, ?_, rfl, rfl⟩
      show (rt.registry.setPreparedOn thread l').staged thread = _
      rw [staged_setPreparedOn, hl', hstaged, modifyFirst, if_pos hr]
      rfl

/-- An attached resident changes one staged bundle, and not its id. -/
theorem attach_stacks (resident : InternalPluginResident) :
    ((rt.attachInternalPluginResident thread b resident).2.registry.staged thread).map
        (fun e => e.manifest.id)
      = (rt.registry.staged thread).map (fun e => e.manifest.id) ∧
    (rt.attachInternalPluginResident thread b resident).2.initBundleStack = rt.initBundleStack ∧
    (rt.attachInternalPluginResident thread b resident).2.registry.data = rt.registry.data ∧
    (rt.attachInternalPluginResident thread b resident).2.registry.published
      = rt.registry.published := by
  unfold Runtime.attachInternalPluginResident attachPreparedBundleResident
  split
  · exact ⟨rfl, rfl, rfl, rfl⟩
  · cases hpos : rt.registry.preparedPosition thread b with
    | none => exact ⟨rfl, rfl, rfl, rfl⟩
    | some position =>
      by_cases hheld : ((rt.registry.preparedOn thread)[position]?.bind
          PreparedBundleRegistration.resident).isSome
      · simp only [hheld, if_true]
        exact ⟨trivial, trivial, trivial, trivial⟩
      · simp only [hheld]
        refine ⟨?_, rfl, rfl, rfl⟩
        show ((rt.registry.setPreparedOn thread _).staged thread).map _ = _
        obtain ⟨-, -, hmodify⟩ := rposition_some hpos
        rw [staged_setPreparedOn, hmodify]
        apply map_modifyFirst
        intro e
        rfl

end

/-! ### The open transactions -/

/-- The host and the transactions of one thread that are open, innermost first. A
commit and an abort end the innermost one of their id, whatever they return. -/
structure PluginRun where
  host : InitStacks
  opened : List BundleId

section
variable (compatibility : Compatibility) (thread : ThreadId)

/-- One call. -/
def PluginRun.exec (r : PluginRun) (call : PluginCall) : PluginRun :=
  ⟨r.host.exec compatibility thread call,
    match call with
    | .begin manifest language =>
      match (r.host.beginInternalPlugin thread manifest language).1 with
      | .ok b    => b :: r.opened
      | .error _ => r.opened
    | .commit b | .commitIntoHandles b _ | .abort b => r.opened.erase b
    | .attach .. | .register .. => r.opened⟩

/-- The two stacks of the thread list the open transactions, and the counter counts
the init stacks. -/
structure PluginRun.Nested (r : PluginRun) : Prop where
  init : r.host.runtime.initStackOn thread = (r.opened.map BundleId.id).reverse
  staged : (r.host.runtime.registry.staged thread).map (fun e => e.manifest.id)
    = r.opened.map BundleId.id
  counter : r.host.activeInitCount = r.host.runtime.initTotal
  nonzero : ∀ b ∈ r.opened, b.id ≠ 0

/-- What a registration should do: stage into the innermost open transaction, or be
refused. -/
def PluginRun.StagesInnermost (r : PluginRun) (descriptor : Option PluginDescriptor)
    (interface : Option RawGuestContractInterface) (functions : Nat → Nat) (ptr : Nat) : Prop :=
  let after := r.host.hostRegisterGuestContract thread descriptor interface functions ptr
  match r.opened with
  | []     => after.1.code ≠ .ok ∧ after.2 = r.host
  | b :: _ =>
    (after.1.code = .ok ↔ (stagedContract descriptor interface functions ptr).isSome) ∧
    ∃ e l, e.isFor b = true ∧ r.host.runtime.registry.staged thread = e :: l ∧
      after.2.runtime.registry.staged thread
        = { e with contracts := e.contracts ++
            (stagedContract descriptor interface functions ptr).toList } :: l

/-- The call is a commit that returns `Ok`. -/
def PluginRun.CommitsOk (r : PluginRun) : PluginCall → Prop
  | .commit b                       =>
    ∃ id, (r.host.commitInternalPlugin compatibility thread b).1 = .ok id
  | .commitIntoHandles b outHandles =>
    ∃ n, (r.host.commitInternalPluginIntoHandles compatibility thread b outHandles).1 = .ok n
  | _                               => False

/-- What a call should do. -/
structure PluginRun.Nests (r : PluginRun) (call : PluginCall) : Prop where
  nested : PluginRun.Nested thread (r.exec compatibility thread call)
  stages : ∀ descriptor interface functions ptr,
    call = .register descriptor interface functions ptr →
      r.StagesInnermost thread descriptor interface functions ptr
  visible : ¬ r.CommitsOk compatibility thread call →
    (r.exec compatibility thread call).host.runtime.registry.data
        = r.host.runtime.registry.data ∧
      (r.exec compatibility thread call).host.runtime.registry.published
        = r.host.runtime.registry.published

end

/-- A call that ends a transaction names the innermost one. A commit of a bundle that
is not open counts as ending the innermost one, since it pops. -/
def PluginRun.Innermost (r : PluginRun) : PluginCall → Prop
  | .commit b                                => r.opened = [] ∨ r.opened.head? = some b
  | .commitIntoHandles b _ | .abort b        => b ∉ r.opened ∨ r.opened.head? = some b
  | .begin .. | .attach .. | .register ..    => True

/-! ### Pushing and popping -/

section
variable (h : InitStacks) (thread : ThreadId)

theorem initTotal_congr {rt rt' : Runtime} (heq : rt'.initBundleStack = rt.initBundleStack) :
    rt'.initTotal = rt.initTotal := by
  simp only [Runtime.initTotal, Runtime.initStackOn, heq]

/-- A push keeps the counter right. -/
theorem counter_push (id : UInt64) (hcount : h.activeInitCount = h.runtime.initTotal) :
    (h.pushInitBundleId thread id).activeInitCount
      = (h.pushInitBundleId thread id).runtime.initTotal := by
  have htotal : (h.runtime.pushInitBundleId thread id).initTotal
        + (h.runtime.initStackOn thread).length
      = h.runtime.initTotal
        + ((h.runtime.pushInitBundleId thread id).initStackOn thread).length :=
    initTotal_add fun t ht => initStackOn_push_ne h.runtime thread id ht
  rw [initStackOn_push, List.length_append, List.length_singleton] at htotal
  show h.activeInitCount + 1 = (h.runtime.pushInitBundleId thread id).initTotal
  omega

/-- A pop keeps it right, also on an empty stack. -/
theorem counter_pop (hcount : h.activeInitCount = h.runtime.initTotal) :
    (h.popInitBundleId thread).activeInitCount
      = (h.popInitBundleId thread).runtime.initTotal := by
  have htotal : (h.runtime.popInitBundleId thread).initTotal
        + (h.runtime.initStackOn thread).length
      = h.runtime.initTotal
        + ((h.runtime.popInitBundleId thread).initStackOn thread).length :=
    initTotal_add fun t ht => initStackOn_pop_ne h.runtime thread ht
  rw [initStackOn_pop, List.length_dropLast] at htotal
  show (if (h.runtime.initStackOn thread).isEmpty then h.activeInitCount
    else h.activeInitCount - 1) = (h.runtime.popInitBundleId thread).initTotal
  cases hstack : h.runtime.initStackOn thread with
  | nil =>
    rw [hstack] at htotal
    rw [List.isEmpty_nil, if_pos rfl]
    simpa [hcount] using htotal.symm
  | cons id l =>
    rw [hstack, List.length_cons] at htotal
    rw [List.isEmpty_cons, if_neg Bool.false_ne_true]
    omega

/-- While the counter is right, a thread sees its own stack. -/
theorem currentInitBundleId_visible (hcount : h.activeInitCount = h.runtime.initTotal) :
    h.visible.currentInitBundleId thread = h.runtime.currentInitBundleId thread := by
  unfold InitStacks.visible
  split
  · rename_i hzero
    -- All stacks are empty then.
    have hempty : h.runtime.initStackOn thread = [] := by
      by_cases hmem : thread ∈ h.runtime.initBundleStack.keys
      · have hsum := Finset.sum_eq_zero_iff.mp (hcount.symm.trans hzero) thread hmem
        exact List.length_eq_zero_iff.mp hsum
      · exact initStackOn_of_notMem h.runtime hmem
    show (((∅ : Finmap fun _ : ThreadId => List UInt64).lookup thread).getD []).getLast?.getD 0
      = (h.runtime.initStackOn thread).getLast?.getD 0
    rw [hempty, Finmap.lookup_empty]
    rfl
  · rfl

end

/-! ### One call -/

namespace PluginRun

section
variable {compatibility : Compatibility} {thread : ThreadId} {r : PluginRun}

theorem Nested.mem_opened (h : r.Nested thread) (b : BundleId) :
    ((r.host.runtime.registry.staged thread).find? (·.isFor b)).isSome ↔ b ∈ r.opened := by
  rw [List.find?_isSome]
  constructor
  · rintro ⟨e, he, hfor⟩
    have hmem : b.id ∈ r.opened.map BundleId.id := by
      rw [← h.staged, ← of_decide_eq_true hfor]
      exact List.mem_map_of_mem he
    obtain ⟨c, hc, hid⟩ := List.mem_map.mp hmem
    rwa [← bundleId_injective hid]
  · intro hb
    have hmem : b.id ∈ (r.host.runtime.registry.staged thread).map (fun e => e.manifest.id) := by
      rw [h.staged]
      exact List.mem_map_of_mem hb
    obtain ⟨e, he, hid⟩ := List.mem_map.mp hmem
    exact ⟨e, he, decide_eq_true hid⟩

/-- The staged bundles after one of an id is removed. -/
theorem Nested.eraseP (h : r.Nested thread) (b : BundleId) :
    ((r.host.runtime.registry.staged thread).eraseP (·.isFor b)).map (fun e => e.manifest.id)
      = (r.opened.erase b).map BundleId.id := by
  have hfor : ∀ e : PreparedBundleRegistration, e.isFor b = true ↔ e.manifest.id = b.id :=
    fun e => decide_eq_true_iff
  rw [map_eraseP hfor, h.staged, List.map_erase bundleId_injective]

/-- A transaction ends with a pop. -/
theorem nested_popped (h : r.Nested thread) (b : BundleId) {rt : Runtime}
    (hstaged : rt.registry.staged thread
      = (r.host.runtime.registry.staged thread).eraseP (·.isFor b))
    (hinit : rt.initBundleStack = r.host.runtime.initBundleStack) :
    Nested thread ⟨{ r.host with runtime := rt }.popInitBundleId thread, r.opened.erase b⟩ ↔
      r.opened = [] ∨ r.opened.head? = some b := by
  have hstack : rt.initStackOn thread = (r.opened.map BundleId.id).reverse := by
    rw [← h.init, Runtime.initStackOn, hinit, Runtime.initStackOn]
  rw [← tail_eq_erase_iff]
  constructor
  · intro hafter
    have hpop := hafter.init
    rw [show (InitStacks.popInitBundleId ⟨rt, r.host.activeInitCount⟩ thread).runtime
      = rt.popInitBundleId thread from rfl, initStackOn_pop, hstack, List.dropLast_reverse,
      List.reverse_inj, ← List.map_tail] at hpop
    exact List.map_injective_iff.mpr bundleId_injective hpop
  · intro htail
    refine ⟨?_, ?_, ?_, fun c hc => h.nonzero c (List.mem_of_mem_erase hc)⟩
    · show (rt.popInitBundleId thread).initStackOn thread = _
      rw [initStackOn_pop, hstack, List.dropLast_reverse, ← List.map_tail, htail]
    · show ((rt.popInitBundleId thread).registry.staged thread).map _ = _
      rw [registry_pop, hstaged, h.eraseP]
    · exact counter_pop ⟨rt, r.host.activeInitCount⟩ thread
        (h.counter.trans (initTotal_congr hinit).symm)

/-- Nothing but the staged bundles' contents has changed. -/
theorem nested_kept (h : r.Nested thread) {rt : Runtime}
    (hstaged : (rt.registry.staged thread).map (fun e => e.manifest.id)
      = (r.host.runtime.registry.staged thread).map (fun e => e.manifest.id))
    (hinit : rt.initBundleStack = r.host.runtime.initBundleStack) :
    Nested thread ⟨{ r.host with runtime := rt }, r.opened⟩ :=
  ⟨by rw [← h.init, Runtime.initStackOn, hinit, Runtime.initStackOn], hstaged.trans h.staged,
    h.counter.trans (initTotal_congr hinit).symm, h.nonzero⟩

theorem nests_begin (h : r.Nested thread) (manifest : ManifestData)
    (language : SupportedLanguage) :
    r.Nests compatibility thread (.begin manifest language) := by
  rcases begin_cases r.host.runtime thread manifest language with
    ⟨e, heq⟩ | ⟨hid, hzero, -, heq⟩
  · have hexec : r.exec compatibility thread (.begin manifest language) = r := by
      simp only [exec, InitStacks.exec, InitStacks.beginInternalPlugin, heq]
    exact ⟨hexec.symm ▸ h, nofun,
      fun _ => hexec.symm ▸ ⟨rfl, rfl⟩⟩
  · have hexec : r.exec compatibility thread (.begin manifest language)
        = ⟨InitStacks.pushInitBundleId ⟨r.host.runtime.begunInternal thread manifest language,
            r.host.activeInitCount⟩ thread (BundleId.new manifest.name).id,
          BundleId.new manifest.name :: r.opened⟩ := by
      simp only [exec, InitStacks.exec, InitStacks.beginInternalPlugin, heq]
    refine ⟨?_, nofun, fun _ => ?_⟩
    · rw [hexec]
      refine ⟨?_, ?_, ?_, ?_⟩
      · show (Runtime.pushInitBundleId _ thread _).initStackOn thread = _
        rw [initStackOn_push, List.map_cons, List.reverse_cons, ← h.init]
        rfl
      · show ((r.host.runtime.registry.setPreparedOn thread _).staged thread).map _ = _
        rw [staged_setPreparedOn, List.reverse_append, List.reverse_singleton,
          List.singleton_append, List.map_cons, List.map_cons]
        exact congrArg₂ List.cons hid h.staged
      · exact counter_push ⟨_, r.host.activeInitCount⟩ thread _ h.counter
      · intro c hc
        rcases List.mem_cons.mp hc with rfl | hc
        · exact hid ▸ hzero
        · exact h.nonzero c hc
    · rw [hexec]
      exact ⟨rfl, rfl⟩

theorem nests_attach (h : r.Nested thread) (b : BundleId) (resident : InternalPluginResident) :
    r.Nests compatibility thread (.attach b resident) := by
  obtain ⟨hstaged, hinit, hdata, hpublished⟩ := attach_stacks r.host.runtime thread b resident
  exact ⟨nested_kept h hstaged hinit, nofun,
    fun _ => ⟨hdata, hpublished⟩⟩

theorem nests_register (h : r.Nested thread) (descriptor : Option PluginDescriptor)
    (interface : Option RawGuestContractInterface) (functions : Nat → Nat) (ptr : Nat) :
    r.Nests compatibility thread (.register descriptor interface functions ptr) := by
  have hregistry : r.host.visible.registry = r.host.runtime.registry := by
    unfold InitStacks.visible
    split <;> rfl
  have hcurrent := currentInitBundleId_visible r.host thread h.counter
  rw [show r.host.runtime.currentInitBundleId thread
    = (r.host.runtime.initStackOn thread).getLast?.getD 0 from rfl, h.init,
    List.getLast?_reverse] at hcurrent
  cases hopened : r.opened with
  | nil =>
    rw [hopened] at hcurrent
    obtain ⟨hcode, hstate⟩ := register_outside r.host.visible thread hcurrent descriptor interface
      functions ptr
    have hhost : (r.host.hostRegisterGuestContract thread descriptor interface functions ptr).2
        = r.host := by
      unfold InitStacks.hostRegisterGuestContract
      dsimp only
      rw [hstate, hregistry]
    have hexec : r.exec compatibility thread (.register descriptor interface functions ptr) = r :=
      show (⟨(r.host.hostRegisterGuestContract thread descriptor interface functions ptr).2,
        r.opened⟩ : PluginRun) = r by rw [hhost]
    refine ⟨hexec.symm ▸ h, ?_, fun _ => hexec.symm ▸ ⟨rfl, rfl⟩⟩
    rintro _ _ _ _ ⟨⟩
    unfold StagesInnermost
    rw [hopened]
    exact ⟨hcode, hhost⟩
  | cons b rest =>
    rw [hopened] at hcurrent
    have hids := h.staged
    rw [hopened, List.map_cons, List.map_eq_cons_iff] at hids
    obtain ⟨e, l, hl, hid, htail⟩ := hids
    have hfor : e.isFor b = true := decide_eq_true hid
    obtain ⟨hcode, hstaged, hdata, hpublished⟩ := register_inside r.host.visible thread b
      (h.nonzero b (by rw [hopened]; exact List.mem_cons_self)) hcurrent (hregistry ▸ hl) hfor
      descriptor interface functions ptr
    rw [hregistry] at hdata hpublished
    refine ⟨nested_kept h ?_ rfl, ?_, fun _ => ⟨hdata, hpublished⟩⟩
    · show (List.map _ (RuntimeStore.staged _ thread)) = _
      rw [hstaged, hl, List.map_cons, List.map_cons]
    · rintro _ _ _ _ ⟨⟩
      unfold StagesInnermost
      rw [hopened]
      exact ⟨hcode, e, l, hfor, hl, hstaged⟩

/-- A commit through either entry point ends with a pop. -/
theorem commit_popped (compatibility : Compatibility) (h : r.Nested thread) (b : BundleId) :
    (Nested thread ⟨(r.host.commitInternalPluginWithHandles compatibility thread b).2,
        r.opened.erase b⟩ ↔ r.opened = [] ∨ r.opened.head? = some b) ∧
      ((∃ e, (r.host.commitInternalPluginWithHandles compatibility thread b).1 = .error e) →
        (r.host.commitInternalPluginWithHandles compatibility thread b).2.runtime.registry.data
            = r.host.runtime.registry.data ∧
        (r.host.commitInternalPluginWithHandles compatibility thread b).2.runtime.registry.published
            = r.host.runtime.registry.published) := by
  obtain ⟨hstaged, hinit, hcore⟩ := commit_stacks r.host.runtime thread b ⟨compatibility, false⟩
  unfold InitStacks.commitInternalPluginWithHandles Runtime.commitInternalPluginWithHandles
  cases hcommit : r.host.runtime.commitPreparedBundleTransactionWithHandles thread b
      ⟨compatibility, false⟩ with
  | mk result rt =>
    rw [hcommit] at hstaged hinit hcore
    cases result with
    | ok handles =>
      refine ⟨nested_popped h b hstaged hinit, ?_⟩
      rintro ⟨e, herr⟩
      cases herr
    | error e =>
      have hdata : rt.registry.data = r.host.runtime.registry.data :=
        congrArg (fun rt => rt.registry.data) (hcore ⟨e, rfl⟩)
      have hpublished : rt.registry.published = r.host.runtime.registry.published :=
        congrArg (fun rt => rt.registry.published) (hcore ⟨e, rfl⟩)
      refine ⟨nested_popped h b hstaged hinit, fun _ => ?_⟩
      show (Runtime.popInitBundleId _ thread).registry.data = _ ∧
        (Runtime.popInitBundleId _ thread).registry.published = _
      rw [registry_pop]
      exact ⟨hdata, hpublished⟩

theorem nests_commit_iff (h : r.Nested thread) (b : BundleId) :
    r.Nests compatibility thread (.commit b) ↔ r.opened = [] ∨ r.opened.head? = some b := by
  obtain ⟨hnested, hrefused⟩ := commit_popped compatibility h b
  constructor
  · intro hnests
    exact hnested.mp hnests.nested
  · intro hinner
    refine ⟨hnested.mpr hinner, nofun, fun hnot => hrefused ?_⟩
    cases hresult : (r.host.commitInternalPluginWithHandles compatibility thread b).1 with
    | error e => exact ⟨e, rfl⟩
    | ok handles =>
      refine absurd (show ∃ id,
        (Except.map _ _ : Except RuntimeError BundleId) = .ok id from ?_) hnot
      rw [hresult]
      exact ⟨b, rfl⟩

/-- An abort ends its transaction with a pop, and does nothing without one. -/
theorem abort_popped (h : r.Nested thread) (b : BundleId) :
    (Nested thread ⟨r.host.abortInternalPlugin thread b, r.opened.erase b⟩ ↔
      b ∉ r.opened ∨ r.opened.head? = some b) ∧
    (r.host.abortInternalPlugin thread b).runtime.registry.data
        = r.host.runtime.registry.data ∧
      (r.host.abortInternalPlugin thread b).runtime.registry.published
        = r.host.runtime.registry.published := by
  obtain ⟨hpops, hstaged, hinit, hdata, hpublished⟩ := abort_stacks r.host.runtime thread b
  unfold InitStacks.abortInternalPlugin
  cases habort : r.host.runtime.abortInternalPlugin thread b with
  | mk popped rt =>
    rw [habort] at hpops hstaged hinit hdata hpublished
    cases popped with
    | false =>
      have hclosed : b ∉ r.opened := fun hb => by
        rw [(h.mem_opened b).mpr hb] at hpops
        cases hpops
      rw [List.erase_of_not_mem hclosed]
      refine ⟨iff_of_true (nested_kept h ?_ hinit) (Or.inl hclosed), hdata, hpublished⟩
      rw [hstaged, h.eraseP, List.erase_of_not_mem hclosed, h.staged]
    | true =>
      have hopen : b ∈ r.opened := (h.mem_opened b).mp hpops.symm
      refine ⟨(nested_popped h b hstaged hinit).trans ?_, ?_, ?_⟩
      · constructor
        · rintro (hnil | hhead)
          · rw [hnil] at hopen
            cases hopen
          · exact Or.inr hhead
        · rintro (hclosed | hhead)
          · exact absurd hopen hclosed
          · exact Or.inr hhead
      · show (rt.popInitBundleId thread).registry.data = _
        rw [registry_pop, hdata]
      · show (rt.popInitBundleId thread).registry.published = _
        rw [registry_pop, hpublished]

theorem nests_abort_iff (h : r.Nested thread) (b : BundleId) :
    r.Nests compatibility thread (.abort b) ↔ b ∉ r.opened ∨ r.opened.head? = some b := by
  obtain ⟨hnested, hvisible⟩ := abort_popped h b
  constructor
  · intro hnests
    exact hnested.mp hnests.nested
  · intro hinner
    exact ⟨hnested.mpr hinner, nofun, fun _ => hvisible⟩

/-- A commit into a buffer is an abort when the bundle is not open or the buffer has
another length, and a commit otherwise. -/
theorem commitIntoHandles_cases (compatibility : Compatibility) (h : r.Nested thread) (b : BundleId)
    (outHandles : Nat) :
    (∃ e, r.host.commitInternalPluginIntoHandles compatibility thread b outHandles
        = (.error e, r.host.abortInternalPlugin thread b)) ∨
    b ∈ r.opened ∧
      r.host.commitInternalPluginIntoHandles compatibility thread b outHandles
        = ((r.host.commitInternalPluginWithHandles compatibility thread b).1.map List.length,
            (r.host.commitInternalPluginWithHandles compatibility thread b).2) := by
  unfold InitStacks.commitInternalPluginIntoHandles
  cases hcount : r.host.runtime.registry.preparedBundleContractCount thread b with
  | none => exact Or.inl ⟨_, rfl⟩
  | some expected =>
    have hopen : b ∈ r.opened := by
      rw [← h.mem_opened b, Option.isSome_iff_exists]
      obtain ⟨e, he, -⟩ := Option.map_eq_some_iff.mp hcount
      exact ⟨e, he⟩
    dsimp only
    split
    · exact Or.inl ⟨_, rfl⟩
    · exact Or.inr ⟨hopen, rfl⟩

theorem nests_commitIntoHandles_iff (h : r.Nested thread) (b : BundleId) (outHandles : Nat) :
    r.Nests compatibility thread (.commitIntoHandles b outHandles) ↔
      b ∉ r.opened ∨ r.opened.head? = some b := by
  rcases commitIntoHandles_cases compatibility h b outHandles with
    ⟨e, heq⟩ | ⟨hopen, heq⟩
  · obtain ⟨hnested, hvisible⟩ := abort_popped h b
    have hexec : r.exec compatibility thread (.commitIntoHandles b outHandles)
        = ⟨r.host.abortInternalPlugin thread b, r.opened.erase b⟩ := by
      simp only [exec, InitStacks.exec, heq]
    constructor
    · intro hnests
      exact hnested.mp (hexec ▸ hnests.nested)
    · intro hinner
      exact ⟨hexec ▸ hnested.mpr hinner, nofun,
        fun _ => hexec ▸ hvisible⟩
  · obtain ⟨hnested, hrefused⟩ := commit_popped compatibility h b
    have hexec : r.exec compatibility thread (.commitIntoHandles b outHandles)
        = ⟨(r.host.commitInternalPluginWithHandles compatibility thread b).2,
            r.opened.erase b⟩ := by
      simp only [exec, InitStacks.exec, heq]
    have hnil : r.opened ≠ [] := List.ne_nil_of_mem hopen
    constructor
    · intro hnests
      exact Or.inr ((hnested.mp (hexec ▸ hnests.nested)).resolve_left hnil)
    · intro hinner
      refine ⟨hexec ▸ hnested.mpr (Or.inr (hinner.resolve_left (not_not.mpr hopen))),
        nofun, fun hnot => hexec ▸ hrefused ?_⟩
      cases hresult : (r.host.commitInternalPluginWithHandles compatibility thread b).1 with
      | error e => exact ⟨e, rfl⟩
      | ok handles => exact absurd ⟨handles.length, by rw [heq, hresult]; rfl⟩ hnot

/-- A call does what it should exactly if it names the innermost transaction. -/
theorem nests_iff (h : r.Nested thread) (call : PluginCall) :
    r.Nests compatibility thread call ↔ r.Innermost call := by
  cases call with
  | begin manifest language => exact iff_of_true (nests_begin h manifest language) trivial
  | attach b resident => exact iff_of_true (nests_attach h b resident) trivial
  | register descriptor interface functions ptr =>
    exact iff_of_true (nests_register h descriptor interface functions ptr) trivial
  | commit b => exact nests_commit_iff h b
  | commitIntoHandles b outHandles => exact nests_commitIntoHandles_iff h b outHandles
  | abort b => exact nests_abort_iff h b

end

/-- The calls of a run that starts with no open transaction on the thread all do what
they should exactly if each of them names the innermost open transaction. -/
theorem internalPlugin_run_iff (compatibility : Compatibility) (thread : ThreadId)
    (host : InitStacks) (calls : List PluginCall)
    (hinit : host.runtime.initStackOn thread = [])
    (hstaged : host.runtime.registry.preparedOn thread = [])
    (hcount : host.activeInitCount = host.runtime.initTotal) :
    Steps (exec compatibility thread) (Nests compatibility thread) ⟨host, []⟩ calls ↔
      Steps (exec compatibility thread) Innermost ⟨host, []⟩ calls := by
  have hstart : Nested thread ⟨host, []⟩ :=
    ⟨hinit, by simp [RuntimeStore.staged, hstaged], hcount, by simp⟩
  constructor
  · intro hsteps
    exact hsteps.mono hstart (fun r call _ hnests => hnests.nested)
      fun r call h hnests => (nests_iff h call).mp hnests
  · intro hsteps
    exact hsteps.mono hstart (fun r call h hinner => ((nests_iff h call).mpr hinner).nested)
      fun r call h hinner => (nests_iff h call).mpr hinner

/-- The empty runtime, before any call. -/
def new : PluginRun := ⟨⟨Runtime.new, 0⟩, []⟩

/-- Two transactions of which the inner one is committed and the outer one aborted. -/
def nestedCalls : List PluginCall :=
  [.begin (providing "outer" []) .rust, .begin (providing "inner" []) .rust,
    .commit (BundleId.new "inner"), .abort (BundleId.new "outer")]

instance (r : PluginRun) (call : PluginCall) : Decidable (r.Innermost call) := by
  cases call <;> unfold Innermost <;> infer_instance

theorem internalPlugin_run_iff_nested :
    Steps (exec .strict 1) (Nests .strict 1) new nestedCalls :=
  (internalPlugin_run_iff .strict 1 ⟨Runtime.new, 0⟩ nestedCalls rfl rfl rfl).mpr
    (by decide +kernel)

/-- A commit of a bundle that was never begun ends the init window of the open one. -/
theorem commit_of_unknown_pops :
    ¬Steps (exec .strict 1) (Nests .strict 1) new
      [.begin (providing "outer" []) .rust, .commit (BundleId.new "unknown")] := by
  intro hsteps
  have hinit := hsteps.2.1.nested.init
  revert hinit
  decide +kernel

end PluginRun

end PolyPlug.Lifecycle
