import PolyPlug.Proofs.Lifecycle.Nested

/-!
# `PolyPlug.Proofs.Lifecycle.Loader`: what a loader's run keeps

Below the staging, a run of a loader changes the runtime in two ways: a guest that is
not staged registers a contract, and a nested load publishes its bundle. `LoaderRule`
is the rule for a run whose steps meet conditions: `R` on the direct registrations,
`L` on the manifests and the options of the loads. It carries a property `S` of the staged bundles
along. What every such step keeps, the run keeps (`LoaderRule.exec`), nested loads at
any depth included.

`KeptByLoader` is the case without conditions.
-/

set_option autoImplicit false

namespace PolyPlug.Lifecycle

open PolyPlug.Abi
open PolyPlug.Lib
open PolyPlug.Common
open PolyPlug.Registry
open RuntimeStore

/-! ### Conditions on a run -/

/-- A registration of a bundle that is not staged: the runtime, the bundle, and the
arguments. -/
abbrev RegistrationCond :=
  Runtime → BundleId → PluginDescriptor → RawGuestContractInterface → Nat → String → Prop

/-- A condition on a load: its manifest and its options. -/
abbrev LoadCond := ManifestData → LoadOptions → Prop

/-- The direct registrations of the run meet `R`, and its loads `L`. -/
def LoaderRun.Meets (env : LoadEnv) (R : RegistrationCond) (L : LoadCond) :
    LoaderRun → Runtime → Prop
  | .done _, _ => True
  | .register descriptor interface functions ptr rest, rt =>
    (∀ args ∈ checkedArguments descriptor interface functions,
      rt.currentInitBundleId env.thread ≠ 0 →
      (rt.registry.preparedManifest env.thread ⟨rt.currentInitBundleId env.thread⟩).isSome
        = false →
      R rt ⟨rt.currentInitBundleId env.thread⟩ args.1 args.2.1 ptr args.2.2) ∧
    rest.Meets env R L
      (rt.hostRegisterGuestContract env.thread descriptor interface functions ptr).2
  | .load manifest source opts inner rest, rt =>
    L manifest opts ∧
    (match rt.admitLoad env manifest source with
      | (.error _, _)          => True
      | (.ok bundleId, staged) =>
        inner.Meets env R L (staged.pushInitBundleId env.thread bundleId.id)) ∧
    rest.Meets env R L (rt.loadManifestWithSource env manifest source opts
      (Runtime.inInitWindow env.thread (BundleId.new manifest.name)
        fun rt => inner.exec env rt)).2

instance decidableMeets (env : LoadEnv) (R : RegistrationCond) (L : LoadCond)
    [∀ rt c descriptor interface ptr name, Decidable (R rt c descriptor interface ptr name)]
    [∀ manifest, DecidablePred (L manifest)] :
    ∀ (body : LoaderRun) (rt : Runtime), Decidable (body.Meets env R L rt)
  | .done _, _ => inferInstanceAs (Decidable True)
  | .register descriptor interface functions ptr rest, rt =>
    have := decidableMeets env R L rest
      (rt.hostRegisterGuestContract env.thread descriptor interface functions ptr).2
    inferInstanceAs (Decidable ((∀ args ∈ checkedArguments descriptor interface functions, _) ∧ _))
  | .load manifest source opts inner rest, rt =>
    have := decidableMeets env R L rest (rt.loadManifestWithSource env manifest source opts
      (Runtime.inInitWindow env.thread (BundleId.new manifest.name)
        fun rt => inner.exec env rt)).2
    have : Decidable (match rt.admitLoad env manifest source with
        | (.error _, _)          => True
        | (.ok bundleId, staged) =>
          inner.Meets env R L (staged.pushInitBundleId env.thread bundleId.id)) :=
      match rt.admitLoad env manifest source with
      | (.error _, _)          => inferInstanceAs (Decidable True)
      | (.ok bundleId, staged) =>
        decidableMeets env R L inner (staged.pushInitBundleId env.thread bundleId.id)
    inferInstanceAs (Decidable (_ ∧ _ ∧ _))

/-- No condition. -/
theorem meets_true (env : LoadEnv) (body : LoaderRun) (rt : Runtime) :
    body.Meets env (fun _ _ _ _ _ _ => True) (fun _ _ => True) rt := by
  induction body generalizing rt with
  | done result => trivial
  | register descriptor interface functions ptr rest ih =>
    exact ⟨fun _ _ _ _ => trivial, ih _⟩
  | load manifest source opts inner rest ihInner ihRest =>
    refine ⟨trivial, ?_, ihRest _⟩
    split
    · trivial
    · exact ihInner _

/-! ### Staged bundles -/

/-- Every staged bundle has the property. -/
def Staged (S : PreparedBundleRegistration → Prop) (rt : Runtime) : Prop :=
  ∀ thread, ∀ r ∈ rt.registry.preparedOn thread, S r

section
variable {S : PreparedBundleRegistration → Prop} {rt : Runtime}

theorem Staged.setStaged (h : Staged S rt) (thread : ThreadId)
    {l : List PreparedBundleRegistration} (hl : ∀ r ∈ l, S r) :
    Staged S (rt.setStaged thread l) := by
  intro t r hr
  by_cases ht : t = thread
  · subst ht
    exact hl r (by simpa [Runtime.setStaged] using hr)
  · rw [Runtime.setStaged, preparedOn_setPreparedOn_ne _ _ _ ht] at hr
    exact h t r hr

theorem Staged.of_stacks (h : Staged S rt) {rt' : Runtime}
    (heq : rt'.registry.preparedBundles = rt.registry.preparedBundles) : Staged S rt' := by
  intro t r hr
  exact h t r (by rwa [preparedOn, heq] at hr)

theorem Staged.mem_staged (h : Staged S rt) (thread : ThreadId) {r : PreparedBundleRegistration}
    (hr : r ∈ rt.registry.staged thread) : S r :=
  h thread r (List.mem_reverse.mp hr)

/-- Dropping a staged bundle. -/
theorem Staged.erase (h : Staged S rt) {thread : ThreadId} {p : PreparedBundleRegistration → Bool}
    {l : List PreparedBundleRegistration}
    (hl : l.reverse = (rt.registry.staged thread).eraseP p) :
    Staged S (rt.setStaged thread l) := by
  refine h.setStaged thread fun r hr => h.mem_staged thread ?_
  exact List.mem_of_mem_eraseP (hl ▸ List.mem_reverse.mpr hr)

end

/-! ### The rule -/

/-- What the steps of a run keep, under conditions. -/
structure LoaderRule (R : RegistrationCond) (L : LoadCond)
    (S : PreparedBundleRegistration → Prop) (I : Runtime → Prop) : Prop where
  core : ∀ rt rt', rt'.core = rt.core → I rt → I rt'
  stage : ∀ manifest source opts, manifest.id = (BundleId.new manifest.name).id →
    L manifest opts → S (staging manifest source [])
  append : ∀ r contract, S r → S (r.stage contract)
  register : ∀ rt c descriptor interface ptr name, R rt c descriptor interface ptr name → I rt →
    I { rt with registry :=
      (rt.registry.registerGuestContract descriptor interface ptr name c).2 }
  publish : ∀ rt prepared c manifest opts, S prepared → prepared.isFor c = true →
    L manifest opts → I rt →
    I (Runtime.publishPrepared rt prepared c opts).2

namespace LoaderRule

variable {R : RegistrationCond} {L : LoadCond}
  {S : PreparedBundleRegistration → Prop} {I : Runtime → Prop} (hI : LoaderRule R L S I)
  (env : LoadEnv) {rt : Runtime}
include hI

theorem hostRegister (h : I rt ∧ Staged S rt) (descriptor : Option PluginDescriptor)
    (interface : Option RawGuestContractInterface) (functions : Nat → Nat) (ptr : Nat)
    (hR : ∀ args ∈ checkedArguments descriptor interface functions,
      rt.currentInitBundleId env.thread ≠ 0 →
      (rt.registry.preparedManifest env.thread ⟨rt.currentInitBundleId env.thread⟩).isSome
        = false →
      R rt ⟨rt.currentInitBundleId env.thread⟩ args.1 args.2.1 ptr args.2.2) :
    I (rt.hostRegisterGuestContract env.thread descriptor interface functions ptr).2 ∧
      Staged S (rt.hostRegisterGuestContract env.thread descriptor interface functions ptr).2 := by
  rw [hostRegisterGuestContract_state]
  cases hargs : checkedArguments descriptor interface functions with
  | none => exact h
  | some args =>
    obtain ⟨desc, given, contractName⟩ := args
    dsimp only
    split
    · exact h
    · rename_i hinit
      unfold RuntimeStore.stageOrRegister
      split
      · rcases stageGuestContract_cases rt.registry env.thread
            ⟨rt.currentInitBundleId env.thread⟩ desc given ptr contractName with
          ⟨e, heq, -⟩ | ⟨contract, r, l, -, -, hl, heq⟩
        · rw [heq]
          exact h
        · rw [heq]
          refine ⟨hI.core rt _ rfl h.1, h.2.setStaged env.thread fun r' hr' => ?_⟩
          rcases mem_modifyFirst (hl ▸ List.mem_reverse.mpr hr') with hold | ⟨r, hr, -, rfl⟩
          · exact h.2.mem_staged env.thread hold
          · exact hI.append r contract (h.2.mem_staged env.thread hr)
      · rename_i hdirect
        refine ⟨hI.register rt _ desc given ptr contractName
          (hR (desc, given, contractName) hargs hinit (Bool.not_eq_true _ ▸ hdirect)) h.1,
            h.2.of_stacks ?_⟩
        exact ((coreOnly_registerGuestContract desc given ptr contractName _).stacks rt).1

theorem discard (h : I rt ∧ Staged S rt) (c : BundleId) :
    I (rt.discardPreparedBundle env.thread c) ∧
      Staged S (rt.discardPreparedBundle env.thread c) := by
  rcases discardPreparedBundle_cases rt env.thread c with ⟨-, heq⟩ | ⟨r, l, -, hl, heq⟩
  · rw [heq]
    exact h
  · rw [heq]
    exact ⟨hI.core rt _ rfl h.1, h.2.erase hl⟩

theorem finishLoad (h : I rt ∧ Staged S rt) (c : BundleId) {manifest : ManifestData}
    {opts : LoadOptions} (hL : L manifest opts) (loaded : Except LoaderError Unit) :
    I (rt.finishLoad env c opts loaded).2 ∧ Staged S (rt.finishLoad env c opts loaded).2 := by
  cases loaded with
  | error e => exact hI.discard env h c
  | ok u =>
    have hcommit : I (rt.commitPreparedBundleTransactionWithHandles env.thread c opts).2 ∧
        Staged S (rt.commitPreparedBundleTransactionWithHandles env.thread c opts).2 := by
      rcases commit_cases rt env.thread c opts with ⟨-, heq⟩ | ⟨r, l, hfind, hl, heq⟩
      · rw [heq]
        exact h
      · rw [heq]
        have hr := h.2.mem_staged env.thread (List.mem_of_find?_eq_some hfind)
        refine ⟨hI.publish _ r c manifest opts hr (List.find?_some hfind) hL
          (hI.core rt _ rfl h.1), ?_⟩
        exact (h.2.erase hl).of_stacks ((coreOnly_publishPrepared r c opts).stacks _).1
    simp only [Runtime.finishLoad]
    generalize rt.commitPreparedBundleTransactionWithHandles env.thread c opts = q at hcommit
    obtain ⟨committed, rt₁⟩ := q
    cases committed with
    | error e => exact hI.discard env hcommit c
    | ok handles => exact hcommit

/-- An init window around what keeps the property. -/
theorem inInitWindow {α : Type} {init : Runtime → α × Runtime} (b : BundleId)
    (hinit : I (rt.pushInitBundleId env.thread b.id) ∧
      Staged S (rt.pushInitBundleId env.thread b.id) →
      I (init (rt.pushInitBundleId env.thread b.id)).2 ∧
        Staged S (init (rt.pushInitBundleId env.thread b.id)).2)
    (h : I rt ∧ Staged S rt) :
    I (Runtime.inInitWindow env.thread b init rt).2 ∧
      Staged S (Runtime.inInitWindow env.thread b init rt).2 := by
  obtain ⟨hin, hstaged⟩ := hinit ⟨hI.core rt _ rfl h.1, h.2⟩
  refine ⟨hI.core _ _ (core_pop _ _) hin, hstaged.of_stacks ?_⟩
  exact congrArg RuntimeStore.preparedBundles (registry_pop _ _)

theorem loadManifestWithSource {load : Runtime → Except LoaderError Unit × Runtime}
    (manifest : ManifestData) (source : BundleSource) {opts : LoadOptions} (hL : L manifest opts)
    (hload : ∀ staged, rt.admitLoad env manifest source
        = (.ok (BundleId.new manifest.name), staged) → I staged ∧ Staged S staged →
      I (load staged).2 ∧ Staged S (load staged).2)
    (h : I rt ∧ Staged S rt) :
    I (rt.loadManifestWithSource env manifest source opts load).2 ∧
      Staged S (rt.loadManifestWithSource env manifest source opts load).2 := by
  unfold Runtime.loadManifestWithSource
  rcases admitLoad_cases rt env manifest source with ⟨e, heq⟩ | ⟨hid, -, -, -, heq⟩
  · rw [heq]
    exact h
  · have hin := hload _ heq ⟨hI.core rt _ rfl h.1, h.2.setStaged env.thread fun r hr => by
      rcases List.mem_append.mp hr with hold | hnew
      · exact h.2 env.thread r hold
      · rw [List.mem_singleton.mp hnew]
        exact hI.stage manifest source opts hid hL⟩
    rw [heq]
    exact hI.finishLoad env hin _ hL _

/-- The run of a loader. -/
theorem exec (body : LoaderRun) (h : I rt ∧ Staged S rt) (hbody : body.Meets env R L rt) :
    I (body.exec env rt).2 ∧ Staged S (body.exec env rt).2 := by
  induction body generalizing rt with
  | done result => exact h
  | register descriptor interface functions ptr rest ih =>
    exact ih (hI.hostRegister env h descriptor interface functions ptr hbody.1) hbody.2
  | load manifest source opts inner rest ihInner ihRest =>
    obtain ⟨hload, hinner, hrest⟩ := hbody
    exact ihRest (hI.loadManifestWithSource env manifest source hload
      (fun staged heq hstaged => hI.inInitWindow env _
        (fun hpush => ihInner hpush (by rwa [heq] at hinner)) hstaged) h) hrest

/-- A load and the run of its loader. -/
theorem loadBundle (manifest : ManifestData) (source : BundleSource) {opts : LoadOptions}
    (hL : L manifest opts) (body : LoaderRun) (h : I rt ∧ Staged S rt)
    (hbody : match rt.admitLoad env manifest source with
      | (.error _, _)          => True
      | (.ok bundleId, staged) =>
        body.Meets env R L (staged.pushInitBundleId env.thread bundleId.id)) :
    I (rt.loadBundle env manifest source opts body).2 ∧
      Staged S (rt.loadBundle env manifest source opts body).2 :=
  hI.loadManifestWithSource env manifest source hL
    (fun staged heq hstaged => hI.inInitWindow env _
      (fun hpush => hI.exec env body hpush (by rwa [heq] at hbody)) hstaged) h

end LoaderRule

/-! ### Without conditions -/

/-- A property that neither reads the stacks nor is lost by a registration or by the
publishing half of a commit. -/
structure KeptByLoader (I : Runtime → Prop) : Prop where
  core : ∀ rt rt', rt'.core = rt.core → I rt → I rt'
  register : ∀ rt descriptor interface ptr contractName c, I rt →
    I { rt with registry :=
      (rt.registry.registerGuestContract descriptor interface ptr contractName c).2 }
  publish : ∀ rt prepared c opts, I rt → I (Runtime.publishPrepared rt prepared c opts).2

namespace KeptByLoader

variable {I : Runtime → Prop} (hI : KeptByLoader I) (env : LoadEnv) {rt : Runtime}
include hI

theorem rule : LoaderRule (fun _ _ _ _ _ _ => True) (fun _ _ => True) (fun _ => True) I where
  core := hI.core
  stage _ _ _ _ _ := trivial
  append _ _ _ := trivial
  register rt c descriptor interface ptr name _ h :=
    hI.register rt descriptor interface ptr name c h
  publish rt prepared c _ opts _ _ _ h := hI.publish rt prepared c opts h

/-- A run of a loader in an init window. -/
theorem exec (b : BundleId) (body : LoaderRun) (h : I rt) :
    I (Runtime.inInitWindow env.thread b (body.exec env) rt).2 :=
  (hI.rule.inInitWindow env b (fun hpush => hI.rule.exec env body hpush (meets_true env body _))
    ⟨h, fun _ _ _ => trivial⟩).1

theorem loadBundle (manifest : ManifestData) (source : BundleSource) (opts : LoadOptions)
    (body : LoaderRun) (h : I rt) : I (rt.loadBundle env manifest source opts body).2 :=
  (hI.rule.loadBundle env manifest source trivial body ⟨h, fun _ _ _ => trivial⟩ (by
    split
    · trivial
    · exact meets_true env body _)).1

end KeptByLoader

end PolyPlug.Lifecycle
