import PolyPlug.Lib.Map
import PolyPlug.Lib.Stack
import PolyPlug.Lifecycle.Load
import PolyPlug.Proofs.Registry.Register

/-!
# `PolyPlug.Proofs.Lifecycle.Staging`: the two stacks of a thread

A load keeps two stacks on its thread: the staged bundles, searched from the top
by bundle id, and the init stack, of which only the top is read. Each operation
on them is read here as an operation of `Lib.Stack`.

Everything else of the runtime is its core. `CoreOnly` says that an operation
neither reads nor writes the stacks; the publishing half of a commit and a direct
registration are such operations.
-/

set_option autoImplicit false

namespace PolyPlug.Registry

open PolyPlug.Abi
open PolyPlug.Lib
open RuntimeStore

theorem bundleId_injective : Function.Injective BundleId.id := by
  rintro ⟨a⟩ ⟨b⟩ h
  exact congrArg BundleId.mk h

/-- A staged bundle of this id. -/
def PreparedBundleRegistration.isFor (b : BundleId) (r : PreparedBundleRegistration) : Bool :=
  r.manifest.id = b.id

/-- The bundle a thread staged last is not among those staged for another. -/
theorem mem_cons_of_isFor_ne {r other : PreparedBundleRegistration}
    {l : List PreparedBundleRegistration} {b x : BundleId} (hr : r.isFor b = true) (hx : x ≠ b)
    (hother : other.isFor x = true) : other ∈ r :: l ↔ other ∈ l := by
  rw [List.mem_cons]
  refine ⟨fun hmem => hmem.resolve_left ?_, .inr⟩
  rintro rfl
  refine hx (bundleId_injective ?_)
  rw [← of_decide_eq_true hother, ← of_decide_eq_true hr]

/-- A staged bundle with one more contract. -/
def PreparedBundleRegistration.stage (contract : PreparedGuestContract)
    (r : PreparedBundleRegistration) : PreparedBundleRegistration :=
  { r with contracts := r.contracts ++ [contract] }

namespace RuntimeStore

/-- The staged bundles of a thread, innermost first. -/
def staged (s : RuntimeStore) (thread : ThreadId) : List PreparedBundleRegistration :=
  (s.preparedOn thread).reverse

end RuntimeStore

section
variable (s : RuntimeStore) (thread : ThreadId)

@[simp] theorem preparedOn_setPreparedOn (l : List PreparedBundleRegistration) :
    (s.setPreparedOn thread l).preparedOn thread = l := by
  unfold setPreparedOn preparedOn
  split
  · rename_i hempty
    rw [lookup_erase_eq, if_pos rfl, List.isEmpty_iff.mp hempty, Option.getD_none]
  · rw [lookup_insert_eq, if_pos rfl, Option.getD_some]

theorem preparedOn_setPreparedOn_ne (l : List PreparedBundleRegistration) {other : ThreadId}
    (h : other ≠ thread) : (s.setPreparedOn thread l).preparedOn other = s.preparedOn other := by
  unfold setPreparedOn preparedOn
  split
  · rw [lookup_erase_eq, if_neg h]
  · rw [lookup_insert_eq, if_neg h]

theorem staged_setPreparedOn (l : List PreparedBundleRegistration) :
    (s.setPreparedOn thread l).staged thread = l.reverse := by
  rw [staged, preparedOn_setPreparedOn]

variable (b : BundleId)

theorem preparedPosition_eq :
    s.preparedPosition thread b = rposition (·.isFor b) (s.preparedOn thread) := rfl

theorem preparedManifest_eq :
    s.preparedManifest thread b
      = ((s.staged thread).find? (·.isFor b)).map PreparedBundleRegistration.manifest := rfl

/-- `take_prepared_bundle` removes the innermost staged bundle of the id. -/
theorem takePreparedBundle_cases :
    ((s.staged thread).find? (·.isFor b) = none ∧ s.takePreparedBundle thread b = (none, s)) ∨
    ∃ r l, (s.staged thread).find? (·.isFor b) = some r ∧
      l.reverse = (s.staged thread).eraseP (·.isFor b) ∧
      s.takePreparedBundle thread b = (some r, s.setPreparedOn thread l) := by
  unfold takePreparedBundle
  rw [preparedPosition_eq]
  cases hpos : rposition (·.isFor b) (s.preparedOn thread) with
  | none => exact Or.inl ⟨rposition_none.mp hpos, rfl⟩
  | some position =>
    obtain ⟨⟨r, hr, hfind⟩, herase, -⟩ := rposition_some hpos
    refine Or.inr ⟨r, _, hfind, herase, ?_⟩
    dsimp only
    rw [hr]

/-- `stage_guest_contract` adds to the innermost staged bundle of the id. -/
theorem stageGuestContract_cases (descriptor : PluginDescriptor)
    (interface : RawGuestContractInterface) (ptr : Nat) (contractName : String) :
    (∃ e, s.stageGuestContract thread b descriptor interface ptr contractName = (.error e, s) ∧
      ((s.staged thread).find? (·.isFor b) = none ∨
        prepareGuestContract descriptor interface contractName interface.adapterContext ptr
          = .error e)) ∨
    ∃ contract r l,
      prepareGuestContract descriptor interface contractName interface.adapterContext ptr
        = .ok contract ∧
      (s.staged thread).find? (·.isFor b) = some r ∧
      l.reverse = modifyFirst (·.isFor b) (·.stage contract) (s.staged thread) ∧
      s.stageGuestContract thread b descriptor interface ptr contractName
        = (.ok (), s.setPreparedOn thread l) := by
  unfold stageGuestContract
  cases hprep : prepareGuestContract descriptor interface contractName interface.adapterContext
      ptr with
  | error e => exact Or.inl ⟨e, rfl, Or.inr rfl⟩
  | ok contract =>
    dsimp only
    rw [preparedPosition_eq]
    cases hpos : rposition (·.isFor b) (s.preparedOn thread) with
    | none => exact Or.inl ⟨_, rfl, Or.inl (rposition_none.mp hpos)⟩
    | some position =>
      obtain ⟨⟨r, -, hfind⟩, -, hmodify⟩ := rposition_some hpos
      exact Or.inr ⟨contract, r, _, rfl, hfind, hmodify _, rfl⟩

end

end PolyPlug.Registry

namespace PolyPlug.Lifecycle

open PolyPlug.Abi
open PolyPlug.Lib
open PolyPlug.Common
open PolyPlug.Registry
open RuntimeStore

/-- The manifest of a native bundle without dependencies. -/
def providing (name : String) (provides : List String) : ManifestData :=
  { loader := "native", name := name, dependencies := [], id := (BundleId.new name).id,
    version := "", file := "lib.so", provides := provides, functionCount := ∅,
    needsReinitOnDepReload := false, bundleDependencies := [], path := "manifest.toml" }

/-! ### The core -/

namespace Runtime

/-- The runtime with other stacks. -/
def withStacks (rt : Runtime)
    (prepared : Finmap fun _ : ThreadId => List PreparedBundleRegistration)
    (init : Finmap fun _ : ThreadId => List UInt64) : Runtime :=
  { rt with
      registry := { rt.registry with preparedBundles := prepared }
      initBundleStack := init }

/-- Everything but the stacks. -/
def core (rt : Runtime) : Runtime := rt.withStacks ∅ ∅

end Runtime

/-- The operation neither reads nor writes the stacks. -/
def CoreOnly {α : Type} (op : Runtime → α × Runtime) : Prop :=
  ∀ rt prepared init, op (rt.withStacks prepared init)
    = ((op rt).1, (op rt).2.withStacks prepared init)

section
variable {α : Type} {op : Runtime → α × Runtime} {rt rt' : Runtime}

theorem CoreOnly.congr (h : CoreOnly op) (hcore : rt.core = rt'.core) :
    (op rt).1 = (op rt').1 ∧ (op rt).2.core = (op rt').2.core := by
  have hrt := h rt ∅ ∅
  have hrt' := h rt' ∅ ∅
  rw [show rt.withStacks ∅ ∅ = rt'.withStacks ∅ ∅ from hcore, hrt'] at hrt
  exact ⟨(congrArg Prod.fst hrt).symm, (congrArg Prod.snd hrt).symm⟩

theorem CoreOnly.stacks (h : CoreOnly op) (rt : Runtime) :
    (op rt).2.registry.preparedBundles = rt.registry.preparedBundles ∧
      (op rt).2.initBundleStack = rt.initBundleStack := by
  have hrt := congrArg Prod.snd (h rt rt.registry.preparedBundles rt.initBundleStack)
  rw [show rt.withStacks rt.registry.preparedBundles rt.initBundleStack = rt from rfl] at hrt
  rw [hrt]
  exact ⟨rfl, rfl⟩

theorem registerGuestContract_withStaged (s : RuntimeStore) (descriptor : PluginDescriptor)
    (interface : RawGuestContractInterface) (ptr : Nat) (contractName : String) (b : BundleId)
    (prepared : Finmap fun _ : ThreadId => List PreparedBundleRegistration) :
    { s with preparedBundles := prepared }.registerGuestContract descriptor interface ptr
        contractName b
      = ((s.registerGuestContract descriptor interface ptr contractName b).1,
          { (s.registerGuestContract descriptor interface ptr contractName b).2 with
              preparedBundles := prepared }) := by
  unfold registerGuestContract
  dsimp only
  cases prepareGuestContract descriptor interface contractName interface.adapterContext ptr with
  | error e => rfl
  | ok contract =>
    dsimp only
    cases validateGuestContractRegistration s.data contract b
        (decide (b ∈ s.data.reloadingBundles)) with
    | error e => rfl
    | ok u =>
      dsimp only
      rcases insertPreparedGuestContract (ensureDefaultBundleData s.data b) contract b
        (!decide (b ∈ s.data.reloadingBundles)) with e | ⟨handle, data⟩
      · rfl
      · rfl

theorem registerPreparedBundle_withStaged (s : RuntimeStore) (descriptor : BundleDescriptor)
    (dependencies : Finset GuestContractId) (contracts : List PreparedGuestContract)
    (prepared : Finmap fun _ : ThreadId => List PreparedBundleRegistration) :
    { s with preparedBundles := prepared }.registerPreparedBundle descriptor dependencies contracts
      = ((s.registerPreparedBundle descriptor dependencies contracts).1,
          { (s.registerPreparedBundle descriptor dependencies contracts).2 with
              preparedBundles := prepared }) := by
  unfold registerPreparedBundle
  dsimp only
  cases validatePreparedBundleContracts contracts with
  | error e => rfl
  | ok u =>
    dsimp only
    cases validateAll s.data descriptor.id (decide (descriptor.id ∈ s.data.reloadingBundles))
        contracts with
    | error e => rfl
    | ok u =>
      dsimp only
      by_cases hb : (s.data.bundleData.lookup descriptor.id).isSome
      · simp only [hb, if_true]
      · simp only [hb]
        rcases insertAll descriptor.id (!decide (descriptor.id ∈ s.data.reloadingBundles))
          contracts [] (insertBundle s.data descriptor dependencies) with ⟨_ | _, data⟩
        · rfl
        · rfl

/-- The direct registration of a guest. -/
theorem coreOnly_registerGuestContract (descriptor : PluginDescriptor)
    (interface : RawGuestContractInterface) (ptr : Nat) (contractName : String) (b : BundleId) :
    CoreOnly fun rt =>
      ((rt.registry.registerGuestContract descriptor interface ptr contractName b).1,
        { rt with registry :=
          (rt.registry.registerGuestContract descriptor interface ptr contractName b).2 }) := by
  intro rt prepared init
  simp only [Runtime.withStacks, registerGuestContract_withStaged]

theorem coreOnly_publishPrepared (prepared : PreparedBundleRegistration) (b : BundleId)
    (opts : LoadOptions) : CoreOnly fun rt => rt.publishPrepared prepared b opts := by
  intro rt stagedBundles init
  simp only [Runtime.publishPrepared]
  split
  · rfl
  · split
    · rfl
    · split
      · rfl
      · simp only [Runtime.withStacks, registerPreparedBundle_withStaged]
        rcases rt.registry.registerPreparedBundle (Runtime.preparedDescriptor prepared b _)
          (Runtime.preparedDependencies prepared.manifest) prepared.contracts with
          ⟨_ | _, registry⟩
        · rfl
        · rfl

end

/-! ### The init stack -/

section
variable (rt : Runtime) (thread : ThreadId)

@[simp] theorem initStackOn_push (id : UInt64) :
    (rt.pushInitBundleId thread id).initStackOn thread = rt.initStackOn thread ++ [id] := by
  simp [Runtime.pushInitBundleId, Runtime.initStackOn]

theorem initStackOn_push_ne (id : UInt64) {other : ThreadId} (h : other ≠ thread) :
    (rt.pushInitBundleId thread id).initStackOn other = rt.initStackOn other := by
  simp [Runtime.pushInitBundleId, Runtime.initStackOn, h]

@[simp] theorem initStackOn_pop :
    (rt.popInitBundleId thread).initStackOn thread = (rt.initStackOn thread).dropLast := by
  unfold Runtime.popInitBundleId
  cases hl : rt.initBundleStack.lookup thread with
  | none => simp [Runtime.initStackOn, hl]
  | some stack =>
    simp only [Runtime.initStackOn, hl, Option.getD_some]
    split
    · rename_i hempty
      rw [lookup_erase_eq, if_pos rfl, List.isEmpty_iff.mp hempty, Option.getD_none]
    · rw [lookup_insert_eq, if_pos rfl, Option.getD_some]

theorem initStackOn_pop_ne {other : ThreadId} (h : other ≠ thread) :
    (rt.popInitBundleId thread).initStackOn other = rt.initStackOn other := by
  unfold Runtime.popInitBundleId
  cases hl : rt.initBundleStack.lookup thread with
  | none => rfl
  | some stack =>
    simp only [Runtime.initStackOn]
    split
    · rw [lookup_erase_eq, if_neg h]
    · rw [lookup_insert_eq, if_neg h]

@[simp] theorem registry_push (id : UInt64) :
    (rt.pushInitBundleId thread id).registry = rt.registry := rfl

@[simp] theorem registry_pop : (rt.popInitBundleId thread).registry = rt.registry := by
  unfold Runtime.popInitBundleId
  split <;> rfl

@[simp] theorem core_pop : (rt.popInitBundleId thread).core = rt.core := by
  unfold Runtime.popInitBundleId
  split <;> rfl

end

/-! ### The ends of each operation -/

section
variable (rt : Runtime) (thread : ThreadId) (b : BundleId)

/-- The runtime with other staged bundles on a thread. -/
def Runtime.setStaged (rt : Runtime) (thread : ThreadId) (l : List PreparedBundleRegistration) :
    Runtime :=
  { rt with registry := rt.registry.setPreparedOn thread l }

@[simp] theorem core_setStaged (l : List PreparedBundleRegistration) :
    (rt.setStaged thread l).core = rt.core := rfl

@[simp] theorem initStackOn_setStaged (l : List PreparedBundleRegistration) (other : ThreadId) :
    (rt.setStaged thread l).initStackOn other = rt.initStackOn other := rfl

theorem discardPreparedBundle_cases :
    ((rt.registry.staged thread).find? (·.isFor b) = none ∧
      rt.discardPreparedBundle thread b = rt) ∨
    ∃ r l, (rt.registry.staged thread).find? (·.isFor b) = some r ∧
      l.reverse = (rt.registry.staged thread).eraseP (·.isFor b) ∧
      rt.discardPreparedBundle thread b = rt.setStaged thread l := by
  simp only [Runtime.discardPreparedBundle, discardPreparedBundle]
  rcases takePreparedBundle_cases rt.registry thread b with ⟨hfind, heq⟩ | ⟨r, l, hfind, hl, heq⟩
  · rw [heq]
    exact Or.inl ⟨hfind, rfl⟩
  · rw [heq]
    exact Or.inr ⟨r, l, hfind, hl, rfl⟩

theorem commit_cases (opts : LoadOptions) :
    ((rt.registry.staged thread).find? (·.isFor b) = none ∧
      rt.commitPreparedBundleTransactionWithHandles thread b opts
        = (.error (.registry (.missingBundleMetadata b.id)), rt)) ∨
    ∃ r l, (rt.registry.staged thread).find? (·.isFor b) = some r ∧
      l.reverse = (rt.registry.staged thread).eraseP (·.isFor b) ∧
      rt.commitPreparedBundleTransactionWithHandles thread b opts
        = (rt.setStaged thread l).publishPrepared r b opts := by
  unfold Runtime.commitPreparedBundleTransactionWithHandles
  rcases takePreparedBundle_cases rt.registry thread b with ⟨hfind, heq⟩ | ⟨r, l, hfind, hl, heq⟩
  · rw [heq]
    exact Or.inl ⟨hfind, rfl⟩
  · rw [heq]
    exact Or.inr ⟨r, l, hfind, hl, rfl⟩

/-- A commit is refused and changes nothing, or registers the bundle and moves its
resident to the map. -/
theorem publishPrepared_ends (prepared : PreparedBundleRegistration) (opts : LoadOptions) :
    (∃ e, rt.publishPrepared prepared b opts = (.error e, rt)) ∨
    ∃ version handles registry,
      rt.registry.registerPreparedBundle (Runtime.preparedDescriptor prepared b version)
          (Runtime.preparedDependencies prepared.manifest) prepared.contracts
        = (.ok handles, registry) ∧
      rt.publishPrepared prepared b opts
        = (.ok handles,
            { rt with
                registry := { registry with
                  internalPluginResidents := match prepared.resident with
                    | none          => registry.internalPluginResidents
                    | some resident => registry.internalPluginResidents.insert b resident }
                bundleManifests :=
                  rt.bundleManifests.insert prepared.manifest.name prepared.manifest }) := by
  unfold Runtime.publishPrepared
  dsimp only
  split
  · exact Or.inl ⟨_, rfl⟩
  · split
    · exact Or.inl ⟨_, rfl⟩
    · split
      · exact Or.inl ⟨_, rfl⟩
      · rename_i version _
        rcases registerPreparedBundle_cases rt.registry
            (Runtime.preparedDescriptor prepared b version)
            (Runtime.preparedDependencies prepared.manifest) prepared.contracts with
          ⟨e, heq⟩ | ⟨hs, data', -, -, -, -, heq⟩
        · rw [heq]
          exact Or.inl ⟨_, rfl⟩
        · rw [heq]
          exact Or.inr ⟨version, _, _, heq, rfl⟩

/-- The staged bundle of a load, with the contracts registered so far. -/
def staging (manifest : ManifestData) (source : BundleSource)
    (contracts : List PreparedGuestContract) : PreparedBundleRegistration :=
  ⟨manifest, supportedLanguageFromStr manifest.loader, source, contracts, none⟩

section
variable (manifest : ManifestData) (source : BundleSource) (contracts : List PreparedGuestContract)

@[simp] theorem staging_manifest : (staging manifest source contracts).manifest = manifest := rfl

@[simp] theorem staging_contracts :
    (staging manifest source contracts).contracts = contracts := rfl

@[simp] theorem staging_resident : (staging manifest source contracts).resident = none := rfl

end

/-- A load is refused before it touches anything, or stages a manifest that passed
`validate` for a bundle without a record. -/
theorem admitLoad_cases (env : LoadEnv) (manifest : ManifestData) (source : BundleSource) :
    (∃ e, rt.admitLoad env manifest source = (.error e, rt)) ∨
    manifest.id = (BundleId.new manifest.name).id ∧ manifest.id ≠ 0 ∧
      (parseManifestVersion manifest.version manifest.path).toOption.isSome ∧
      rt.registry.getBundleDescriptor (BundleId.new manifest.name) = none ∧
      rt.admitLoad env manifest source
        = (.ok (BundleId.new manifest.name),
            rt.setStaged env.thread
              (rt.registry.preparedOn env.thread ++ [staging manifest source []])) := by
  unfold Runtime.admitLoad
  cases hvalid : manifest.validate with
  | error e => exact Or.inl ⟨_, rfl⟩
  | ok u =>
    dsimp only
    cases Runtime.checkSignature env manifest with
    | error e => exact Or.inl ⟨_, rfl⟩
    | ok u =>
      dsimp only
      split
      · exact Or.inl ⟨_, rfl⟩
      · cases hversion : parseManifestVersion manifest.version manifest.path with
        | error e => exact Or.inl ⟨_, rfl⟩
        | ok version =>
          have hmeta := ManifestData.validateMetadata_of_validate hvalid
          simp only [Runtime.beginPreparedBundleTransaction, hmeta]
          split
          · exact Or.inl ⟨_, rfl⟩
          · rename_i hnone
            refine Or.inr ⟨ManifestData.id_of_validateMetadata hmeta,
              ManifestData.id_ne_zero hmeta, rfl, ?_, rfl⟩
            simpa using hnone

/-- The checks before a load stages its bundle. -/
structure Admitted (env : LoadEnv) (rt : Runtime) (manifest : ManifestData) : Prop where
  valid : manifest.validate = .ok ()
  signed : Runtime.checkSignature env manifest = .ok ()
  loader : env.hasLoader manifest.loader = true
  version : (parseManifestVersion manifest.version manifest.path).toOption.isSome
  fresh : rt.registry.getBundleDescriptor (BundleId.new manifest.name) = none

theorem admitLoad_isOk_iff (env : LoadEnv) (manifest : ManifestData) (source : BundleSource) :
    (rt.admitLoad env manifest source).1.toOption.isSome ↔ Admitted env rt manifest := by
  unfold Runtime.admitLoad
  constructor
  · intro h
    cases hvalid : manifest.validate with
    | error e => simp [hvalid, Except.toOption] at h
    | ok u =>
      cases hsigned : Runtime.checkSignature env manifest with
      | error e => simp [hvalid, hsigned, Except.toOption] at h
      | ok u =>
        cases hloader : env.hasLoader manifest.loader with
        | false => simp [hvalid, hsigned, hloader, Except.toOption] at h
        | true =>
          cases hversion : parseManifestVersion manifest.version manifest.path with
          | error e => simp [hvalid, hsigned, hloader, hversion, Except.toOption] at h
          | ok version =>
            refine ⟨hvalid, hsigned, hloader, by rw [hversion]; rfl, ?_⟩
            by_contra hrecord
            have hsome := Option.isSome_iff_ne_none.mpr hrecord
            simp [hvalid, hsigned, hloader, hversion, Runtime.beginPreparedBundleTransaction,
              ManifestData.validateMetadata_of_validate hvalid, hsome, Except.toOption] at h
  · rintro ⟨hvalid, hsigned, hloader, hversion, hfresh⟩
    obtain ⟨version, hversion⟩ : ∃ version,
        parseManifestVersion manifest.version manifest.path = .ok version := by
      cases hparse : parseManifestVersion manifest.version manifest.path with
      | error e =>
        rw [hparse] at hversion
        cases hversion
      | ok version => exact ⟨version, rfl⟩
    simp [hvalid, hsigned, hloader, hversion, Runtime.beginPreparedBundleTransaction,
      ManifestData.validateMetadata_of_validate hvalid, hfresh, Except.toOption]

end

end PolyPlug.Lifecycle
