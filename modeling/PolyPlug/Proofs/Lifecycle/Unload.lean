import PolyPlug.Lifecycle.ReloadSteps
import PolyPlug.Lifecycle.Unload
import PolyPlug.Proofs.Registry.Bundles
import PolyPlug.Proofs.Registry.Views

/-!
# `PolyPlug.Proofs.Lifecycle.Unload`: an unload and the dependents of a bundle

With nothing beside it, `unload_bundle` refuses exactly when another registered
bundle declares a dependency on a contract the bundle exports, leaves the runtime
as it is whenever it fails before the reclaim hook, and otherwise takes the
bundle out of every index (`UnloadsAlone`).

The check and the invalidation are separate critical sections. A dependent that
is committed between them is stranded (`dependent_commits_after_check`).
`unload_run` asks that no call of another thread brings in such a dependency
after the dependents were read (`Guards`).
-/

set_option autoImplicit false

namespace PolyPlug.Registry

open PolyPlug.Abi
open PolyPlug.Lib
open PolyPlug.Lib.Catalog
open RuntimeStoreData RuntimeStore

/-! ### Exported contracts -/

/-- A call that leaves a bundle alone leaves what it exports. -/
theorem Leaves.bundleExportedContracts_eq {s s' : RuntimeStore} {b x : BundleId}
    (h : Leaves b s.data s'.data) (hc : s.data.Consistent) (hx : x ≠ b) :
    s'.bundleExportedContracts x = s.bundleExportedContracts x := by
  ext cid
  simp only [mem_bundleExportedContracts, h.pluginSlots x hx]
  have hindex : ∀ i ∈ s.data.pluginSlots x,
      (i ∈ s'.data.indexOf cid ↔ i ∈ s.data.indexOf cid) := by
    intro i hi
    obtain ⟨r, hr, howner⟩ := hc.content_of_held hi
    obtain ⟨slot, hslot, hentry, -⟩ := content_eq_some.mp hr
    exact (h.foreign i slot r.entry hslot hentry
      (by rw [show r.entry.bundleId = x from howner]; exact hx)).2 cid
  constructor
  · rintro ⟨i, hi, hmem⟩
    exact ⟨i, (hindex i hmem).mp hi, hmem⟩
  · rintro ⟨i, hi, hmem⟩
    exact ⟨i, (hindex i hmem).mpr hi, hmem⟩

/-- The invariant reads the data and the published view only. -/
theorem RuntimeStore.Tidy.congr {s s' : RuntimeStore} (h : s.Tidy) (hdata : s'.data = s.data)
    (hpub : s'.published = s.published) : s'.Tidy := by
  obtain ⟨hp, hc, hm⟩ := h
  refine ⟨by rwa [hdata], by rwa [hdata], ?_⟩
  unfold Mirrors at hm ⊢
  rw [hpub, hdata, hm]

end PolyPlug.Registry

namespace PolyPlug.Lifecycle

open PolyPlug.Abi
open PolyPlug.Lib
open PolyPlug.Lib.Catalog
open PolyPlug.Registry
open RuntimeStoreData RuntimeStore

/-! ### The property -/

/-- Another registered bundle declares a dependency on a contract the bundle
exports. -/
def HasDependent (s : RuntimeStore) (p : BundleId) : Prop :=
  ∃ x, x ≠ p ∧ Declares s.data x (s.bundleExportedContracts p)

/-- Nothing of the bundle is left in the registry. -/
structure Gone (s : RuntimeStore) (p : BundleId) : Prop where
  record : s.data.descriptorOf p = none
  dependencies : s.data.bundleDeclaredDeps.lookup p = none
  names : ∀ name, p ∉ s.data.namedAs name
  slots : ∀ i entry, s.data.entryAt i = some entry → entry.bundleId ≠ p
  index : ∀ cid, ∀ i ∈ s.data.indexOf cid, ∃ entry, s.data.entryAt i = some entry ∧
    entry.bundleId ≠ p

/-- What `unload_bundle` does with nothing beside it. -/
structure UnloadsAlone (hooks : Hooks) (thread : ThreadId) (rt : Runtime) (p : BundleId) :
    Prop where
  refused : (∃ provider dependents, (Runtime.unloadBundle hooks thread rt p).1
      = .error (.dependencyInUse provider dependents)) ↔
    (rt.registry.getBundleDescriptor p).isSome ∧ HasDependent rt.registry p
  /-- An error is one of the reclaim hook, or nothing has changed. -/
  unchanged : ∀ e, (Runtime.unloadBundle hooks thread rt p).1 = .error e →
    (Runtime.unloadBundle hooks thread rt p).2 = rt ∨
      ∃ d name hook err, rt.registry.getBundleDescriptor p = some d ∧
        rt.bundleLoaderName d.name = some name ∧ hooks name = some hook ∧
        hook p = .error err ∧ e = .loader err
  /-- Handles of the bundle are stale, and none to its slots resolves. -/
  stale : (Runtime.unloadBundle hooks thread rt p).1 = .ok () →
    ∀ i entry, rt.registry.data.entryAt i = some entry → entry.bundleId = p →
      (Runtime.unloadBundle hooks thread rt p).2.registry.resolveGuestContract
          ⟨i, rt.registry.data.generationAt i⟩ = .error (.staleHandle i) ∧
        ∀ g, ∃ e, (Runtime.unloadBundle hooks thread rt p).2.registry.resolveGuestContract
          ⟨i, g⟩ = .error e
  gone : (Runtime.unloadBundle hooks thread rt p).1 = .ok () →
    Gone (Runtime.unloadBundle hooks thread rt p).2.registry p
  others : (Runtime.unloadBundle hooks thread rt p).1 = .ok () →
    Leaves p rt.registry.data (Runtime.unloadBundle hooks thread rt p).2.registry.data ∧
      ∀ i entry, rt.registry.data.entryAt i = some entry → entry.bundleId ≠ p → ∀ g,
        (Runtime.unloadBundle hooks thread rt p).2.registry.resolveGuestContract ⟨i, g⟩
          = rt.registry.resolveGuestContract ⟨i, g⟩

/-- No dependent is stranded: when the unload invalidates the bundle, none is
registered. -/
def Safe (p : BundleId) (s : UnloadSystem) : UnloadStep → Prop
  | .advance _ => ∀ d loaderName, s.phase = .checked d loaderName →
    (s.runtime.invalidateRegistered p d).1 = .ok () → ¬ HasDependent s.runtime.registry p
  | _          => True

/-! ### The condition -/

/-- The unload has begun and not returned. -/
def UnloadPhase.Running : UnloadPhase → Prop
  | .idle       => False
  | .returned _ => False
  | _           => True

/-- The dependents have been read, and the bundle is not yet invalidated. -/
def UnloadPhase.Decided : UnloadPhase → Prop
  | .naming _ _ _ => True
  | .admitted _   => True
  | .checked _ _  => True
  | _             => False

instance (phase : UnloadPhase) : Decidable phase.Running := by
  cases phase <;> unfold UnloadPhase.Running <;> infer_instance

instance (phase : UnloadPhase) : Decidable phase.Decided := by
  cases phase <;> unfold UnloadPhase.Decided <;> infer_instance

/-- The registry calls of other threads: tidy ones that keep names, of other
bundles while the unload runs, and, once the dependents have been read, none that
brings in a dependency on an exported contract. -/
def Guards (p : BundleId) (s : UnloadSystem) : UnloadStep → Prop
  | .other op =>
    TidyStep s.runtime.registry op ∧ NameKept s.runtime.registry.data op ∧
      (s.phase.Running → op.bundleId ≠ p) ∧
      (s.phase.Decided → Disjoint (broughtDeps s.runtime.registry.data op)
        (s.runtime.registry.bundleExportedContracts p))
  | _         => True

instance (p : BundleId) (s : UnloadSystem) (step : UnloadStep) : Decidable (Guards p s step) := by
  cases step <;> unfold Guards <;> infer_instance

/-! ### The unload alone -/

section
variable {rt : Runtime} {p : BundleId}

theorem getBundleDescriptor_eq (s : RuntimeStore) (x : BundleId) :
    s.getBundleDescriptor x = s.data.descriptorOf x := rfl

theorem dependentNames_ne_zero :
    rt.dependentNames p ≠ 0 ↔ HasDependent rt.registry p := by
  have hmem : rt.dependentNames p ≠ 0 ↔ ∃ name, name ∈ rt.dependentNames p :=
    ⟨Multiset.exists_mem_of_ne_zero, fun ⟨_, hname⟩ hzero => by simp [hzero] at hname⟩
  rw [hmem]
  simp only [Runtime.dependentNames, Multiset.mem_filterMap, Finset.mem_val, Finset.mem_erase,
    mem_bundlesDependingOnAny, Runtime.dependentName, getBundleDescriptor_eq,
    Option.map_eq_some_iff]
  constructor
  · rintro ⟨name, x, ⟨hx, hdeps⟩, d, hd, -⟩
    exact ⟨x, hx, by simp [hd], hdeps⟩
  · rintro ⟨x, hx, hrecord, hdeps⟩
    obtain ⟨d, hd⟩ := Option.isSome_iff_exists.mp hrecord
    exact ⟨d.name, x, ⟨hx, hdeps⟩, d, hd, rfl⟩

/-- The critical section fails and changes nothing, or invalidates. -/
theorem invalidateRegistered_cases (rt : Runtime) (p : BundleId) (d : BundleDescriptor) :
    (∃ live, rt.invalidateRegistered p d = (.error (.internalPluginInUse d.name live), rt)) ∨
    (rt.invalidateRegistered p d).1 = .ok () ∧
      (rt.invalidateRegistered p d).2.registry.data = (rt.registry.invalidateBundle p).2.data ∧
      (rt.invalidateRegistered p d).2.registry.published
        = (rt.registry.invalidateBundle p).2.published := by
  unfold Runtime.invalidateRegistered
  dsimp only
  split
  · exact Or.inl ⟨_, rfl⟩
  · refine Or.inr ⟨rfl, ?_, ?_⟩ <;>
      (unfold invalidateBundle; dsimp only; cases rt.registry.data.bundleData.lookup p <;> rfl)

theorem reclaimViaLoader_error {hooks : Hooks} {loaderName : Option String} {e : RuntimeError}
    (h : Runtime.reclaimViaLoader hooks p loaderName = .error e) :
    ∃ name hook err, loaderName = some name ∧ hooks name = some hook ∧ hook p = .error err ∧
      e = .loader err := by
  unfold Runtime.reclaimViaLoader at h
  cases loaderName with
  | none => cases h
  | some name =>
    dsimp only at h
    cases hhook : hooks name with
    | none =>
      rw [hhook] at h
      cases h
    | some hook =>
      rw [hhook] at h
      dsimp only at h
      cases hres : hook p with
      | ok u =>
        rw [hres] at h
        cases h
      | error err =>
        rw [hres] at h
        cases h
        exact ⟨name, hook, err, rfl, hhook, hres, rfl⟩

/-- The ends of `unload_bundle`. -/
theorem unloadBundle_cases (hooks : Hooks) (thread : ThreadId) (rt : Runtime) (p : BundleId) :
    (∃ e, Runtime.unloadBundle hooks thread rt p = (.error e, rt) ∧
      ((∃ provider dependents, e = .dependencyInUse provider dependents) ↔
        (rt.registry.getBundleDescriptor p).isSome ∧ HasDependent rt.registry p)) ∨
    ∃ d, rt.registry.getBundleDescriptor p = some d ∧ ¬ HasDependent rt.registry p ∧
      (rt.invalidateRegistered p d).1 = .ok () ∧
      Runtime.unloadBundle hooks thread rt p
        = (Runtime.reclaimViaLoader hooks p (rt.bundleLoaderName d.name),
            (rt.invalidateRegistered p d).2) := by
  unfold Runtime.unloadBundle
  cases hd : rt.registry.getBundleDescriptor p with
  | none => exact Or.inl ⟨_, rfl, by simp⟩
  | some d =>
    dsimp only
    by_cases hdep : HasDependent rt.registry p
    · rw [if_pos (dependentNames_ne_zero.mpr hdep)]
      exact Or.inl ⟨_, rfl, by simp [hdep]⟩
    · rw [if_neg (fun h => hdep (dependentNames_ne_zero.mp h))]
      unfold Runtime.unloadRegisteredBundle
      cases haff : rt.ensureRegisteredBundleResidentAffinity thread p d.name with
      | error e =>
        refine Or.inl ⟨e, rfl, ?_⟩
        -- The affinity check has one error of its own.
        unfold Runtime.ensureRegisteredBundleResidentAffinity at haff
        cases hres : rt.registry.internalPluginResidents.lookup p with
        | none =>
          rw [hres] at haff
          cases haff
        | some resident =>
          rw [hres] at haff
          dsimp only at haff
          split at haff
          · cases haff
            simp [hdep]
          · cases haff
      | ok u =>
        rcases invalidateRegistered_cases rt p d with ⟨live, heq⟩ | ⟨hok, -⟩
        · refine Or.inl ⟨.internalPluginInUse d.name live, ?_, by simp [hdep]⟩
          dsimp only
          rw [heq]
        · refine Or.inr ⟨d, rfl, hdep, hok, ?_⟩
          dsimp only
          cases hinv : rt.invalidateRegistered p d with
          | mk result rt' =>
            rw [hinv] at hok
            cases hok
            rfl

/-- The invalidation of a registered bundle. -/
theorem invalidates_of_registered {s : RuntimeStore} (ht : s.Tidy)
    (hrecord : (s.data.descriptorOf p).isSome) :
    ∃ data', (s.invalidateBundle p).2 = s.publish data' ∧ Invalidates s p data' := by
  rcases invalidateBundle_cases s p ht.present ht.consistent.indexed with ⟨hnone, -⟩ | h
  · simp [descriptorOf, hnone] at hrecord
  · exact h

/-- After an invalidation nothing of the bundle is left. -/
theorem gone_of_invalidate {s : RuntimeStore} (ht : s.Tidy) (hn : s.data.NamesLinked)
    (hrecord : (s.data.descriptorOf p).isSome) : Gone (s.invalidateBundle p).2 p := by
  have htidy := (invalidateBundle_effect ht (b := p)).1
  have hnames : (s.invalidateBundle p).2.data.NamesLinked :=
    namesLinked_exec ht.present hn (.invalidateBundle p) trivial
  have hnone : (s.invalidateBundle p).2.data.descriptorOf p = none ∧
      (s.invalidateBundle p).2.data.bundleDeclaredDeps.lookup p = none := by
    obtain ⟨d, hd⟩ := Option.isSome_iff_exists.mp hrecord
    obtain ⟨bd, hbd, -⟩ := Option.map_eq_some_iff.mp hd
    simp [invalidateBundle, hbd, RuntimeStore.publish, descriptorOf]
  obtain ⟨data', heq, hinv⟩ := invalidates_of_registered ht hrecord
  have hslots : ∀ i entry, (s.invalidateBundle p).2.data.entryAt i = some entry →
      entry.bundleId ≠ p := by
    intro i entry hentry howner
    rw [entryAt_eq htidy.present] at hentry
    obtain ⟨r, hr, rfl⟩ := Option.map_eq_some_iff.mp hentry
    have hheld := htidy.consistent.held_of_content hr
    -- The slot list of `p` is empty now.
    rw [show r.owner = p from howner, heq] at hheld
    have hmem : i ∈ data'.catalog.held p := hheld
    rw [hinv.catalog_eq] at hmem
    have hleft : i ∈ s.data.catalog.held p ∧ i ∉ s.data.pluginSlots p := by
      simpa [withdraw] using hmem
    exact hleft.2 hleft.1
  refine ⟨hnone.1, hnone.2, fun name hmem => ?_, hslots, fun cid i hi => ?_⟩
  · obtain ⟨d, hd, -⟩ := hnames name p hmem
    rw [hnone.1] at hd
    cases hd
  · have hidx : (s.invalidateBundle p).2.data.Indexed := htidy.consistent.toIndexed
    obtain ⟨r, hr, -⟩ := hidx.content_of_listed hi
    have hentry := entryAt_eq htidy.present i
    rw [hr, Option.map_some] at hentry
    exact ⟨r.entry, hentry, hslots i r.entry hentry⟩

/-- A slot of the bundle after the invalidation: every handle to it is refused,
the one that was current as stale. -/
theorem stale_of_invalidate {s : RuntimeStore} (ht : s.Tidy)
    (hrecord : (s.data.descriptorOf p).isSome) {i : Nat} {entry : PluginEntry}
    (hentry : s.data.entryAt i = some entry) (howner : entry.bundleId = p) :
    (s.invalidateBundle p).2.resolveGuestContract ⟨i, s.data.generationAt i⟩
        = .error (.staleHandle i) ∧
      ∀ g, ∃ e, (s.invalidateBundle p).2.resolveGuestContract ⟨i, g⟩ = .error e := by
  have htidy := (invalidateBundle_effect ht (b := p)).1
  obtain ⟨data', heq, hinv⟩ := invalidates_of_registered ht hrecord
  rw [heq] at htidy ⊢
  rw [entryAt_eq ht.present] at hentry
  obtain ⟨r, hr, rfl⟩ := Option.map_eq_some_iff.mp hentry
  have hheld : i ∈ s.data.pluginSlots p := by
    have := ht.consistent.held_of_content hr
    rwa [show r.owner = p from howner] at this
  have hdead : data'.catalog.content i = none := by
    rw [hinv.catalog_eq]
    simp [withdraw, hheld]
  have hgen : data'.generationAt i = wrappingSucc (s.data.generationAt i) := by
    have hvacates := hinv.vacates (ht.consistent.held_nodup p) fun j hj => by
      obtain ⟨r', hr', -⟩ := ht.consistent.content_of_held hj
      simp [hr']
    rw [hvacates.generation i, if_pos ⟨by simp [hr], hdead⟩]
  have hlt : i < data'.slots.length := by
    rw [hinv.length]
    exact lt_length_of_content (by simp [hr])
  have hslot := List.getElem?_eq_getElem hlt
  -- The published slot carries the bumped generation and no interface.
  have hview : (s.publish data').published.slots[i]?
      = some ⟨wrappingSucc (s.data.generationAt i), none⟩ := by
    have hentry' : data'.slots[i].entry = none := by
      have := entryAt_eq htidy.present i
      rw [show (s.publish data').data = data' from rfl, hdead] at this
      simpa [entryAt, hslot] using this
    have hgen' : data'.slots[i].generation = wrappingSucc (s.data.generationAt i) := by
      rw [← hgen]
      simp [generationAt, hslot]
    rw [htidy.mirrors, show (s.publish data').data = data' from rfl]
    simp [ReadView.rebuild, hslot, PluginSlot.view, hentry', hgen']
  refine ⟨?_, fun g => ?_⟩
  · simp only [resolveGuestContract, hview]
    rw [if_pos (wrappingSucc_ne _).symm]
  · simp only [resolveGuestContract, hview]
    split
    · exact ⟨_, rfl⟩
    · exact ⟨_, rfl⟩

/-- The slots of other bundles resolve as before. -/
theorem resolve_of_foreignKept {s s' : RuntimeStore} (hm : s.Mirrors) (hm' : s'.Mirrors)
    (h : ForeignKept s.data p s'.data) {i : Nat} {entry : PluginEntry}
    (hentry : s.data.entryAt i = some entry) (hb : entry.bundleId ≠ p) (g : Nat) :
    s'.resolveGuestContract ⟨i, g⟩ = s.resolveGuestContract ⟨i, g⟩ := by
  obtain ⟨slot, hslot, hsome⟩ := Option.bind_eq_some_iff.mp hentry
  have hview : s'.published.slots[i]? = s.published.slots[i]? := by
    rw [hm, hm']
    simp [ReadView.rebuild, hslot, (h i slot entry hslot hsome hb).1]
  simp only [resolveGuestContract, hview]

theorem unloadsAlone (hooks : Hooks) (thread : ThreadId) (ht : rt.registry.Tidy)
    (hn : rt.registry.data.NamesLinked) : UnloadsAlone hooks thread rt p := by
  rcases unloadBundle_cases hooks thread rt p with
    ⟨e, heq, hiff⟩ | ⟨d, hd, hdep, hok, heq⟩
  · -- The call fails before the invalidation.
    refine ⟨?_, fun _ _ => Or.inl (by rw [heq]), ?_, ?_, ?_⟩
    · rw [heq, ← hiff]
      simp
    all_goals
      intro hcontra
      rw [heq] at hcontra
      cases hcontra
  · -- The bundle is invalidated. Only its hook can still fail.
    have hrecord : (rt.registry.data.descriptorOf p).isSome := by
      rw [← getBundleDescriptor_eq, hd]
      rfl
    obtain ⟨hdata, hpub⟩ : (rt.invalidateRegistered p d).2.registry.data
          = (rt.registry.invalidateBundle p).2.data ∧
        (rt.invalidateRegistered p d).2.registry.published
          = (rt.registry.invalidateBundle p).2.published := by
      rcases invalidateRegistered_cases rt p d with ⟨live, herr⟩ | ⟨-, h⟩
      · rw [herr] at hok
        cases hok
      · exact h
    have hresolve : ∀ handle, (rt.invalidateRegistered p d).2.registry.resolveGuestContract handle
        = (rt.registry.invalidateBundle p).2.resolveGuestContract handle := by
      intro handle
      simp only [resolveGuestContract, hpub]
    have hleaves : Leaves p rt.registry.data (rt.registry.invalidateBundle p).2.data := by
      obtain ⟨data', hinv', hinv⟩ := invalidates_of_registered ht hrecord
      rw [hinv']
      exact hinv.leaves ht
    have htidy := (invalidateBundle_effect ht (b := p)).1
    refine ⟨?_, ?_, ?_, ?_, ?_⟩
    · rw [heq]
      constructor
      · rintro ⟨provider, dependents, herr⟩
        obtain ⟨_, _, err, -, -, -, he⟩ := reclaimViaLoader_error herr
        cases he
      · exact fun h => absurd h.2 hdep
    · intro e herr
      rw [heq] at herr
      obtain ⟨name, hook, err, hname, hhook, hres, he⟩ := reclaimViaLoader_error herr
      exact Or.inr ⟨d, name, hook, err, hd, hname, hhook, hres, he⟩
    · intro _ i entry hentry howner
      rw [heq]
      simp only [hresolve]
      exact stale_of_invalidate ht hrecord hentry howner
    · intro _
      rw [heq]
      have hgone := gone_of_invalidate ht hn hrecord
      constructor
      · rw [hdata]
        exact hgone.record
      · rw [hdata]
        exact hgone.dependencies
      · rw [hdata]
        exact hgone.names
      · rw [hdata]
        exact hgone.slots
      · rw [hdata]
        exact hgone.index
    · intro _
      rw [heq]
      simp only [hdata, hresolve]
      exact ⟨hleaves, fun i entry hentry hb g =>
        resolve_of_foreignKept ht.mirrors htidy.mirrors hleaves.foreign hentry hb g⟩

end

/-! ### The locked sections in a row -/

section
variable (hooks : Hooks) (thread : ThreadId) (rt : Runtime) (p : BundleId)

/-- Reading the names of the dependents, in any order. -/
theorem naming_advances (d : BundleDescriptor) (remaining : Finset BundleId)
    (dependents : Multiset String) :
    ∃ deps : List BundleId,
      run (UnloadSystem.exec hooks thread p) ⟨rt, .naming d remaining dependents⟩
          (deps.map UnloadStep.advance)
        = ⟨rt, .naming d ∅ (remaining.val.filterMap rt.dependentName + dependents)⟩ := by
  induction remaining using Finset.induction_on generalizing dependents with
  | empty => exact ⟨[], by simp⟩
  | insert x rest hx ih =>
    obtain ⟨deps, hdeps⟩ := ih (rt.addDependentName x dependents)
    refine ⟨x :: deps, ?_⟩
    have hfirst : UnloadSystem.exec hooks thread p ⟨rt, .naming d (insert x rest) dependents⟩
        (.advance x) = ⟨rt, .naming d rest (rt.addDependentName x dependents)⟩ := by
      simp only [UnloadSystem.exec, UnloadSystem.advance]
      rw [if_neg (Finset.insert_ne_empty x rest), if_pos (Finset.mem_insert_self x rest),
        Finset.erase_insert hx]
    rw [List.map_cons, run_cons, hfirst, hdeps, Finset.insert_val_of_notMem hx]
    unfold Runtime.addDependentName
    cases hname : rt.dependentName x with
    | none => rw [Multiset.filterMap_cons_none _ _ hname]
    | some name => rw [Multiset.filterMap_cons_some _ _ _ hname, Multiset.cons_add,
        Multiset.add_cons]

/-- The critical sections of the unload, taken in a row, are `unloadBundle`. -/
theorem advances_unloadBundle :
    ∃ deps : List BundleId,
      run (UnloadSystem.exec hooks thread p) ⟨rt, .idle⟩ (deps.map UnloadStep.advance)
        = ⟨(Runtime.unloadBundle hooks thread rt p).2,
            .returned (Runtime.unloadBundle hooks thread rt p).1⟩ := by
  cases hd : rt.registry.getBundleDescriptor p with
  | none =>
    refine ⟨[p], ?_⟩
    simp [run, UnloadSystem.exec, UnloadSystem.advance, Runtime.unloadBundle, hd]
  | some d =>
    -- The first three sections read, then the names are read one by one.
    have hreads : run (UnloadSystem.exec hooks thread p) ⟨rt, .idle⟩
        ([p, p, p].map UnloadStep.advance)
          = ⟨rt, .naming d ((rt.registry.bundlesDependingOnAny
              (rt.registry.bundleExportedContracts p)).erase p) 0⟩ := by
      simp [run, UnloadSystem.exec, UnloadSystem.advance, hd]
    obtain ⟨deps, hdeps⟩ := naming_advances hooks thread rt p d
      ((rt.registry.bundlesDependingOnAny (rt.registry.bundleExportedContracts p)).erase p) 0
    rw [add_zero] at hdeps
    have hnames : run (UnloadSystem.exec hooks thread p) ⟨rt, .idle⟩
        (([p, p, p] ++ deps).map UnloadStep.advance)
          = ⟨rt, .naming d ∅ (rt.dependentNames p)⟩ := by
      rw [List.map_append, run_append, hreads, hdeps]
      rfl
    have hlast : ∃ rest : List BundleId,
        run (UnloadSystem.exec hooks thread p) ⟨rt, .naming d ∅ (rt.dependentNames p)⟩
            (rest.map UnloadStep.advance)
          = ⟨(Runtime.unloadBundle hooks thread rt p).2,
              .returned (Runtime.unloadBundle hooks thread rt p).1⟩ := by
      by_cases hzero : rt.dependentNames p = 0
      · cases haff : rt.ensureRegisteredBundleResidentAffinity thread p d.name with
        | error e =>
          refine ⟨[p, p], ?_⟩
          simp [run, UnloadSystem.exec, UnloadSystem.advance, Runtime.unloadBundle,
            Runtime.unloadRegisteredBundle, hd, hzero, haff]
        | ok u =>
          cases hinv : rt.invalidateRegistered p d with
          | mk result rt' =>
            cases result with
            | error e =>
              refine ⟨[p, p, p], ?_⟩
              simp [run, UnloadSystem.exec, UnloadSystem.advance, Runtime.unloadBundle,
                Runtime.unloadRegisteredBundle, hd, hzero, haff, hinv]
            | ok u =>
              refine ⟨[p, p, p, p], ?_⟩
              simp [run, UnloadSystem.exec, UnloadSystem.advance, Runtime.unloadBundle,
                Runtime.unloadRegisteredBundle, hd, hzero, haff, hinv]
      · refine ⟨[p], ?_⟩
        simp [run, UnloadSystem.exec, UnloadSystem.advance, Runtime.unloadBundle, hd, hzero]
    obtain ⟨rest, hrest⟩ := hlast
    exact ⟨[p, p, p] ++ deps ++ rest, by rw [List.map_append, run_append, hnames, hrest]⟩

end

/-! ### The unload among other threads -/

/-- What the unload has read so far is still so. -/
def UnloadPhase.Holds (p : BundleId) (s : RuntimeStore) : UnloadPhase → Prop
  | .exported _ contracts          => contracts = s.bundleExportedContracts p
  | .naming _ remaining dependents => dependents ≠ 0 ∨
      ∀ x, x ≠ p → Declares s.data x (s.bundleExportedContracts p) → x ∈ remaining
  | .admitted _                    => ¬ HasDependent s p
  | .checked _ _                   => ¬ HasDependent s p
  | _                              => True

/-- The invariant of the runs that meet the condition. -/
structure Watched (p : BundleId) (s : UnloadSystem) : Prop where
  tidy : s.runtime.registry.Tidy
  linked : s.runtime.registry.data.NamesLinked
  holds : s.phase.Holds p s.runtime.registry

theorem watched_new (p : BundleId) : Watched p UnloadSystem.new :=
  ⟨tidy_new, namesLinked_new, trivial⟩

section
variable {hooks : Hooks} {thread : ThreadId} {p : BundleId}

/-- Before the dependents are read a call of another bundle only has to leave the
exports; after that it also brings in no dependency on them. -/
theorem UnloadPhase.Holds.exec {phase : UnloadPhase} {s : RuntimeStore} {op : StoreOp}
    (h : phase.Holds p s) (ht : s.Tidy) (hop : TidyStep s op)
    (hother : phase.Running → op.bundleId ≠ p)
    (hbrings : phase.Decided → Disjoint (broughtDeps s.data op) (s.bundleExportedContracts p)) :
    phase.Holds p (s.exec op) := by
  have hexports : phase.Running →
      (s.exec op).bundleExportedContracts p = s.bundleExportedContracts p := fun hrun =>
    (exec_leaves ht hop).bundleExportedContracts_eq ht.consistent (hother hrun).symm
  -- A dependent after the call was one before it.
  have hdeclares : phase.Decided → ∀ x contracts, contracts = s.bundleExportedContracts p →
      Declares (s.exec op).data x contracts → Declares s.data x contracts := by
    rintro hdec x contracts rfl hx
    rcases declares_of_exec ht.present hx with hx | ⟨-, hbrought⟩
    · exact hx
    · exact absurd (hbrings hdec) hbrought
  have hnone : phase.Running → phase.Decided → ¬ HasDependent s p →
      ¬ HasDependent (s.exec op) p := by
    rintro hrun hdec hno ⟨x, hx, hdep⟩
    rw [hexports hrun] at hdep
    exact hno ⟨x, hx, hdeclares hdec x _ rfl hdep⟩
  cases phase with
  | exported d contracts => exact Eq.trans h (hexports trivial).symm
  | naming d remaining dependents =>
    rcases h with hzero | hremaining
    · exact Or.inl hzero
    · refine Or.inr fun x hx hdep => hremaining x hx ?_
      rw [hexports trivial] at hdep
      exact hdeclares trivial x _ rfl hdep
  | admitted d => exact hnone trivial trivial h
  | checked d loaderName => exact hnone trivial trivial h
  | idle => trivial
  | described d => trivial
  | reclaiming loaderName => trivial
  | returned result => trivial

/-- A locked section of the unload. -/
theorem watched_advance {s : UnloadSystem} (h : Watched p s) (dep : BundleId) :
    Watched p (s.advance hooks thread p dep) := by
  obtain ⟨rt, phase⟩ := s
  obtain ⟨ht, hn, hholds⟩ := h
  cases phase with
  | idle =>
    simp only [UnloadSystem.advance]
    split
    · exact ⟨ht, hn, trivial⟩
    · exact ⟨ht, hn, trivial⟩
  | described d => exact ⟨ht, hn, rfl⟩
  | exported d contracts =>
    refine ⟨ht, hn, Or.inr fun x hx hdep => ?_⟩
    have hcontracts : contracts = rt.registry.bundleExportedContracts p := hholds
    exact Finset.mem_erase.mpr ⟨hx, mem_bundlesDependingOnAny.mpr (hcontracts ▸ hdep.2)⟩
  | naming d remaining dependents =>
    simp only [UnloadSystem.advance]
    by_cases hempty : remaining = ∅
    · subst hempty
      rw [if_pos rfl]
      split
      · exact ⟨ht, hn, trivial⟩
      · rename_i hzero
        refine ⟨ht, hn, ?_⟩
        rintro ⟨x, hx, hdep⟩
        rcases hholds with hne | hremaining
        · exact hzero hne
        · exact absurd (hremaining x hx hdep) (Finset.notMem_empty x)
    · rw [if_neg hempty]
      split
      · refine ⟨ht, hn, ?_⟩
        -- The dependent whose name is read leaves the set and joins the names.
        unfold Runtime.addDependentName
        cases hname : rt.dependentName dep with
        | some name => exact Or.inl (Multiset.cons_ne_zero)
        | none =>
          rcases hholds with hne | hremaining
          · exact Or.inl hne
          · refine Or.inr fun x hx hdep => Finset.mem_erase.mpr ⟨?_, hremaining x hx hdep⟩
            rintro rfl
            obtain ⟨hrecord, -⟩ := hdep
            rw [← getBundleDescriptor_eq] at hrecord
            simp [Runtime.dependentName] at hname
            simp [hname] at hrecord
      · exact ⟨ht, hn, hholds⟩
  | admitted d =>
    simp only [UnloadSystem.advance]
    split
    · exact ⟨ht, hn, trivial⟩
    · exact ⟨ht, hn, hholds⟩
  | checked d loaderName =>
    have hinv := (invalidateBundle_effect ht (b := p)).1
    have hnames : (rt.registry.invalidateBundle p).2.data.NamesLinked :=
      namesLinked_exec ht.present hn (.invalidateBundle p) trivial
    simp only [UnloadSystem.advance]
    rcases invalidateRegistered_cases rt p d with ⟨live, heq⟩ | ⟨hok, hdata, hpub⟩
    · rw [heq]
      exact ⟨ht, hn, trivial⟩
    · cases hres : rt.invalidateRegistered p d with
      | mk result rt' =>
        rw [hres] at hok hdata hpub
        cases hok
        exact ⟨hinv.congr hdata hpub, by rwa [show rt'.registry.data = _ from hdata], trivial⟩
  | reclaiming loaderName => exact ⟨ht, hn, trivial⟩
  | returned result => exact ⟨ht, hn, trivial⟩

/-- One step of a run that meets the condition. -/
theorem watched_exec {s : UnloadSystem} {step : UnloadStep} (h : Watched p s)
    (hstep : Guards p s step) : Watched p (s.exec hooks thread p step) := by
  cases step with
  | advance dep => exact watched_advance h dep
  | other op =>
    obtain ⟨htidy, hname, hother, hbrings⟩ := hstep
    exact ⟨(exec_effect h.tidy htidy).1,
      namesLinked_exec h.tidy.present h.linked _ hname,
      h.holds.exec h.tidy htidy hother hbrings⟩
  | touch beside =>
    refine ⟨h.tidy.congr rfl rfl, h.linked, ?_⟩
    -- The phases speak about the locked data only.
    exact h.holds

/-- When the unload invalidates, no dependent is registered. -/
theorem safe_of_watched {s : UnloadSystem} {step : UnloadStep} (h : Watched p s) :
    Safe p s step := by
  cases step with
  | advance dep =>
    intro d loaderName hphase _
    have hholds := h.holds
    rw [hphase] at hholds
    exact hholds
  | other op => trivial
  | touch beside => trivial

end

/-- In every run that meets the condition no unload strands a dependent, and an
unload alone does what it should in the state reached. -/
theorem unload_run (hooks : Hooks) (thread : ThreadId) (p : BundleId) (steps : List UnloadStep)
    (hsteps : Steps (UnloadSystem.exec hooks thread p) (Guards p) UnloadSystem.new steps) :
    Steps (UnloadSystem.exec hooks thread p) (Safe p) UnloadSystem.new steps ∧
      UnloadsAlone hooks thread
        (run (UnloadSystem.exec hooks thread p) UnloadSystem.new steps).runtime p := by
  have hreached := hsteps.invariant (watched_new p) fun _ _ h hstep => watched_exec h hstep
  exact ⟨hsteps.mono (watched_new p) (fun _ _ h hstep => watched_exec h hstep)
    fun _ _ h _ => safe_of_watched h, unloadsAlone hooks thread hreached.tidy hreached.linked⟩

/-- The commit of a bundle with one plain contract and declared dependencies, by
another thread. -/
def UnloadStep.commitPlain (b : BundleId) (cid : GuestContractId) (contractName : String)
    (ptr : Nat) (dependencies : Finset GuestContractId) : UnloadStep :=
  .other (.registerPreparedBundle { defaultDescriptor b with name := contractName } dependencies
    (ReloadSystem.prepared PluginDescriptor.plain (RawGuestContractInterface.plain cid) ptr
      contractName))

/-- A dependent is loaded and unloaded, another bundle is loaded during the unload,
and the provider is unloaded. -/
theorem unload_run_between_loads :
    let steps : List UnloadStep :=
      [.commitPlain ⟨1⟩ ⟨10⟩ "log" 100 ∅, .commitPlain ⟨2⟩ ⟨11⟩ "kv" 101 {⟨10⟩},
        .other (.invalidateBundle ⟨2⟩), .advance ⟨1⟩, .advance ⟨1⟩, .advance ⟨1⟩,
        .commitPlain ⟨3⟩ ⟨12⟩ "fs" 102 {⟨11⟩}, .advance ⟨1⟩, .advance ⟨1⟩, .advance ⟨1⟩]
    Steps (UnloadSystem.exec (fun _ => none) 7 ⟨1⟩) (Guards ⟨1⟩) UnloadSystem.new steps ∧
      Steps (UnloadSystem.exec (fun _ => none) 7 ⟨1⟩) (Safe ⟨1⟩) UnloadSystem.new steps ∧
      UnloadsAlone (fun _ => none) 7
        (run (UnloadSystem.exec (fun _ => none) 7 ⟨1⟩) UnloadSystem.new steps).runtime ⟨1⟩ :=
  ⟨by decide +kernel, unload_run (fun _ => none) 7 ⟨1⟩ _ (by decide +kernel)⟩

/-- Bundle 2 commits with a dependency on the contract of bundle 1 after the
dependents of bundle 1 were read. The unload goes on and returns `Ok`. -/
theorem dependent_commits_after_check :
    let steps : List UnloadStep :=
      [.commitPlain ⟨1⟩ ⟨10⟩ "log" 100 ∅, .advance ⟨1⟩, .advance ⟨1⟩, .advance ⟨1⟩,
        .advance ⟨1⟩, .commitPlain ⟨2⟩ ⟨11⟩ "kv" 101 {⟨10⟩}, .advance ⟨1⟩]
    ¬ Steps (UnloadSystem.exec (fun _ => none) 7 ⟨1⟩) (Safe ⟨1⟩) UnloadSystem.new
        (steps ++ [.advance ⟨1⟩]) ∧
      (run (UnloadSystem.exec (fun _ => none) 7 ⟨1⟩) UnloadSystem.new
        (steps ++ [.advance ⟨1⟩, .advance ⟨1⟩])).phase = .returned (.ok ()) := by
  intro steps
  refine ⟨fun hsteps => ?_, by decide +kernel⟩
  obtain ⟨-, hsafe, -⟩ := steps_append.mp hsteps
  refine hsafe { defaultDescriptor ⟨1⟩ with name := "log" } none ?_ ?_
    ⟨⟨2⟩, by decide, ?_⟩
  · decide +kernel
  · decide +kernel
  · decide +kernel

end PolyPlug.Lifecycle
