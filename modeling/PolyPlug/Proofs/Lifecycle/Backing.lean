import Mathlib.Logic.Relator
import PolyPlug.Lifecycle.Backing
import PolyPlug.Proofs.Lifecycle.Residents
import PolyPlug.Proofs.Registry.Registrations

/-!
# `PolyPlug.Proofs.Lifecycle.Backing`: the backing of internal plugins

An unload that finds the marker of a bundle and no instance counted takes the backing
away. `BackingSystem.Sound` says why this is right: a published bundle has its marker, and
its count covers its instances, its running constructors and the decrements to come.

Three calls break it. A failed commit or an abort removes the marker of a bundle that is
published meanwhile (`second_commit_frees_backing`), a reload in the name of the bundle
resets its count, and a decrement that is left over from an earlier bundle of the name
lowers it. `Meets` leaves them out, and `backing_run` is the result. A decrement goes to
the bundle whose interface is at the address of the instance's one, so the addresses of
interfaces have to differ (`Refers`).
-/

set_option autoImplicit false

namespace PolyPlug.Registry

open PolyPlug.Abi
open PolyPlug.Lib
open RuntimeStore

/-! ### Addresses in the registry -/

namespace RuntimeStore

/-- A staged contract of the bundle has its interface at this address. -/
def StagedAt (s : RuntimeStore) (ptr : Nat) (b : BundleId) : Prop :=
  ∃ thread, ∃ e ∈ s.preparedOn thread, e.isFor b = true ∧
    ∃ contract ∈ e.contracts, contract.interface.ptr = ptr

/-- A live or a staged interface of the bundle is at this address. -/
def UsesAddress (s : RuntimeStore) (ptr : Nat) (b : BundleId) : Prop :=
  s.data.HasAddress ptr b ∨ s.StagedAt ptr b

end RuntimeStore

section
variable {s : RuntimeStore} {thread : ThreadId}

theorem stagedAt_setPreparedOn {l : List PreparedBundleRegistration} {ptr : Nat} {b : BundleId}
    (h : (s.setPreparedOn thread l).StagedAt ptr b) :
    s.StagedAt ptr b ∨ ∃ e ∈ l, e.isFor b = true ∧
      ∃ contract ∈ e.contracts, contract.interface.ptr = ptr := by
  obtain ⟨t, e, he, hrest⟩ := h
  by_cases ht : t = thread
  · subst ht
    rw [preparedOn_setPreparedOn] at he
    exact Or.inr ⟨e, he, hrest⟩
  · rw [preparedOn_setPreparedOn_ne _ _ _ ht] at he
    exact Or.inl ⟨t, e, he, hrest⟩

/-- A call of a mutator leaves the staged bundles and the residents. -/
theorem exec_beside (s : RuntimeStore) (op : StoreOp) :
    (s.exec op).preparedBundles = s.preparedBundles ∧
      (s.exec op).internalPluginResidents = s.internalPluginResidents := by
  cases op with
  | registerGuestContract descriptor interface ptr contractName b =>
    simp only [RuntimeStore.exec]
    rcases registerGuestContract_cases s descriptor interface ptr contractName b with
      ⟨e, heq⟩ | ⟨contract, handle, data', -, -, -, heq⟩ <;> rw [heq] <;> exact ⟨rfl, rfl⟩
  | registerPreparedBundle descriptor dependencies contracts =>
    simp only [RuntimeStore.exec]
    rcases registerPreparedBundle_cases s descriptor dependencies contracts with
      ⟨e, heq⟩ | ⟨hs, data', -, -, -, -, heq⟩ <;> rw [heq] <;> exact ⟨rfl, rfl⟩
  | applyReloadSwap b old descriptor dependencies =>
    simp only [RuntimeStore.exec]
    rcases applyReloadSwap_cases s b old descriptor dependencies with
      ⟨e, mid, -, heq⟩ | ⟨mid, -, ⟨-, heq⟩ | ⟨bd, -, heq⟩⟩ <;> rw [heq] <;> exact ⟨rfl, rfl⟩
  | invalidateBundle b => exact (Lifecycle.invalidateBundle_bundles s b).2.2
  | declareBundleDependencies b contractIds => exact ⟨rfl, rfl⟩
  | registerBundleMetadata b bundleName version runtime origin dependencies => exact ⟨rfl, rfl⟩
  | beginReload b => exact ⟨rfl, rfl⟩
  | abortReload b old => exact ⟨rfl, rfl⟩

end

end PolyPlug.Registry

namespace PolyPlug.Lifecycle

open PolyPlug.Abi
open PolyPlug.Lib
open PolyPlug.Common
open PolyPlug.Registry
open RuntimeStore

/-! ### Calls that leave the backing -/

namespace Runtime

/-- Residents and roots are those of bundles with a record. -/
structure Housed (rt : Runtime) : Prop where
  present : rt.registry.data.Present
  backed : rt.registry.Backed
  rooted : ∀ b, (rt.internalPluginRoots.lookup b).isSome →
    (rt.registry.data.descriptorOf b).isSome

/-- The call leaves residents and roots, up to the resident of a new bundle. Its interfaces
are at addresses in use before, or at those of `F`. -/
structure KeepsHoused (rt rt' : Runtime) (F : Nat → BundleId → Prop) : Prop where
  housed : rt'.Housed
  addresses : ∀ ptr b, rt'.registry.UsesAddress ptr b →
    rt.registry.UsesAddress ptr b ∨ F ptr b
  records : ∀ b, (rt.registry.data.descriptorOf b).isSome →
    (rt'.registry.data.descriptorOf b).isSome
  residents : ∀ b resident, rt.registry.internalPluginResidents.lookup b = some resident →
    rt'.registry.internalPluginResidents.lookup b = some resident
  roots : rt'.internalPluginRoots = rt.internalPluginRoots

/-- The call leaves the markers and the counts too. -/
structure KeepsBacking (rt rt' : Runtime) (F : Nat → BundleId → Prop) : Prop
    extends KeepsHoused rt rt' F where
  lifecycle : rt'.internalPluginLifecycle = rt.internalPluginLifecycle
  counts : rt'.instanceCounts = rt.instanceCounts

section
variable {rt mid rt' : Runtime} {F G : Nat → BundleId → Prop} {thread : ThreadId}
  {b : BundleId}

/-- A call that leaves the registry and the roots. -/
theorem KeepsHoused.of_registry (h : rt.Housed) (hregistry : rt'.registry = rt.registry)
    (hroots : rt'.internalPluginRoots = rt.internalPluginRoots) :
    rt.KeepsHoused rt' F where
  housed := by
    refine ⟨?_, ?_, ?_⟩
    · rw [hregistry]
      exact h.present
    · rw [hregistry]
      exact h.backed
    · rw [hregistry, hroots]
      exact h.rooted
  addresses ptr b hb := by
    rw [hregistry] at hb
    exact Or.inl hb
  records b hb := by
    rw [hregistry]
    exact hb
  residents b resident hb := by
    rw [hregistry]
    exact hb
  roots := hroots

/-- A call that writes only the stacks or the manifests. -/
theorem KeepsBacking.of_registry (h : rt.Housed) (hregistry : rt'.registry = rt.registry)
    (hroots : rt'.internalPluginRoots = rt.internalPluginRoots)
    (hlifecycle : rt'.internalPluginLifecycle = rt.internalPluginLifecycle)
    (hcounts : rt'.instanceCounts = rt.instanceCounts) : rt.KeepsBacking rt' F where
  toKeepsHoused := .of_registry h hregistry hroots
  lifecycle := hlifecycle
  counts := hcounts

theorem KeepsBacking.trans (h : rt.KeepsBacking mid F) (h' : mid.KeepsBacking rt' G)
    (hfresh : ∀ ptr b, G ptr b → rt.registry.UsesAddress ptr b ∨ F ptr b) :
    rt.KeepsBacking rt' F where
  housed := h'.housed
  addresses ptr b hb := (h'.addresses ptr b hb).elim (h.addresses ptr b) (hfresh ptr b)
  records b hb := h'.records b (h.records b hb)
  residents b resident hb := h'.residents b resident (h.residents b resident hb)
  roots := h'.roots.trans h.roots
  lifecycle := h'.lifecycle.trans h.lifecycle
  counts := h'.counts.trans h.counts

/-- Other staged bundles on a thread. -/
theorem keepsBacking_setStaged (h : rt.Housed) {l : List PreparedBundleRegistration}
    (hl : ∀ e ∈ l, ∀ contract ∈ e.contracts, F contract.interface.ptr ⟨e.manifest.id⟩ ∨
      ∃ e' ∈ rt.registry.preparedOn thread, e'.manifest.id = e.manifest.id ∧
        contract ∈ e'.contracts) :
    rt.KeepsBacking (rt.setStaged thread l) F where
  housed := ⟨h.present, h.backed, h.rooted⟩
  addresses ptr b hb := by
    rcases hb with hlive | hstaged
    · exact Or.inl (Or.inl hlive)
    · rcases stagedAt_setPreparedOn hstaged with hold | ⟨e, he, hfor, contract, hmem, hptr⟩
      · exact Or.inl (Or.inr hold)
      · have hid : e.manifest.id = b.id := of_decide_eq_true hfor
        rcases hl e he contract hmem with hfresh | ⟨e', he', hid', hmem'⟩
        · rw [hptr, hid] at hfresh
          exact Or.inr hfresh
        · exact Or.inl (Or.inr ⟨thread, e', he', decide_eq_true (hid'.trans hid), contract, hmem',
            hptr⟩)
  records _ hb := hb
  residents _ _ hb := hb
  roots := rfl
  lifecycle := rfl
  counts := rfl

/-- A part of the staged bundles of a thread. -/
theorem keepsBacking_unstaged (h : rt.Housed) {l : List PreparedBundleRegistration}
    (hl : l.reverse = (rt.registry.staged thread).eraseP (·.isFor b)) :
    rt.KeepsBacking (rt.setStaged thread l) F := by
  refine keepsBacking_setStaged h fun e he contract hmem => Or.inr ⟨e, ?_, rfl, hmem⟩
  have herase : e ∈ (rt.registry.staged thread).eraseP (·.isFor b) := by
    rw [← hl]
    exact List.mem_reverse.mpr he
  exact List.mem_reverse.mp (List.mem_of_mem_eraseP herase)

/-- A call of a mutator other than an unload. -/
theorem keepsBacking_exec (h : rt.Housed) {o : StoreOp} (hop : ∀ b, o ≠ .invalidateBundle b) :
    rt.KeepsBacking { rt with registry := rt.registry.exec o }
      (fun ptr b => ∃ arc, Provides o b arc ∧ arc.ptr = ptr) := by
  obtain ⟨hstaged, hresidents⟩ := exec_beside rt.registry o
  have hrecords : ∀ b, (rt.registry.data.descriptorOf b).isSome →
      ((rt.registry.exec o).data.descriptorOf b).isSome := fun b hb =>
    isSome_descriptorOf_exec h.present hop hb
  refine
    { housed := ⟨present_call h.present (.op o), fun b hb => hrecords b (h.backed b ?_),
        fun b hb => hrecords b (h.rooted b hb)⟩
      addresses := ?_
      records := hrecords
      residents := ?_
      roots := rfl
      lifecycle := rfl
      counts := rfl }
  · rw [← hresidents]
    exact hb
  · rintro ptr b (⟨g, hg, hptr, howner⟩ | hlist)
    · rcases registrations_exec rt.registry o hg with hold | hnew
      · exact Or.inl (Or.inl ⟨g, hold, hptr, howner⟩)
      · exact Or.inr ⟨g.arc, howner ▸ hnew, hptr⟩
    · refine Or.inl (Or.inr ?_)
      simp only [StagedAt, preparedOn] at hlist ⊢
      rwa [hstaged] at hlist
  · intro b resident hb
    show (rt.registry.exec o).internalPluginResidents.lookup b = _
    rw [hresidents]
    exact hb

theorem prepareGuestContract_ptr {descriptor : PluginDescriptor}
    {interface : RawGuestContractInterface} {contractName : String} {adapterContext ptr : Nat}
    {contract : PreparedGuestContract}
    (h : prepareGuestContract descriptor interface contractName adapterContext ptr = .ok contract) :
    contract.interface.ptr = ptr := by
  unfold prepareGuestContract at h
  split at h
  · cases h
  · split at h
    · cases h
    · cases h
      rfl

/-- A registration of a guest uses the address of its copy. -/
theorem keepsBacking_stageOrRegister (h : rt.Housed) (thread : ThreadId) (b : BundleId)
    (descriptor : PluginDescriptor) (interface : RawGuestContractInterface) (ptr : Nat)
    (contractName : String) :
    rt.KeepsBacking { rt with registry := (RuntimeStore.stageOrRegister rt.registry thread b
        descriptor interface ptr contractName).2 } (fun p x => p = ptr ∧ x = b) := by
  unfold RuntimeStore.stageOrRegister
  split
  · rcases stageGuestContract_cases rt.registry thread b descriptor interface ptr contractName with
      ⟨e, heq, -⟩ | ⟨contract, e, l, hprep, hfind, hl, heq⟩
    · rw [heq]
      exact .of_registry h rfl rfl rfl rfl
    · rw [heq]
      refine keepsBacking_setStaged h fun e' he' c hc => ?_
      have hmem : e' ∈ modifyFirst (·.isFor b) (·.stage contract) (rt.registry.staged thread) := by
        rw [← hl]
        exact List.mem_reverse.mpr he'
      rcases mem_modifyFirst hmem with hold | ⟨x, hx, hfor, rfl⟩
      · exact Or.inr ⟨e', List.mem_reverse.mp hold, rfl, hc⟩
      · rcases List.mem_append.mp hc with hold | hnew
        · exact Or.inr ⟨x, List.mem_reverse.mp hx, rfl, hold⟩
        · rw [List.mem_singleton.mp hnew]
          have hid : x.manifest.id = b.id := of_decide_eq_true hfor
          exact Or.inl ⟨prepareGuestContract_ptr hprep, congrArg BundleId.mk hid⟩
  · have hexec := keepsBacking_exec h
      (o := .registerGuestContract descriptor interface ptr contractName b) nofun
    refine (KeepsBacking.of_registry h rfl rfl rfl rfl).trans hexec ?_
    rintro p x ⟨arc, ⟨hb, contract, hprep, rfl⟩, rfl⟩
    exact Or.inr ⟨prepareGuestContract_ptr hprep, hb.symm⟩

/-- The staged bundle of a commit is taken, and its contracts get live. -/
theorem keepsBacking_commit (h : rt.Housed) (thread : ThreadId) (b : BundleId)
    (opts : LoadOptions) :
    rt.KeepsBacking (rt.commitPreparedBundleTransactionWithHandles thread b opts).2 F ∧
    (∀ handles, (rt.commitPreparedBundleTransactionWithHandles thread b opts).1 = .ok handles →
      rt.registry.data.descriptorOf b = none ∧
      ((rt.commitPreparedBundleTransactionWithHandles thread b
        opts).2.registry.data.descriptorOf b).isSome) := by
  rcases commit_cases rt thread b opts with ⟨-, heq⟩ | ⟨e, l, hfind, hl, heq⟩
  · rw [heq]
    exact ⟨.of_registry h rfl rfl rfl rfl, nofun⟩
  · rw [heq]
    have htaken : rt.KeepsBacking (rt.setStaged thread l) F := keepsBacking_unstaged h hl
    rcases publishPrepared_ends (rt.setStaged thread l) b e opts with
      ⟨error, heq⟩ | ⟨version, handles, registry, hregister, heq⟩
    · rw [heq]
      exact ⟨htaken, nofun⟩
    · rw [heq]
      have hmem : e ∈ rt.registry.preparedOn thread :=
        List.mem_reverse.mp (List.mem_of_find?_eq_some hfind)
      have hfor : e.isFor b = true := List.find?_some hfind
      -- The registration.
      have hexec := keepsBacking_exec htaken.housed
        (o := .registerPreparedBundle (preparedDescriptor e b version)
          (preparedDependencies e.manifest) e.contracts) nofun
      simp only [RuntimeStore.exec, hregister] at hexec
      have hregistered := htaken.trans hexec fun ptr x hx => by
        obtain ⟨arc, ⟨rfl, contract, hc, rfl⟩, hptr⟩ := hx
        exact Or.inl (Or.inr ⟨thread, e, hmem, hfor, contract, hc, hptr⟩)
      obtain ⟨hnew, hrecord⟩ : rt.registry.data.descriptorOf b = none ∧
          (registry.data.descriptorOf b).isSome := by
        rcases registerPreparedBundle_cases (rt.setStaged thread l).registry
            (preparedDescriptor e b version) (preparedDependencies e.manifest) e.contracts with
          ⟨error, hcase⟩ | ⟨hs, data', -, -, hnone, hins, hcase⟩
        · rw [hregister] at hcase
          cases hcase
        · rw [hregister] at hcase
          cases hcase
          refine ⟨Option.map_eq_none_iff.mpr hnone, ?_⟩
          show (data'.descriptorOf b).isSome
          rw [(sameBundles_insertAll hins).descriptorOf_eq]
          simp [insertBundle, RuntimeStoreData.descriptorOf, preparedDescriptor]
      refine ⟨hregistered.trans (G := F) ?_ fun ptr x hx => Or.inr hx,
        fun _ _ => ⟨hnew, hrecord⟩⟩
      -- The resident joins the map.
      have hnone : registry.internalPluginResidents.lookup b = none := by
        cases hres : registry.internalPluginResidents.lookup b with
        | none => rfl
        | some resident =>
          have hbeside := (exec_beside (rt.setStaged thread l).registry
            (.registerPreparedBundle (preparedDescriptor e b version)
              (preparedDependencies e.manifest) e.contracts)).2
          simp only [RuntimeStore.exec, hregister] at hbeside
          rw [hbeside] at hres
          have hsome := h.backed b (by
            show (rt.registry.internalPluginResidents.lookup b).isSome
            rw [show rt.registry.internalPluginResidents.lookup b = some resident from hres]
            rfl)
          rw [hnew] at hsome
          cases hsome
      refine
        { housed := ⟨hexec.housed.present, fun x hx => ?_, hexec.housed.rooted⟩
          addresses := fun _ _ hx => Or.inl hx
          records := fun _ hx => hx
          residents := fun x resident hx => ?_
          roots := rfl
          lifecycle := rfl
          counts := rfl }
      · cases hres : e.resident with
        | none =>
          rw [hres] at hx
          exact hexec.housed.backed x hx
        | some resident =>
          rw [hres] at hx
          dsimp only at hx
          rw [lookup_insert_eq] at hx
          split at hx
          · rename_i hxb
            rw [hxb]
            exact hrecord
          · exact hexec.housed.backed x hx
      · cases hres : e.resident with
        | none => exact hx
        | some own =>
          dsimp only
          rw [lookup_insert_eq, if_neg]
          · exact hx
          · rintro rfl
            rw [hnone] at hx
            cases hx

theorem keepsBacking_discard (h : rt.Housed) (thread : ThreadId) (b : BundleId) :
    rt.KeepsBacking (rt.discardPreparedBundle thread b) F := by
  rcases discardPreparedBundle_cases rt thread b with ⟨-, heq⟩ | ⟨e, l, -, hl, heq⟩
  · rw [heq]
    exact .of_registry h rfl rfl rfl rfl
  · rw [heq]
    exact keepsBacking_unstaged h hl

theorem keepsBacking_finishLoad (h : rt.Housed) (env : LoadEnv) (b : BundleId)
    (opts : LoadOptions) (loaded : Except LoaderError Unit) :
    rt.KeepsBacking (rt.finishLoad env b opts loaded).2 F := by
  unfold finishLoad
  cases loaded with
  | error e => exact keepsBacking_discard h env.thread b
  | ok u =>
    have hcommit := (keepsBacking_commit (F := F) h env.thread b opts).1
    dsimp only
    rcases heq : rt.commitPreparedBundleTransactionWithHandles env.thread b opts with ⟨_ | _, rt'⟩
    · rw [heq] at hcommit
      exact hcommit.trans (keepsBacking_discard (F := F) hcommit.housed env.thread b)
        fun _ _ hx => Or.inr hx
    · rw [heq] at hcommit
      exact hcommit

/-- A call of a mutator that registers nothing. -/
theorem keepsBacking_silent (h : rt.Housed) {o : StoreOp} (hop : ∀ b, o ≠ .invalidateBundle b)
    (hsilent : ∀ b arc, ¬ Provides o b arc) :
    rt.KeepsBacking { rt with registry := rt.registry.exec o } F := by
  refine (KeepsBacking.of_registry h rfl rfl rfl rfl).trans (keepsBacking_exec h hop) ?_
  rintro ptr b ⟨arc, hprovides, -⟩
  exact absurd hprovides (hsilent b arc)

/-- A swap and an abort of a reload. -/
theorem keepsBacking_swapReload (h : rt.Housed) (replacement : Replacement)
    (slotIndices : List Nat) (loaded : Except LoaderError Unit) :
    rt.KeepsBacking (rt.swapReload replacement slotIndices loaded).2 F := by
  cases loaded with
  | error e =>
    exact keepsBacking_silent h (o := .abortReload replacement.descriptor.id slotIndices) nofun
      nofun
  | ok u =>
    have hswap := keepsBacking_silent (F := F) h
      (o := .applyReloadSwap replacement.descriptor.id slotIndices replacement.descriptor
        replacement.dependencies) nofun nofun
    unfold swapReload
    simp only [RuntimeStore.exec] at hswap ⊢
    rcases heq : rt.registry.applyReloadSwap replacement.descriptor.id slotIndices
      replacement.descriptor replacement.dependencies with ⟨_ | _, registry⟩
    · rw [heq] at hswap
      exact hswap
    · rw [heq] at hswap
      exact hswap.trans (KeepsBacking.of_registry (F := F) hswap.housed rfl rfl rfl rfl)
        fun _ _ hx => Or.inr hx

/-- The begin of a transaction and of a load. -/
theorem keepsBacking_begin (h : rt.Housed) (thread : ThreadId) (manifest : ManifestData)
    (language : SupportedLanguage) (source : BundleSource) :
    rt.KeepsBacking (rt.beginPreparedBundleTransaction thread manifest language source).2
      F := by
  unfold beginPreparedBundleTransaction
  split
  · exact .of_registry h rfl rfl rfl rfl
  · dsimp only
    split
    · exact .of_registry h rfl rfl rfl rfl
    · refine keepsBacking_setStaged (l := rt.registry.preparedOn thread
        ++ [⟨manifest, language, source, [], none⟩]) h fun e he contract hc => ?_
      rcases List.mem_append.mp he with hold | hnew
      · exact Or.inr ⟨e, hold, rfl, hc⟩
      · rw [List.mem_singleton.mp hnew] at hc
        cases hc

theorem keepsBacking_admitLoad (h : rt.Housed) (env : LoadEnv) (manifest : ManifestData)
    (source : BundleSource) : rt.KeepsBacking (rt.admitLoad env manifest source).2 F := by
  unfold admitLoad
  repeat' split
  all_goals first
    | exact .of_registry h rfl rfl rfl rfl
    | exact keepsBacking_begin h _ _ _ _

theorem keepsBacking_attach (h : rt.Housed) (thread : ThreadId) (b : BundleId)
    (resident : InternalPluginResident) :
    rt.KeepsBacking (rt.attachInternalPluginResident thread b resident).2 F := by
  unfold attachInternalPluginResident attachPreparedBundleResident
  split
  · exact .of_registry h rfl rfl rfl rfl
  · cases hpos : rt.registry.preparedPosition thread b with
    | none => exact .of_registry h rfl rfl rfl rfl
    | some position =>
      dsimp only
      by_cases hheld : ((rt.registry.preparedOn thread)[position]?.bind
          PreparedBundleRegistration.resident).isSome
      · rw [if_pos hheld]
        exact .of_registry h rfl rfl rfl rfl
      · rw [if_neg hheld]
        rw [preparedPosition_eq] at hpos
        obtain ⟨-, -, hmodify⟩ := rposition_some hpos
        refine keepsBacking_setStaged (l := (rt.registry.preparedOn thread).modify position fun r =>
          { r with resident := some resident }) h fun e he contract hc => ?_
        have hmem : e ∈ modifyFirst (·.isFor b) (fun r => { r with resident := some resident })
            (rt.registry.staged thread) := by
          rw [staged, ← hmodify]
          exact List.mem_reverse.mpr he
        rcases mem_modifyFirst hmem with hold | ⟨x, hx, -, rfl⟩
        · exact Or.inr ⟨e, List.mem_reverse.mp hold, rfl, hc⟩
        · exact Or.inr ⟨x, List.mem_reverse.mp hx, rfl, hc⟩

end

end Runtime

/-! ### The condition and the property -/

namespace BackingSystem

section
variable (compatibility : Compatibility) (s : BackingSystem)

/-- The constructors of the bundle that run, and its instances. -/
def outstanding (b : BundleId) : Nat :=
  (s.constructing + s.instances).countP fun i => i.bundleId = b

/-- The same, with the decrements of the count that are still to come. -/
def owed (b : BundleId) : Nat :=
  s.outstanding b + s.destroying.countP (fun i => i.bundleId = b) + s.noting.count b

/-- An interface of the bundle is at this address: a live one, a staged one, or the one of
an instance. -/
def Refers (ptr : Nat) (b : BundleId) : Prop :=
  s.host.runtime.registry.UsesAddress ptr b ∨
    ∃ i ∈ s.constructing + s.instances + s.destroying, i.interface = ptr ∧ i.bundleId = b

/-- A commit of the bundle is accepted. -/
def Accepts (thread : ThreadId) (b : BundleId) : Prop :=
  (s.host.runtime.commitPreparedBundleTransactionWithHandles thread b
    ⟨compatibility, false⟩).1.toOption.isSome

/-- A bundle that is published has its marker, and nothing is left of an earlier bundle of
its name. -/
def Clean (b : BundleId) : Prop :=
  b ∈ s.host.runtime.internalPluginLifecycle ∧ s.owed b = 0

/-- The condition on the next section of a call. -/
def SectionMeets : Option Section → Prop
  -- No failed commit and no abort takes the marker of a published bundle away.
  | some (.removeMarker b) => b ∉ s.internal
  -- A reload in the name of a published bundle leaves no instance of it.
  | some (.resetCount b)   => b ∈ s.internal → s.owed b = 0
  | _                      => True

/-- The condition on a step. -/
def Meets : BackingStep → Prop
  | .advance thread => s.SectionMeets (s.todo thread).head?
  | .commit thread b root =>
    s.todo thread = [] → root = none ∨ s.rootsHolder = some thread →
      s.Accepts compatibility thread b → s.Clean b
  | .commitIntoHandles thread b outHandles =>
    s.todo thread = [] →
      s.host.runtime.registry.preparedBundleContractCount thread b = some outHandles →
      s.Accepts compatibility thread b → s.Clean b
  -- The copy of an interface has an address of its own.
  | .register _ _ _ _ ptr => ∀ b, ¬ s.Refers ptr b
  | _ => True

/-- The step takes the backing of the bundle away in the critical section of an unload,
whose result is then `Ok`, unless the loader's hook fails. -/
def Unloads : BackingStep → BundleId → Prop
  | .advanceUnload _ thread _, b => s.todo thread = [] ∧ s.unloading thread = some b
  | _, _                         => False

/-- A root or a resident of the bundle is no longer in the maps. -/
def Loses (rt rt' : Runtime) (b : BundleId) : Prop :=
  (∃ root, rt.internalPluginRoots.lookup b = some root ∧
    rt'.internalPluginRoots.lookup b ≠ some root) ∨
  ∃ resident, rt.registry.internalPluginResidents.lookup b = some resident ∧
    rt'.registry.internalPluginResidents.lookup b ≠ some resident

/-- The backing of internal plugins outlives their instances over one step. -/
structure Keeps (step : BackingStep) : Prop where
  marked : ∀ b ∈ (s.exec compatibility step).internal,
    b ∈ (s.exec compatibility step).host.runtime.internalPluginLifecycle
  unload : ∀ b ∈ s.internal, s.Unloads step b → s.outstanding b = 0
  backing : ∀ b ∈ s.internal,
    Loses s.host.runtime (s.exec compatibility step).host.runtime b → s.outstanding b = 0

/-- The invariant. -/
structure Sound : Prop where
  housed : s.host.runtime.Housed
  marked : s.internal ⊆ s.host.runtime.internalPluginLifecycle
  counted : ∀ b ∈ s.internal, s.owed b ≤ (s.host.runtime.instanceCounts.lookup b).getD 0
  unique : Relator.RightUnique s.Refers
  /-- A root that is to be inserted is that of a published bundle, which has none. -/
  rooting : ∀ thread b root, .insertRoot b root ∈ s.todo thread →
    (s.todo thread = [.pop, .insertRoot b root] ∨ s.todo thread = [.insertRoot b root]) ∧
      s.rootsHolder = some thread ∧
      (s.host.runtime.registry.data.descriptorOf b).isSome ∧
      s.host.runtime.internalPluginRoots.lookup b = none

end

section
variable {s s' : BackingSystem} {P : BundleId → Prop} {F : Nat → BundleId → Prop}
  {thread : ThreadId}

/-- A step keeps the invariant, and only a bundle of `P` loses its backing. -/
structure Progress (s s' : BackingSystem) (P : BundleId → Prop) : Prop where
  sound : s'.Sound
  loses : ∀ b, Loses s.host.runtime s'.host.runtime b → P b

/-- A root that is to be inserted was to be inserted before. -/
def SameRooting (s s' : BackingSystem) : Prop :=
  ∀ thread b root, .insertRoot b root ∈ s'.todo thread →
    .insertRoot b root ∈ s.todo thread ∧ s'.rootsHolder = s.rootsHolder ∧
      (s'.todo thread = s.todo thread ∨ s'.todo thread = [.insertRoot b root])

/-- The same instances, decrements and published bundles. -/
structure SameGuests (s s' : BackingSystem) : Prop where
  constructing : s'.constructing = s.constructing
  instances : s'.instances = s.instances
  destroying : s'.destroying = s.destroying
  noting : s'.noting = s.noting
  internal : s'.internal = s.internal

theorem SameGuests.owed (h : SameGuests s s') (b : BundleId) : s'.owed b = s.owed b := by
  simp only [BackingSystem.owed, outstanding, h.constructing, h.instances, h.destroying, h.noting]

/-- The new addresses are in use for nothing else, and for one bundle each. -/
def Unused (s : BackingSystem) (F : Nat → BundleId → Prop) : Prop :=
  ∀ ptr b, F ptr b → (∀ x, ¬ s.Refers ptr x) ∧ ∀ x, F ptr x → x = b

/-- A step that takes no backing away. -/
theorem Sound.progress (h : s.Sound)
    (hk : s.host.runtime.KeepsHoused s'.host.runtime F) (hfresh : s.Unused F)
    (hguests : ∀ i ∈ s'.constructing + s'.instances + s'.destroying,
      s.Refers i.interface i.bundleId)
    (hmarked : s'.internal ⊆ s'.host.runtime.internalPluginLifecycle)
    (hcounted : ∀ b ∈ s'.internal,
      s'.owed b ≤ (s'.host.runtime.instanceCounts.lookup b).getD 0)
    (hrooting : SameRooting s s') : Progress s s' P := by
  have hrefers : ∀ ptr b, s'.Refers ptr b → s.Refers ptr b ∨ F ptr b := by
    rintro ptr b (hused | ⟨i, hi, rfl, rfl⟩)
    · exact (hk.addresses ptr b hused).imp_left Or.inl
    · exact Or.inl (hguests i hi)
  refine ⟨⟨hk.housed, hmarked, hcounted, ?_, ?_⟩, ?_⟩
  · intro ptr b c hb hc
    rcases hrefers ptr b hb with hold | hnew <;> rcases hrefers ptr c hc with hold' | hnew'
    · exact h.unique hold hold'
    · exact absurd hold ((hfresh ptr c hnew').1 b)
    · exact absurd hold' ((hfresh ptr b hnew).1 c)
    · exact (hfresh ptr c hnew').2 b hnew
  · intro t b root hmem
    obtain ⟨hold, hholder, htodo⟩ := hrooting t b root hmem
    obtain ⟨hshape, hlock, hrecord, hnone⟩ := h.rooting t b root hold
    refine ⟨?_, hholder.trans hlock, hk.records b hrecord, by rw [hk.roots]; exact hnone⟩
    rcases htodo with hsame | hlast
    · rw [hsame]
      exact hshape
    · exact Or.inr hlast
  · rintro b (⟨root, hroot, hlost⟩ | ⟨resident, hresident, hlost⟩)
    · rw [hk.roots] at hlost
      exact absurd hroot hlost
    · exact absurd (hk.residents b resident hresident) hlost

/-- A step that leaves the instances too. -/
theorem Sound.quiet (h : s.Sound)
    (hk : s.host.runtime.KeepsBacking s'.host.runtime F) (hfresh : s.Unused F)
    (hsame : SameGuests s s') (hrooting : SameRooting s s') : Progress s s' P := by
  refine h.progress hk.toKeepsHoused hfresh (fun i hi => ?_) ?_ (fun b hb => ?_) hrooting
  · rw [hsame.constructing, hsame.instances, hsame.destroying] at hi
    exact Or.inr ⟨i, hi, rfl, rfl⟩
  · rw [hsame.internal, hk.lifecycle]
    exact h.marked
  · rw [hsame.internal] at hb
    rw [hsame.owed, hk.counts]
    exact h.counted b hb

theorem unused_false : s.Unused fun _ _ => False := fun _ _ hfalse => hfalse.elim

/-- Nothing changes. -/
theorem Sound.refl (h : s.Sound) : Progress s s P :=
  h.quiet (.of_registry (F := fun _ _ => False) h.housed rfl rfl rfl rfl) unused_false
    ⟨rfl, rfl, rfl, rfl, rfl⟩ fun _ _ _ hmem => ⟨hmem, rfl, Or.inl rfl⟩

/-- The rest of a call has a root to insert only behind its pop. -/
theorem Sound.rooting_rest (h : s.Sound) {next : Section} {rest : List Section}
    (htodo : s.todo thread = next :: rest) {b : BundleId} {root : Nat}
    (hmem : .insertRoot b root ∈ rest) :
    .insertRoot b root ∈ s.todo thread ∧ next = .pop ∧ rest = [.insertRoot b root] := by
  have hold : .insertRoot b root ∈ s.todo thread := htodo ▸ List.mem_cons_of_mem _ hmem
  refine ⟨hold, ?_⟩
  obtain ⟨hshape | hshape, -⟩ := h.rooting thread b root hold
  · rw [htodo] at hshape
    exact List.cons.inj hshape
  · rw [htodo] at hshape
    rw [(List.cons.inj hshape).2] at hmem
    cases hmem

theorem Sound.sameRooting_rest (h : s.Sound) {next : Section} {rest : List Section}
    (htodo : s.todo thread = next :: rest) (hrest : s'.todo = Function.update s.todo thread rest)
    (hholder : s'.rootsHolder = s.rootsHolder) : SameRooting s s' := by
  intro t b root hmem
  rw [hrest] at hmem ⊢
  by_cases ht : t = thread
  · subst ht
    rw [Function.update_self] at hmem ⊢
    obtain ⟨hold, -, hlast⟩ := h.rooting_rest htodo hmem
    exact ⟨hold, hholder, Or.inr hlast⟩
  · rw [Function.update_of_ne ht] at hmem ⊢
    exact ⟨hmem, hholder, Or.inl rfl⟩

/-- A call that begins leaves no root to insert. -/
theorem sameRooting_begins {sections : List Section}
    (hnone : ∀ b root, .insertRoot b root ∉ sections)
    (hnow : s'.todo = Function.update s.todo thread sections)
    (hholder : s'.rootsHolder = s.rootsHolder) : SameRooting s s' := by
  intro t b root hmem
  rw [hnow] at hmem ⊢
  by_cases ht : t = thread
  · subst ht
    rw [Function.update_self] at hmem
    exact absurd hmem (hnone b root)
  · rw [Function.update_of_ne ht] at hmem ⊢
    exact ⟨hmem, hholder, Or.inl rfl⟩

theorem sameRooting_same (hsame : s'.todo = s.todo) (hholder : s'.rootsHolder = s.rootsHolder) :
    SameRooting s s' := by
  intro t b root hmem
  rw [hsame] at hmem ⊢
  exact ⟨hmem, hholder, Or.inl rfl⟩

/-- One section of a call. -/
theorem progress_section (h : s.Sound) {next : Section} {rest : List Section}
    (htodo : s.todo thread = next :: rest)
    (hmarker : ∀ b, next = .removeMarker b → b ∉ s.internal)
    (hcount : ∀ b, next = .resetCount b → b ∈ s.internal → s.owed b = 0) :
    Progress s (s.runSection thread rest next) P := by
  have hrooting := fun (s' : BackingSystem) (hrest : s'.todo = Function.update s.todo thread rest)
    (hholder : s'.rootsHolder = s.rootsHolder) => h.sameRooting_rest htodo hrest hholder
  -- A section that changes the runtime only.
  have hruntime : ∀ rt, s.host.runtime.KeepsBacking rt (fun _ _ => False) →
      Progress s ((s.withRuntime rt).setTodo thread rest) P := fun rt hk =>
    h.quiet hk unused_false ⟨rfl, rfl, rfl, rfl, rfl⟩ (hrooting _ rfl rfl)
  have hguests : ∀ i ∈ s.constructing + s.instances + s.destroying,
      s.Refers i.interface i.bundleId := fun i hi => Or.inr ⟨i, hi, rfl, rfl⟩
  cases next with
  | insertMarker b =>
    refine h.progress (.of_registry (F := fun _ _ => False) h.housed rfl rfl) unused_false
      hguests ?_ h.counted (hrooting _ rfl rfl)
    exact h.marked.trans (Finset.subset_insert _ _)
  | push b =>
    exact h.quiet (.of_registry (F := fun _ _ => False) h.housed rfl rfl rfl rfl)
      unused_false ⟨rfl, rfl, rfl, rfl, rfl⟩ (hrooting _ rfl rfl)
  | pop =>
    have hpop : s.host.runtime.KeepsBacking (s.host.runtime.popInitBundleId thread)
        (fun _ _ => False) := by
      refine .of_registry h.housed (registry_pop _ _) ?_ ?_ ?_
      all_goals
        unfold Runtime.popInitBundleId
        split <;> rfl
    exact h.quiet hpop unused_false ⟨rfl, rfl, rfl, rfl, rfl⟩ (hrooting _ rfl rfl)
  | removeMarker b =>
    refine h.progress (.of_registry (F := fun _ _ => False) h.housed rfl rfl) unused_false
      hguests (fun x hx => ?_) h.counted (hrooting _ rfl rfl)
    refine Finset.mem_erase.mpr ⟨?_, h.marked hx⟩
    rintro rfl
    exact hmarker x rfl hx
  | insertRoot b root =>
    have hmem : .insertRoot b root ∈ s.todo thread := htodo ▸ List.mem_cons_self
    obtain ⟨hshape, hholder, hrecord, hnone⟩ := h.rooting thread b root hmem
    obtain rfl : rest = [] := by
      rcases hshape with hshape | hshape
      · rw [htodo] at hshape
        cases hshape
      · rw [htodo] at hshape
        exact (List.cons.inj hshape).2
    refine ⟨⟨⟨h.housed.present, h.housed.backed, fun x hx => ?_⟩, h.marked, h.counted, h.unique,
      fun t x root' ht => ?_⟩, fun x hx => ?_⟩
    · change ((s.host.runtime.internalPluginRoots.insert b root).lookup x).isSome at hx
      rw [lookup_insert_eq] at hx
      split at hx
      · rename_i hxb
        rw [hxb]
        exact hrecord
      · exact h.housed.rooted x hx
    · -- The lock of the roots has one holder.
      change .insertRoot x root' ∈ Function.update s.todo thread [] t at ht
      by_cases htt : t = thread
      · subst htt
        rw [Function.update_self] at ht
        cases ht
      · rw [Function.update_of_ne htt] at ht
        obtain ⟨-, hother, -⟩ := h.rooting t x root' ht
        rw [hholder] at hother
        exact absurd (Option.some.inj hother).symm htt
    · rcases hx with ⟨root', hroot, hlost⟩ | ⟨resident, hresident, hlost⟩
      · refine absurd ?_ hlost
        show (s.host.runtime.internalPluginRoots.insert b root).lookup x = _
        rw [lookup_insert_eq, if_neg]
        · exact hroot
        · rintro rfl
          rw [hnone] at hroot
          cases hroot
      · exact absurd hresident hlost
  | discard b => exact hruntime _ (Runtime.keepsBacking_discard h.housed thread b)
  | finishLoad env b opts loaded =>
    exact hruntime _ (Runtime.keepsBacking_finishLoad h.housed env b opts loaded)
  | beginReload b =>
    exact hruntime _ (Runtime.keepsBacking_silent h.housed (o := .beginReload b) nofun nofun)
  | swapReload replacement slotIndices loaded =>
    have hk := Runtime.keepsBacking_swapReload (F := fun _ _ => False) h.housed replacement
      slotIndices loaded
    simp only [runSection]
    rcases heq : s.host.runtime.swapReload replacement slotIndices loaded with ⟨_ | _, rt⟩
    · rw [heq] at hk
      exact hruntime rt hk
    · rw [heq] at hk
      refine h.quiet hk unused_false ⟨rfl, rfl, rfl, rfl, rfl⟩
        (sameRooting_begins (fun b root hmem => ?_) rfl rfl)
      rcases List.mem_cons.mp hmem with hne | hrest
      · cases hne
      · exact absurd (h.rooting_rest htodo hrest).2.1 nofun
  | resetCount b =>
    refine h.progress (.of_registry (F := fun _ _ => False) h.housed rfl rfl) unused_false
      hguests h.marked (fun x hx => ?_) (hrooting _ rfl rfl)
    show s.owed x ≤ ((s.host.runtime.instanceCounts.erase b).lookup x).getD 0
    by_cases hxb : x = b
    · subst hxb
      rw [hcount x rfl hx]
      exact Nat.zero_le _
    · rw [lookup_erase_eq, if_neg hxb]
      exact h.counted x hx

/-- An accepted commit of a bundle that meets the condition, and a refused one. -/
theorem progress_commitPlugin (compatibility : Compatibility) (h : s.Sound) {b : BundleId}
    {root : Option Nat} (hidle : s.todo thread = [])
    (hholder : root = none ∨ s.rootsHolder = some thread)
    (hclean : (s.host.runtime.commitPreparedBundleTransactionWithHandles thread b
        ⟨compatibility, false⟩).1.toOption.isSome →
      b ∈ s.host.runtime.internalPluginLifecycle ∧ s.owed b = 0) :
    Progress s (s.commitPlugin compatibility thread b root) P := by
  obtain ⟨hk, hrecords⟩ := Runtime.keepsBacking_commit (F := fun _ _ => False) h.housed thread b
    ⟨compatibility, false⟩
  unfold commitPlugin
  rcases heq : s.host.runtime.commitPreparedBundleTransactionWithHandles thread b
    ⟨compatibility, false⟩ with ⟨e | handles, rt⟩
  · rw [heq] at hk
    refine h.quiet hk unused_false ⟨rfl, rfl, rfl, rfl, rfl⟩
      (sameRooting_begins (fun x root' hmem => ?_) rfl rfl)
    cases root <;> simp at hmem
  · rw [heq] at hk hrecords hclean
    obtain ⟨hmarker, howed⟩ := hclean rfl
    obtain ⟨hnew, hrecord⟩ := hrecords handles rfl
    have hquiet : Progress s (s.withRuntime rt) P := h.quiet hk unused_false
      ⟨rfl, rfl, rfl, rfl, rfl⟩ (sameRooting_same rfl rfl)
    refine ⟨⟨hk.housed, ?_, fun x hx => ?_, hquiet.sound.unique, fun t x root' hmem => ?_⟩,
      hquiet.loses⟩
    · show insert b s.internal ⊆ rt.internalPluginLifecycle
      rw [hk.lifecycle]
      exact Finset.insert_subset hmarker h.marked
    · rcases Finset.mem_insert.mp hx with rfl | hold
      · show s.owed x ≤ _
        rw [howed]
        exact Nat.zero_le _
      · exact hquiet.sound.counted x hold
    · change .insertRoot x root' ∈ Function.update s.todo thread _ t at hmem
      show (Function.update s.todo thread _ t = _ ∨ Function.update s.todo thread _ t = _) ∧ _
      by_cases ht : t = thread
      · subst ht
        rw [Function.update_self] at hmem ⊢
        cases root with
        | none => simp at hmem
        | some own =>
          simp only [Option.map_some, Option.toList_some, List.mem_cons, List.not_mem_nil,
            or_false, reduceCtorEq, false_or, Section.insertRoot.injEq] at hmem
          obtain ⟨rfl, rfl⟩ := hmem
          refine ⟨Or.inl rfl, hholder.resolve_left nofun, hrecord, ?_⟩
          -- A root is that of a bundle with a record.
          show rt.internalPluginRoots.lookup x = none
          rw [hk.roots]
          cases hroot : s.host.runtime.internalPluginRoots.lookup x with
          | none => rfl
          | some other =>
            have hsome := h.housed.rooted x (by rw [hroot]; rfl)
            rw [hnew] at hsome
            cases hsome
      · rw [Function.update_of_ne ht] at hmem ⊢
        exact hquiet.sound.rooting t x root' hmem

theorem progress_abortPlugin (h : s.Sound) (b : BundleId) :
    Progress s (s.abortPlugin thread b) P := by
  have hk := Runtime.keepsBacking_discard (F := fun _ _ => False) h.housed thread b
  unfold Runtime.discardPreparedBundle at hk
  unfold abortPlugin
  rcases heq : s.host.runtime.registry.discardPreparedBundle thread b with ⟨⟨_ | _, _⟩, registry⟩
  · rw [heq] at hk
    exact h.quiet hk unused_false ⟨rfl, rfl, rfl, rfl, rfl⟩ (sameRooting_same rfl rfl)
  · rw [heq] at hk
    exact h.quiet hk unused_false ⟨rfl, rfl, rfl, rfl, rfl⟩
      (sameRooting_begins (fun x root hmem => by simp at hmem) rfl rfl)

/-- An unload outside its critical section. -/
theorem progress_unloads (h : s.Sound) {unloads : List (BundleId × UnloadPhase)} :
    Progress s (s.setUnloads thread unloads) P :=
  h.quiet (.of_registry (F := fun _ _ => False) h.housed rfl rfl rfl rfl) unused_false
    ⟨rfl, rfl, rfl, rfl, rfl⟩ (sameRooting_same rfl rfl)

/-- The critical section of an unload that is not refused. -/
theorem progress_invalidate (h : s.Sound) {b : BundleId} {d : BundleDescriptor}
    (hholder : s.rootsHolder = none)
    (hok : (s.host.runtime.invalidateRegistered b d).1 = .ok ()) :
    Progress s { s.withRuntime (s.host.runtime.invalidateRegistered b d).2 with
      internal := s.internal \ {b} } (fun x => x = b) := by
  obtain ⟨before, hbefore⟩ : ∃ before : RuntimeStore, before = { s.host.runtime.registry with
    internalPluginResidents := s.host.runtime.registry.internalPluginResidents.erase b } := ⟨_, rfl⟩
  obtain ⟨hregistry, hroots, hlifecycle, hcounts⟩ :
      (s.host.runtime.invalidateRegistered b d).2.registry = (before.invalidateBundle b).2 ∧
      (s.host.runtime.invalidateRegistered b d).2.internalPluginRoots
        = s.host.runtime.internalPluginRoots.erase b ∧
      (s.host.runtime.invalidateRegistered b d).2.internalPluginLifecycle
        = s.host.runtime.internalPluginLifecycle.erase b ∧
      (s.host.runtime.invalidateRegistered b d).2.instanceCounts
        = s.host.runtime.instanceCounts.erase b := by
    unfold Runtime.invalidateRegistered at hok ⊢
    dsimp only at hok ⊢
    split at hok
    · cases hok
    · rename_i hfree
      rw [if_neg hfree, hbefore]
      exact ⟨rfl, rfl, rfl, rfl⟩
  obtain ⟨rt, hrt⟩ : ∃ rt, rt = (s.host.runtime.invalidateRegistered b d).2 := ⟨_, rfl⟩
  rw [← hrt] at hregistry hroots hlifecycle hcounts ⊢
  -- What the call leaves of each map, for the other bundles.
  obtain ⟨hrecords, -, hstaged, hresidents⟩ := invalidateBundle_bundles before b
  rw [← hregistry] at hrecords hstaged hresidents
  have hrecord : ∀ x, x ≠ b → (s.host.runtime.registry.data.descriptorOf x).isSome →
      (rt.registry.data.descriptorOf x).isSome := by
    intro x hx hsome
    rw [hrecords, if_neg hx, hbefore]
    exact hsome
  refine ⟨⟨⟨?_, fun x hx => ?_, fun x hx => ?_⟩, fun x hx => ?_, fun x hx => ?_, ?_,
    fun t x root hmem => ?_⟩, ?_⟩
  · show rt.registry.data.Present
    rw [hregistry]
    refine present_call (s := before) ?_ (.op (.invalidateBundle b))
    rw [hbefore]
    exact h.housed.present
  · change (rt.registry.internalPluginResidents.lookup x).isSome at hx
    rw [hresidents, hbefore, lookup_erase_eq] at hx
    split at hx
    · cases hx
    · rename_i hxb
      exact hrecord x hxb (h.housed.backed x hx)
  · change (rt.internalPluginRoots.lookup x).isSome at hx
    rw [hroots, lookup_erase_eq] at hx
    split at hx
    · cases hx
    · rename_i hxb
      exact hrecord x hxb (h.housed.rooted x hx)
  · show x ∈ rt.internalPluginLifecycle
    rw [hlifecycle]
    obtain ⟨hold, hxb⟩ := Finset.mem_sdiff.mp hx
    exact Finset.mem_erase.mpr ⟨fun heq => hxb (Finset.mem_singleton.mpr heq), h.marked hold⟩
  · show s.owed x ≤ (rt.instanceCounts.lookup x).getD 0
    obtain ⟨hold, hxb⟩ := Finset.mem_sdiff.mp hx
    rw [hcounts, lookup_erase_eq, if_neg fun heq => hxb (Finset.mem_singleton.mpr heq)]
    exact h.counted x hold
  · -- No interface is added.
    have hsub : ∀ ptr x, BackingSystem.Refers { s.withRuntime rt with
        internal := s.internal \ {b} } ptr x → s.Refers ptr x := by
      rintro ptr x ((⟨g, hg, hptr, howner⟩ | ⟨t, e, he, hrest⟩) | hguest)
      · refine Or.inl (Or.inl ⟨g, ?_, hptr, howner⟩)
        change g ∈ rt.registry.data.registrations at hg
        rw [hregistry] at hg
        have hold := registrations_invalidateBundle before b hg
        rwa [hbefore] at hold
      · refine Or.inl (Or.inr ⟨t, e, ?_, hrest⟩)
        change e ∈ rt.registry.preparedOn t at he
        rw [preparedOn, hstaged, hbefore] at he
        exact he
      · exact Or.inr hguest
    exact fun ptr x y hx hy => h.unique (hsub ptr x hx) (hsub ptr y hy)
  · -- A root is about to be inserted only under the lock, which nobody holds.
    obtain ⟨-, hlock, -⟩ := h.rooting t x root hmem
    rw [hholder] at hlock
    cases hlock
  · -- Only the unloaded bundle loses a root or a resident.
    rintro x (⟨root, hroot, hlost⟩ | ⟨resident, hresident, hlost⟩)
    · by_contra hxb
      refine hlost ?_
      show rt.internalPluginRoots.lookup x = some root
      rw [hroots, lookup_erase_eq, if_neg hxb]
      exact hroot
    · by_contra hxb
      refine hlost ?_
      show rt.registry.internalPluginResidents.lookup x = some resident
      rw [hresidents, hbefore, lookup_erase_eq, if_neg hxb]
      exact hresident

/-- A section of an unload that leaves the runtime. -/
theorem progress_waiting (h : s.Sound) {unload : UnloadSystem} {unloaded : Option BundleId}
    (hruntime : unload.runtime = s.host.runtime) (hnone : unloaded = none)
    {unloads : List (BundleId × UnloadPhase)} :
    Progress s ({ s.withRuntime unload.runtime with
      internal := s.internal \ unloaded.toFinset }.setUnloads thread unloads) P := by
  rw [hruntime, hnone]
  exact h.quiet (.of_registry (F := fun _ _ => False) h.housed rfl rfl rfl rfl) unused_false
    ⟨rfl, rfl, rfl, rfl, Finset.sdiff_empty⟩ (sameRooting_same rfl rfl)

theorem advance_runtime (hooks : Hooks) (b dep : BundleId) (rt : Runtime) {phase : UnloadPhase}
    (hphase : ∀ d loaderName, phase ≠ .checked d loaderName) :
    (UnloadSystem.advance hooks thread b ⟨rt, phase⟩ dep).runtime = rt := by
  unfold UnloadSystem.advance
  cases phase with
  | checked d loaderName => exact absurd rfl (hphase d loaderName)
  | _ =>
    dsimp only
    repeat' split
    all_goals rfl

theorem progress_advanceUnload (hooks : Hooks) (h : s.Sound) (dep : BundleId) :
    Progress s (s.advanceUnload hooks thread dep) (fun b => s.unloading thread = some b) := by
  rcases hunloads : s.unloads thread with _ | ⟨⟨b, phase⟩, rest⟩
  · unfold advanceUnload
    rw [hunloads]
    exact h.refl
  · by_cases hphase : ∀ d loaderName, phase ≠ .checked d loaderName
    · have hnone : s.unloading thread = none := by
        unfold unloading
        rw [hunloads]
        cases phase with
        | checked d loaderName => exact absurd rfl (hphase d loaderName)
        | _ => rfl
      unfold advanceUnload
      rw [hunloads]
      cases phase with
      | checked d loaderName => exact absurd rfl (hphase d loaderName)
      | returned result => exact progress_unloads h
      | _ => exact progress_waiting h (advance_runtime hooks b dep _ hphase) hnone
    · push Not at hphase
      obtain ⟨d, loaderName, rfl⟩ := hphase
      unfold advanceUnload
      cases hholder : s.rootsHolder with
      | some t =>
        rw [hunloads]
        exact h.refl
      | none =>
        have hends := invalidateRegistered_ends s.host.runtime b d
        rcases hends with ⟨e, heq⟩ | ⟨hok, -⟩
        · have hnone : s.unloading thread = none := by
            unfold unloading
            rw [hunloads]
            simp only [hholder, heq, if_true]
          rw [hunloads]
          refine progress_waiting h ?_ hnone
          unfold UnloadSystem.advance
          dsimp only
          rw [heq]
        · have hsome : s.unloading thread = some b := by
            unfold unloading
            rw [hunloads]
            simp only [hholder, hok, if_true]
          rw [hunloads]
          dsimp only
          rw [hsome, Option.toFinset_some]
          have hruntime : (UnloadSystem.advance hooks thread b
              ⟨s.host.runtime, .checked d loaderName⟩ dep).runtime
              = (s.host.runtime.invalidateRegistered b d).2 := by
            unfold UnloadSystem.advance
            dsimp only
            rcases s.host.runtime.invalidateRegistered b d with ⟨_ | _, rt⟩ <;> rfl
          rw [hruntime]
          have hprogress := progress_invalidate h hholder hok
          exact ⟨⟨hprogress.sound.housed, hprogress.sound.marked, hprogress.sound.counted,
            hprogress.sound.unique, hprogress.sound.rooting⟩,
            fun x hx => congrArg some (hprogress.loses x hx).symm⟩

theorem progress_whenIdle (h : s.Sound) {next : BackingSystem}
    (hnext : s.todo thread = [] → Progress s next P) :
    Progress s (s.whenIdle thread next) P := by
  unfold whenIdle
  split
  · rename_i hidle
    exact hnext (List.isEmpty_iff.mp hidle)
  · exact h.refl

/-! ### Instances -/

/-- A step of the instances that leaves the rest. The count of a bundle grows with what is
owed. -/
theorem progress_guests (h : s.Sound)
    (hregistry : s'.host.runtime.registry = s.host.runtime.registry)
    (hroots : s'.host.runtime.internalPluginRoots = s.host.runtime.internalPluginRoots)
    (hlifecycle : s'.host.runtime.internalPluginLifecycle = s.host.runtime.internalPluginLifecycle)
    (hinternal : s'.internal = s.internal) (htodo : s'.todo = s.todo)
    (hholder : s'.rootsHolder = s.rootsHolder)
    (hguests : ∀ i ∈ s'.constructing + s'.instances + s'.destroying,
      s.Refers i.interface i.bundleId)
    (howed : ∀ b ∈ s.internal, s'.owed b + (s.host.runtime.instanceCounts.lookup b).getD 0
      ≤ s.owed b + (s'.host.runtime.instanceCounts.lookup b).getD 0) : Progress s s' P := by
  refine h.progress (.of_registry (F := fun _ _ => False) h.housed hregistry hroots)
    unused_false hguests ?_ (fun b hb => ?_) (sameRooting_same htodo hholder)
  · rw [hinternal, hlifecycle]
    exact h.marked
  · rw [hinternal] at hb
    have hcounted := h.counted b hb
    have hstep := howed b hb
    omega

/-- The instances after one of them has gone from a place to another. -/
theorem refers_of_mem {i : GuestInstance} (hi : i ∈ s.constructing ∨ i ∈ s.instances ∨
    i ∈ s.destroying) : s.Refers i.interface i.bundleId := by
  refine Or.inr ⟨i, ?_, rfl, rfl⟩
  simp only [Multiset.mem_add]
  tauto

theorem progress_reserve (h : s.Sound) (compatibility : Compatibility) (interface : Nat) :
    Progress s (s.exec compatibility (.reserve interface)) P := by
  simp only [exec, Runtime.beginGuestInstanceConstruction]
  cases hfound : s.host.runtime.registry.bundleIdForGuestInterface interface with
  | none => exact h.refl
  | some b =>
    refine progress_guests h rfl rfl rfl rfl rfl rfl (fun i hi => ?_) fun x _ => ?_
    · dsimp only [withRuntime] at hi
      rw [Multiset.cons_add, Multiset.cons_add, Multiset.mem_cons] at hi
      rcases hi with rfl | hi
      · exact Or.inl (Or.inl (hasAddress_of_bundleIdForGuestInterface hfound))
      · exact Or.inr ⟨i, hi, rfl, rfl⟩
    · simp only [withRuntime, owed, outstanding, Multiset.cons_add, Multiset.countP_cons,
        lookup_insert_eq]
      by_cases hx : x = b
      · subst hx
        simp only [if_true, Option.getD_some]
        omega
      · simp [hx, Ne.symm hx]

theorem progress_constructed (h : s.Sound) (compatibility : Compatibility) (made : GuestInstance)
    (isNull : Bool) : Progress s (s.exec compatibility (.constructed made isNull)) P := by
  simp only [exec]
  split
  · rename_i hmem
    obtain ⟨rest, hrest⟩ := Multiset.exists_cons_of_mem hmem
    split
    · refine progress_guests h rfl rfl rfl rfl rfl rfl (fun i hi => ?_) fun x _ => ?_
      · simp only [Multiset.mem_add] at hi
        exact refers_of_mem ((or_assoc.mp hi).imp_left Multiset.mem_of_mem_erase)
      · simp only [owed, outstanding, hrest, Multiset.erase_cons_head, Multiset.countP_add,
          Multiset.countP_cons, Multiset.count_cons, eq_comm]
        omega
    · refine progress_guests h rfl rfl rfl rfl rfl rfl (fun i hi => ?_) fun x _ => ?_
      · simp only [Multiset.mem_add, Multiset.mem_cons] at hi
        rcases hi with (hi | rfl | hi) | hi
        · exact refers_of_mem (Or.inl (Multiset.mem_of_mem_erase hi))
        · exact refers_of_mem (Or.inl hmem)
        · exact refers_of_mem (Or.inr (Or.inl hi))
        · exact refers_of_mem (Or.inr (Or.inr hi))
      · simp only [owed, outstanding, hrest, Multiset.erase_cons_head, Multiset.countP_add,
          Multiset.countP_cons]
        omega
  · exact h.refl

theorem progress_destroyed (h : s.Sound) (compatibility : Compatibility) (made : GuestInstance) :
    Progress s (s.exec compatibility (.destroyed made)) P := by
  simp only [exec]
  split
  · rename_i hmem
    obtain ⟨rest, hrest⟩ := Multiset.exists_cons_of_mem hmem
    refine progress_guests h rfl rfl rfl rfl rfl rfl (fun i hi => ?_) fun x _ => ?_
    · simp only [Multiset.mem_add, Multiset.mem_cons] at hi
      rcases hi with (hi | hi) | rfl | hi
      · exact refers_of_mem (Or.inl hi)
      · exact refers_of_mem (Or.inr (Or.inl (Multiset.mem_of_mem_erase hi)))
      · exact refers_of_mem (Or.inr (Or.inl hmem))
      · exact refers_of_mem (Or.inr (Or.inr hi))
    · simp only [owed, outstanding, hrest, Multiset.erase_cons_head, Multiset.countP_add,
        Multiset.countP_cons]
      omega
  · exact h.refl

/-- The lookup finds the bundle the instance was reserved for, or none. -/
theorem progress_lookup (h : s.Sound) (compatibility : Compatibility) (made : GuestInstance) :
    Progress s (s.exec compatibility (.lookup made)) P := by
  simp only [exec]
  split
  · rename_i hmem
    obtain ⟨rest, hrest⟩ := Multiset.exists_cons_of_mem hmem
    refine progress_guests h rfl rfl rfl rfl rfl rfl (fun i hi => ?_) fun x _ => ?_
    · simp only [Multiset.mem_add] at hi
      exact refers_of_mem ((or_assoc.mp hi).imp_right (Or.imp_right Multiset.mem_of_mem_erase))
    · cases hfound : s.host.runtime.registry.bundleIdForGuestInterface made.interface with
      | none =>
        simp only [owed, outstanding, hrest, Multiset.erase_cons_head, Multiset.countP_cons]
        omega
      | some b =>
        have hb : b = made.bundleId := h.unique
          (Or.inl (Or.inl (hasAddress_of_bundleIdForGuestInterface hfound)))
          (refers_of_mem (Or.inr (Or.inr hmem)))
        simp only [owed, outstanding, hrest, Multiset.erase_cons_head, Multiset.countP_cons,
          Multiset.count_cons, hb, eq_comm]
        omega
  · exact h.refl

theorem lookup_noteInstanceDestroyed (rt : Runtime) (b x : BundleId) :
    ((rt.noteInstanceDestroyed b).instanceCounts.lookup x).getD 0
      = if x = b then (rt.instanceCounts.lookup b).getD 0 - 1
        else (rt.instanceCounts.lookup x).getD 0 := by
  unfold Runtime.noteInstanceDestroyed
  cases hb : rt.instanceCounts.lookup b with
  | none =>
    dsimp only
    split
    · rename_i hx
      rw [hx, hb]
      rfl
    · rfl
  | some entry =>
    dsimp only
    split
    · rename_i hzero
      rw [lookup_erase_eq]
      split
      · exact hzero.symm
      · rfl
    · rw [lookup_insert_eq]
      split <;> rfl

theorem progress_note (h : s.Sound) (compatibility : Compatibility) (b : BundleId) :
    Progress s (s.exec compatibility (.note b)) P := by
  simp only [exec]
  split
  · rename_i hmem
    obtain ⟨rest, hrest⟩ := Multiset.exists_cons_of_mem hmem
    have hbeside : (s.host.runtime.noteInstanceDestroyed b).registry = s.host.runtime.registry ∧
        (s.host.runtime.noteInstanceDestroyed b).internalPluginRoots
          = s.host.runtime.internalPluginRoots ∧
        (s.host.runtime.noteInstanceDestroyed b).internalPluginLifecycle
          = s.host.runtime.internalPluginLifecycle := by
      unfold Runtime.noteInstanceDestroyed
      split <;> exact ⟨rfl, rfl, rfl⟩
    refine progress_guests h hbeside.1 hbeside.2.1 hbeside.2.2 rfl rfl rfl
      (fun i hi => Or.inr ⟨i, hi, rfl, rfl⟩) fun x hx => ?_
    have hcounted := h.counted x hx
    show (s.outstanding x + s.destroying.countP _ + (s.noting.erase b).count x) + _
      ≤ _ + ((s.host.runtime.noteInstanceDestroyed b).instanceCounts.lookup x).getD 0
    rw [lookup_noteInstanceDestroyed]
    simp only [owed, hrest, Multiset.erase_cons_head, Multiset.count_cons] at hcounted ⊢
    by_cases hxb : x = b
    · -- What is owed is counted, so the count is not zero yet.
      subst hxb
      simp only [if_true] at hcounted ⊢
      omega
    · simp only [hxb, if_false] at hcounted ⊢
      omega
  · exact h.refl

/-! ### Every step -/

/-- A registration of a guest, on the host. -/
theorem keepsBacking_register (host : InitStacks) (h : host.runtime.Housed) (thread : ThreadId)
    (descriptor : Option PluginDescriptor) (interface : Option RawGuestContractInterface)
    (functions : Nat → Nat) (ptr : Nat) :
    ∃ b, host.runtime.KeepsBacking
      (host.hostRegisterGuestContract thread descriptor interface functions ptr).2.runtime
      (fun p x => p = ptr ∧ x = b) := by
  have hvisible : host.visible.registry = host.runtime.registry := by
    unfold InitStacks.visible
    split <;> rfl
  refine ⟨⟨host.visible.currentInitBundleId thread⟩, ?_⟩
  show host.runtime.KeepsBacking { host.runtime with
    registry := (host.visible.hostRegisterGuestContract thread descriptor interface functions
      ptr).2.registry } _
  rw [hostRegisterGuestContract_state]
  split
  · exact .of_registry h hvisible rfl rfl rfl
  · split
    · exact .of_registry h hvisible rfl rfl rfl
    · dsimp only
      rw [hvisible]
      exact Runtime.keepsBacking_stageOrRegister h thread _ _ _ ptr _

theorem progress_exec (compatibility : Compatibility) (h : s.Sound) {step : BackingStep}
    (hmeets : s.Meets compatibility step) :
    Progress s (s.exec compatibility step) (s.Unloads step) := by
  have hquiet : ∀ thread rt sections, (∀ b root, .insertRoot b root ∉ sections) →
      s.host.runtime.KeepsBacking rt (fun _ _ => False) →
      Progress s ((s.withRuntime rt).setTodo thread sections) (s.Unloads step) :=
    fun thread rt sections hnone hk => h.quiet hk unused_false ⟨rfl, rfl, rfl, rfl, rfl⟩
      (sameRooting_begins hnone rfl rfl)
  have hruntime : ∀ rt, s.host.runtime.KeepsBacking rt (fun _ _ => False) →
      Progress s (s.withRuntime rt) (s.Unloads step) := fun rt hk =>
    h.quiet hk unused_false ⟨rfl, rfl, rfl, rfl, rfl⟩ (sameRooting_same rfl rfl)
  cases step with
  | advance thread =>
    simp only [exec]
    cases htodo : s.todo thread with
    | nil => exact h.refl
    | cons next rest =>
      simp only [Meets, htodo, List.head?_cons] at hmeets
      refine progress_section h htodo ?_ ?_
      · rintro b rfl
        exact hmeets
      · rintro b rfl
        exact hmeets
  | begin thread manifest language =>
    refine progress_whenIdle h fun _ => ?_
    have hk := Runtime.keepsBacking_begin (F := fun _ _ => False) h.housed thread manifest
      language .internal
    rcases heq : s.host.runtime.beginPreparedBundleTransaction thread manifest language .internal
      with ⟨_ | b, rt⟩
    · rw [heq] at hk
      exact hruntime rt hk
    · rw [heq] at hk
      exact hquiet thread rt _ (by simp) hk
  | attach thread b resident =>
    exact progress_whenIdle h fun _ =>
      hruntime _ (Runtime.keepsBacking_attach h.housed thread b resident)
  | register thread descriptor interface functions ptr =>
    refine progress_whenIdle h fun _ => ?_
    obtain ⟨b, hk⟩ := keepsBacking_register s.host h.housed thread descriptor interface functions
      ptr
    refine h.quiet hk ?_ ⟨rfl, rfl, rfl, rfl, rfl⟩ (sameRooting_same rfl rfl)
    rintro p x ⟨rfl, rfl⟩
    exact ⟨hmeets, fun y hy => hy.2⟩
  | commit thread b root =>
    refine progress_whenIdle h fun hidle => ?_
    split
    · rename_i hholder
      exact progress_commitPlugin compatibility h hidle hholder (hmeets hidle hholder)
    · exact h.refl
  | commitIntoHandles thread b outHandles =>
    refine progress_whenIdle h fun hidle => ?_
    split
    · rename_i hcount
      exact progress_commitPlugin compatibility h hidle (Or.inl rfl) (hmeets hidle hcount)
    · exact progress_abortPlugin h b
  | abort thread b => exact progress_whenIdle h fun _ => progress_abortPlugin h b
  | lockRoots thread =>
    refine progress_whenIdle h fun _ => ?_
    split
    · rename_i hfree
      refine h.quiet (.of_registry (F := fun _ _ => False) h.housed rfl rfl rfl rfl)
        unused_false ⟨rfl, rfl, rfl, rfl, rfl⟩ fun t b root hmem => ?_
      -- Nobody has a root to insert while the lock is free.
      obtain ⟨-, hlock, -⟩ := h.rooting t b root hmem
      rw [hfree] at hlock
      cases hlock
    · exact h.refl
  | unlockRoots thread =>
    refine progress_whenIdle h fun hidle => ?_
    split
    · rename_i hheld
      refine h.quiet (.of_registry (F := fun _ _ => False) h.housed rfl rfl rfl rfl)
        unused_false ⟨rfl, rfl, rfl, rfl, rfl⟩ fun t b root hmem => ?_
      obtain ⟨-, hlock, -⟩ := h.rooting t b root hmem
      rw [hheld] at hlock
      cases hlock
      change .insertRoot b root ∈ s.todo thread at hmem
      rw [hidle] at hmem
      cases hmem
    · exact h.refl
  | reserve interface => exact progress_reserve h compatibility interface
  | constructed made isNull => exact progress_constructed h compatibility made isNull
  | destroyed made => exact progress_destroyed h compatibility made
  | lookup made => exact progress_lookup h compatibility made
  | note b => exact progress_note h compatibility b
  | unload thread b => exact progress_whenIdle h fun _ => progress_unloads h
  | unloadRegistered thread b descriptor => exact progress_whenIdle h fun _ => progress_unloads h
  | advanceUnload hooks thread dep =>
    refine progress_whenIdle h fun hidle => ?_
    have hprogress : Progress s (s.advanceUnload hooks thread dep)
        (fun b => s.unloading thread = some b) := progress_advanceUnload hooks h dep
    exact ⟨hprogress.sound, fun b hb => ⟨hidle, hprogress.loses b hb⟩⟩
  | beginLoad env manifest source =>
    refine progress_whenIdle h fun _ => ?_
    have hk := Runtime.keepsBacking_admitLoad (F := fun _ _ => False) h.housed env manifest
      source
    rcases heq : s.host.runtime.admitLoad env manifest source with ⟨_ | b, rt⟩
    · rw [heq] at hk
      exact hruntime rt hk
    · rw [heq] at hk
      exact h.quiet hk unused_false ⟨rfl, rfl, rfl, rfl, rfl⟩
        (sameRooting_begins (by simp) rfl rfl)
  | endLoad thread opts loaded =>
    refine progress_whenIdle h fun _ => ?_
    split
    · exact h.quiet (.of_registry (F := fun _ _ => False) h.housed rfl rfl rfl rfl)
        unused_false ⟨rfl, rfl, rfl, rfl, rfl⟩ (sameRooting_begins (by simp) rfl rfl)
    · exact h.refl
  | beginReload env path =>
    refine progress_whenIdle h fun _ => ?_
    split
    · exact h.refl
    · exact h.quiet (.of_registry (F := fun _ _ => False) h.housed rfl rfl rfl rfl)
        unused_false ⟨rfl, rfl, rfl, rfl, rfl⟩ (sameRooting_begins (by simp) rfl rfl)
  | endReload thread loaded =>
    refine progress_whenIdle h fun _ => ?_
    split
    · exact h.quiet (.of_registry (F := fun _ _ => False) h.housed rfl rfl rfl rfl)
        unused_false ⟨rfl, rfl, rfl, rfl, rfl⟩ (sameRooting_begins (by simp) rfl rfl)
    · exact h.refl

/-- An unload that takes the backing of a published bundle away has found its count zero. -/
theorem outstanding_of_unloading (h : s.Sound) {b : BundleId} (hb : b ∈ s.internal)
    (hunloading : s.unloading thread = some b) : s.outstanding b = 0 := by
  have hcounted := h.counted b hb
  have hmarker : b ∈ s.host.runtime.internalPluginLifecycle := h.marked hb
  unfold unloading at hunloading
  split at hunloading
  · rename_i x d loaderName rest hunloads
    split at hunloading
    · split at hunloading
      · rename_i hok
        cases hunloading
        unfold Runtime.invalidateRegistered at hok
        dsimp only at hok
        split at hok
        · cases hok
        · rename_i hfree
          simp only [hmarker, decide_true, Bool.true_or, true_and, gt_iff_lt, Nat.not_lt,
            Nat.le_zero] at hfree
          rw [hfree, Nat.le_zero] at hcounted
          unfold owed at hcounted
          omega
      · cases hunloading
    · cases hunloading
  · cases hunloading

theorem keeps_exec (compatibility : Compatibility) (h : s.Sound) {step : BackingStep}
    (hmeets : s.Meets compatibility step) : s.Keeps compatibility step := by
  have hprogress := progress_exec compatibility h hmeets
  have hunload : ∀ b ∈ s.internal, s.Unloads step b → s.outstanding b = 0 := by
    intro b hb hunloads
    unfold Unloads at hunloads
    split at hunloads
    · exact outstanding_of_unloading h hb hunloads.2
    · exact hunloads.elim
  exact ⟨fun b hb => hprogress.sound.marked hb, hunload,
    fun b hb hloses => hunload b hb (hprogress.loses b hloses)⟩

theorem sound_new : BackingSystem.new.Sound := by
  have hrefers : ∀ ptr b, ¬ BackingSystem.new.Refers ptr b := by
    rintro ptr b ((⟨g, ⟨slot, hslot, -⟩, -⟩ | ⟨t, e, he, -⟩) | ⟨i, hi, -⟩)
    · cases hslot
    · cases he
    · exact absurd hi (Multiset.notMem_zero i)
  exact
    { housed := ⟨present_new, nofun, nofun⟩
      marked := Finset.Subset.refl _
      counted := nofun
      unique := fun ptr b _ hb => absurd hb (hrefers ptr b)
      rooting := nofun }

end

/-- The backing of internal plugins outlives their instances, along every run in which no
marker and no count of a published bundle is taken away behind it, every published bundle
starts without instances, and every interface has an address of its own. -/
theorem backing_run (compatibility : Compatibility) (steps : List BackingStep)
    (hmeets : Steps (exec compatibility) (Meets compatibility) new steps) :
    Steps (exec compatibility) (Keeps compatibility) new steps :=
  hmeets.mono sound_new (fun _ _ h hm => (progress_exec compatibility h hm).sound)
    fun _ _ h hm => keeps_exec compatibility h hm

/-! ### Runs -/

section
variable (compatibility : Compatibility) (s : BackingSystem)

theorem forall_not_refers_iff (ptr : Nat) :
    (∀ b, ¬ s.Refers ptr b) ↔
      (∀ slot ∈ s.host.runtime.registry.data.slots, ∀ g ∈ slot.registration, g.arc.ptr ≠ ptr) ∧
      (∀ p ∈ s.host.runtime.registry.preparedBundles.entries, ∀ e ∈ p.2, ∀ contract ∈ e.contracts,
        contract.interface.ptr ≠ ptr) ∧
      ∀ i ∈ s.constructing + s.instances + s.destroying, i.interface ≠ ptr := by
  constructor
  · refine fun h => ⟨fun slot hslot g hg hptr => ?_, fun p hp e he contract hc hptr => ?_,
      fun i hi hptr => h i.bundleId (Or.inr ⟨i, hi, hptr, rfl⟩)⟩
    · exact h g.owner (Or.inl (Or.inl ⟨g, ⟨slot, hslot, hg⟩, hptr, rfl⟩))
    · refine h ⟨e.manifest.id⟩
        (Or.inl (Or.inr ⟨p.1, e, ?_, decide_eq_true rfl, contract, hc, hptr⟩))
      rw [preparedOn, Finmap.lookup_eq_some_iff.mpr hp]
      exact he
  · rintro ⟨hlive, hstaged, hguests⟩ b
      ((⟨g, ⟨slot, hslot, hg⟩, hptr, -⟩ | ⟨t, e, he, -, contract, hc, hptr⟩) | ⟨i, hi, hptr, -⟩)
    · exact hlive slot hslot g hg hptr
    · cases hlookup : s.host.runtime.registry.preparedBundles.lookup t with
      | none =>
        rw [preparedOn, hlookup] at he
        cases he
      | some l =>
        rw [preparedOn, hlookup] at he
        exact hstaged ⟨t, l⟩ (Finmap.lookup_eq_some_iff.mp hlookup) e he contract hc hptr
    · exact hguests i hi hptr

instance decidableUnused (ptr : Nat) : Decidable (∀ b, ¬ s.Refers ptr b) :=
  decidable_of_iff' _ (s.forall_not_refers_iff ptr)

theorem todo_isEmpty_iff (thread : ThreadId) :
    s.todo thread = [] ↔ (s.todo thread).isEmpty = true :=
  List.isEmpty_iff.symm

instance decidableIdle (thread : ThreadId) : Decidable (s.todo thread = []) :=
  decidable_of_iff' _ (s.todo_isEmpty_iff thread)

instance decidableSectionMeets (next : Option Section) : Decidable (s.SectionMeets next) := by
  rcases next with _ | next
  · exact inferInstanceAs (Decidable True)
  · cases next <;> unfold SectionMeets <;> infer_instance

instance decidableAccepts (thread : ThreadId) (b : BundleId) :
    Decidable (s.Accepts compatibility thread b) :=
  inferInstanceAs (Decidable (_ = true))

instance decidableClean (b : BundleId) : Decidable (s.Clean b) :=
  inferInstanceAs (Decidable (_ ∧ _))

instance decidableMeets (step : BackingStep) : Decidable (s.Meets compatibility step) := by
  cases step <;> unfold Meets <;> infer_instance

end

/-- A guest in the init of a bundle registers the contract `x`, copied to the address 7. -/
def BackingStep.registerX : BackingStep :=
  .register 1 (some ⟨⟨none⟩, ⟨some [120]⟩, ⟨1, 0, 0⟩⟩)
    (some ⟨GuestContractId.new "x" 1, ⟨1, 0, 0⟩, 0, 0, 1, 1, ⟨0, 0⟩⟩) (fun _ => 0) 7

/-- The internal plugin `a` is published, and an instance of its contract is created. -/
def createsInstance : List BackingStep :=
  [.begin 1 (providing "a" ["x@1"]) .rust, .advance 1, .advance 1, BackingStep.registerX,
    .commit 1 (BundleId.new "a") none, .advance 1, .reserve 7,
    .constructed ⟨BundleId.new "a", 7⟩ false]

/-- An unload of the plugin, to its return or past it. -/
def unloadsPlugin : List BackingStep :=
  .unload 1 (BundleId.new "a")
    :: List.replicate 7 (.advanceUnload (fun _ => none) 1 (BundleId.new "a"))

/-- The unload is refused while the instance lives, and not after it is destroyed. -/
theorem backing_run_instance :
    Steps (exec .yolo) (Keeps .yolo) new
      (createsInstance ++ unloadsPlugin ++ [.destroyed ⟨BundleId.new "a", 7⟩,
        .lookup ⟨BundleId.new "a", 7⟩, .note (BundleId.new "a")] ++ unloadsPlugin) :=
  backing_run .yolo _ (by decide +kernel)

example : (run (exec .yolo) new (createsInstance ++ unloadsPlugin.dropLast)).unloads 1
    = [(BundleId.new "a", .returned (.error (.internalPluginInUse "a" 1)))] := by
  decide +kernel

/-- The plugin is committed a second time, which fails. -/
def commitsTwice : List BackingStep :=
  createsInstance ++ [.commit 1 (BundleId.new "a") none, .advance 1, .advance 1]

/-- The failed commit takes the marker away, and the unload then returns `Ok` while the
instance lives. -/
theorem second_commit_frees_backing :
    ¬ Steps (exec .yolo) (Keeps .yolo) new commitsTwice ∧
    (run (exec .yolo) new (commitsTwice ++ unloadsPlugin)).unloads 1
      = [(BundleId.new "a", .returned (.ok ()))] ∧
    (run (exec .yolo) new (commitsTwice ++ unloadsPlugin)).instances
      = {⟨BundleId.new "a", 7⟩} := by
  refine ⟨fun h => ?_, by decide +kernel, by decide +kernel⟩
  have hlast := (steps_append.mp h).2.2.2.1.marked (BundleId.new "a") (by decide +kernel)
  revert hlast
  decide +kernel

end BackingSystem

end PolyPlug.Lifecycle
