import PolyPlug.Lib.Exclusive
import PolyPlug.Proofs.Lifecycle.Backing
import PolyPlug.Proofs.Lifecycle.Isolation
import PolyPlug.Proofs.Lifecycle.LibraryCustody
import PolyPlug.Proofs.Registry.Frame

/-!
# `PolyPlug.Proofs.Lifecycle.LibraryCalls`: what a call knows about its bundle

A call that loads, reloads or unloads a bundle is the only one for it in an orderly run. So
it knows what the registry has for the bundle: nothing, what is there with its library, or the
old and the new interfaces of a reload, apart. `CallOk` says this for each place a call can be
at. `CallOk.frame` is the frame rule: what is done for another bundle changes nothing of it.

`Rooted` is the fact behind the safety of an interface: the library whose init registered it
is the one in the map.
-/

set_option autoImplicit false

namespace PolyPlug.Registry

open PolyPlug.Abi
open PolyPlug.Lib
open RuntimeStoreData RuntimeStore

theorem RuntimeStore.Tidy.of_core {s s' : RuntimeStore} (h : s.Tidy) (hdata : s'.data = s.data)
    (hpublished : s'.published = s.published) : s'.Tidy where
  present := hdata ▸ h.present
  consistent := hdata ▸ h.consistent
  mirrors := by
    rw [Mirrors, hdata, hpublished]
    exact h.mirrors

/-- A bundle without slots has no registration. -/
theorem content_of_pluginSlots_nil {s : RuntimeStore} (h : s.Tidy) {b : BundleId}
    (hnil : s.data.pluginSlots b = []) {i : Nat} {g : Registration}
    (hg : s.data.catalog.content i = some g) : g.owner ≠ b := by
  rintro rfl
  have hheld : i ∈ s.data.pluginSlots g.owner := h.consistent.held_of_content hg
  rw [hnil] at hheld
  exact List.not_mem_nil hheld

/-- A call of a tidy run leaves the registrations of every other bundle where they are. -/
theorem content_foreign {s : RuntimeStore} {o : StoreOp} (h : s.Tidy) (hop : TidyStep s o) {i : Nat}
    {g : Registration} (hg : g.owner ≠ o.bundleId) :
    (s.exec o).data.catalog.content i = some g ↔ s.data.catalog.content i = some g := by
  have htidy := (exec_effect h hop).1
  have hleaves := exec_leaves h hop
  have hkept : ∀ g', s.data.catalog.content i = some g' → g'.owner ≠ o.bundleId →
      (s.exec o).data.catalog.content i = some g' := by
    intro g' hg' howner
    obtain ⟨slot, hslot, hregistered⟩ := content_eq_some.mp hg'
    obtain ⟨hslot', -⟩ := hleaves.foreign i slot g'.entry hslot hregistered.1 howner
    exact content_eq_some.mpr ⟨slot, hslot', hregistered⟩
  constructor
  · intro hnew
    -- The slot is in the list of the owner, which is the same.
    have hheld : i ∈ (s.exec o).data.pluginSlots g.owner := htidy.consistent.held_of_content hnew
    rw [hleaves.pluginSlots g.owner hg] at hheld
    obtain ⟨g', hg', howner⟩ := h.consistent.content_of_held hheld
    have heq := hkept g' hg' (howner ▸ hg)
    rw [hnew] at heq
    rw [hg', Option.some.inj heq]
  · intro hold
    exact hkept g hold hg

/-- An abort leaves the registrations in the slots of the snapshot. -/
theorem live_abortReload {s : RuntimeStore} (h : s.Tidy) {b : BundleId} {old : List Nat} {i : Nat}
    {g : Registration} (hg : (s.abortReload b old).data.catalog.content i = some g)
    (howner : g.owner = b) : s.data.catalog.content i = some g ∧ i ∈ old := by
  obtain ⟨data', heq, hpurge⟩ := abortReload_purge s b old h.present h.consistent.indexed
  have hcat := hpurge.catalog_eq
  rw [(sameSlots_closeWindow s.data b).catalog_eq] at hcat
  have hcontent : (if i ∈ pendingSlots s.data b old then none else s.data.catalog.content i)
      = some g := by
    rw [heq] at hg
    have hg' : data'.catalog.content i = some g := hg
    rwa [hcat] at hg'
  by_cases hpending : i ∈ pendingSlots s.data b old
  · rw [if_pos hpending] at hcontent
    cases hcontent
  · rw [if_neg hpending] at hcontent
    have hheld : i ∈ s.data.pluginSlots b := howner ▸ h.consistent.held_of_content hcontent
    refine ⟨hcontent, ?_⟩
    by_contra hold
    exact hpending (List.mem_filter.2 ⟨hheld, decide_eq_true hold⟩)

/-- A swap over own slots leaves what was registered in the window, or it fails and finds
nothing of the bundle. -/
theorem live_applyReloadSwap {s : RuntimeStore} (h : s.Tidy) {b : BundleId} {old : List Nat}
    (hown : OwnSlots s.data b old) (descriptor : BundleDescriptor)
    (dependencies : Finset GuestContractId) :
    (∃ s', s.applyReloadSwap b old descriptor dependencies = (.ok (), s') ∧
      ∀ i g, s'.data.catalog.content i = some g → g.owner = b →
        ∃ n, n ∉ old ∧ s.data.catalog.content n = some g) ∨
    ∃ e s', s.applyReloadSwap b old descriptor dependencies = (.error e, s') ∧
      ∀ i g, s'.data.catalog.content i = some g → g.owner ≠ b := by
  rcases applyReloadSwap_own h.present h.consistent hown descriptor dependencies with
    ⟨data', heq, hswap⟩ | ⟨-, -, hnil, heq⟩
  · refine .inl ⟨_, heq, fun i g hg howner => ?_⟩
    obtain ⟨c, hrec, hcat⟩ := hswap.reconciled
    have hg' : data'.catalog.content i = some g := hg
    rw [hcat, Catalog.publish_content] at hg'
    have hheld : i ∈ c.held b := howner ▸ hrec.consistent.held_of_content hg'
    rw [hrec.held_eq] at hheld
    obtain ⟨n, -, hn, hcontent⟩ := hrec.moved i (List.mem_filter.1 hheld).1 (List.not_mem_nil) g hg'
    exact ⟨n, hn, hcontent⟩
  · refine .inr ⟨_, _, heq, fun i g hg => ?_⟩
    have hg' : (closeWindow s.data b).catalog.content i = some g := hg
    rw [(sameSlots_closeWindow s.data b).catalog_eq] at hg'
    exact content_of_pluginSlots_nil h hnil hg'

/-- An invalidation leaves nothing of the bundle. -/
theorem live_invalidateBundle {s : RuntimeStore} (h : s.Tidy) {b : BundleId} {i : Nat}
    {g : Registration} (hg : (s.invalidateBundle b).2.data.catalog.content i = some g) :
    g.owner ≠ b := by
  rcases invalidateBundle_cases s b h.present h.consistent.indexed with
    ⟨hnone, heq⟩ | ⟨data', heq, hinv⟩
  · rw [heq] at hg
    exact content_of_pluginSlots_nil h (by simp [pluginSlots, hnone]) hg
  · rw [heq] at hg
    have hg' : data'.catalog.content i = some g := hg
    rw [hinv.catalog_eq] at hg'
    have hcontent : (if i ∈ s.data.pluginSlots b then none else s.data.catalog.content i)
        = some g := hg'
    by_cases hi : i ∈ s.data.pluginSlots b
    · rw [if_pos hi] at hcontent
      cases hcontent
    · rw [if_neg hi] at hcontent
      rintro rfl
      exact hi (h.consistent.held_of_content hcontent)

end PolyPlug.Registry

namespace PolyPlug.Lifecycle

open PolyPlug.Abi
open PolyPlug.Lib
open PolyPlug.Common
open PolyPlug.Registry
open RuntimeStore

namespace NativeCall

/-- The guard of the call. -/
def guard? : NativeCall → Option Nat
  | .reserving guard _        => some guard
  | .constructing guard _ _ _ => some guard
  | .destroying guard _ _ _   => some guard
  | .noting guard _           => some guard
  | _                         => none

/-- The load or the reload that the call is. -/
def job? : NativeCall → Option LoaderJob
  | .snapshot job       => some job
  | .opening job        => some job
  | .checking job _     => some job
  | .initializing job _ => some job
  | .inserting job _    => some job
  | .foreign job        => some job
  | .scheduling job _ _ => some job
  | .closing job _      => some job
  | _                   => none

/-- The call is a load of the bundle. -/
def loads? (call : NativeCall) : Option BundleId :=
  (call.job?.filter fun job => !job.isReload).map LoaderJob.bundleId

/-- What was registered before a reload has its library in the map still. -/
def keepsOld : NativeCall → Bool
  | .scheduling _ _ (.ok ()) => false
  | .closing _ (.ok ())      => false
  | _                        => true

/-- The bundle of a call that leaves nothing of it in the registry. -/
def clears? : NativeCall → Option BundleId
  | .unhooking b                 => some b
  | .unhooked b _                => some b
  | .unloading b (.reclaiming _) => some b
  | _                            => none

/-- The bundle of a call that leaves it as it is. -/
def rests? : NativeCall → Option BundleId
  | .resetting b                 => some b
  | .unloading _ (.reclaiming _) => none
  | .unloading b _               => some b
  | _                            => none

/-- The guard and the library of a constructor or destructor. -/
def guarded? : NativeCall → Option (Nat × Nat)
  | .constructing guard _ _ (some library) => some (guard, library)
  | .destroying guard _ _ (some library)   => some (guard, library)
  | _                                      => none

section
variable {call : NativeCall} {b : BundleId} {job : LoaderJob}

theorem changes_of_job (h : call.job? = some job) : call.changes = some job.bundleId := by
  cases call with
  | resetting | unhooking | unhooked | unloading | reserving | constructing | destroying | noting =>
    cases h
  | _ =>
    cases h
    rfl

theorem guard_of_job (h : call.job? = some job) : call.guard? = none := by
  cases call with
  | resetting | unhooking | unhooked | unloading | reserving | constructing | destroying | noting =>
    cases h
  | _ => rfl

theorem loads_of_job {next : NativeCall} (h : call.job? = next.job?) :
    call.loads? = next.loads? := by
  rw [loads?, loads?, h]

theorem changes_of_loads (h : call.loads? = some b) : call.changes = some b := by
  rw [loads?, Option.map_eq_some_iff] at h
  obtain ⟨job, hjob, rfl⟩ := h
  exact changes_of_job (Option.filter_eq_some_iff.1 hjob).1

theorem changes_of_clears (h : call.clears? = some b) : call.changes = some b := by
  cases call with
  | unhooking | unhooked => exact h
  | unloading b' phase =>
    cases phase with
    | reclaiming => exact h
    | _ => cases h
  | _ => cases h

theorem changes_of_rests (h : call.rests? = some b) : call.changes = some b := by
  cases call with
  | resetting => exact h
  | unloading b' phase =>
    cases phase with
    | reclaiming => cases h
    | _ => exact h
  | _ => cases h

/-- A call about a bundle loads or reloads it, or has nothing of it, or leaves it. -/
theorem cases_of_changes (h : call.changes = some b) :
    (∃ job, call.job? = some job ∧ job.bundleId = b) ∨ call.clears? = some b ∨
      call.rests? = some b := by
  cases call with
  | reserving | constructing | destroying | noting => cases h
  | resetting => exact .inr (.inr h)
  | unhooking | unhooked => exact .inr (.inl h)
  | unloading b' phase =>
    cases phase with
    | reclaiming => exact .inr (.inl h)
    | _ => exact .inr (.inr h)
  | _ => exact .inl ⟨_, rfl, Option.some.inj h⟩

/-- A call with a guard is about no bundle. -/
theorem changes_of_guard {guard : Nat} (h : call.guard? = some guard) :
    call.changes = none ∧ call.init? = none ∧ call.loads? = none := by
  cases call <;> cases h
  all_goals exact ⟨rfl, rfl, rfl⟩

theorem guard_of_guarded {guard library : Nat} (h : call.guarded? = some (guard, library)) :
    call.guard? = some guard := by
  cases call with
  | constructing g i x code =>
    cases code <;> cases h
    rfl
  | destroying g i x code =>
    cases code <;> cases h
    rfl
  | _ => cases h

end

end NativeCall

namespace LibraryHost

/-- A live registration of the bundle in a slot. -/
def LiveAt (s : LibraryHost) (b : BundleId) (i : Nat) (g : Registration) : Prop :=
  s.runtime.registry.data.catalog.content i = some g ∧ g.owner = b

/-- The interface at the address is one of the library in the map. -/
def Rooted (s : LibraryHost) (b : BundleId) (ptr : Nat) : Prop :=
  ∀ library, s.code ptr = some library → s.libraries.lookup b = some library

/-- The registry has nothing of the bundle. -/
def Absent (s : LibraryHost) (b : BundleId) : Prop := ∀ i g, ¬ s.LiveAt b i g

/-- Every interface of the bundle is one of the library in the map. -/
def Backs (s : LibraryHost) (b : BundleId) : Prop := ∀ i g, s.LiveAt b i g → s.Rooted b g.arc.ptr

theorem Absent.backs {s : LibraryHost} {b : BundleId} (h : s.Absent b) : s.Backs b :=
  fun i g hg => absurd hg (h i g)

/-- The library that the interfaces registered by the call are from. -/
def Origin (s : LibraryHost) (library : Nat) : NativeCall → Prop
  | .initializing _ opened      => library = opened
  | .inserting _ opened         => library = opened
  | .scheduling job _ (.ok ())  => s.libraries.lookup job.bundleId = some library
  | .closing job (.ok ())       => s.libraries.lookup job.bundleId = some library
  -- They will be discarded.
  | .scheduling _ _ (.error _)  => True
  | .closing _ (.error _)       => True
  | _                           => False

/-- An interface that a load or a reload has registered is at this address. -/
def NewAt (s : LibraryHost) (thread : ThreadId) (ptr : Nat) : LoaderJob → Prop
  | .load _ _ b _ => ∃ e ∈ s.runtime.registry.staged thread, e.isFor b = true ∧
      ∃ contract ∈ e.contracts, contract.interface.ptr = ptr
  | .reload replacement slotIndices =>
    ∃ i g, s.LiveAt replacement.descriptor.id i g ∧ i ∉ slotIndices ∧ g.arc.ptr = ptr

/-- What the registry has for the bundle of a load or a reload. -/
structure JobOk (s : LibraryHost) (thread : ThreadId) (call : NativeCall) (job : LoaderJob) :
    Prop where
  new : ∀ ptr, s.NewAt thread ptr job → ∀ library, s.code ptr = some library →
    s.Origin library call
  old : match job with
    | .load env _ b _ => env.thread = thread ∧ s.Absent b
    | .reload replacement slotIndices =>
      OwnSlots s.runtime.registry.data replacement.descriptor.id slotIndices ∧
        (call.keepsOld = true → ∀ i g, s.LiveAt replacement.descriptor.id i g → i ∈ slotIndices →
          s.Rooted replacement.descriptor.id g.arc.ptr)

/-- What a call knows. -/
structure CallOk (s : LibraryHost) (thread : ThreadId) (call : NativeCall) : Prop where
  job : ∀ job, call.job? = some job → s.JobOk thread call job
  absent : ∀ b, call.clears? = some b → s.Absent b
  backs : ∀ b, call.rests? = some b → s.Backs b
  guarded : ∀ guard library, call.guarded? = some (guard, library) →
    s.epoch.Protected guard library

/-! ### The frame rule -/

/-- What a call on the thread knows about the bundle is the same. -/
structure SameFor (s s' : LibraryHost) (thread : ThreadId) (b : BundleId) : Prop where
  live : ∀ i g, s'.LiveAt b i g ↔ s.LiveAt b i g
  staged : ∀ e, e.isFor b = true →
    (e ∈ s'.runtime.registry.staged thread ↔ e ∈ s.runtime.registry.staged thread)
  library : s'.libraries.lookup b = s.libraries.lookup b
  tidy : s.runtime.registry.data.Consistent ∧ s'.runtime.registry.data.Consistent
  /-- The addresses in use keep their origin. -/
  code : ∀ ptr, s.runtime.registry.UsesAddress ptr b → s'.code ptr = s.code ptr

section
variable {s s' : LibraryHost} {thread : ThreadId} {b : BundleId} {call : NativeCall}
  {job : LoaderJob}

theorem LiveAt.usesAddress {i : Nat} {g : Registration} (h : s.LiveAt b i g) :
    s.runtime.registry.UsesAddress g.arc.ptr b := by
  refine .inl ⟨g, ?_, rfl, h.2⟩
  obtain ⟨slot, hslot, hregistered⟩ := content_eq_some.mp h.1
  exact ⟨slot, List.mem_of_getElem? hslot, registration_eq_some.mpr hregistered⟩

theorem usesAddress_of_staged {e : PreparedBundleRegistration} {contract : PreparedGuestContract}
    (he : e ∈ s.runtime.registry.staged thread) (hfor : e.isFor b = true)
    (hcontract : contract ∈ e.contracts) :
    s.runtime.registry.UsesAddress contract.interface.ptr b :=
  .inr ⟨thread, e, List.mem_reverse.mp he, hfor, contract, hcontract, rfl⟩

theorem Rooted.frame (h : SameFor s s' thread b) {ptr : Nat}
    (huses : s.runtime.registry.UsesAddress ptr b) (hrooted : s.Rooted b ptr) :
    s'.Rooted b ptr := by
  intro library hcode
  rw [h.library]
  exact hrooted library (h.code ptr huses ▸ hcode)

theorem Absent.frame (h : SameFor s s' thread b) (habsent : s.Absent b) : s'.Absent b := by
  intro i g hg
  exact habsent i g ((h.live i g).1 hg)

theorem Backs.frame (h : SameFor s s' thread b) (hbacks : s.Backs b) : s'.Backs b := by
  intro i g hg
  have hold := (h.live i g).1 hg
  exact (hbacks i g hold).frame h hold.usesAddress

theorem newAt_frame (h : SameFor s s' thread job.bundleId) {ptr : Nat} :
    s'.NewAt thread ptr job ↔ s.NewAt thread ptr job := by
  cases job with
  | load env manifest b opts =>
    refine exists_congr fun e => ?_
    constructor
    · rintro ⟨he, hfor, hcontract⟩
      exact ⟨(h.staged e hfor).1 he, hfor, hcontract⟩
    · rintro ⟨he, hfor, hcontract⟩
      exact ⟨(h.staged e hfor).2 he, hfor, hcontract⟩
  | reload replacement slotIndices =>
    refine exists_congr fun i => exists_congr fun g => ?_
    exact and_congr_left' (h.live i g)

/-- The address of a new interface is in use. -/
theorem NewAt.usesAddress {ptr : Nat} (h : s.NewAt thread ptr job) :
    s.runtime.registry.UsesAddress ptr job.bundleId := by
  cases job with
  | load env manifest b opts =>
    obtain ⟨e, he, hfor, contract, hcontract, rfl⟩ := h
    exact usesAddress_of_staged he hfor hcontract
  | reload replacement slotIndices =>
    obtain ⟨i, g, hlive, -, rfl⟩ := h
    exact hlive.usesAddress

theorem origin_frame (hjob : call.job? = some job)
    (hlibrary : s'.libraries.lookup job.bundleId = s.libraries.lookup job.bundleId)
    {library : Nat} (h : s.Origin library call) : s'.Origin library call := by
  cases call with
  | initializing | inserting => exact h
  | scheduling job' superseded loaded =>
    cases hjob
    cases loaded with
    | error e => trivial
    | ok u => exact hlibrary.trans h
  | closing job' loaded =>
    cases hjob
    cases loaded with
    | error e => trivial
    | ok u => exact hlibrary.trans h
  | _ => exact h.elim

/-- The next place of a load or a reload, with the registry as it is. -/
theorem JobOk.next {next : NativeCall} (hok : s.JobOk thread call job)
    (hsame : SameFor s s' thread job.bundleId)
    (horigin : ∀ library, s.Origin library call → s'.Origin library next)
    (hkeeps : next.keepsOld = true → call.keepsOld = true) : s'.JobOk thread next job where
  new ptr hptr library hcode := by
    have hold := (newAt_frame hsame).1 hptr
    rw [hsame.code ptr hold.usesAddress] at hcode
    exact horigin library (hok.new ptr hold library hcode)
  old := by
    cases job with
    | load env manifest b opts => exact ⟨hok.old.1, Absent.frame hsame hok.old.2⟩
    | reload replacement slotIndices =>
      obtain ⟨hown, hrooted⟩ := hok.old
      refine ⟨hown.of_content hsame.tidy.1 hsame.tidy.2 ?_, ?_⟩
      · intro i hi g hg
        obtain ⟨g', hg', howner⟩ := hsame.tidy.1.content_of_held (hown.held i hi)
        rw [hg] at hg'
        cases hg'
        exact ((hsame.live i g).2 ⟨hg, howner⟩).1
      · intro hnext i g hlive hi
        have hold := (hsame.live i g).1 hlive
        exact (hrooted (hkeeps hnext) i g hold hi).frame hsame hold.usesAddress

theorem JobOk.frame (hjob : call.job? = some job) (h : SameFor s s' thread job.bundleId)
    (hok : s.JobOk thread call job) : s'.JobOk thread call job :=
  hok.next h (fun _ => origin_frame hjob h.library) id

/-- The frame rule. -/
theorem CallOk.frame (hsame : ∀ b, call.changes = some b → SameFor s s' thread b)
    (hguard : ∀ guard library, call.guarded? = some (guard, library) →
      s.epoch.Protected guard library → s'.epoch.Protected guard library)
    (hok : s.CallOk thread call) : s'.CallOk thread call where
  job job hjob := (hok.job job hjob).frame hjob (hsame _ (NativeCall.changes_of_job hjob))
  absent b hb := (hok.absent b hb).frame (hsame b (NativeCall.changes_of_clears hb))
  backs b hb := (hok.backs b hb).frame (hsame b (NativeCall.changes_of_rests hb))
  guarded guard library h := hguard guard library h (hok.guarded guard library h)

/-! ### What stays the same -/

theorem sameFor_of_eq (hdata : s'.runtime.registry.data = s.runtime.registry.data)
    (hstaged : s'.runtime.registry.staged thread = s.runtime.registry.staged thread)
    (hlibrary : s'.libraries.lookup b = s.libraries.lookup b) (hcode : s'.code = s.code)
    (htidy : s.runtime.registry.Tidy) : SameFor s s' thread b where
  live i g := by simp only [LiveAt, hdata]
  staged e _ := by rw [hstaged]
  library := hlibrary
  tidy := ⟨htidy.consistent, hdata ▸ htidy.consistent⟩
  code ptr _ := by rw [hcode]

/-- A registry call for another bundle. The registry may have other staged bundles. -/
theorem sameFor_of_exec {store : RuntimeStore} {o : StoreOp}
    (hstore : store.data = s.runtime.registry.data) (htidy : store.Tidy) (hop : TidyStep store o)
    (hb : b ≠ o.bundleId) (hdata : s'.runtime.registry.data = (store.exec o).data)
    (hstaged : ∀ e, e.isFor b = true →
      (e ∈ s'.runtime.registry.staged thread ↔ e ∈ s.runtime.registry.staged thread))
    (hlibrary : s'.libraries.lookup b = s.libraries.lookup b)
    (hcode : ∀ ptr, s.runtime.registry.UsesAddress ptr b → s'.code ptr = s.code ptr) :
    SameFor s s' thread b where
  live i g := by
    simp only [LiveAt, hdata, ← hstore]
    constructor
    · rintro ⟨hg, rfl⟩
      exact ⟨(content_foreign htidy hop hb).1 hg, rfl⟩
    · rintro ⟨hg, rfl⟩
      exact ⟨(content_foreign htidy hop hb).2 hg, rfl⟩
  staged := hstaged
  library := hlibrary
  tidy := ⟨hstore ▸ htidy.consistent, by
    rw [hdata]
    exact (exec_effect htidy hop).1.consistent⟩
  code := hcode

/-- A load or a reload has no other knowledge. -/
theorem callOk_of_job (hjob : call.job? = some job) (hok : s.JobOk thread call job) :
    s.CallOk thread call where
  job job' hjob' := by
    rw [hjob] at hjob'
    exact Option.some.inj hjob' ▸ hok
  absent b hb := by cases call <;> cases hjob <;> cases hb
  backs b hb := by cases call <;> cases hjob <;> cases hb
  guarded guard library h := by cases call <;> cases hjob <;> cases h

theorem callOk_of_absent (hclears : call.clears? = some b) (habsent : s.Absent b) :
    s.CallOk thread call where
  job job hjob := by cases call <;> cases hjob <;> cases hclears
  absent b' hb := by
    rw [hclears] at hb
    exact Option.some.inj hb ▸ habsent
  backs b' hb := by
    cases call with
    | unloading x phase =>
      cases phase with
      | reclaiming => cases hb
      | _ => cases hclears
    | _ => cases hclears <;> cases hb
  guarded guard library h := by
    cases call with
    | unloading x phase => cases h
    | _ => cases hclears <;> cases h

theorem callOk_of_backs (hrests : call.rests? = some b) (hbacks : s.Backs b) :
    s.CallOk thread call where
  job job hjob := by cases call <;> cases hjob <;> cases hrests
  absent b' hb := by
    cases call with
    | unloading x phase =>
      cases phase with
      | reclaiming => cases hrests
      | _ => cases hb
    | _ => cases hrests <;> cases hb
  backs b' hb := by
    rw [hrests] at hb
    exact Option.some.inj hb ▸ hbacks
  guarded guard library h := by
    cases call with
    | unloading x phase => cases h
    | _ => cases hrests <;> cases h

/-- A call about an instance. -/
theorem callOk_of_guard {guard : Nat} (hguard : call.guard? = some guard)
    (h : ∀ library, call.guarded? = some (guard, library) → s.epoch.Protected guard library) :
    s.CallOk thread call where
  job job hjob := by cases call <;> cases hjob <;> cases hguard
  absent b hb := by cases call <;> cases hguard <;> cases hb
  backs b hb := by cases call <;> cases hguard <;> cases hb
  guarded guard' library hguarded := by
    have heq := NativeCall.guard_of_guarded hguarded
    rw [hguard] at heq
    cases heq
    exact h library hguarded

/-! ### The calls of a state -/

/-- No knowledge is about the calls. -/
theorem SameFor.setCalls (h : SameFor s s' thread b) (t : ThreadId) (calls : List NativeCall) :
    SameFor s (s'.setCalls t calls) thread b :=
  ⟨h.live, h.staged, h.library, h.tidy, h.code⟩

theorem CallOk.setCalls (h : s.CallOk thread call) (htidy : s.runtime.registry.Tidy)
    (t : ThreadId) (calls : List NativeCall) : (s.setCalls t calls).CallOk thread call :=
  h.frame (fun _ _ => (sameFor_of_eq rfl rfl rfl rfl htidy).setCalls t calls)
    fun _ _ _ hprotected => hprotected

end

end LibraryHost

end PolyPlug.Lifecycle
