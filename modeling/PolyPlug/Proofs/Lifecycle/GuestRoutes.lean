import PolyPlug.Lifecycle.GuestRoutes
import PolyPlug.Proofs.Lifecycle.Backing

/-!
# `PolyPlug.Proofs.Lifecycle.GuestRoutes`: every guest instance is counted

An instance is counted from the begin of `create_guest_instance` to the end of
`destroy_guest_instance`. `Counted` says that the count of a registered bundle is the number of its
constructors that run and of its instances.

The routes of JavaScript do not count. An instance they create is missing in the count, and
an unload of an internal plugin returns `Ok` while it lives (`view_instance_is_not_counted`).
`guests_run_iff` says exactly which steps keep the count right.
-/

set_option autoImplicit false

namespace PolyPlug.Lifecycle

open PolyPlug.Abi
open PolyPlug.Lib
open PolyPlug.Common
open PolyPlug.Registry
open RuntimeStore

/-! ### Calls that leave the counts -/

namespace Runtime

section
variable (rt : Runtime) (thread : ThreadId) (b : BundleId)

theorem counts_popInitBundleId :
    (rt.popInitBundleId thread).instanceCounts = rt.instanceCounts := by
  unfold popInitBundleId
  split <;> rfl

theorem counts_begin (manifest : ManifestData) (language : SupportedLanguage)
    (source : BundleSource) :
    (rt.beginPreparedBundleTransaction thread manifest language source).2.instanceCounts =
      rt.instanceCounts := by
  unfold beginPreparedBundleTransaction
  split
  · rfl
  · dsimp only
    split <;> rfl

theorem counts_admitLoad (env : LoadEnv) (manifest : ManifestData) (source : BundleSource) :
    (rt.admitLoad env manifest source).2.instanceCounts = rt.instanceCounts := by
  unfold admitLoad
  repeat' split
  all_goals first
    | rfl
    | exact counts_begin rt _ _ _ _

theorem counts_attach (resident : InternalPluginResident) :
    (rt.attachInternalPluginResident thread b resident).2.instanceCounts = rt.instanceCounts := by
  unfold attachInternalPluginResident
  split
  · rfl
  · rcases rt.registry.attachPreparedBundleResident thread b resident with ⟨_ | _, registry⟩ <;> rfl

theorem counts_discard :
    (rt.discardPreparedBundle thread b).instanceCounts = rt.instanceCounts := by
  rcases discardPreparedBundle_cases rt thread b with ⟨-, heq⟩ | ⟨r, l, -, -, heq⟩ <;> rw [heq]
  rfl

theorem counts_commit (opts : LoadOptions) :
    (rt.commitPreparedBundleTransactionWithHandles thread b opts).2.instanceCounts =
      rt.instanceCounts := by
  rcases commit_cases rt thread b opts with ⟨-, heq⟩ | ⟨e, l, -, -, heq⟩
  · rw [heq]
  · rw [heq]
    rcases publishPrepared_ends (rt.setStaged thread l) b e opts with
      ⟨error, heq⟩ | ⟨version, handles, registry, -, heq⟩ <;> rw [heq] <;> rfl

theorem counts_finishLoad (env : LoadEnv) (opts : LoadOptions)
    (loaded : Except LoaderError Unit) :
    (rt.finishLoad env b opts loaded).2.instanceCounts = rt.instanceCounts := by
  unfold finishLoad
  cases loaded with
  | error e => exact counts_discard rt env.thread b
  | ok u =>
    have hcommit := counts_commit rt env.thread b opts
    dsimp only
    rcases heq : rt.commitPreparedBundleTransactionWithHandles env.thread b opts with ⟨_ | _, rt'⟩
    · rw [heq] at hcommit
      exact (counts_discard rt' env.thread b).trans hcommit
    · rw [heq] at hcommit
      exact hcommit

theorem counts_swapReload (replacement : Replacement) (slotIndices : List Nat)
    (loaded : Except LoaderError Unit) :
    (rt.swapReload replacement slotIndices loaded).2.instanceCounts = rt.instanceCounts := by
  cases loaded with
  | error e => rfl
  | ok u =>
    unfold swapReload
    rcases rt.registry.applyReloadSwap replacement.descriptor.id slotIndices
      replacement.descriptor replacement.dependencies with ⟨_ | _, registry⟩ <;> rfl

end

end Runtime

/-! ### The instances of a bundle -/

namespace BackingSystem

variable {s s' : BackingSystem} {thread : ThreadId}

/-- The count of a bundle. -/
def countOf (s : BackingSystem) (b : BundleId) : Nat :=
  (s.host.runtime.instanceCounts.lookup b).getD 0

/-- The same counts and the same instances. -/
structure SameCounts (s s' : BackingSystem) : Prop where
  counts : s'.host.runtime.instanceCounts = s.host.runtime.instanceCounts
  constructing : s'.constructing = s.constructing
  instances : s'.instances = s.instances
  destroying : s'.destroying = s.destroying
  noting : s'.noting = s.noting

theorem SameCounts.countOf (h : SameCounts s s') (b : BundleId) : s'.countOf b = s.countOf b := by
  rw [BackingSystem.countOf, h.counts]
  rfl

theorem SameCounts.owed (h : SameCounts s s') (b : BundleId) : s'.owed b = s.owed b := by
  simp only [BackingSystem.owed, outstanding, h.constructing, h.instances, h.destroying, h.noting]

theorem sameCounts_section {next : Section} {rest : List Section}
    (hreset : ∀ b, next ≠ .resetCount b) : SameCounts s (s.runSection thread rest next) := by
  cases next with
  | insertMarker b => exact ⟨rfl, rfl, rfl, rfl, rfl⟩
  | push b => exact ⟨rfl, rfl, rfl, rfl, rfl⟩
  | pop => exact ⟨Runtime.counts_popInitBundleId _ _, rfl, rfl, rfl, rfl⟩
  | removeMarker b => exact ⟨rfl, rfl, rfl, rfl, rfl⟩
  | insertRoot b root => exact ⟨rfl, rfl, rfl, rfl, rfl⟩
  | discard b => exact ⟨Runtime.counts_discard _ _ _, rfl, rfl, rfl, rfl⟩
  | finishLoad env b opts loaded => exact ⟨Runtime.counts_finishLoad _ _ _ _ _, rfl, rfl, rfl, rfl⟩
  | beginReload b => exact ⟨rfl, rfl, rfl, rfl, rfl⟩
  | swapReload replacement slotIndices loaded =>
    have hswap := Runtime.counts_swapReload s.host.runtime replacement slotIndices loaded
    simp only [runSection]
    rcases heq : s.host.runtime.swapReload replacement slotIndices loaded with ⟨_ | _, rt⟩
    · rw [heq] at hswap
      exact ⟨hswap, rfl, rfl, rfl, rfl⟩
    · rw [heq] at hswap
      exact ⟨hswap, rfl, rfl, rfl, rfl⟩
  | resetCount b => exact absurd rfl (hreset b)

theorem sameCounts_commitPlugin (compatibility : Compatibility) (b : BundleId)
    (root : Option Nat) : SameCounts s (s.commitPlugin compatibility thread b root) := by
  have hcommit := Runtime.counts_commit s.host.runtime thread b ⟨compatibility, false⟩
  unfold commitPlugin
  rcases heq : s.host.runtime.commitPreparedBundleTransactionWithHandles thread b
    ⟨compatibility, false⟩ with ⟨_ | _, rt⟩
  · rw [heq] at hcommit
    exact ⟨hcommit, rfl, rfl, rfl, rfl⟩
  · rw [heq] at hcommit
    exact ⟨hcommit, rfl, rfl, rfl, rfl⟩

theorem sameCounts_abortPlugin (b : BundleId) : SameCounts s (s.abortPlugin thread b) := by
  unfold abortPlugin
  rcases s.host.runtime.registry.discardPreparedBundle thread b with ⟨⟨_ | _, _⟩, registry⟩ <;>
    exact ⟨rfl, rfl, rfl, rfl, rfl⟩

theorem SameCounts.refl : SameCounts s s := ⟨rfl, rfl, rfl, rfl, rfl⟩

theorem sameCounts_whenIdle {next : BackingSystem} (h : SameCounts s next) :
    SameCounts s (s.whenIdle thread next) := by
  unfold whenIdle
  split
  · exact h
  · exact .refl

/-- A step has the same counts and the same instances, but for the steps of the host's two
routes, the reset of a count, and the critical section of an unload. -/
def Counts : BackingStep → Prop
  | .reserve _ | .constructed _ _ | .destroyed _ | .lookup _ | .note _ => True
  | .advanceUnload _ _ _ => True
  | _ => False

theorem sameCounts_exec (compatibility : Compatibility) {step : BackingStep}
    (hstep : ¬ Counts step)
    (hreset : ∀ thread b, step = .advance thread → (s.todo thread).head? ≠ some (.resetCount b)) :
    SameCounts s (s.exec compatibility step) := by
  cases step with
  | advance thread =>
    simp only [exec]
    cases htodo : s.todo thread with
    | nil => exact .refl
    | cons next rest =>
      refine sameCounts_section fun b hnext => hreset thread b rfl ?_
      rw [htodo, hnext]
      rfl
  | begin thread manifest language =>
    refine sameCounts_whenIdle ?_
    have hbegin := Runtime.counts_begin s.host.runtime thread manifest language .internal
    rcases heq : s.host.runtime.beginPreparedBundleTransaction thread manifest language .internal
      with ⟨_ | b, rt⟩
    · rw [heq] at hbegin
      exact ⟨hbegin, rfl, rfl, rfl, rfl⟩
    · rw [heq] at hbegin
      exact ⟨hbegin, rfl, rfl, rfl, rfl⟩
  | attach thread b resident =>
    exact sameCounts_whenIdle ⟨Runtime.counts_attach _ _ _ _, rfl, rfl, rfl, rfl⟩
  | register thread descriptor interface functions ptr =>
    exact sameCounts_whenIdle ⟨rfl, rfl, rfl, rfl, rfl⟩
  | commit thread b root =>
    refine sameCounts_whenIdle ?_
    split
    · exact sameCounts_commitPlugin compatibility b root
    · exact .refl
  | commitIntoHandles thread b outHandles =>
    refine sameCounts_whenIdle ?_
    split
    · exact sameCounts_commitPlugin compatibility b none
    · exact sameCounts_abortPlugin b
  | abort thread b => exact sameCounts_whenIdle (sameCounts_abortPlugin b)
  | lockRoots thread =>
    refine sameCounts_whenIdle ?_
    split <;> exact ⟨rfl, rfl, rfl, rfl, rfl⟩
  | unlockRoots thread =>
    refine sameCounts_whenIdle ?_
    split <;> exact ⟨rfl, rfl, rfl, rfl, rfl⟩
  | unload thread b => exact sameCounts_whenIdle ⟨rfl, rfl, rfl, rfl, rfl⟩
  | unloadRegistered thread b descriptor => exact sameCounts_whenIdle ⟨rfl, rfl, rfl, rfl, rfl⟩
  | beginLoad env manifest source =>
    refine sameCounts_whenIdle ?_
    have hbegin := Runtime.counts_admitLoad s.host.runtime env manifest source
    rcases heq : s.host.runtime.admitLoad env manifest source with ⟨_ | b, rt⟩
    · rw [heq] at hbegin
      exact ⟨hbegin, rfl, rfl, rfl, rfl⟩
    · rw [heq] at hbegin
      exact ⟨hbegin, rfl, rfl, rfl, rfl⟩
  | endLoad thread opts loaded =>
    refine sameCounts_whenIdle ?_
    split <;> exact ⟨rfl, rfl, rfl, rfl, rfl⟩
  | beginReload env path =>
    refine sameCounts_whenIdle ?_
    split <;> exact ⟨rfl, rfl, rfl, rfl, rfl⟩
  | endReload thread loaded =>
    refine sameCounts_whenIdle ?_
    split <;> exact ⟨rfl, rfl, rfl, rfl, rfl⟩
  | reserve interface => exact absurd trivial hstep
  | constructed made isNull => exact absurd trivial hstep
  | destroyed made => exact absurd trivial hstep
  | lookup made => exact absurd trivial hstep
  | note b => exact absurd trivial hstep
  | advanceUnload hooks thread dep => exact absurd trivial hstep

/-! ### The host's two routes -/

/-- A step of the host's two routes leaves the registry. -/
theorem registry_guests (compatibility : Compatibility) {step : BackingStep} (hstep : Counts step)
    (hunload : ∀ hooks thread dep, step ≠ .advanceUnload hooks thread dep) :
    (s.exec compatibility step).host.runtime.registry = s.host.runtime.registry := by
  cases step with
  | reserve interface =>
    simp only [exec, Runtime.beginGuestInstanceConstruction]
    split
    · next heq =>
      split at heq <;> cases heq
      rfl
    · next heq =>
      split at heq <;> cases heq
      rfl
  | constructed made isNull =>
    simp only [exec]
    repeat' split
    all_goals rfl
  | destroyed made =>
    simp only [exec]
    split <;> rfl
  | lookup made =>
    simp only [exec]
    split <;> rfl
  | note b =>
    simp only [exec]
    split
    · show (s.host.runtime.noteInstanceDestroyed b).registry = _
      unfold Runtime.noteInstanceDestroyed
      split <;> rfl
    · rfl
  | advanceUnload hooks thread dep => exact absurd rfl (hunload hooks thread dep)
  | _ => exact hstep.elim

/-- A reservation is counted and owed. -/
theorem counts_reserve (compatibility : Compatibility) (interface : Nat) (b : BundleId) :
    (s.exec compatibility (.reserve interface)).countOf b + s.owed b =
      s.countOf b + (s.exec compatibility (.reserve interface)).owed b := by
  simp only [exec, Runtime.beginGuestInstanceConstruction]
  cases hfound : s.host.runtime.registry.bundleIdForGuestInterface interface with
  | none => rfl
  | some x =>
    simp only [countOf, withRuntime, owed, outstanding, Multiset.cons_add, Multiset.countP_cons,
      lookup_insert_eq]
    by_cases hx : b = x
    · subst hx
      simp only [if_true, Option.getD_some]
      omega
    · simp only [if_neg hx, if_neg (Ne.symm hx)]
      omega

/-- The end of `create_instance` moves what is owed. -/
theorem owed_constructed (compatibility : Compatibility) (made : GuestInstance) (isNull : Bool)
    (b : BundleId) :
    (s.exec compatibility (.constructed made isNull)).countOf b = s.countOf b ∧
      (s.exec compatibility (.constructed made isNull)).owed b = s.owed b := by
  simp only [exec]
  split
  · rename_i hmem
    obtain ⟨rest, hrest⟩ := Multiset.exists_cons_of_mem hmem
    split
    · refine ⟨rfl, ?_⟩
      simp only [owed, outstanding, hrest, Multiset.erase_cons_head, Multiset.countP_add,
        Multiset.countP_cons, Multiset.count_cons, eq_comm]
      omega
    · refine ⟨rfl, ?_⟩
      simp only [owed, outstanding, hrest, Multiset.erase_cons_head, Multiset.countP_add,
        Multiset.countP_cons]
      omega
  · exact ⟨rfl, rfl⟩

/-- The end of `destroy_instance` moves what is owed. -/
theorem owed_destroyed (compatibility : Compatibility) (made : GuestInstance) (b : BundleId) :
    (s.exec compatibility (.destroyed made)).countOf b = s.countOf b ∧
      (s.exec compatibility (.destroyed made)).owed b = s.owed b := by
  simp only [exec]
  split
  · rename_i hmem
    obtain ⟨rest, hrest⟩ := Multiset.exists_cons_of_mem hmem
    refine ⟨rfl, ?_⟩
    simp only [owed, outstanding, hrest, Multiset.erase_cons_head, Multiset.countP_add,
      Multiset.countP_cons]
    omega
  · exact ⟨rfl, rfl⟩

/-- The lookup moves what is owed from the bundle of the instance to the bundle it finds. -/
theorem owed_lookup (compatibility : Compatibility) {made : GuestInstance}
    (hmem : made ∈ s.destroying) (b : BundleId) :
    (s.exec compatibility (.lookup made)).countOf b = s.countOf b ∧
      (s.exec compatibility (.lookup made)).owed b + (if b = made.bundleId then 1 else 0) =
        s.owed b + (if s.bundleOf made.interface = some b then 1 else 0) := by
  obtain ⟨rest, hrest⟩ := Multiset.exists_cons_of_mem hmem
  simp only [exec, if_pos hmem]
  refine ⟨rfl, ?_⟩
  show _ = _ + (if s.host.runtime.registry.bundleIdForGuestInterface made.interface = some b
    then 1 else 0)
  cases hfound : s.host.runtime.registry.bundleIdForGuestInterface made.interface with
  | none =>
    simp only [owed, outstanding, hrest, Multiset.erase_cons_head, Multiset.countP_cons,
      reduceCtorEq, if_false, eq_comm]
    omega
  | some x =>
    simp only [owed, outstanding, hrest, Multiset.erase_cons_head, Multiset.countP_cons,
      Multiset.count_cons, Option.some.injEq, eq_comm]
    omega

/-- A decrement of a count that covers what is owed. -/
theorem counts_note (compatibility : Compatibility) {b x : BundleId}
    (hcounted : s.owed x ≤ s.countOf x) :
    (s.exec compatibility (.note b)).countOf x + s.owed x =
      s.countOf x + (s.exec compatibility (.note b)).owed x := by
  simp only [exec]
  split
  · rename_i hmem
    obtain ⟨rest, hrest⟩ := Multiset.exists_cons_of_mem hmem
    show ((s.host.runtime.noteInstanceDestroyed b).instanceCounts.lookup x).getD 0 + _ =
      _ + (s.outstanding x + s.destroying.countP _ + (s.noting.erase b).count x)
    rw [lookup_noteInstanceDestroyed]
    simp only [countOf, owed, hrest, Multiset.erase_cons_head, Multiset.count_cons] at hcounted ⊢
    by_cases hx : x = b
    · subst hx
      simp only [if_true] at hcounted ⊢
      omega
    · simp only [if_neg hx] at hcounted ⊢
      omega
  · rfl

/-! ### The unload -/

/-- The runtime keeps backing for the bundle. -/
def Backed (s : BackingSystem) (b : BundleId) : Prop :=
  b ∈ s.host.runtime.internalPluginLifecycle ∨
    (s.host.runtime.internalPluginRoots.lookup b).isSome ∨
    (s.host.runtime.registry.internalPluginResidents.lookup b).isSome

/-- The registry has the bundle. -/
def Registered (s : BackingSystem) (b : BundleId) : Prop :=
  (s.host.runtime.registry.data.descriptorOf b).isSome

/-- The critical section of an unload that passes: it finds no count of a bundle with backing, it
removes one bundle, and it leaves the counts of the others. -/
theorem invalidateRegistered_ok {rt : Runtime} {b : BundleId} {d : BundleDescriptor}
    (hok : (rt.invalidateRegistered b d).1 = .ok ()) :
    ((b ∈ rt.internalPluginLifecycle ∨ (rt.internalPluginRoots.lookup b).isSome ∨
        (rt.registry.internalPluginResidents.lookup b).isSome) →
      (rt.instanceCounts.lookup b).getD 0 = 0) ∧
    (∀ x, (rt.invalidateRegistered b d).2.registry.data.descriptorOf x =
      if x = b then none else rt.registry.data.descriptorOf x) ∧
    ∀ x ≠ b, (rt.invalidateRegistered b d).2.instanceCounts.lookup x =
      rt.instanceCounts.lookup x := by
  unfold Runtime.invalidateRegistered at hok ⊢
  dsimp only at hok ⊢
  split at hok
  · cases hok
  · rename_i hfree
    rw [if_neg hfree]
    refine ⟨fun hbacked => ?_, fun x => ?_, fun x hx => ?_⟩
    · by_contra hcount
      refine hfree ⟨?_, Nat.pos_of_ne_zero hcount⟩
      simpa [or_assoc] using hbacked
    · exact (invalidateBundle_bundles _ b).1 x
    · show (rt.instanceCounts.erase b).lookup x = _
      rw [lookup_erase_eq, if_neg hx]

/-- A section of an unload that leaves the runtime. -/
theorem sameCounts_waiting {unload : UnloadSystem} {internal : Finset BundleId}
    {unloads : List (BundleId × UnloadPhase)} (hruntime : unload.runtime = s.host.runtime) :
    SameCounts s ({ s.withRuntime unload.runtime with internal := internal }.setUnloads thread
      unloads) := by
  rw [hruntime]
  exact ⟨rfl, rfl, rfl, rfl, rfl⟩

/-- What the section of an unload does: it leaves the counts, the records and the instances, or
it is the critical section of a bundle, and passes. -/
theorem advanceUnload_cases (s : BackingSystem) (hooks : Hooks) (thread : ThreadId)
    (dep : BundleId) :
    (SameCounts s (s.advanceUnload hooks thread dep) ∧
      (s.advanceUnload hooks thread dep).host.runtime.registry = s.host.runtime.registry ∧
      s.unloading thread = none) ∨
    ∃ b d, s.unloading thread = some b ∧ (s.host.runtime.invalidateRegistered b d).1 = .ok () ∧
      (s.advanceUnload hooks thread dep).host.runtime =
        (s.host.runtime.invalidateRegistered b d).2 ∧
      ∀ x, (s.advanceUnload hooks thread dep).owed x = s.owed x := by
  rcases hunloads : s.unloads thread with _ | ⟨⟨b, phase⟩, rest⟩
  · refine Or.inl ?_
    unfold advanceUnload unloading
    rw [hunloads]
    exact ⟨.refl, rfl, rfl⟩
  · -- Every section but the critical one leaves the runtime.
    by_cases hphase : ∀ d loaderName, phase ≠ .checked d loaderName
    · refine Or.inl ?_
      have hnone : s.unloading thread = none := by
        unfold unloading
        rw [hunloads]
        cases phase with
        | checked d loaderName => exact absurd rfl (hphase d loaderName)
        | _ => rfl
      have hruntime : (UnloadSystem.advance hooks thread b ⟨s.host.runtime, phase⟩ dep).runtime =
          s.host.runtime := advance_runtime hooks b dep s.host.runtime hphase
      unfold advanceUnload
      rw [hunloads]
      cases phase with
      | checked d loaderName => exact absurd rfl (hphase d loaderName)
      | returned result => exact ⟨⟨rfl, rfl, rfl, rfl, rfl⟩, rfl, hnone⟩
      | _ => exact ⟨sameCounts_waiting hruntime, congrArg Runtime.registry hruntime, hnone⟩
    · push Not at hphase
      obtain ⟨d, loaderName, rfl⟩ := hphase
      -- The critical section waits for the lock, is refused, or passes.
      cases hholder : s.rootsHolder with
      | some t =>
        refine Or.inl ?_
        unfold advanceUnload unloading
        rw [hunloads, hholder]
        exact ⟨.refl, rfl, rfl⟩
      | none =>
        rcases invalidateRegistered_ends s.host.runtime b d with ⟨e, heq⟩ | ⟨hok, -⟩
        · have hruntime : (UnloadSystem.advance hooks thread b
              ⟨s.host.runtime, .checked d loaderName⟩ dep).runtime = s.host.runtime := by
            unfold UnloadSystem.advance
            dsimp only
            rw [heq]
          refine Or.inl ⟨?_, ?_, ?_⟩
          · unfold advanceUnload
            rw [hunloads, hholder]
            exact sameCounts_waiting hruntime
          · unfold advanceUnload
            rw [hunloads, hholder]
            exact congrArg Runtime.registry hruntime
          · unfold unloading
            rw [hunloads]
            simp only [hholder, heq, if_true]
        · have hruntime : (UnloadSystem.advance hooks thread b
              ⟨s.host.runtime, .checked d loaderName⟩ dep).runtime
              = (s.host.runtime.invalidateRegistered b d).2 := by
            unfold UnloadSystem.advance
            dsimp only
            rcases s.host.runtime.invalidateRegistered b d with ⟨_ | _, rt⟩ <;> rfl
          refine Or.inr ⟨b, d, ?_, hok, ?_, fun x => ?_⟩
          · unfold unloading
            rw [hunloads]
            simp only [hholder, hok, if_true]
          · unfold advanceUnload
            rw [hunloads, hholder]
            exact hruntime
          · unfold advanceUnload
            rw [hunloads, hholder]
            rfl

end BackingSystem

/-! ### The condition and the property -/

namespace GuestSystem

section
variable (compatibility : Compatibility) (s : GuestSystem)

/-- A registered bundle that has not been reloaded. -/
def Tracked (b : BundleId) : Prop := s.base.Registered b ∧ b ∉ s.reloaded

/-- The constructors of the bundle that run, and its instances, of any route. -/
def live (b : BundleId) : Nat :=
  s.base.outstanding b + s.constructing.countP fun i => i.bundleId = b

/-- The same, with the instances whose host call has not returned. -/
def owed (b : BundleId) : Nat :=
  s.base.owed b + s.constructing.countP fun i => i.bundleId = b

/-- Every guest instance is counted. -/
def Counted : Prop := ∀ b, s.Tracked b → s.base.countOf b = s.owed b

/-- The step is the critical section of an unload of the bundle, and it passes. -/
def Unloads : GuestStep → BundleId → Prop
  | .host step, b => s.base.Unloads step b
  | _, _          => False

/-- The step registers the bundle. -/
def Registers (step : GuestStep) (b : BundleId) : Prop :=
  ¬ s.base.Registered b ∧ (s.exec compatibility step).Tracked b

/-- The condition on a step of the host. -/
def HostMeets : BackingStep → Prop
  -- The interface of a destroyed instance leads to the bundle it was counted for.
  | .lookup made =>
    made ∈ s.base.destroying → ∀ b, s.Tracked b →
      (b = made.bundleId ↔ s.base.bundleOf made.interface = some b)
  -- An unload of an internal plugin finds some of its backing, or there is no instance.
  | .advanceUnload hooks thread dep =>
    ∀ b, s.Tracked b → b ∈ s.base.internal →
      s.base.Unloads (.advanceUnload hooks thread dep) b → s.base.Backed b ∨ s.live b = 0
  -- Nothing uncounted is left of an earlier bundle of the name.
  | step => ∀ b, s.Registers compatibility (.host step) b → s.base.countOf b = s.owed b

/-- The condition on a step. -/
def Meets : GuestStep → Prop
  | .host step => s.HostMeets compatibility step
  -- The direct routes create and destroy no instance of a bundle that is counted.
  | .createInstance interface => ∀ b, s.base.bundleOf interface = some b → ¬ s.Tracked b
  | .created made isNull => made ∈ s.constructing → isNull = true → ¬ s.Tracked made.bundleId
  | .destroyInstance made => made ∈ s.base.instances → ¬ s.Tracked made.bundleId

/-- Every guest instance is counted after the step, and the step unloads no internal plugin with
an instance. -/
structure Keeps (step : GuestStep) : Prop where
  counted : (s.exec compatibility step).Counted
  refused : ∀ b, s.Tracked b → b ∈ s.base.internal → s.Unloads step b → s.live b = 0

end

section
variable {compatibility : Compatibility} {s : GuestSystem}

/-- A bundle stays tracked as its record stays. -/
theorem tracked_host {step : BackingStep} {b : BundleId}
    (h : (s.exec compatibility (.host step)).Tracked b) :
    (s.base.exec compatibility step).Registered b ∧ b ∉ s.reloaded ∧
      s.base.reloads step ≠ some b := by
  obtain ⟨hregistered, hreloaded⟩ := h
  change b ∉ s.reloaded ∪ (s.base.reloads step).toFinset at hreloaded
  rw [Finset.mem_union, not_or] at hreloaded
  refine ⟨hregistered, hreloaded.1, fun heq => hreloaded.2 ?_⟩
  rw [heq]
  simp

/-- A step that leaves the counts and what is owed keeps the count of every bundle but those it
registers. -/
theorem keeps_iff_of_same (hcounted : s.Counted) {step : GuestStep}
    (hsame : ∀ b, (s.exec compatibility step).Tracked b →
      (s.exec compatibility step).base.countOf b = s.base.countOf b ∧
        (s.exec compatibility step).owed b = s.owed b)
    (htracked : ∀ b, (s.exec compatibility step).Tracked b → b ∉ s.reloaded)
    (hunloads : ∀ b, ¬ s.Unloads step b) :
    s.Keeps compatibility step ↔
      ∀ b, s.Registers compatibility step b → s.base.countOf b = s.owed b := by
  constructor
  · intro h b hregisters
    have hkeep := h.counted b hregisters.2
    rwa [(hsame b hregisters.2).1, (hsame b hregisters.2).2] at hkeep
  · intro h
    refine ⟨fun b hb => ?_, fun b _ _ hb => absurd hb (hunloads b)⟩
    rw [(hsame b hb).1, (hsame b hb).2]
    by_cases hregistered : s.base.Registered b
    · exact hcounted b ⟨hregistered, htracked b hb⟩
    · exact h b ⟨hregistered, hb⟩

/-- A step of the host that leaves the records and changes a count with what is owed keeps the
counts. -/
theorem keeps_of_balanced (hcounted : s.Counted) {step : BackingStep}
    (hregistry : (s.base.exec compatibility step).host.runtime.registry =
      s.base.host.runtime.registry)
    (hbalanced : ∀ b, s.Tracked b → s.base.owed b ≤ s.base.countOf b →
      (s.base.exec compatibility step).countOf b + s.base.owed b =
        s.base.countOf b + (s.base.exec compatibility step).owed b)
    (hunloads : ∀ b, ¬ s.base.Unloads step b) : s.Keeps compatibility (.host step) := by
  refine ⟨fun b hb => ?_, fun b _ _ hb => absurd hb (hunloads b)⟩
  obtain ⟨hregistered, hreloaded, -⟩ := tracked_host hb
  have htracked : s.Tracked b := by
    refine ⟨?_, hreloaded⟩
    rwa [BackingSystem.Registered, hregistry] at hregistered
  have hcount := hcounted b htracked
  have hstep := hbalanced b htracked (by
    rw [hcount]
    exact Nat.le_add_right _ _)
  show (s.base.exec compatibility step).countOf b =
    (s.base.exec compatibility step).owed b + s.constructing.countP fun i => i.bundleId = b
  rw [owed] at hcount
  omega

/-- A step that registers nothing meets the condition on registrations. -/
theorem not_registers_of_registry {step : BackingStep}
    (hregistry : (s.base.exec compatibility step).host.runtime.registry =
      s.base.host.runtime.registry) (b : BundleId) :
    ¬ s.Registers compatibility (.host step) b := by
  rintro ⟨hnew, hregistered, -⟩
  refine hnew ?_
  change (s.base.exec compatibility step).Registered b at hregistered
  rwa [BackingSystem.Registered, hregistry] at hregistered

theorem hostMeets_eq {step : BackingStep} (hlookup : ∀ made, step ≠ .lookup made)
    (hunload : ∀ hooks thread dep, step ≠ .advanceUnload hooks thread dep) :
    s.HostMeets compatibility step =
      ∀ b, s.Registers compatibility (.host step) b → s.base.countOf b = s.owed b := by
  cases step with
  | lookup made => exact absurd rfl (hlookup made)
  | advanceUnload hooks thread dep => exact absurd rfl (hunload hooks thread dep)
  | _ => rfl

theorem unloads_eq_false {step : BackingStep}
    (hunload : ∀ hooks thread dep, step ≠ .advanceUnload hooks thread dep) (b : BundleId) :
    ¬ s.base.Unloads step b := by
  cases step with
  | advanceUnload hooks thread dep => exact absurd rfl (hunload hooks thread dep)
  | _ => exact id

/-- The reset of a count is that of a reloaded bundle. -/
theorem keeps_iff_reset (hcounted : s.Counted) {thread : ThreadId} {b : BundleId}
    (hhead : (s.base.todo thread).head? = some (.resetCount b)) :
    s.Keeps compatibility (.host (.advance thread)) ↔
      s.HostMeets compatibility (.advance thread) := by
  obtain ⟨rest, htodo⟩ : ∃ rest, s.base.todo thread = .resetCount b :: rest := by
    cases htodo : s.base.todo thread with
    | nil =>
      rw [htodo] at hhead
      cases hhead
    | cons next rest =>
      rw [htodo] at hhead
      exact ⟨rest, by rw [Option.some.inj hhead]⟩
  have hexec : s.base.exec compatibility (.advance thread) =
      (s.base.withRuntime (s.base.host.runtime.resetInstanceCountForBundle b)).setTodo thread
        rest := by
    simp only [BackingSystem.exec, htodo]
    rfl
  refine keeps_iff_of_same hcounted (fun x hx => ?_) (fun x hx => (tracked_host hx).2.1)
    fun x hx => hx
  have hne : x ≠ b := by
    rintro rfl
    refine (tracked_host hx).2.2 ?_
    rw [BackingSystem.reloads, hhead]
    rfl
  constructor
  · show (s.base.exec compatibility (.advance thread)).countOf x = _
    rw [hexec]
    show ((s.base.host.runtime.instanceCounts.erase b).lookup x).getD 0 = _
    rw [lookup_erase_eq, if_neg hne]
    rfl
  · show (s.base.exec compatibility (.advance thread)).owed x + _ = _
    rw [hexec]
    rfl

/-- A lookup keeps the counts when it finds the bundle that the instance was counted for. -/
theorem keeps_iff_lookup (hcounted : s.Counted) (made : GuestInstance) :
    s.Keeps compatibility (.host (.lookup made)) ↔ s.HostMeets compatibility (.lookup made) := by
  have hregistry : (s.base.exec compatibility (.lookup made)).host.runtime.registry =
      s.base.host.runtime.registry :=
    BackingSystem.registry_guests compatibility trivial nofun
  by_cases hmem : made ∈ s.base.destroying
  · have howed := fun b => BackingSystem.owed_lookup compatibility hmem b
    constructor
    · intro h _ b hb
      have htracked : (s.exec compatibility (.host (.lookup made))).Tracked b := by
        refine ⟨?_, ?_⟩
        · show (s.base.exec compatibility (.lookup made)).Registered b
          rw [BackingSystem.Registered, hregistry]
          exact hb.1
        · show b ∉ s.reloaded ∪ _
          simpa [BackingSystem.reloads] using hb.2
      have hkeep := h.counted b htracked
      have hcount := hcounted b hb
      change (s.base.exec compatibility (.lookup made)).countOf b =
        (s.base.exec compatibility (.lookup made)).owed b +
          s.constructing.countP fun i => i.bundleId = b at hkeep
      rw [(howed b).1, hcount, owed] at hkeep
      have hstep := (howed b).2
      constructor
      · intro hown
        by_contra hfound
        rw [if_pos hown, if_neg hfound] at hstep
        omega
      · intro hfound
        by_contra hown
        rw [if_neg hown, if_pos hfound] at hstep
        omega
    · intro h
      refine keeps_of_balanced hcounted hregistry (fun b hb _ => ?_) fun _ hb => hb
      have hstep := (howed b).2
      have hiff := h hmem b hb
      rw [(howed b).1]
      by_cases hown : b = made.bundleId
      · rw [if_pos hown, if_pos (hiff.1 hown)] at hstep
        omega
      · rw [if_neg hown, if_neg (mt hiff.2 hown)] at hstep
        omega
  · refine ⟨fun _ hmem' => absurd hmem' hmem, fun _ => ?_⟩
    refine keeps_of_balanced hcounted hregistry (fun b _ _ => ?_) fun _ hb => hb
    have hsame : s.base.exec compatibility (.lookup made) = s.base := by
      simp only [BackingSystem.exec, if_neg hmem]
    rw [hsame]

/-- The section of an unload keeps the counts, and an unload of an internal plugin that passes
finds backing and no instance, or no instance. -/
theorem keeps_iff_advanceUnload (hcounted : s.Counted) (hooks : Hooks) (thread : ThreadId)
    (dep : BundleId) :
    s.Keeps compatibility (.host (.advanceUnload hooks thread dep)) ↔
      s.HostMeets compatibility (.advanceUnload hooks thread dep) := by
  have hkeeps : (s.exec compatibility (.host (.advanceUnload hooks thread dep))).Counted := by
    intro x hx
    obtain ⟨hregistered, hreloaded, -⟩ := tracked_host hx
    show (s.base.exec compatibility (.advanceUnload hooks thread dep)).countOf x =
      (s.base.exec compatibility (.advanceUnload hooks thread dep)).owed x +
        s.constructing.countP fun i => i.bundleId = x
    simp only [BackingSystem.exec, BackingSystem.whenIdle] at hregistered ⊢
    split
    · next hidle =>
      rw [if_pos hidle] at hregistered
      rcases BackingSystem.advanceUnload_cases s.base hooks thread dep with
        ⟨hsame, hregistry, -⟩ | ⟨b, d, -, hok, hruntime, howed⟩
      · rw [BackingSystem.Registered, hregistry] at hregistered
        rw [hsame.countOf, hsame.owed]
        exact hcounted x ⟨hregistered, hreloaded⟩
      · obtain ⟨-, hrecords, hcounts⟩ := BackingSystem.invalidateRegistered_ok hok
        rw [BackingSystem.Registered, hruntime, hrecords] at hregistered
        split at hregistered
        · cases hregistered
        · next hne =>
          rw [howed, BackingSystem.countOf, hruntime, hcounts x hne]
          exact hcounted x ⟨hregistered, hreloaded⟩
    · next hbusy =>
      rw [if_neg hbusy] at hregistered
      exact hcounted x ⟨hregistered, hreloaded⟩
  constructor
  · exact fun h b hb hinternal hunloads => Or.inr (h.refused b hb hinternal hunloads)
  · intro h
    refine ⟨hkeeps, fun b hb hinternal hunloads => ?_⟩
    rcases h b hb hinternal hunloads with hbacked | hnone
    · -- with backing the section passes on a count of zero
      obtain ⟨-, hunloading⟩ := hunloads
      rcases BackingSystem.advanceUnload_cases s.base hooks thread dep with
        ⟨-, -, hnone⟩ | ⟨x, d, hx, hok, -, -⟩
      · rw [hnone] at hunloading
        cases hunloading
      · obtain rfl : x = b := Option.some.inj (hx.symm.trans hunloading)
        have hzero := (BackingSystem.invalidateRegistered_ok hok).1 hbacked
        have hcount := hcounted x hb
        change (s.base.host.runtime.instanceCounts.lookup x).getD 0 = _ at hcount
        rw [hzero, owed, BackingSystem.owed] at hcount
        rw [live]
        omega
    · exact hnone

/-- The steps of the host's two routes, but for the lookup, keep the counts. -/
theorem keeps_iff_balanced (hcounted : s.Counted) {step : BackingStep}
    (hcounts : BackingSystem.Counts step) (hlookup : ∀ made, step ≠ .lookup made)
    (hunload : ∀ hooks thread dep, step ≠ .advanceUnload hooks thread dep)
    (hbalanced : ∀ b, s.base.owed b ≤ s.base.countOf b →
      (s.base.exec compatibility step).countOf b + s.base.owed b =
        s.base.countOf b + (s.base.exec compatibility step).owed b) :
    s.Keeps compatibility (.host step) ↔ s.HostMeets compatibility step := by
  have hregistry := BackingSystem.registry_guests (s := s.base) compatibility hcounts hunload
  rw [hostMeets_eq hlookup hunload]
  exact iff_of_true
    (keeps_of_balanced hcounted hregistry (fun b _ hcovered => hbalanced b hcovered)
      (unloads_eq_false hunload))
    fun b hb => absurd hb (not_registers_of_registry hregistry b)

/-- A step of the host keeps the counts exactly if it meets the condition. -/
theorem keeps_iff_host (hcounted : s.Counted) (step : BackingStep) :
    s.Keeps compatibility (.host step) ↔ s.HostMeets compatibility step := by
  by_cases hcounts : BackingSystem.Counts step
  · cases step with
    | reserve interface =>
      exact keeps_iff_balanced hcounted hcounts nofun nofun fun b _ =>
        BackingSystem.counts_reserve compatibility interface b
    | constructed made isNull =>
      refine keeps_iff_balanced hcounted hcounts nofun nofun fun b _ => ?_
      obtain ⟨hcount, howed⟩ :=
        BackingSystem.owed_constructed (s := s.base) compatibility made isNull b
      rw [hcount, howed]
    | destroyed made =>
      refine keeps_iff_balanced hcounted hcounts nofun nofun fun b _ => ?_
      obtain ⟨hcount, howed⟩ := BackingSystem.owed_destroyed (s := s.base) compatibility made b
      rw [hcount, howed]
    | lookup made => exact keeps_iff_lookup hcounted made
    | note b =>
      exact keeps_iff_balanced hcounted hcounts nofun nofun fun x hcovered =>
        BackingSystem.counts_note compatibility hcovered
    | advanceUnload hooks thread dep => exact keeps_iff_advanceUnload hcounted hooks thread dep
    | _ => exact hcounts.elim
  · by_cases hreset : ∃ thread b, step = .advance thread ∧
        (s.base.todo thread).head? = some (.resetCount b)
    · obtain ⟨thread, b, rfl, hhead⟩ := hreset
      exact keeps_iff_reset hcounted hhead
    · have hsame := BackingSystem.sameCounts_exec (s := s.base) compatibility hcounts
        fun thread b hstep hhead => hreset ⟨thread, b, hstep, hhead⟩
      have hlookup : ∀ made, step ≠ .lookup made := by
        rintro made rfl
        exact hcounts trivial
      have hunload : ∀ hooks thread dep, step ≠ .advanceUnload hooks thread dep := by
        rintro hooks thread dep rfl
        exact hcounts trivial
      rw [hostMeets_eq hlookup hunload]
      refine keeps_iff_of_same hcounted (fun b _ => ⟨hsame.countOf b, ?_⟩)
        (fun b hb => (tracked_host hb).2.1) (unloads_eq_false hunload)
      show (s.base.exec compatibility step).owed b + _ = _
      rw [hsame.owed]
      rfl

/-- A step of a direct route changes what is owed and no count. -/
theorem keeps_iff_direct (hcounted : s.Counted) (step : GuestStep)
    (hhost : (s.exec compatibility step).base.host = s.base.host)
    (hreloaded : (s.exec compatibility step).reloaded = s.reloaded)
    (hunloads : ∀ b, ¬ s.Unloads step b) :
    s.Keeps compatibility step ↔
      ∀ b, s.Tracked b → (s.exec compatibility step).owed b = s.owed b := by
  have htracked : ∀ b, (s.exec compatibility step).Tracked b ↔ s.Tracked b := by
    intro b
    rw [Tracked, Tracked, BackingSystem.Registered, hhost, hreloaded]
    rfl
  have hcount : ∀ b, (s.exec compatibility step).base.countOf b = s.base.countOf b := by
    intro b
    rw [BackingSystem.countOf, hhost]
    rfl
  constructor
  · intro h b hb
    rw [← hcounted b hb, ← hcount b]
    exact (h.counted b ((htracked b).2 hb)).symm
  · intro h
    refine ⟨fun b hb => ?_, fun b _ _ hb => absurd hb (hunloads b)⟩
    have hold := (htracked b).1 hb
    rw [hcount, h b hold]
    exact hcounted b hold

theorem exec_createInstance_none (compatibility : Compatibility) {interface : Nat}
    (h : s.base.bundleOf interface = none) :
    s.exec compatibility (.createInstance interface) = s := by
  simp only [exec, h]

theorem exec_createInstance (compatibility : Compatibility) {interface : Nat} {b : BundleId}
    (h : s.base.bundleOf interface = some b) :
    s.exec compatibility (.createInstance interface) =
      { s with constructing := ⟨b, interface⟩ ::ₘ s.constructing } := by
  simp only [exec, h]

/-- A constructor of a direct route is owed and not counted. -/
theorem keeps_iff_createInstance (hcounted : s.Counted) (interface : Nat) :
    s.Keeps compatibility (.createInstance interface) ↔
      s.Meets compatibility (.createInstance interface) := by
  cases hfound : s.base.bundleOf interface with
  | none =>
    have hexec := exec_createInstance_none compatibility hfound
    refine iff_of_true ⟨?_, fun _ _ _ hb => hb.elim⟩ fun b hb => ?_
    · rw [hexec]
      exact hcounted
    · rw [hfound] at hb
      cases hb
  | some x =>
    have hexec := exec_createInstance compatibility hfound
    rw [keeps_iff_direct hcounted (.createInstance interface) (by rw [hexec]) (by rw [hexec])
      fun _ hb => hb, hexec]
    constructor
    · intro h b hb htracked
      obtain rfl : x = b := Option.some.inj (hfound.symm.trans hb)
      have howed := h x htracked
      simp only [owed, Multiset.countP_cons, if_true] at howed
      omega
    · intro h b hb
      have hne : x ≠ b := by
        rintro rfl
        exact h x hfound hb
      simp only [owed, Multiset.countP_cons, if_neg hne]
      rfl

/-- A constructor of a direct route that has made no instance is owed no more. -/
theorem keeps_iff_created (hcounted : s.Counted) (made : GuestInstance) (isNull : Bool) :
    s.Keeps compatibility (.created made isNull) ↔
      s.Meets compatibility (.created made isNull) := by
  rw [keeps_iff_direct hcounted (.created made isNull) (by
    simp only [exec]
    repeat' split
    all_goals rfl) (by
    simp only [exec]
    repeat' split
    all_goals rfl) fun _ hb => hb]
  simp only [exec, Meets]
  by_cases hmem : made ∈ s.constructing
  · obtain ⟨rest, hrest⟩ := Multiset.exists_cons_of_mem hmem
    rw [if_pos hmem]
    cases isNull with
    | true =>
      constructor
      · intro h _ _ htracked
        have howed := h made.bundleId htracked
        simp only [owed, hrest, Multiset.erase_cons_head, Multiset.countP_cons, if_true] at howed
        omega
      · intro h b hb
        have hne : made.bundleId ≠ b := by
          rintro rfl
          exact h hmem rfl hb
        simp only [owed, hrest, Multiset.erase_cons_head, Multiset.countP_cons, if_neg hne, if_true]
        omega
    | false =>
      refine iff_of_true (fun b _ => ?_) fun _ h => absurd h (by simp)
      simp only [owed, BackingSystem.owed, BackingSystem.outstanding, setInstances, hrest,
        Multiset.erase_cons_head, Multiset.countP_cons, Multiset.countP_add, Bool.false_eq_true,
        if_false]
      omega
  · rw [if_neg hmem]
    exact iff_of_true (fun _ _ => rfl) fun h => absurd h hmem

/-- An instance that a direct route destroys is owed no more. -/
theorem keeps_iff_destroyInstance (hcounted : s.Counted) (made : GuestInstance) :
    s.Keeps compatibility (.destroyInstance made) ↔
      s.Meets compatibility (.destroyInstance made) := by
  rw [keeps_iff_direct hcounted (.destroyInstance made) (by
    simp only [exec]
    split <;> rfl) (by
    simp only [exec]
    split <;> rfl) fun _ hb => hb]
  simp only [exec, Meets]
  by_cases hmem : made ∈ s.base.instances
  · obtain ⟨rest, hrest⟩ := Multiset.exists_cons_of_mem hmem
    rw [if_pos hmem]
    constructor
    · intro h _ htracked
      have howed := h made.bundleId htracked
      simp only [owed, BackingSystem.owed, BackingSystem.outstanding, setInstances, hrest,
        Multiset.erase_cons_head, Multiset.countP_cons, Multiset.countP_add, if_true] at howed
      omega
    · intro h b hb
      have hne : made.bundleId ≠ b := by
        rintro rfl
        exact h hmem hb
      simp only [owed, BackingSystem.owed, BackingSystem.outstanding, setInstances, hrest,
        Multiset.erase_cons_head, Multiset.countP_cons, Multiset.countP_add, if_neg hne]
      omega
  · rw [if_neg hmem]
    exact iff_of_true (fun _ _ => rfl) fun h => absurd h hmem

/-- A step keeps the counts exactly if it meets the condition. -/
theorem keeps_iff_meets (hcounted : s.Counted) (step : GuestStep) :
    s.Keeps compatibility step ↔ s.Meets compatibility step := by
  cases step with
  | host step => exact keeps_iff_host hcounted step
  | createInstance interface => exact keeps_iff_createInstance hcounted interface
  | created made isNull => exact keeps_iff_created hcounted made isNull
  | destroyInstance made => exact keeps_iff_destroyInstance hcounted made

theorem counted_new : new.Counted := fun _ h => absurd h.1 (by simp [BackingSystem.Registered]; rfl)

end

/-- Along a run every guest instance is counted, and no internal plugin is unloaded while it has
an instance, exactly if each step meets the condition: the direct routes create and destroy no
instance of a bundle that is counted, the lookup of a destroyed instance finds its bundle, nothing
uncounted is left of an earlier bundle of the name when one is registered, and an unload finds
backing of the plugin or no instance. -/
theorem guests_run_iff (compatibility : Compatibility) (steps : List GuestStep) :
    Steps (exec compatibility) (Keeps compatibility) new steps ↔
      Steps (exec compatibility) (Meets compatibility) new steps :=
  ⟨fun h => h.mono counted_new (fun _ _ _ hkeep => hkeep.counted)
      fun _ _ hcounted hkeep => (keeps_iff_meets hcounted _).1 hkeep,
    fun h => h.mono counted_new (fun _ _ hcounted hmeets =>
        ((keeps_iff_meets hcounted _).2 hmeets).counted)
      fun _ _ hcounted hmeets => (keeps_iff_meets hcounted _).2 hmeets⟩

/-! ### A view creates an instance -/

/-- The internal plugin `a` is published, with its contract at the address 7. -/
def publishesPlugin : List GuestStep :=
  (BackingSystem.createsInstance.take 6).map .host

/-- A view creates an instance of the contract. -/
def viewCreates : List GuestStep :=
  [.createInstance 7, .created ⟨BundleId.new "a", 7⟩ false]

/-- The count stays zero, and the unload of the plugin returns `Ok` while the instance lives. -/
theorem view_instance_is_not_counted :
    ¬ Steps (exec .yolo) (Keeps .yolo) new (publishesPlugin ++ viewCreates) ∧
    (run (exec .yolo) new (publishesPlugin ++ viewCreates ++
      BackingSystem.unloadsPlugin.map .host)).base.unloads 1
      = [(BundleId.new "a", .returned (.ok ()))] ∧
    (run (exec .yolo) new (publishesPlugin ++ viewCreates ++
      BackingSystem.unloadsPlugin.map .host)).base.instances = {⟨BundleId.new "a", 7⟩} := by
  refine ⟨fun h => ?_, by decide +kernel, by decide +kernel⟩
  have hkeeps := (steps_append.mp h).2.1
  have hregistered : (exec .yolo (run (exec .yolo) new publishesPlugin)
      (.createInstance 7)).base.host.runtime.registry.data.descriptorOf (BundleId.new "a")
      |>.isSome := by decide +kernel
  have hnew : BundleId.new "a" ∉ (exec .yolo (run (exec .yolo) new publishesPlugin)
      (.createInstance 7)).reloaded := by decide +kernel
  have hcount := hkeeps.counted (BundleId.new "a") ⟨hregistered, hnew⟩
  revert hcount
  decide +kernel

end GuestSystem

end PolyPlug.Lifecycle
