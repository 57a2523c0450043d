import PolyPlug.Lib.Map
import PolyPlug.Lib.Postorder
import PolyPlug.Lifecycle.UnloadCascade
import PolyPlug.Proofs.Lifecycle.Unload
import PolyPlug.Proofs.Registry.Answers

/-!
# `PolyPlug.Proofs.Lifecycle.UnloadCascade`: a cascade and the closure of its bundle

A cascade from `b` is about the bundles that depend on `b`, directly or through others
(`InClosure`). Its second pass reads the registry that it tears down. `Torn` says what
is left of the registry when the bundles of a list are gone: the others export what they
exported, and the dependents of a bundle are those that are not gone yet. So the pass
follows the walk of the graph as it was (`unloadPass_follows`), and unloads one bundle
after the other in its order.

`cascade_removes_closure` is the case in which every unload succeeds.
`cascade_all_or_nothing_iff` says when a cascade that fails has torn down nothing.
-/

set_option autoImplicit false

namespace PolyPlug.Registry

open PolyPlug.Abi
open PolyPlug.Lib
open RuntimeStoreData RuntimeStore

/-! ### One invalidation -/

section
variable (s : RuntimeStore) (b x : BundleId)

theorem invalidateBundle_descriptorOf :
    (s.invalidateBundle b).2.data.descriptorOf x
      = if x = b then none else s.data.descriptorOf x := by
  unfold invalidateBundle
  cases hbd : s.data.bundleData.lookup b with
  | none =>
    dsimp only
    by_cases hx : x = b
    · rw [if_pos hx, hx, descriptorOf, hbd, Option.map_none]
    · rw [if_neg hx]
  | some bd =>
    simp only [RuntimeStore.publish, descriptorOf, foldl_vacateSlot_bundleData, lookup_erase_eq]
    split <;> rfl

theorem invalidateBundle_declaredOf {s : RuntimeStore} {b : BundleId}
    (hrecord : (s.data.descriptorOf b).isSome) (x : BundleId) :
    (s.invalidateBundle b).2.data.declaredOf x
      = if x = b then ∅ else s.data.declaredOf x := by
  obtain ⟨d, hd⟩ := Option.isSome_iff_exists.mp hrecord
  obtain ⟨bd, hbd, -⟩ := Option.map_eq_some_iff.mp hd
  unfold invalidateBundle
  rw [hbd]
  have hsame := @sameBundles_foldl_vacateSlot s.data bd.pluginSlots
  have hdeclared := hsame.declaredOf_eq x
  simp only [declaredOf] at hdeclared
  simp only [RuntimeStore.publish, declaredOf, lookup_erase_eq]
  split
  · rfl
  · exact hdeclared

end

/-- No handle to a vacant slot resolves. -/
theorem resolve_of_vacant {s : RuntimeStore} (hm : s.Mirrors) {i : Nat}
    (h : s.data.catalog.content i = none) (g : Nat) :
    ∃ e, s.resolveGuestContract ⟨i, g⟩ = .error e := by
  by_cases hlt : i < s.data.slots.length
  · rw [resolve_eq hm hlt]
    dsimp only
    rw [h]
    split
    · exact ⟨_, rfl⟩
    · exact ⟨_, rfl⟩
  · refine ⟨.invalidHandle i, ?_⟩
    unfold resolveGuestContract
    rw [hm]
    simp [ReadView.rebuild, List.getElem?_eq_none (Nat.le_of_not_lt hlt)]

end PolyPlug.Registry

namespace PolyPlug.Lifecycle

open PolyPlug.Abi
open PolyPlug.Lib
open PolyPlug.Registry
open RuntimeStoreData RuntimeStore

/-! ### The closure -/

/-- `d` declares a dependency on a contract that `p` exports. -/
def DependsOn (s : RuntimeStore) (p d : BundleId) : Prop :=
  ¬ Disjoint (s.data.declaredOf d) (s.bundleExportedContracts p)

/-- The bundles that depend on `b`, directly or through others, and `b`. -/
def InClosure (s : RuntimeStore) : BundleId → BundleId → Prop :=
  Relation.ReflTransGen (DependsOn s)

/-- No two bundles of the closure depend on each other. -/
def AcyclicClosure (s : RuntimeStore) (b : BundleId) : Prop :=
  ∀ x y, InClosure s b x → InClosure s x y → InClosure s y x → x = y

section
variable {rt : Runtime} {order : Iteration} {b x p d : BundleId}

theorem mem_dependents : d ∈ rt.dependents order p ↔ d ≠ p ∧ DependsOn rt.registry p d := by
  simp only [Runtime.dependents, Finset.mem_sort, Finset.mem_erase, mem_bundlesDependingOnAny,
    DependsOn]

/-- The dependents are the list with these members that is in order. -/
theorem dependents_eq_of {l : List BundleId} (hnodup : l.Nodup)
    (hsorted : l.Pairwise (order.le p))
    (hmem : ∀ d, d ∈ l ↔ d ≠ p ∧ DependsOn rt.registry p d) : rt.dependents order p = l := by
  rw [← (List.toFinset_sort (order.le p) hnodup).mpr hsorted, Runtime.dependents]
  congr 1
  ext d
  rw [List.mem_toFinset, hmem, Finset.mem_erase, mem_bundlesDependingOnAny, DependsOn]

/-- The walk of the dependents reaches the closure. -/
theorem below_dependents_iff :
    Below (rt.dependents order) b x ↔ InClosure rt.registry b x := by
  constructor
  · intro h
    induction h with
    | refl => exact .refl
    | tail _ hstep ih => exact ih.tail (mem_dependents.mp hstep).2
  · intro h
    induction h with
    | refl => exact .refl
    | @tail y z _ hstep ih =>
      by_cases hyz : z = y
      · rwa [hyz]
      · exact ih.tail (mem_dependents.mpr ⟨hyz, hstep⟩)

/-- The dependents are among the bundles with declared dependencies. -/
theorem dependents_subset_keys (h : d ∈ rt.dependents order p) :
    d ∈ rt.registry.data.bundleDeclaredDeps.keys := by
  rw [Runtime.dependents, Finset.mem_sort] at h
  exact (Finset.mem_filter.mp (Finset.mem_erase.mp h).2).1

/-- The order in which the walk from a bundle leaves the closure. -/
theorem exists_dependents_walk (rt : Runtime) (order : Iteration) (b : BundleId) :
    ∃ bundles, Walk (rt.dependents order) ∅ [b] bundles := by
  refine exists_walk (insert b rt.registry.data.bundleDeclaredDeps.keys) ?_ ∅ [b] ?_
  · exact fun a _ c hc => Finset.mem_insert_of_mem (dependents_subset_keys hc)
  · intro c hc
    rw [List.mem_singleton.mp hc]
    exact Finset.mem_insert_self _ _

end

/-! ### The conditions -/

/-- The bundle is registered. -/
def Registered (rt : Runtime) (x : BundleId) : Prop :=
  (rt.registry.getBundleDescriptor x).isSome

instance (rt : Runtime) (x : BundleId) : Decidable (Registered rt x) :=
  inferInstanceAs (Decidable (_ = true))

/-- The resident of the bundle belongs to another thread. -/
def Foreign (rt : Runtime) (thread : ThreadId) (x : BundleId) : Prop :=
  ∃ resident, rt.registry.internalPluginResidents.lookup x = some resident ∧
    resident.ownerThreadId ≠ thread

/-- An internal bundle with live instances. -/
def InUse (rt : Runtime) (x : BundleId) : Prop :=
  (x ∈ rt.internalPluginLifecycle ∨ (rt.internalPluginRoots.lookup x).isSome ∨
    (rt.registry.internalPluginResidents.lookup x).isSome) ∧
  0 < (rt.instanceCounts.lookup x).getD 0

namespace Runtime

/-- The record of a bundle. -/
def record (rt : Runtime) (x : BundleId) : BundleDescriptor :=
  (rt.registry.getBundleDescriptor x).getD (defaultDescriptor x)

/-- The name in the record of a bundle. -/
def nameOf (rt : Runtime) (x : BundleId) : String := (rt.record x).name

end Runtime

/-- The loader hook refuses the unload of a bundle, when the bundles `gone` were unloaded
before. With the first bundle of a name the manifest of that name is forgotten, and with
it the loader. -/
def HookRefuses (hooks : Hooks) (rt : Runtime) (gone : List BundleId) (x : BundleId) : Prop :=
  (∀ y ∈ gone, rt.nameOf y ≠ rt.nameOf x) ∧
    ∃ e, Runtime.reclaimViaLoader hooks x (rt.bundleLoaderName (rt.nameOf x)) = .error e

section
variable {rt : Runtime} {thread : ThreadId} {x : BundleId} {d : BundleDescriptor}

theorem getBundleDescriptor_of_registered (h : Registered rt x) :
    rt.registry.getBundleDescriptor x = some (rt.record x) := by
  obtain ⟨d, hd⟩ := Option.isSome_iff_exists.mp h
  rw [Runtime.record, hd, Option.getD_some]

theorem ensureAffinity_ok (h : ¬Foreign rt thread x) (name : String) :
    rt.ensureRegisteredBundleResidentAffinity thread x name = .ok () := by
  unfold Runtime.ensureRegisteredBundleResidentAffinity
  cases hres : rt.registry.internalPluginResidents.lookup x with
  | none => rfl
  | some resident =>
    dsimp only
    rw [if_neg fun hne => h ⟨resident, hres, hne⟩]

theorem ensureAffinity_error (h : Foreign rt thread x) (name : String) :
    ∃ e, rt.ensureRegisteredBundleResidentAffinity thread x name = .error e := by
  obtain ⟨resident, hres, hne⟩ := h
  unfold Runtime.ensureRegisteredBundleResidentAffinity
  rw [hres]
  dsimp only
  rw [if_pos hne]
  exact ⟨_, rfl⟩

/-- The refusal in the critical section. -/
theorem inUse_iff :
    InUse rt x ↔ ((decide (x ∈ rt.internalPluginLifecycle)
        || (rt.internalPluginRoots.lookup x).isSome
        || (rt.registry.internalPluginResidents.lookup x).isSome) = true ∧
      (rt.instanceCounts.lookup x).getD 0 > 0) := by
  simp only [InUse, Bool.or_eq_true, decide_eq_true_eq, or_assoc, gt_iff_lt]

theorem invalidateRegistered_of_inUse (h : InUse rt x) :
    rt.invalidateRegistered x d
      = (.error (.internalPluginInUse d.name ((rt.instanceCounts.lookup x).getD 0)), rt) := by
  unfold Runtime.invalidateRegistered
  dsimp only
  rw [if_pos (inUse_iff.mp h)]

theorem invalidateRegistered_of_not_inUse (h : ¬InUse rt x) :
    rt.invalidateRegistered x d
      = (.ok (),
          { rt with
              registry := ({ rt.registry with
                internalPluginResidents := rt.registry.internalPluginResidents.erase x
                }.invalidateBundle x).2
              internalPluginRoots := rt.internalPluginRoots.erase x
              internalPluginLifecycle := rt.internalPluginLifecycle.erase x
              bundleManifests := rt.bundleManifests.erase d.name
              instanceCounts := rt.instanceCounts.erase x }) := by
  unfold Runtime.invalidateRegistered
  dsimp only
  rw [if_neg (mt inUse_iff.mpr h)]

theorem invalidateBundle_residents (s : RuntimeStore) (b : BundleId) :
    (s.invalidateBundle b).2.internalPluginResidents = s.internalPluginResidents := by
  unfold invalidateBundle
  cases s.data.bundleData.lookup b <;> rfl

end

/-! ### What is left -/

/-- What is left of a runtime when the bundles `gone` are unloaded. -/
structure Torn (rt : Runtime) (gone : List BundleId) (rt' : Runtime) : Prop where
  tidy : rt'.registry.Tidy
  record : ∀ x, rt'.registry.getBundleDescriptor x
    = if x ∈ gone then none else rt.registry.getBundleDescriptor x
  declared : ∀ x, rt'.registry.data.declaredOf x
    = if x ∈ gone then ∅ else rt.registry.data.declaredOf x
  exported : ∀ x, x ∉ gone →
    rt'.registry.bundleExportedContracts x = rt.registry.bundleExportedContracts x
  resident : ∀ x, x ∉ gone → rt'.registry.internalPluginResidents.lookup x
    = rt.registry.internalPluginResidents.lookup x
  inUse : ∀ x, x ∉ gone → (InUse rt' x ↔ InUse rt x)
  manifest : ∀ name, rt'.bundleManifests.lookup name
    = if ∃ y ∈ gone, rt.nameOf y = name then none else rt.bundleManifests.lookup name
  handles : ∀ i entry, rt.registry.data.entryAt i = some entry → entry.bundleId ∉ gone →
    rt'.registry.data.entryAt i = some entry ∧
      ∀ g, rt'.registry.resolveGuestContract ⟨i, g⟩ = rt.registry.resolveGuestContract ⟨i, g⟩
  vacated : ∀ i entry, rt.registry.data.entryAt i = some entry → entry.bundleId ∈ gone →
    rt'.registry.data.catalog.content i = none

section
variable {rt rt' : Runtime} {gone : List BundleId} {a x : BundleId} {thread : ThreadId}

theorem torn_nil (ht : rt.registry.Tidy) : Torn rt [] rt where
  tidy := ht
  record _ := by simp
  declared _ := by simp
  exported _ _ := rfl
  resident _ _ := rfl
  inUse _ _ := Iff.rfl
  manifest _ := by simp
  handles _ _ h _ := ⟨h, fun _ => rfl⟩
  vacated _ _ _ h := absurd h List.not_mem_nil

/-- The unload of one more bundle. -/
theorem Torn.invalidate (h : Torn rt gone rt') (ha : a ∉ gone) (hreg : Registered rt a)
    (huse : ¬InUse rt a) :
    Torn rt (gone ++ [a]) (rt'.invalidateRegistered a (rt.record a)).2 := by
  have huse' : ¬InUse rt' a := fun hin => huse ((h.inUse a ha).mp hin)
  have hrecord : (rt'.registry.data.descriptorOf a).isSome := by
    rw [← getBundleDescriptor_eq, h.record a, if_neg ha]
    exact hreg
  rw [invalidateRegistered_of_not_inUse huse']
  set s : RuntimeStore := { rt'.registry with
    internalPluginResidents := rt'.registry.internalPluginResidents.erase a } with hs
  have hsdata : s.data = rt'.registry.data := rfl
  have hexported : ∀ y, s.bundleExportedContracts y = rt'.registry.bundleExportedContracts y :=
    fun _ => rfl
  have hresolve : ∀ handle, s.resolveGuestContract handle
      = rt'.registry.resolveGuestContract handle := fun _ => rfl
  have hst : s.Tidy := h.tidy.congr rfl rfl
  have htidy := (invalidateBundle_effect hst (b := a)).1
  obtain ⟨data', heq, hinv⟩ := invalidates_of_registered hst hrecord
  have hleaves : Leaves a s.data (s.invalidateBundle a).2.data := by
    rw [heq]
    exact hinv.leaves hst
  -- The slots of `a` are emptied, and no others.
  have hcontent : ∀ i, (s.invalidateBundle a).2.data.catalog.content i
      = if i ∈ s.data.pluginSlots a then none else s.data.catalog.content i := by
    intro i
    rw [heq]
    show data'.catalog.content i = _
    rw [hinv.catalog_eq]
    rfl
  -- A bundle that stays is neither gone before nor the one unloaded now.
  have hsplit : ∀ y, y ∉ gone ++ [a] → y ∉ gone ∧ y ≠ a := fun y hy =>
    ⟨fun hmem => hy (List.mem_append_left _ hmem),
      fun heq => hy (by rw [heq]; exact List.mem_append_right _ List.mem_cons_self)⟩
  refine ⟨htidy, fun y => ?_, fun y => ?_, fun y hy => ?_, fun y hy => ?_, fun y hy => ?_,
    fun name => ?_, fun i entry hentry hb => ?_, fun i entry hentry hb => ?_⟩
  · show (s.invalidateBundle a).2.data.descriptorOf y = _
    rw [invalidateBundle_descriptorOf, hsdata, ← getBundleDescriptor_eq, h.record y]
    by_cases hya : y = a <;> simp [hya]
  · show (s.invalidateBundle a).2.data.declaredOf y = _
    rw [invalidateBundle_declaredOf (s := s) hrecord, hsdata, h.declared y]
    by_cases hya : y = a <;> simp [hya]
  · obtain ⟨hgone, hya⟩ := hsplit y hy
    show (s.invalidateBundle a).2.bundleExportedContracts y = _
    rw [hleaves.bundleExportedContracts_eq hst.consistent hya, hexported, h.exported y hgone]
  · obtain ⟨hgone, hya⟩ := hsplit y hy
    show (s.invalidateBundle a).2.internalPluginResidents.lookup y = _
    rw [invalidateBundle_residents, hs]
    dsimp only
    rw [lookup_erase_eq, if_neg hya, h.resident y hgone]
  · obtain ⟨hgone, hya⟩ := hsplit y hy
    rw [← h.inUse y hgone]
    simp only [InUse, invalidateBundle_residents, hs, Finmap.lookup_erase_ne hya,
      Finset.mem_erase, ne_eq, hya, not_false_eq_true, true_and]
  · dsimp only
    rw [lookup_erase_eq, h.manifest name]
    by_cases hname : name = (rt.record a).name
    · rw [if_pos hname, if_pos ⟨a, by simp, hname.symm⟩]
    · rw [if_neg hname]
      refine if_congr ?_ rfl rfl
      constructor
      · rintro ⟨y, hy, heq⟩
        exact ⟨y, List.mem_append_left _ hy, heq⟩
      · rintro ⟨y, hy, heq⟩
        rcases List.mem_append.mp hy with hy | hy
        · exact ⟨y, hy, heq⟩
        · rw [List.mem_singleton.mp hy] at heq
          exact absurd heq.symm hname
  · obtain ⟨hgone, hba⟩ := hsplit _ hb
    obtain ⟨hentry', hsame⟩ := h.handles i entry hentry hgone
    refine ⟨?_, fun g => ?_⟩
    · obtain ⟨slot, hslot, hsome⟩ := Option.bind_eq_some_iff.mp hentry'
      exact Option.bind_eq_some_iff.mpr
        ⟨slot, (hleaves.foreign i slot entry hslot hsome hba).1, hsome⟩
    · show (s.invalidateBundle a).2.resolveGuestContract ⟨i, g⟩ = _
      rw [resolve_of_foreignKept hst.mirrors htidy.mirrors hleaves.foreign hentry' hba, hresolve,
        hsame]
  · show (s.invalidateBundle a).2.data.catalog.content i = none
    rw [hcontent]
    by_cases hgone : entry.bundleId ∈ gone
    · have hnone : s.data.catalog.content i = none := h.vacated i entry hentry hgone
      rw [hnone, ite_self]
    · -- The bundle is `a`, and the slot is one of its list.
      have hba : entry.bundleId = a :=
        List.mem_singleton.mp ((List.mem_append.mp hb).resolve_left hgone)
      obtain ⟨hentry', -⟩ := h.handles i entry hentry hgone
      rw [← hsdata, entryAt_eq hst.present] at hentry'
      obtain ⟨r, hr, rfl⟩ := Option.map_eq_some_iff.mp hentry'
      have hheld := hst.consistent.held_of_content hr
      rw [show r.owner = a from hba] at hheld
      exact if_pos hheld

end

/-- The dependents of a bundle are those that are not gone. -/
theorem Torn.dependents_eq {rt rt' : Runtime} {gone : List BundleId} {a : BundleId}
    (h : Torn rt gone rt') (order : Iteration) (ha : a ∉ gone) :
    rt'.dependents order a = (rt.dependents order a).filter fun c => decide (c ∉ gone) := by
  refine dependents_eq_of ((Finset.sort_nodup _ _).filter _) ((Finset.pairwise_sort _ _).filter _)
    fun d => ?_
  rw [Runtime.dependents]
  -- A bundle that is gone declares nothing.
  simp only [Finset.mem_erase, mem_bundlesDependingOnAny, DependsOn, h.declared d,
    h.exported a ha, List.mem_filter, Finset.mem_sort, decide_eq_true_eq]
  by_cases hd : d ∈ gone <;> simp [hd]

/-! ### One unload of the cascade -/

/-- What others see of the unloads of a list of bundles. -/
def teardownEvents (rt : Runtime) (gone : List BundleId) : List UnloadEvent :=
  gone.flatMap fun x => [.unloading x (rt.nameOf x), .invalidated x]

/-- The cascade that began in `t` has unloaded the bundles `gone`, in this order. -/
def Unloaded (t s : Teardown) (gone : List BundleId) : Prop :=
  Torn t.runtime gone s.runtime ∧ s.events = t.events ++ teardownEvents t.runtime gone

/-- The unload of a bundle fails, after those in `gone`. -/
def Fails (hooks : Hooks) (rt : Runtime) (gone : List BundleId) (x : BundleId) : Prop :=
  InUse rt x ∨ HookRefuses hooks rt gone x

section
variable {t s : Teardown} {gone : List BundleId} {a b : BundleId} {thread : ThreadId}
  {H : Hooks}

/-- The unload of the cascade is the one of `unload_bundle`. -/
theorem unloadRegisteredBundle_eq (s : Teardown) (d : BundleDescriptor) :
    Runtime.unloadRegisteredBundle H thread s.runtime a d
      = ((s.unloadRegisteredBundle H thread a d).1,
          (s.unloadRegisteredBundle H thread a d).2.runtime) := by
  unfold Runtime.unloadRegisteredBundle Teardown.unloadRegisteredBundle
  cases s.runtime.ensureRegisteredBundleResidentAffinity thread a d.name with
  | error e => rfl
  | ok u =>
    dsimp only
    rcases s.runtime.invalidateRegistered a d with ⟨_ | _, _⟩ <;> rfl

theorem Torn.not_foreign {rt rt' : Runtime} (h : Torn rt gone rt') (ha : a ∉ gone)
    (haff : ¬Foreign rt thread a) : ¬Foreign rt' thread a := by
  rintro ⟨resident, hres, hne⟩
  rw [h.resident a ha] at hres
  exact haff ⟨resident, hres, hne⟩

/-- The loader hook is asked for the first bundle of a name only. -/
theorem Torn.reclaim_error_iff {rt rt' : Runtime} (h : Torn rt gone rt') :
    (∃ e, Runtime.reclaimViaLoader H a (rt'.bundleLoaderName (rt.nameOf a)) = .error e) ↔
      HookRefuses H rt gone a := by
  unfold HookRefuses Runtime.bundleLoaderName
  rw [h.manifest]
  by_cases hname : ∃ y ∈ gone, rt.nameOf y = rt.nameOf a
  · rw [if_pos hname]
    obtain ⟨y, hy, heq⟩ := hname
    exact iff_of_false (fun ⟨e, he⟩ => nomatch he) fun ⟨hnot, _⟩ => hnot y hy heq
  · rw [if_neg hname]
    push Not at hname
    exact ⟨fun h => ⟨hname, h⟩, fun h => h.2⟩

theorem unloadRegisteredBundle_of_inUse (h : Torn t.runtime gone s.runtime) (ha : a ∉ gone)
    (haff : ¬Foreign t.runtime thread a) (huse : InUse t.runtime a) (d : BundleDescriptor) :
    ∃ e, s.unloadRegisteredBundle H thread a d
      = (.error e, ⟨s.runtime, s.events ++ [.unloading a d.name]⟩) := by
  refine ⟨.internalPluginInUse d.name ((s.runtime.instanceCounts.lookup a).getD 0), ?_⟩
  unfold Teardown.unloadRegisteredBundle
  rw [ensureAffinity_ok (h.not_foreign ha haff)]
  dsimp only
  rw [invalidateRegistered_of_inUse ((h.inUse a ha).mpr huse)]

theorem unloadRegisteredBundle_of_not_inUse (h : Torn t.runtime gone s.runtime) (ha : a ∉ gone)
    (haff : ¬Foreign t.runtime thread a) (huse : ¬InUse t.runtime a) (d : BundleDescriptor) :
    s.unloadRegisteredBundle H thread a d
      = (Runtime.reclaimViaLoader H a (s.runtime.bundleLoaderName d.name),
          ⟨(s.runtime.invalidateRegistered a d).2,
            s.events ++ [.unloading a d.name] ++ [.invalidated a]⟩) := by
  unfold Teardown.unloadRegisteredBundle
  rw [ensureAffinity_ok (h.not_foreign ha haff)]
  dsimp only
  rw [invalidateRegistered_of_not_inUse (fun hin => huse ((h.inUse a ha).mp hin))]

/-- A bundle that is not in use is gone afterwards, whatever its loader says. -/
theorem Unloaded.next (h : Unloaded t s gone) (ha : a ∉ gone) (hreg : Registered t.runtime a)
    (haff : ¬Foreign t.runtime thread a) (huse : ¬InUse t.runtime a) :
    Unloaded t (s.unloadRegisteredBundle H thread a (t.runtime.record a)).2
      (gone ++ [a]) := by
  rw [unloadRegisteredBundle_of_not_inUse h.1 ha haff huse]
  refine ⟨h.1.invalidate ha hreg huse, ?_⟩
  dsimp only
  rw [h.2]
  simp [teardownEvents, Runtime.nameOf]

theorem unloadRegisteredBundle_ok_iff (h : Unloaded t s gone) (ha : a ∉ gone)
    (haff : ¬Foreign t.runtime thread a) :
    (s.unloadRegisteredBundle H thread a (t.runtime.record a)).1 = .ok () ↔
      ¬Fails H t.runtime gone a := by
  by_cases huse : InUse t.runtime a
  · obtain ⟨e, he⟩ := unloadRegisteredBundle_of_inUse (H := H) h.1 ha haff huse
      (t.runtime.record a)
    rw [he]
    exact iff_of_false nofun (not_not_intro (Or.inl huse))
  · rw [unloadRegisteredBundle_of_not_inUse h.1 ha haff huse]
    have hiff := h.1.reclaim_error_iff (H := H) (a := a)
    unfold Fails
    rw [or_iff_right huse, ← hiff]
    show Runtime.reclaimViaLoader H a (s.runtime.bundleLoaderName (t.runtime.nameOf a)) = _ ↔ _
    cases Runtime.reclaimViaLoader H a (s.runtime.bundleLoaderName (t.runtime.nameOf a)) with
    | error e => exact iff_of_false nofun fun hnot => hnot ⟨e, rfl⟩
    | ok u    => exact iff_of_true rfl fun ⟨e, he⟩ => nomatch he

/-! ### The two passes -/

section
variable (order : Iteration) (hreg : ∀ x, InClosure t.runtime.registry b x → Registered t.runtime x)
  (haff : ∀ x, InClosure t.runtime.registry b x → ¬Foreign t.runtime thread x)
include hreg haff

/-- The second pass follows the walk of the graph as it was. -/
theorem unloadPass_follows :
    (unloadPass order H thread).Follows (t.runtime.dependents order) t.runtime.record
      (Unloaded t) (InClosure t.runtime.registry b) where
  region a ha c hc := ha.tail (mem_dependents.mp hc).2
  enter s gone visited a hs ha hgone := by
    refine ⟨fun c => decide (c ∉ gone), ?_, fun c _ hc => by simpa using hc⟩
    have hrecord : s.runtime.registry.getBundleDescriptor a = some (t.runtime.record a) := by
      rw [hs.1.record a, if_neg hgone, getBundleDescriptor_of_registered (hreg a ha)]
    rw [← hs.1.dependents_eq order hgone]
    simp only [unloadPass, hrecord]
  leave s gone a s' hs ha hgone hok := by
    have hnot := (unloadRegisteredBundle_ok_iff (H := H) hs hgone (haff a ha)).mp
      (congrArg Prod.fst hok)
    have hnext := hs.next (H := H) hgone (hreg a ha) (haff a ha) fun huse =>
      hnot (Or.inl huse)
    rwa [show s.unloadRegisteredBundle H thread a (t.runtime.record a) = (.ok (), s') from hok]
      at hnext

end

theorem affinityPass_enters {rt : Runtime} (order : Iteration) (hrecord : Registered rt a)
    (haff : ¬Foreign rt thread a) (visited : Finset BundleId) :
    (affinityPass order thread).enter rt visited a = .ok ((), rt.dependents order a) := by
  unfold affinityPass
  dsimp only
  rw [getBundleDescriptor_of_registered hrecord]
  dsimp only
  rw [ensureAffinity_ok haff]

theorem affinityPass_refuses {rt : Runtime} (order : Iteration)
    (h : ¬(Registered rt a ∧ ¬Foreign rt thread a)) (visited : Finset BundleId) :
    ∃ e, (affinityPass order thread).enter rt visited a = .error e := by
  unfold affinityPass
  dsimp only
  by_cases hrecord : Registered rt a
  · have hforeign : Foreign rt thread a := by_contra fun hnot => h ⟨hrecord, hnot⟩
    obtain ⟨e, he⟩ := ensureAffinity_error hforeign (rt.record a).name
    rw [getBundleDescriptor_of_registered hrecord]
    dsimp only
    rw [he]
    exact ⟨e, rfl⟩
  · rw [Registered, Option.not_isSome_iff_eq_none] at hrecord
    rw [hrecord]
    exact ⟨_, rfl⟩

section
variable (order : Iteration) (rt : Runtime) (thread : ThreadId) (b : BundleId)

/-- The first pass succeeds if it finds every bundle of the closure registered, and no
resident of another thread. -/
theorem affinityPass_ok
    (h : ∀ x, InClosure rt.registry b x → Registered rt x ∧ ¬Foreign rt thread x) :
    ∃ k visited, ∀ fuel ≥ k,
      (affinityPass order thread).visit fuel rt ∅ b = some (.ok (), rt, visited) := by
  obtain ⟨bundles, hwalk⟩ := exists_dependents_walk rt order b
  obtain ⟨k, hk⟩ := hwalk.visitAll_enters (v := affinityPass order thread) (s := rt)
    (fun x => Registered rt x ∧ ¬Foreign rt thread x)
    (fun visited a ha => ⟨(), affinityPass_enters order ha.1 ha.2 visited⟩) (fun _ _ => rfl)
    (fun n hn => h n (below_dependents_iff.mp ((hwalk.mem_iff n).mp hn)))
  exact ⟨k, _, fun fuel hfuel => (visitAll_singleton ..).symm.trans (hk fuel hfuel)⟩

/-- Otherwise it fails. -/
theorem affinityPass_error
    (h : ∃ x, InClosure rt.registry b x ∧ (¬Registered rt x ∨ Foreign rt thread x)) :
    ∃ k e visited, ∀ fuel ≥ k,
      (affinityPass order thread).visit fuel rt ∅ b = some (.error e, rt, visited) := by
  obtain ⟨bundles, hwalk⟩ := exists_dependents_walk rt order b
  obtain ⟨x, hx, hnot⟩ := h
  obtain ⟨k, e, visited, hk⟩ := hwalk.visitAll_refuses (v := affinityPass order thread) (s := rt)
    (fun x => Registered rt x ∧ ¬Foreign rt thread x)
    (fun visited a ha => ⟨(), affinityPass_enters order ha.1 ha.2 visited⟩) (fun _ _ => rfl)
    (fun visited a ha => affinityPass_refuses order ha visited)
    ⟨x, (hwalk.mem_iff x).mpr (below_dependents_iff.mpr hx), fun hboth =>
      hnot.elim (fun h => h hboth.1) hboth.2⟩
  exact ⟨k, e, visited, fun fuel hfuel => (visitAll_singleton ..).symm.trans (hk fuel hfuel)⟩

end

/-! ### The cascade -/

/-- What a cascade returns, when its recursions have no bound. -/
def CascadeReturns (first second : Iteration) (hooks : Hooks) (thread : ThreadId) (t : Teardown)
    (b : BundleId) (result : Except RuntimeError Unit) (t' : Teardown) : Prop :=
  ∃ k, ∀ fuel ≥ k, unloadBundleCascade first second hooks thread fuel t b = some (result, t')

theorem CascadeReturns.unique {first second : Iteration} {result result' : Except RuntimeError Unit}
    {t₁ t₂ : Teardown} (h₁ : CascadeReturns first second H thread t b result t₁)
    (h₂ : CascadeReturns first second H thread t b result' t₂) :
    result = result' ∧ t₁ = t₂ := by
  obtain ⟨k₁, hk₁⟩ := h₁
  obtain ⟨k₂, hk₂⟩ := h₂
  have heq := (hk₁ (max k₁ k₂) (by omega)).symm.trans (hk₂ (max k₁ k₂) (by omega))
  simp only [Option.some.injEq, Prod.mk.injEq] at heq
  exact heq

/-- A cascade whose first pass fails does nothing. -/
theorem cascade_refused (first second : Iteration)
    (h : ∃ x, InClosure t.runtime.registry b x ∧
      (¬Registered t.runtime x ∨ Foreign t.runtime thread x)) :
    ∃ e, CascadeReturns first second H thread t b (.error e) t := by
  obtain ⟨k, e, visited, hk⟩ := affinityPass_error first t.runtime thread b h
  refine ⟨e, k, fun fuel hfuel => ?_⟩
  unfold unloadBundleCascade
  rw [hk fuel hfuel]

/-- A cascade whose first pass succeeds unloads the bundles of the walk, one after the
other. -/
theorem cascade_unloads (first second : Iteration) (ht : t.runtime.registry.Tidy)
    (hreg : ∀ x, InClosure t.runtime.registry b x → Registered t.runtime x)
    (haff : ∀ x, InClosure t.runtime.registry b x → ¬Foreign t.runtime thread x)
    {bundles : List BundleId} (hwalk : Walk (t.runtime.dependents second) ∅ [b] bundles) :
    CascadeReturns first second H thread t b
      ((unloadPass second H thread).leaveAll t.runtime.record bundles t).1
      ((unloadPass second H thread).leaveAll t.runtime.record bundles t).2 := by
  obtain ⟨k₁, visited, hk₁⟩ := affinityPass_ok first t.runtime thread b fun x hx =>
    ⟨hreg x hx, haff x hx⟩
  obtain ⟨k₂, hk₂⟩ := hwalk.visitAll_leaves (unloadPass_follows (H := H) second hreg haff)
    (fun _ => true) (fun _ _ h => nomatch h)
    (fun c hc => by rw [List.mem_singleton.mp hc]; exact .refl)
    (s := t) (l := []) ⟨torn_nil ht, by simp [teardownEvents]⟩ (by simp) List.nodup_nil
  refine ⟨max k₁ k₂, fun fuel hfuel => ?_⟩
  obtain ⟨marked, hsecond, -⟩ := hk₂ fuel (by omega)
  rw [List.filter_true, visitAll_singleton] at hsecond
  unfold unloadBundleCascade
  rw [hk₁ fuel (by omega)]
  dsimp only
  rw [hsecond]
  rfl

/-- The bundles the unloads of a walk invalidated. -/
theorem invalidated_of_unloaded (h : Unloaded t s gone) :
    s.invalidated = t.invalidated ++ gone := by
  unfold Teardown.invalidated
  rw [h.2, List.filterMap_append]
  congr 1
  unfold teardownEvents
  clear h
  induction gone with
  | nil => rfl
  | cons a rest ih => simp [ih]

end

/-! ### A cascade that succeeds -/

/-- What a cascade from `b` that returns `Ok` did. -/
structure RemovesClosure (t : Teardown) (b : BundleId) (t' : Teardown) : Prop where
  /-- Each bundle of the closure is invalidated once, and no other one. Without cycles, a
  bundle comes before every other bundle it depends on. -/
  invalidated : ∃ bundles, t'.invalidated = t.invalidated ++ bundles ∧ bundles.Nodup ∧
    (∀ x, x ∈ bundles ↔ InClosure t.runtime.registry b x) ∧
    (AcyclicClosure t.runtime.registry b → ∀ p d, InClosure t.runtime.registry b p →
      DependsOn t.runtime.registry p d → d ≠ p → [d, p].Sublist bundles)
  gone : ∀ x, InClosure t.runtime.registry b x →
    t'.runtime.registry.getBundleDescriptor x = none
  stale : ∀ i entry, t.runtime.registry.data.entryAt i = some entry →
    InClosure t.runtime.registry b entry.bundleId →
    ∀ g, ∃ e, t'.runtime.registry.resolveGuestContract ⟨i, g⟩ = .error e
  kept : ∀ x, ¬InClosure t.runtime.registry b x →
    t'.runtime.registry.getBundleDescriptor x = t.runtime.registry.getBundleDescriptor x
  handles : ∀ i entry, t.runtime.registry.data.entryAt i = some entry →
    ¬InClosure t.runtime.registry b entry.bundleId →
    ∀ g, t'.runtime.registry.resolveGuestContract ⟨i, g⟩
      = t.runtime.registry.resolveGuestContract ⟨i, g⟩

section
variable {t t' : Teardown} {b : BundleId} {thread : ThreadId} {hooks : Hooks}

/-- When all bundles of the walk are unloaded, the closure is removed. -/
theorem removesClosure_of_unloaded {order : Iteration} {bundles : List BundleId}
    (hwalk : Walk (t.runtime.dependents order) ∅ [b] bundles) (h : Unloaded t t' bundles) :
    RemovesClosure t b t' := by
  have hmem : ∀ x, x ∈ bundles ↔ InClosure t.runtime.registry b x := fun x =>
    (hwalk.mem_iff x).trans below_dependents_iff
  refine ⟨⟨bundles, invalidated_of_unloaded h, hwalk.nodup, hmem, fun hacyclic p d hp hd hne => ?_⟩,
    fun x hx => ?_, fun i entry hentry hx g => ?_, fun x hx => ?_, fun i entry hentry hx => ?_⟩
  · rcases hwalk.before ((hmem p).mpr hp) (mem_dependents.mpr ⟨hne, hd⟩) with hsub | hcycle
    · exact hsub
    · have hback := below_dependents_iff.mp hcycle
      exact absurd (hacyclic p d hp (.single hd) hback) (Ne.symm hne)
  · rw [h.1.record x, if_pos ((hmem x).mpr hx)]
  · exact resolve_of_vacant h.1.tidy.mirrors
      (h.1.vacated i entry hentry ((hmem _).mpr hx)) g
  · rw [h.1.record x, if_neg (fun hin => hx ((hmem x).mp hin))]
  · exact (h.1.handles i entry hentry fun hin => hx ((hmem _).mp hin)).2

/-- The closure of a registered bundle is registered, when every declaring bundle is. -/
theorem registered_of_inClosure {rt : Runtime} {x : BundleId}
    (hdeclaring : ∀ x ∈ rt.registry.data.bundleDeclaredDeps.keys, Registered rt x)
    (hb : Registered rt b) (hx : InClosure rt.registry b x) : Registered rt x := by
  cases hx with
  | refl => exact hb
  | tail _ hstep =>
    have hdep := mem_bundlesDependingOnAny.mpr hstep
    exact hdeclaring x (Finset.mem_filter.mp hdep).1

/-- **A cascade removes the closure of its bundle.** Every declaring bundle is registered,
the loaders unload, and no internal bundle of the closure is in use. If a resident of the
closure belongs to another thread, the cascade fails and nothing has happened. -/
theorem cascade_removes_closure (first second : Iteration) (hooks : Hooks) (thread : ThreadId)
    (t : Teardown) (b : BundleId) (ht : t.runtime.registry.Tidy)
    (hdeclaring : ∀ x ∈ t.runtime.registry.data.bundleDeclaredDeps.keys, Registered t.runtime x)
    (hb : Registered t.runtime b)
    (hhooks : ∀ name hook, hooks name = some hook →
      ∀ x, InClosure t.runtime.registry b x → hook x = .ok ())
    (huse : ∀ x, InClosure t.runtime.registry b x → ¬InUse t.runtime x) :
    ((∀ x, InClosure t.runtime.registry b x → ¬Foreign t.runtime thread x) →
      ∃ t', CascadeReturns first second hooks thread t b (.ok ()) t' ∧ RemovesClosure t b t') ∧
    ((∃ x, InClosure t.runtime.registry b x ∧ Foreign t.runtime thread x) →
      ∃ e, CascadeReturns first second hooks thread t b (.error e) t) := by
  have hreg := fun x => registered_of_inClosure (x := x) hdeclaring hb
  refine ⟨fun haff => ?_, fun ⟨x, hx, hforeign⟩ => cascade_refused first second
    ⟨x, hx, Or.inr hforeign⟩⟩
  obtain ⟨bundles, hwalk⟩ := exists_dependents_walk t.runtime second b
  have hreturns := cascade_unloads (H := hooks) first second ht hreg haff hwalk
  have hin : ∀ x ∈ bundles, InClosure t.runtime.registry b x := fun x hx =>
    below_dependents_iff.mp ((hwalk.mem_iff x).mp hx)
  have hfollows := unloadPass_follows (H := hooks) second hreg haff
  have hstart : Unloaded t t [] := ⟨torn_nil ht, by simp [teardownEvents]⟩
  have hok : ((unloadPass second hooks thread).leaveAll t.runtime.record bundles t).1 = .ok () := by
    rw [hfollows.leaveAll_ok_iff (Fails hooks t.runtime)
      (fun s gone a hs ha hgone => unloadRegisteredBundle_ok_iff hs hgone (haff a ha)) hstart hin
      hwalk.nodup]
    rintro before a after rfl (hused | ⟨-, e, he⟩)
    · exact huse a (hin a (by simp)) hused
    · obtain ⟨name, hook, err, -, hhook, herr, -⟩ := reclaimViaLoader_error he
      rw [hhooks name hook hhook a (hin a (by simp))] at herr
      cases herr
  have hunloaded := hfollows.leaveAll hstart hin hwalk.nodup (Prod.ext hok rfl)
  rw [hok] at hreturns
  exact ⟨_, hreturns, removesClosure_of_unloaded hwalk hunloaded⟩

/-- A bundle and two bundles that depend on it, the second one on both others. -/
def diamondOps : List StoreOp :=
  [.registerPreparedBundle { defaultDescriptor ⟨1⟩ with name := "log" } ∅
      (ReloadSystem.prepared PluginDescriptor.plain (RawGuestContractInterface.plain ⟨10⟩) 100
        "log"),
    .registerPreparedBundle { defaultDescriptor ⟨2⟩ with name := "kv" } {⟨10⟩}
      (ReloadSystem.prepared PluginDescriptor.plain (RawGuestContractInterface.plain ⟨11⟩) 101
        "kv"),
    .registerPreparedBundle { defaultDescriptor ⟨3⟩ with name := "fs" } {⟨10⟩, ⟨11⟩}
      (ReloadSystem.prepared PluginDescriptor.plain (RawGuestContractInterface.plain ⟨12⟩) 102
        "fs")]

/-- The runtime after these registrations. -/
def diamond : Runtime :=
  { Runtime.new with registry := run RuntimeStore.exec RuntimeStore.new diamondOps }

theorem tidy_diamond : diamond.registry.Tidy :=
  @tidy_run _ tidy_new diamondOps (by decide +kernel)

theorem cascade_removes_diamond :
    ∃ t', CascadeReturns .byId .byId (fun _ => none) 7 ⟨diamond, []⟩ ⟨1⟩ (.ok ()) t' ∧
      RemovesClosure ⟨diamond, []⟩ ⟨1⟩ t' :=
  (cascade_removes_closure .byId .byId (fun _ => none) 7 ⟨diamond, []⟩ ⟨1⟩ tidy_diamond
    (by decide +kernel) (by decide +kernel) nofun (fun _ _ h => by simp [InUse, diamond,
      Runtime.new] at h)).1
    fun _ _ ⟨resident, h, _⟩ => by
      have hnone : diamond.registry.internalPluginResidents = ∅ := by decide +kernel
      rw [hnone] at h
      cases h

end

/-! ### A cascade that fails -/

/-- Every bundle is still registered, and every handle resolves as before. -/
structure Intact (rt rt' : Runtime) : Prop where
  registered : ∀ x, Registered rt x → Registered rt' x
  handles : ∀ handle interface, rt.registry.resolveGuestContract handle = .ok interface →
    rt'.registry.resolveGuestContract handle = .ok interface

/-- The first pass refuses the cascade. -/
def Refused (rt : Runtime) (thread : ThreadId) (b : BundleId) : Prop :=
  ∃ x, InClosure rt.registry b x ∧ (¬Registered rt x ∨ Foreign rt thread x)

section
variable {t s : Teardown} {b x : BundleId} {thread : ThreadId} {hooks : Hooks}

/-- A bundle that is gone stays gone. -/
theorem unloadRegisteredBundle_gone (d : BundleDescriptor) (a : BundleId)
    (h : s.runtime.registry.getBundleDescriptor x = none) :
    (s.unloadRegisteredBundle hooks thread a d).2.runtime.registry.getBundleDescriptor x
      = none := by
  unfold Teardown.unloadRegisteredBundle
  cases s.runtime.ensureRegisteredBundleResidentAffinity thread a d.name with
  | error e => exact h
  | ok u =>
    dsimp only
    by_cases huse : InUse s.runtime a
    · rw [invalidateRegistered_of_inUse huse]
      exact h
    · rw [invalidateRegistered_of_not_inUse huse]
      show (RuntimeStore.invalidateBundle _ a).2.data.descriptorOf x = none
      rw [invalidateBundle_descriptorOf]
      split
      · rfl
      · exact h

/-- **When a cascade that fails has torn down nothing.** `bundles` are the bundles of the
closure, in the order in which the second pass comes to unload them. The first pass refuses
the cascade, or no unload fails, or the first bundle to unload is in use. -/
theorem cascade_all_or_nothing_iff (first second : Iteration) (hooks : Hooks)
    (thread : ThreadId) (t : Teardown) (b : BundleId) (ht : t.runtime.registry.Tidy) :
    ∃ bundles, Walk (t.runtime.dependents second) ∅ [b] bundles ∧
      (∃ result t', CascadeReturns first second hooks thread t b result t') ∧
      ((∀ e t', CascadeReturns first second hooks thread t b (.error e) t' →
          Intact t.runtime t'.runtime) ↔
        Refused t.runtime thread b ∨
        (∀ before x after, bundles = before ++ x :: after → ¬Fails hooks t.runtime before x) ∨
        ∃ x rest, bundles = x :: rest ∧ InUse t.runtime x) := by
  obtain ⟨bundles, hwalk⟩ := exists_dependents_walk t.runtime second b
  refine ⟨bundles, hwalk, ?_⟩
  by_cases hrefused : Refused t.runtime thread b
  · obtain ⟨e, he⟩ := cascade_refused (H := hooks) first second hrefused
    refine ⟨⟨_, _, he⟩, iff_of_true (fun e' t' h => ?_) (Or.inl hrefused)⟩
    rw [← (he.unique h).2]
    exact ⟨fun _ h => h, fun _ _ h => h⟩
  · have hreg : ∀ x, InClosure t.runtime.registry b x → Registered t.runtime x := fun x hx =>
      by_contra fun hnot => hrefused ⟨x, hx, Or.inl hnot⟩
    have haff : ∀ x, InClosure t.runtime.registry b x → ¬Foreign t.runtime thread x :=
      fun x hx hforeign => hrefused ⟨x, hx, Or.inr hforeign⟩
    -- The first pass has found every bundle registered and on its thread.
    have hreturns := cascade_unloads (H := hooks) first second ht hreg haff hwalk
    have hin : ∀ x ∈ bundles, InClosure t.runtime.registry b x := fun x hx =>
      below_dependents_iff.mp ((hwalk.mem_iff x).mp hx)
    have hstart : Unloaded t t [] := ⟨torn_nil ht, by simp [teardownEvents]⟩
    have hok := (unloadPass_follows (H := hooks) second hreg haff).leaveAll_ok_iff
      (Fails hooks t.runtime)
      (fun s gone a hs ha hgone => unloadRegisteredBundle_ok_iff hs hgone (haff a ha)) hstart hin
      hwalk.nodup
    simp only [List.nil_append] at hok
    refine ⟨⟨_, _, hreturns⟩, ?_⟩
    rw [or_iff_right hrefused, ← hok]
    obtain ⟨x, rest, rfl⟩ : ∃ x rest, bundles = x :: rest := by
      cases bundles with
      | nil => exact absurd ((hwalk.mem_iff b).mpr .refl) List.not_mem_nil
      | cons x rest => exact ⟨x, rest, rfl⟩
    have hx := hin x List.mem_cons_self
    by_cases huse : InUse t.runtime x
    · -- The first unload is refused.
      refine iff_of_true (fun e' t' h => ?_) (Or.inr ⟨x, rest, rfl, huse⟩)
      obtain ⟨e, he⟩ := unloadRegisteredBundle_of_inUse (H := hooks) hstart.1
        List.not_mem_nil (haff x hx) huse (t.runtime.record x)
      have hall : (unloadPass second hooks thread).leaveAll t.runtime.record (x :: rest) t
          = (.error e, ⟨t.runtime, t.events ++ [.unloading x (t.runtime.record x).name]⟩) :=
        Visitor.leaveAll_cons_error he
      rw [hall] at hreturns
      rw [← (hreturns.unique h).2]
      exact ⟨fun _ h => h, fun _ _ h => h⟩
    · -- The first bundle is gone, whatever happens then.
      have hgone : ((unloadPass second hooks thread).leaveAll t.runtime.record (x :: rest)
          t).2.runtime.registry.getBundleDescriptor x = none := by
        have hnext := (hstart.next (H := hooks) List.not_mem_nil (hreg x hx) (haff x hx)
          huse).1.record x
        rw [if_pos (by simp)] at hnext
        cases hleave : t.unloadRegisteredBundle hooks thread x (t.runtime.record x) with
        | mk result s₁ =>
          rw [hleave] at hnext
          cases result with
          | error e =>
            rw [Visitor.leaveAll_cons_error (v := unloadPass second hooks thread) hleave]
            exact hnext
          | ok u =>
            rw [Visitor.leaveAll_cons_ok (v := unloadPass second hooks thread) hleave]
            exact Visitor.leaveAll_invariant
              (J := fun s : Teardown => s.runtime.registry.getBundleDescriptor x = none)
              (fun y a s hs => unloadRegisteredBundle_gone y a hs) rest hnext
      rw [or_iff_left (by rintro ⟨y, rest', heq, hused⟩; cases heq; exact huse hused)]
      constructor
      · intro hintact
        cases hresult : ((unloadPass second hooks thread).leaveAll t.runtime.record (x :: rest)
            t).1 with
        | ok u => rfl
        | error e =>
          rw [hresult] at hreturns
          have hstill := (hintact e _ hreturns).registered x (hreg x hx)
          rw [Registered, hgone] at hstill
          cases hstill
      · intro hresult e t' h
        rw [hresult] at hreturns
        exact nomatch (hreturns.unique h).1

/-- The bundle the other two depend on is internal, and has a live instance. -/
def diamondInUse : Runtime :=
  { diamond with
      internalPluginLifecycle := {⟨1⟩}
      instanceCounts := (∅ : Finmap fun _ : BundleId => Nat).insert ⟨1⟩ 1 }

theorem cascade_all_or_nothing_instance :
    ∃ bundles, Walk (diamondInUse.dependents .byId) ∅ [⟨1⟩] bundles ∧
      (∃ result t', CascadeReturns .byId .byId (fun _ => none) 7 ⟨diamondInUse, []⟩ ⟨1⟩ result t') ∧
      ((∀ e t', CascadeReturns .byId .byId (fun _ => none) 7 ⟨diamondInUse, []⟩ ⟨1⟩ (.error e) t' →
          Intact diamondInUse t'.runtime) ↔
        Refused diamondInUse 7 ⟨1⟩ ∨
        (∀ before x after, bundles = before ++ x :: after →
          ¬Fails (fun _ => none) diamondInUse before x) ∨
        ∃ x rest, bundles = x :: rest ∧ InUse diamondInUse x) :=
  cascade_all_or_nothing_iff .byId .byId (fun _ => none) 7 ⟨diamondInUse, []⟩ ⟨1⟩ tidy_diamond

/-- The dependents are gone when the cascade finds the bundle in use. -/
theorem cascade_leaves_half :
    ¬∀ e t', CascadeReturns .byId .byId (fun _ => none) 7 ⟨diamondInUse, []⟩ ⟨1⟩ (.error e) t' →
      Intact diamondInUse t'.runtime := by
  have hdependents : ∀ p l, l.Nodup → l.Pairwise (Iteration.byId.le p) →
      (diamondInUse.registry.bundlesDependingOnAny
        (diamondInUse.registry.bundleExportedContracts p)).erase p = l.toFinset →
      diamondInUse.dependents .byId p = l := by
    intro p l hnodup hsorted heq
    rw [Runtime.dependents, heq, (List.toFinset_sort _ hnodup).mpr hsorted]
  have h₁ := hdependents ⟨1⟩ [⟨2⟩, ⟨3⟩] (by decide) (by decide) (by decide +kernel)
  have h₂ := hdependents ⟨2⟩ [⟨3⟩] (by decide) (by decide) (by decide +kernel)
  have h₃ := hdependents ⟨3⟩ [] (by decide) (by decide) (by decide +kernel)
  have hwalk₃ : Walk (diamondInUse.dependents .byId) (insert ⟨2⟩ (insert ⟨1⟩ ∅)) [⟨3⟩]
      ([] ++ ⟨3⟩ :: []) := .enter (by decide) (by rw [h₃]; exact .nil _) (.nil _)
  have hwalk₂ : Walk (diamondInUse.dependents .byId) (insert ⟨1⟩ ∅) [⟨2⟩, ⟨3⟩]
      ([⟨3⟩] ++ ⟨2⟩ :: []) :=
    .enter (by decide) (by rw [h₂]; exact hwalk₃) (.skip (by decide) (.nil _))
  have hwalk : Walk (diamondInUse.dependents .byId) ∅ [⟨1⟩] ([⟨3⟩, ⟨2⟩] ++ ⟨1⟩ :: []) :=
    .enter (by decide) (by rw [h₁]; exact hwalk₂) (.nil _)
  have hreturns := @cascade_unloads ⟨diamondInUse, []⟩ ⟨1⟩ 7 (fun _ => none) .byId .byId
    tidy_diamond
    (fun x => registered_of_inClosure (by decide +kernel) (by decide +kernel))
    (fun x _ ⟨resident, h, _⟩ => by
      have hnone : diamondInUse.registry.internalPluginResidents = ∅ := by decide +kernel
      rw [hnone] at h
      cases h) _ hwalk
  intro hall
  have herror : ((unloadPass .byId (fun _ => none) 7).leaveAll diamondInUse.record
      ([⟨3⟩, ⟨2⟩] ++ ⟨1⟩ :: []) ⟨diamondInUse, []⟩).1 = .error (.internalPluginInUse "log" 1) := by
    decide +kernel
  rw [herror] at hreturns
  have hstill := (hall _ _ hreturns).registered ⟨3⟩ (by decide +kernel)
  exact absurd hstill (by decide +kernel)

end

end PolyPlug.Lifecycle
