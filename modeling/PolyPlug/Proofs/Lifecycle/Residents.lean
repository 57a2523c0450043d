import PolyPlug.Lib.Total
import PolyPlug.Lifecycle.Residents
import PolyPlug.Proofs.Lifecycle.InitStack
import PolyPlug.Proofs.Lifecycle.UnloadCascade

/-!
# `PolyPlug.Proofs.Lifecycle.Residents`: a resident is released once, by its owner

`ResidentHost.Held` is the invariant. The attached residents are, as a bag, those of
the staged bundles, those of the map and the released ones (`balance`), and a staged
bundle holds residents of its own thread only. A call moves residents of one thread's
staged bundles (`Held.transfer`), or none (`Held.quiet`).

`Due` says which residents a call has to release. `residents_run` has both along every
run.
-/

set_option autoImplicit false

namespace PolyPlug.Registry

open PolyPlug.Abi
open PolyPlug.Lib
open RuntimeStore

/-! ### The residents of a registry -/

/-- The resident of a staged bundle, with its bundle. -/
def PreparedBundleRegistration.held (e : PreparedBundleRegistration) :
    Option (BundleId × InternalPluginResident) :=
  e.resident.map (⟨e.manifest.id⟩, ·)

namespace RuntimeStore

/-- The residents of a thread's staged bundles. -/
def heldOn (s : RuntimeStore) (thread : ThreadId) : Multiset (BundleId × InternalPluginResident) :=
  ↑((s.preparedOn thread).filterMap PreparedBundleRegistration.held)

/-- The residents of all staged bundles. -/
def stagedResidents (s : RuntimeStore) : Multiset (BundleId × InternalPluginResident) :=
  total (fun _ l => ↑((l.getD []).filterMap PreparedBundleRegistration.held)) s.preparedBundles

/-- The resident of one entry of the map. -/
def mappedAt (b : BundleId) (resident : Option InternalPluginResident) :
    Multiset (BundleId × InternalPluginResident) :=
  ↑(resident.map (b, ·)).toList

/-- The residents of the map. -/
def mappedResidents (s : RuntimeStore) : Multiset (BundleId × InternalPluginResident) :=
  total mappedAt s.internalPluginResidents

/-- The resident of the innermost staged bundle of an id. -/
def heldBy (s : RuntimeStore) (thread : ThreadId) (b : BundleId) :
    Option InternalPluginResident :=
  ((s.staged thread).find? (·.isFor b)).bind PreparedBundleRegistration.resident

/-- Every bundle of the map has a record. -/
def Backed (s : RuntimeStore) : Prop :=
  ∀ b, (s.internalPluginResidents.lookup b).isSome → (s.data.descriptorOf b).isSome

end RuntimeStore

section
variable {s s' : RuntimeStore} {thread : ThreadId} {b : BundleId}

theorem stagedResidents_add (h : ∀ t, t ≠ thread → s'.heldOn t = s.heldOn t) :
    s'.stagedResidents + s.heldOn thread = s.stagedResidents + s'.heldOn thread :=
  total_add (g := fun _ l => (↑((l.getD []).filterMap PreparedBundleRegistration.held) :
    Multiset (BundleId × InternalPluginResident))) (fun _ => rfl) h

/-- A change of the map at one bundle. -/
theorem mappedResidents_add (h : ∀ c, c ≠ b →
      s'.internalPluginResidents.lookup c = s.internalPluginResidents.lookup c) :
    s'.mappedResidents + mappedAt b (s.internalPluginResidents.lookup b)
      = s.mappedResidents + mappedAt b (s'.internalPluginResidents.lookup b) :=
  total_add (fun _ => rfl) fun c hc => by rw [h c hc]

/-- A resident joins the map under a new key. -/
theorem mappedResidents_insert (hnew : s.internalPluginResidents.lookup b = none)
    {resident : InternalPluginResident}
    (hmap : s'.internalPluginResidents = s.internalPluginResidents.insert b resident) :
    s'.mappedResidents = s.mappedResidents + {(b, resident)} := by
  have hadd := mappedResidents_add (s := s) (b := b) fun c hc => by
    rw [hmap, lookup_insert_eq, if_neg hc]
  rw [hnew, hmap, lookup_insert_eq, if_pos rfl] at hadd
  exact (add_zero _).symm.trans hadd

/-- The resident of a bundle leaves the map. -/
theorem mappedResidents_erase
    (hmap : s'.internalPluginResidents = s.internalPluginResidents.erase b) :
    s.mappedResidents
      = s'.mappedResidents + mappedAt b (s.internalPluginResidents.lookup b) := by
  have hadd := mappedResidents_add (s := s) (b := b) fun c hc => by
    rw [hmap, lookup_erase_eq, if_neg hc]
  rw [hmap, lookup_erase_eq, if_pos rfl] at hadd
  exact ((add_zero _).symm.trans hadd.symm)

theorem heldOn_setPreparedOn (l : List PreparedBundleRegistration) :
    (s.setPreparedOn thread l).heldOn thread
      = ↑(l.filterMap PreparedBundleRegistration.held) := by
  rw [heldOn, preparedOn_setPreparedOn]

theorem heldOn_setPreparedOn_ne (l : List PreparedBundleRegistration) {t : ThreadId}
    (h : t ≠ thread) : (s.setPreparedOn thread l).heldOn t = s.heldOn t := by
  rw [heldOn, heldOn, preparedOn_setPreparedOn_ne _ _ _ h]

theorem held_of_isFor {e : PreparedBundleRegistration} (h : e.isFor b = true) :
    e.held = e.resident.map (b, ·) := by
  rw [PreparedBundleRegistration.held, of_decide_eq_true h]

/-- A bag of staged bundles with one of them first. -/
theorem coe_filterMap_cons (e : PreparedBundleRegistration) (l : List PreparedBundleRegistration) :
    ((↑((e :: l).filterMap PreparedBundleRegistration.held) :
        Multiset (BundleId × InternalPluginResident)))
      = ↑e.held.toList + ↑(l.filterMap PreparedBundleRegistration.held) := by
  cases h : e.held with
  | none => simp [h]
  | some p => simp [h]

/-- The residents of a thread, split at the staged bundle a search finds. -/
theorem heldOn_eq_add {e : PreparedBundleRegistration}
    (h : (s.staged thread).find? (·.isFor b) = some e) :
    s.heldOn thread
      = ↑e.held.toList + ↑(((s.staged thread).eraseP (·.isFor b)).filterMap
          PreparedBundleRegistration.held) := by
  rw [← coe_filterMap_cons]
  refine Multiset.coe_eq_coe.mpr (List.Perm.filterMap _ ?_)
  exact (List.reverse_perm _).symm.trans (perm_cons_eraseP h)

/-- The removal of the staged bundle takes its resident away. -/
theorem heldOn_taken {e : PreparedBundleRegistration} {l : List PreparedBundleRegistration}
    (h : (s.staged thread).find? (·.isFor b) = some e)
    (hl : l.reverse = (s.staged thread).eraseP (·.isFor b)) :
    s.heldOn thread = ↑(e.resident.map (b, ·)).toList + (s.setPreparedOn thread l).heldOn
      thread := by
  rw [heldOn_eq_add h, held_of_isFor (List.find?_some h), heldOn_setPreparedOn, ← hl,
    List.filterMap_reverse, Multiset.coe_reverse]

/-- A change of the staged bundle changes its resident. -/
theorem heldOn_modified {e : PreparedBundleRegistration} {l : List PreparedBundleRegistration}
    {f : PreparedBundleRegistration → PreparedBundleRegistration}
    (h : (s.staged thread).find? (·.isFor b) = some e)
    (hl : l.reverse = modifyFirst (·.isFor b) f (s.staged thread)) :
    (s.setPreparedOn thread l).heldOn thread + ↑e.held.toList
      = s.heldOn thread + ↑(f e).held.toList := by
  have hperm : l.Perm (f e :: (s.staged thread).eraseP (·.isFor b)) := by
    refine (List.reverse_perm l).symm.trans ?_
    rw [hl]
    exact modifyFirst_perm h
  rw [heldOn_eq_add h, heldOn_setPreparedOn, Multiset.coe_eq_coe.mpr (hperm.filterMap _),
    coe_filterMap_cons]
  ac_rfl

end

end PolyPlug.Registry

namespace PolyPlug.Lifecycle

open PolyPlug.Abi
open PolyPlug.Lib
open PolyPlug.Common
open PolyPlug.Registry
open RuntimeStoreData RuntimeStore

/-! ### The invariant -/

/-- The released resident, with its bundle. -/
def Release.held (r : Release) : BundleId × InternalPluginResident := (r.bundleId, r.resident)

namespace ResidentHost

/-- The registry. -/
def registry (r : ResidentHost) : RuntimeStore := r.host.runtime.registry

/-- Every attached resident is staged, in the map or released, and only its owner thread
can release it. -/
structure Held (r : ResidentHost) : Prop where
  balance : r.attached
    = r.registry.stagedResidents + r.registry.mappedResidents + ↑(r.released.map Release.held)
  stagedOwner : ∀ t, ∀ p ∈ r.registry.heldOn t, p.2.ownerThreadId = t
  releasedOwner : ∀ release ∈ r.released, release.resident.ownerThreadId = release.thread
  backed : r.registry.Backed

variable {r r' : ResidentHost}

/-- A call moves residents of the staged bundles of one thread. -/
theorem Held.transfer (h : r.Held) (thread : ThreadId)
    (added : Multiset (BundleId × InternalPluginResident)) (released : List Release)
    (hattached : r'.attached = r.attached + added)
    (hreleased : r'.released = r.released ++ released)
    (others : ∀ t, t ≠ thread → r'.registry.heldOn t = r.registry.heldOn t)
    (balance : r.registry.heldOn thread + r.registry.mappedResidents + added
      = r'.registry.heldOn thread + r'.registry.mappedResidents + ↑(released.map Release.held))
    (owner : ∀ p ∈ r'.registry.heldOn thread, p.2.ownerThreadId = thread)
    (releases : ∀ release ∈ released, release.resident.ownerThreadId = release.thread)
    (backed : r'.registry.Backed) : r'.Held := by
  refine ⟨?_, fun t p hp => ?_, fun release hrelease => ?_, backed⟩
  · have hstaged := stagedResidents_add others
    rw [hattached, hreleased, h.balance, List.map_append, ← Multiset.coe_add]
    rw [Multiset.ext] at hstaged balance ⊢
    intro p
    have hp := hstaged p
    have hq := balance p
    simp only [Multiset.count_add] at hp hq ⊢
    omega
  · by_cases ht : t = thread
    · subst ht
      exact owner p hp
    · rw [others t ht] at hp
      exact h.stagedOwner t p hp
  · rw [hreleased, List.mem_append] at hrelease
    exact hrelease.elim (h.releasedOwner release) (releases release)

/-- A call moves no resident. -/
theorem Held.quiet (h : r.Held) (hattached : r'.attached = r.attached)
    (hreleased : r'.released = r.released)
    (hheld : ∀ t, r'.registry.heldOn t = r.registry.heldOn t)
    (hmap : r'.registry.internalPluginResidents = r.registry.internalPluginResidents)
    (hrecord : ∀ b, (r.registry.data.descriptorOf b).isSome →
      (r'.registry.data.descriptorOf b).isSome) : r'.Held := by
  refine h.transfer 0 0 [] (by rw [hattached, add_zero])
    (by rw [hreleased, List.append_nil]) (fun t _ => hheld t) ?_ ?_ nofun ?_
  · rw [hheld, mappedResidents, mappedResidents, hmap]
    rfl
  · rw [hheld]
    exact h.stagedOwner 0
  · intro b hb
    rw [hmap] at hb
    exact hrecord b (h.backed b hb)

/-! ### Transaction calls -/

section
variable {compatibility : Compatibility} {hooks : Hooks} {thread : ThreadId}

theorem held_begin (h : r.Held) (manifest : ManifestData) (language : SupportedLanguage) :
    (r.exec compatibility hooks (thread, .plugin (.begin manifest language))).Held := by
  have hexec : (r.exec compatibility hooks (thread, .plugin (.begin manifest language))).registry
      = (r.host.runtime.beginInternalPlugin thread manifest language).2.registry := by
    show (r.host.beginInternalPlugin thread manifest language).2.runtime.registry = _
    unfold InitStacks.beginInternalPlugin
    rcases r.host.runtime.beginInternalPlugin thread manifest language with ⟨_ | _, rt⟩ <;> rfl
  refine h.quiet rfl (List.append_nil _) ?_ ?_ ?_
  all_goals
    rw [hexec]
    rcases begin_cases r.host.runtime thread manifest language with ⟨e, heq⟩ | ⟨-, -, -, heq⟩
    all_goals rw [heq]
  · exact fun _ => rfl
  · intro t
    by_cases ht : t = thread
    · subst ht
      show (r.registry.setPreparedOn t _).heldOn t = _
      rw [heldOn_setPreparedOn, List.filterMap_append]
      exact congrArg _ (List.append_nil _)
    · exact heldOn_setPreparedOn_ne _ ht
  · rfl
  · rfl
  · exact fun _ hb => hb
  · exact fun _ hb => hb

theorem held_register (h : r.Held) (descriptor : Option PluginDescriptor)
    (interface : Option RawGuestContractInterface) (functions : Nat → Nat) (ptr : Nat) :
    (r.exec compatibility hooks
      (thread, .plugin (.register descriptor interface functions ptr))).Held := by
  have hvisible : r.host.visible.registry = r.registry := by
    unfold InitStacks.visible
    split <;> rfl
  have hexec : (r.exec compatibility hooks
        (thread, .plugin (.register descriptor interface functions ptr))).registry
      = (r.host.visible.hostRegisterGuestContract thread descriptor interface functions
          ptr).2.registry := rfl
  rw [hostRegisterGuestContract_state] at hexec
  have hsame (heq : (r.exec compatibility hooks
      (thread, .plugin (.register descriptor interface functions ptr))).registry = r.registry) :
      (r.exec compatibility hooks
        (thread, .plugin (.register descriptor interface functions ptr))).Held :=
    h.quiet rfl (List.append_nil _) (fun _ => by rw [heq]) (by rw [heq])
      (fun _ hb => by rw [heq]; exact hb)
  -- A registration that is refused for its arguments reaches no registry call.
  cases hargs : checkedArguments descriptor interface functions with
  | none =>
    rw [hargs] at hexec
    exact hsame (hexec.trans hvisible)
  | some args =>
    obtain ⟨desc, interface, contractName⟩ := args
    rw [hargs] at hexec
    dsimp only at hexec
    by_cases hzero : r.host.visible.currentInitBundleId thread = 0
    · rw [if_pos hzero] at hexec
      exact hsame (hexec.trans hvisible)
    · rw [if_neg hzero, hvisible] at hexec
      unfold RuntimeStore.stageOrRegister at hexec
      dsimp only at hexec
      split at hexec
      · -- The contract joins a staged bundle, whose resident stays.
        rcases stageGuestContract_cases r.registry thread
            ⟨r.host.visible.currentInitBundleId thread⟩ desc interface ptr contractName with
          ⟨e, heq, -⟩ | ⟨contract, e, l, -, hfind, hl, heq⟩
        · rw [heq] at hexec
          exact hsame hexec
        · rw [heq] at hexec
          refine h.quiet rfl (List.append_nil _) (fun t => ?_) (by rw [hexec]; rfl)
            (fun b hb => by rw [hexec]; exact hb)
          rw [hexec]
          by_cases ht : t = thread
          · subst ht
            exact add_right_cancel (heldOn_modified hfind hl)
          · exact heldOn_setPreparedOn_ne _ ht
      · -- The contract goes into the registry itself, which may add a record.
        rcases registerGuestContract_cases r.registry desc interface ptr contractName
            ⟨r.host.visible.currentInitBundleId thread⟩ with
          ⟨e, heq⟩ | ⟨contract, handle, data', -, -, hins, heq⟩
        · rw [heq] at hexec
          exact hsame hexec
        · rw [heq] at hexec
          refine h.quiet rfl (List.append_nil _) (fun t => by rw [hexec]; rfl) (by rw [hexec]; rfl)
            (fun b hb => ?_)
          rw [hexec]
          show (data'.descriptorOf b).isSome
          rw [(sameBundles_insertPreparedGuestContract hins).descriptorOf_eq]
          unfold ensureDefaultBundleData
          split
          · exact hb
          · simp only [descriptorOf, lookup_insert_eq]
            split
            · rfl
            · exact hb

/-- An attach is refused, or gives the owner's resident to a staged bundle that has none. -/
theorem attach_cases (rt : Runtime) (thread : ThreadId) (b : BundleId)
    (resident : InternalPluginResident) :
    (∃ e, rt.attachInternalPluginResident thread b resident = (.error e, rt)) ∨
    ∃ e l, resident.ownerThreadId = thread ∧
      (rt.registry.staged thread).find? (·.isFor b) = some e ∧ e.resident = none ∧
      l.reverse = modifyFirst (·.isFor b) (fun e => { e with resident := some resident })
        (rt.registry.staged thread) ∧
      rt.attachInternalPluginResident thread b resident
        = (.ok (), { rt with registry := rt.registry.setPreparedOn thread l }) := by
  unfold Runtime.attachInternalPluginResident attachPreparedBundleResident
  by_cases howner : resident.ownerThreadId ≠ thread
  · rw [if_pos howner]
    exact .inl ⟨_, rfl⟩
  · rw [if_neg howner]
    cases hpos : rt.registry.preparedPosition thread b with
    | none => exact .inl ⟨_, rfl⟩
    | some position =>
      obtain ⟨⟨e, he, hfind⟩, -, hmodify⟩ := rposition_some hpos
      dsimp only
      rw [he, Option.bind_some]
      cases hres : e.resident with
      | some other => exact .inl ⟨_, rfl⟩
      | none => exact .inr ⟨e, _, not_not.mp howner, hfind, hres, hmodify _, rfl⟩

theorem held_attach (h : r.Held) (b : BundleId) (resident : InternalPluginResident) :
    (r.exec compatibility hooks (thread, .plugin (.attach b resident))).Held := by
  have hruntime : (r.exec compatibility hooks (thread, .plugin (.attach b resident))).host.runtime
      = (r.host.runtime.attachInternalPluginResident thread b resident).2 := rfl
  have hreleased : (r.exec compatibility hooks (thread, .plugin (.attach b resident))).released
      = r.released ++ [] := rfl
  rcases attach_cases r.host.runtime thread b resident with
    ⟨e, heq⟩ | ⟨e, l, howner, hfind, hres, hl, heq⟩
  · have hattached : (r.exec compatibility hooks (thread, .plugin (.attach b resident))).attached
        = r.attached := by
      simp only [ResidentHost.exec, heq]
    have hregistry : (r.exec compatibility hooks (thread, .plugin (.attach b resident))).registry
        = r.registry := by
      rw [registry, hruntime, heq]
      rfl
    exact h.quiet hattached (hreleased.trans (List.append_nil _)) (fun _ => by rw [hregistry])
      (by rw [hregistry]) (fun _ hb => by rw [hregistry]; exact hb)
  · have hattached : (r.exec compatibility hooks (thread, .plugin (.attach b resident))).attached
        = (b, resident) ::ₘ r.attached := by
      simp only [ResidentHost.exec, heq]
    have hregistry : (r.exec compatibility hooks (thread, .plugin (.attach b resident))).registry
        = r.registry.setPreparedOn thread l := by
      rw [registry, hruntime, heq]
      rfl
    have hnow : (r.registry.setPreparedOn thread l).heldOn thread
        = r.registry.heldOn thread + {(b, resident)} := by
      have hmoved := heldOn_modified (s := r.registry) hfind hl
      have hfor := List.find?_some hfind
      rw [held_of_isFor hfor, hres, held_of_isFor (b := b) (e := { e with
        resident := some resident }) hfor] at hmoved
      simpa using hmoved
    refine h.transfer thread {(b, resident)} [] ?_ hreleased
      (fun t ht => ?_) ?_ ?_ (fun _ hmem => absurd hmem List.not_mem_nil) ?_
    · rw [hattached, add_comm, Multiset.singleton_add]
    · rw [hregistry]
      exact heldOn_setPreparedOn_ne _ ht
    · rw [hregistry, hnow, List.map_nil, Multiset.coe_nil, add_zero]
      exact add_right_comm _ _ _
    · intro p hp
      rw [hregistry, hnow, Multiset.mem_add, Multiset.mem_singleton] at hp
      rcases hp with hp | rfl
      · exact h.stagedOwner thread p hp
      · exact howner
    · rw [hregistry]
      exact h.backed

/-- The removal of a staged bundle releases its resident. -/
theorem held_taken (h : r.Held) {b : BundleId} {e : PreparedBundleRegistration}
    {l : List PreparedBundleRegistration}
    (hfind : (r.registry.staged thread).find? (·.isFor b) = some e)
    (hl : l.reverse = (r.registry.staged thread).eraseP (·.isFor b))
    (hattached : r'.attached = r.attached)
    (hreleased : r'.released = r.released
      ++ (e.resident.map fun resident => Release.mk b resident thread).toList)
    (hregistry : r'.registry = r.registry.setPreparedOn thread l) : r'.Held := by
  have htaken := heldOn_taken hfind hl
  have hreleases : (((e.resident.map fun resident => Release.mk b resident thread).toList).map
      Release.held) = (e.resident.map (b, ·)).toList := by
    cases e.resident <;> rfl
  refine h.transfer thread 0 _ (by rw [hattached, add_zero]) hreleased
    (fun t ht => by rw [hregistry, heldOn_setPreparedOn_ne _ ht]) ?_ ?_ ?_ ?_
  · rw [hreleases, hregistry, htaken]
    show _ + _ + r.registry.mappedResidents + 0 = _ + r.registry.mappedResidents + _
    ac_rfl
  · intro p hp
    rw [hregistry] at hp
    refine h.stagedOwner thread p ?_
    rw [htaken]
    exact Multiset.mem_add.mpr (Or.inr hp)
  · intro release hrelease
    have hmem : release.held ∈ r.registry.heldOn thread := by
      rw [htaken, Multiset.mem_add, Multiset.mem_coe, ← hreleases]
      exact Or.inl (List.mem_map_of_mem hrelease)
    have howner := h.stagedOwner thread _ hmem
    rw [Option.mem_toList, Option.map_eq_some_iff] at hrelease
    obtain ⟨resident, -, rfl⟩ := hrelease
    exact howner
  · rw [hregistry]
    exact h.backed

/-- An accepted commit moves the resident of the staged bundle, if it has one, into the map. -/
theorem held_accepted (h : r.Held) {b : BundleId} {e : PreparedBundleRegistration}
    {l : List PreparedBundleRegistration}
    (hfind : (r.registry.staged thread).find? (·.isFor b) = some e)
    (hl : l.reverse = (r.registry.staged thread).eraseP (·.isFor b))
    (hattached : r'.attached = r.attached) (hreleased : r'.released = r.released)
    (hheld : ∀ t, r'.registry.heldOn t = (r.registry.setPreparedOn thread l).heldOn t)
    (hfree : r.registry.internalPluginResidents.lookup b = none)
    (hmap : r'.registry.internalPluginResidents = match e.resident with
      | none          => r.registry.internalPluginResidents
      | some resident => r.registry.internalPluginResidents.insert b resident)
    (hrecord : ∀ c, c = b ∨ (r.registry.data.descriptorOf c).isSome →
      (r'.registry.data.descriptorOf c).isSome) : r'.Held := by
  have htaken := heldOn_taken hfind hl
  have hmapped : r'.registry.mappedResidents
      = r.registry.mappedResidents + ↑(e.resident.map (b, ·)).toList := by
    cases hres : e.resident with
    | none =>
      rw [hres] at hmap
      rw [mappedResidents, hmap]
      exact (add_zero _).symm
    | some resident =>
      rw [hres] at hmap
      exact mappedResidents_insert hfree hmap
  refine h.transfer thread 0 [] (by rw [hattached, add_zero])
    (by rw [hreleased, List.append_nil])
    (fun t ht => (hheld t).trans (heldOn_setPreparedOn_ne _ ht)) ?_ ?_
    (fun _ hmem => absurd hmem List.not_mem_nil) ?_
  · rw [hmapped, hheld, htaken, List.map_nil, Multiset.coe_nil]
    ac_rfl
  · intro p hp
    rw [hheld] at hp
    refine h.stagedOwner thread p ?_
    rw [htaken]
    exact Multiset.mem_add.mpr (Or.inr hp)
  · -- Only the bundle itself is new in the map, and it has a record now.
    intro c hc
    by_cases hcb : c = b
    · exact hrecord c (Or.inl hcb)
    · refine hrecord c (Or.inr (h.backed c ?_))
      cases hres : e.resident with
      | none =>
        rw [hmap, hres] at hc
        exact hc
      | some resident =>
        rw [hmap, hres] at hc
        dsimp only at hc
        rw [lookup_insert_eq, if_neg hcb] at hc
        exact hc

/-- A commit drops the resident of the staged bundle when it is refused, and none when it
is accepted. -/
theorem held_commit (compatibility : Compatibility) (thread : ThreadId) (h : r.Held) (b : BundleId)
    (hattached : r'.attached = r.attached)
    (hregistry : r'.registry = (r.host.runtime.commitPreparedBundleTransactionWithHandles thread b
      ⟨compatibility, false⟩).2.registry)
    (hreleased : r'.released = r.released
      ++ ((r.host.runtime.commitReleases compatibility thread b).map fun resident =>
        Release.mk b resident thread).toList) :
    r'.Held := by
  unfold Runtime.commitReleases at hreleased
  rcases commit_cases r.host.runtime thread b ⟨compatibility, false⟩ with
    ⟨hnone, heq⟩ | ⟨e, l, hfind, hl, heq⟩
  · rcases takePreparedBundle_cases r.host.runtime.registry thread b with
      ⟨-, htake⟩ | ⟨e, l, hfind, -, -⟩
    · rw [htake] at hreleased
      rw [heq] at hregistry
      exact h.quiet hattached (hreleased.trans (List.append_nil _))
        (fun _ => by rw [hregistry]; rfl)
        (by rw [hregistry]; rfl) (fun _ hb => by rw [hregistry]; exact hb)
    · rw [hnone] at hfind
      cases hfind
  · rcases takePreparedBundle_cases r.host.runtime.registry thread b with
      ⟨hnone, -⟩ | ⟨e', l', hfind', -, htake⟩
    · rw [hnone] at hfind
      cases hfind
    · rw [hfind] at hfind'
      cases hfind'
      rw [htake, heq] at hreleased
      rw [heq] at hregistry
      rcases publishPrepared_ends (r.host.runtime.setStaged thread l) b e ⟨compatibility, false⟩
        with ⟨err, hpub⟩ | ⟨version, handles, registry, hreg, hpub⟩
      · rw [hpub] at hreleased hregistry
        exact held_taken h hfind hl hattached hreleased hregistry
      · rcases registerPreparedBundle_cases (r.host.runtime.setStaged thread l).registry
            (Runtime.preparedDescriptor e b version) (Runtime.preparedDependencies e.manifest)
            e.contracts with ⟨err, hreg'⟩ | ⟨hs, data', -, -, hnew, hins, hreg'⟩
        · rw [hreg'] at hreg
          cases hreg
        rw [hreg'] at hreg
        cases hreg
        -- The bundle had no record, so the map held nothing for it.
        have hfree : r.registry.internalPluginResidents.lookup b = none := by
          rw [Option.eq_none_iff_forall_ne_some]
          intro resident hresident
          have hrecord := h.backed b (by rw [hresident]; rfl)
          rw [descriptorOf, show r.registry.data.bundleData.lookup b = none from hnew] at hrecord
          cases hrecord
        have hrecorded (c : BundleId) : data'.descriptorOf c
            = if c = b then some (Runtime.preparedDescriptor e b version)
              else r.registry.data.descriptorOf c := by
          rw [(sameBundles_insertAll hins).descriptorOf_eq]
          simp only [descriptorOf, insertBundle, lookup_insert_eq]
          show Option.map _ (if c = b then _ else _) = _
          split <;> rfl
        rw [hpub] at hreleased hregistry
        dsimp only at hreleased hregistry
        refine held_accepted h hfind hl hattached ?_ (fun t => by rw [hregistry]; rfl) hfree ?_
          fun c hc => ?_
        · show r'.released = r.released
          cases hres : e.resident with
          | none =>
            rw [hres] at hreleased
            exact hreleased.trans (List.append_nil _)
          | some resident =>
            have hlookup : r.host.runtime.registry.internalPluginResidents.lookup b = none := hfree
            simp only [hres, Option.bind_some, hlookup] at hreleased
            exact hreleased.trans (List.append_nil _)
        · rw [hregistry]
          cases e.resident <;> rfl
        · rw [hregistry]
          show (data'.descriptorOf c).isSome
          rw [hrecorded]
          by_cases hcb : c = b
          · rw [if_pos hcb]
            rfl
          · rw [if_neg hcb]
            exact hc.resolve_left hcb

theorem held_abort (thread : ThreadId) (h : r.Held) (b : BundleId)
    (hattached : r'.attached = r.attached)
    (hregistry : r'.registry = (r.host.runtime.abortInternalPlugin thread b).2.registry)
    (hreleased : r'.released = r.released
      ++ ((r.host.runtime.abortReleases thread b).map fun resident =>
        Release.mk b resident thread).toList) :
    r'.Held := by
  unfold Runtime.abortReleases RuntimeStore.discardPreparedBundle at hreleased
  unfold Runtime.abortInternalPlugin RuntimeStore.discardPreparedBundle at hregistry
  rcases takePreparedBundle_cases r.host.runtime.registry thread b with
    ⟨-, htake⟩ | ⟨e, l, hfind, hl, htake⟩
  · rw [htake] at hreleased hregistry
    exact h.quiet hattached (hreleased.trans (List.append_nil _)) (fun _ => by rw [hregistry]; rfl)
      (by rw [hregistry]; rfl) (fun _ hb => by rw [hregistry]; exact hb)
  · rw [htake] at hreleased hregistry
    exact held_taken h hfind hl hattached hreleased hregistry

/-! ### What a transaction call leaves in the registry -/

theorem registry_commit (h : InitStacks) (b : BundleId) :
    (h.commitInternalPluginWithHandles compatibility thread b).2.runtime.registry
      = (h.runtime.commitPreparedBundleTransactionWithHandles thread b
          ⟨compatibility, false⟩).2.registry := by
  show (Runtime.popInitBundleId _ thread).registry = _
  rw [registry_pop]
  show (h.runtime.commitInternalPluginWithHandles compatibility thread b).2.registry = _
  unfold Runtime.commitInternalPluginWithHandles
  rcases h.runtime.commitPreparedBundleTransactionWithHandles thread b ⟨compatibility, false⟩ with
    ⟨_ | _, rt⟩ <;> rfl

theorem registry_abort (h : InitStacks) (b : BundleId) :
    (h.abortInternalPlugin thread b).runtime.registry
      = (h.runtime.abortInternalPlugin thread b).2.registry := by
  unfold InitStacks.abortInternalPlugin
  rcases h.runtime.abortInternalPlugin thread b with ⟨_ | _, rt⟩
  · rfl
  · show (Runtime.popInitBundleId _ thread).registry = _
    rw [registry_pop]

/-- A transaction call keeps the invariant. -/
theorem held_plugin (h : r.Held) (call : PluginCall) :
    (r.exec compatibility hooks (thread, .plugin call)).Held := by
  cases call with
  | begin manifest language => exact held_begin h manifest language
  | attach b resident => exact held_attach h b resident
  | register descriptor interface functions ptr =>
    exact held_register h descriptor interface functions ptr
  | commit b =>
    refine held_commit compatibility thread h b rfl (registry_commit r.host b) ?_
    show r.released ++ (Option.map _ (Option.map _ _)).toList = _
    rw [Option.map_map]
    rfl
  | abort b =>
    refine held_abort thread h b rfl (registry_abort r.host b) ?_
    show r.released ++ (Option.map _ (Option.map _ _)).toList = _
    rw [Option.map_map]
    rfl
  | commitIntoHandles b outHandles =>
    -- It is an abort or a commit.
    have haborts (hhost : (r.host.commitInternalPluginIntoHandles compatibility thread b
          outHandles).2 = r.host.abortInternalPlugin thread b)
        (hreleases : r.host.releases compatibility thread (.commitIntoHandles b outHandles)
          = (r.host.runtime.abortReleases thread b).map (b, ·)) :
        (r.exec compatibility hooks (thread, .plugin (.commitIntoHandles b outHandles))).Held := by
      refine held_abort thread h b rfl ?_ ?_
      · show (r.host.commitInternalPluginIntoHandles compatibility thread b
          outHandles).2.runtime.registry = _
        rw [hhost, registry_abort]
      · show r.released ++ (Option.map _ (r.host.releases compatibility thread _)).toList = _
        rw [hreleases, Option.map_map]
        rfl
    cases hcount : r.host.runtime.registry.preparedBundleContractCount thread b with
    | none =>
      refine haborts ?_ ?_
      · unfold InitStacks.commitInternalPluginIntoHandles
        rw [hcount]
      · unfold InitStacks.releases
        dsimp only
        rw [hcount]
    | some expectedCount =>
      by_cases hne : expectedCount ≠ outHandles
      · refine haborts ?_ ?_
        · unfold InitStacks.commitInternalPluginIntoHandles
          rw [hcount]
          dsimp only
          rw [if_pos hne]
        · unfold InitStacks.releases
          dsimp only
          rw [hcount]
          exact if_pos hne
      · refine held_commit compatibility thread h b rfl ?_ ?_
        · show (r.host.commitInternalPluginIntoHandles compatibility thread b
            outHandles).2.runtime.registry = _
          unfold InitStacks.commitInternalPluginIntoHandles
          rw [hcount]
          dsimp only
          rw [if_neg hne]
          exact registry_commit r.host b
        · show r.released ++ (Option.map _ (r.host.releases compatibility thread _)).toList = _
          unfold InitStacks.releases
          dsimp only
          rw [hcount]
          dsimp only
          rw [if_neg hne, Option.map_map]
          rfl

end

end ResidentHost

/-! ### Unloads -/

/-- A runtime during an unload on a thread that started from `rt₀`, and what was released
so far. -/
structure Unloading (rt₀ : Runtime) (thread : ThreadId) (s : Runtime × List Release) : Prop where
  prepared : s.1.registry.preparedBundles = rt₀.registry.preparedBundles
  balance : rt₀.registry.mappedResidents
    = s.1.registry.mappedResidents + ↑(s.2.map Release.held)
  owner : ∀ release ∈ s.2, release.thread = thread ∧ release.resident.ownerThreadId = thread
  backed : s.1.registry.Backed
  /-- A resident stays in the map until it is released. -/
  moved : ∀ c resident, rt₀.registry.internalPluginResidents.lookup c = some resident →
    s.1.registry.internalPluginResidents.lookup c = some resident ∨
    s.1.registry.internalPluginResidents.lookup c = none ∧ ⟨c, resident, thread⟩ ∈ s.2
  kept : ∀ c resident, s.1.registry.internalPluginResidents.lookup c = some resident →
    rt₀.registry.internalPluginResidents.lookup c = some resident
  declared : s.1.registry.data.bundleDeclaredDeps.keys
    ⊆ rt₀.registry.data.bundleDeclaredDeps.keys

section
variable {rt₀ rt : Runtime} {thread : ThreadId} {b : BundleId}

theorem unloading_start (h : rt₀.registry.Backed) (thread : ThreadId) :
    Unloading rt₀ thread (rt₀, []) :=
  ⟨rfl, (add_zero _).symm, nofun, h, fun _ _ hc => Or.inl hc, fun _ _ hc => hc, subset_rfl⟩

/-- The records and the declared dependencies after an invalidation. -/
theorem invalidateBundle_bundles (s : RuntimeStore) (b : BundleId) :
    (∀ c, (s.invalidateBundle b).2.data.descriptorOf c
      = if c = b then none else s.data.descriptorOf c) ∧
    (s.invalidateBundle b).2.data.bundleDeclaredDeps.keys ⊆ s.data.bundleDeclaredDeps.keys ∧
    (s.invalidateBundle b).2.preparedBundles = s.preparedBundles ∧
    (s.invalidateBundle b).2.internalPluginResidents = s.internalPluginResidents := by
  unfold invalidateBundle
  cases hrecord : s.data.bundleData.lookup b with
  | none =>
    refine ⟨fun c => ?_, subset_rfl, rfl, rfl⟩
    show s.data.descriptorOf c = _
    by_cases hc : c = b
    · rw [if_pos hc, hc, descriptorOf, hrecord]
      rfl
    · rw [if_neg hc]
  | some bd =>
    have hvacated := @sameBundles_foldl_vacateSlot s.data bd.pluginSlots
    refine ⟨fun c => ?_, ?_, rfl, rfl⟩
    · show (((bd.pluginSlots.foldl vacateSlot s.data).bundleData.erase b).lookup c).map
        BundleData.descriptor = _
      rw [lookup_erase_eq]
      split
      · rfl
      · exact hvacated.descriptor c
    · show ((bd.pluginSlots.foldl vacateSlot s.data).bundleDeclaredDeps.erase b).keys ⊆ _
      rw [hvacated.declaredDeps, Finmap.keys_erase]
      exact Finset.erase_subset _ _

/-- The critical section is refused, or takes the resident out of the map and
invalidates. -/
theorem invalidateRegistered_ends (rt : Runtime) (b : BundleId) (d : BundleDescriptor) :
    (∃ e, rt.invalidateRegistered b d = (.error e, rt)) ∨
    (rt.invalidateRegistered b d).1 = .ok () ∧
      (rt.invalidateRegistered b d).2.registry
        = ({ rt.registry with
            internalPluginResidents := rt.registry.internalPluginResidents.erase b
            }.invalidateBundle b).2 := by
  unfold Runtime.invalidateRegistered
  dsimp only
  split
  · exact Or.inl ⟨_, rfl⟩
  · exact Or.inr ⟨rfl, rfl⟩

/-- The unload of one bundle is refused, or takes its resident out of the map and
releases it on its owner thread. -/
theorem unloadRegisteredBundle_cases (hooks : Hooks) (thread : ThreadId) (rt : Runtime)
    (b : BundleId) (d : BundleDescriptor) :
    (rt.unloadReleases thread b d = none ∧ ∃ e,
      Runtime.unloadRegisteredBundle hooks thread rt b d = (.error e, rt)) ∨
    rt.unloadReleases thread b d = rt.registry.internalPluginResidents.lookup b ∧
      (∀ resident, rt.registry.internalPluginResidents.lookup b = some resident →
        resident.ownerThreadId = thread) ∧
      (Runtime.unloadRegisteredBundle hooks thread rt b d).2.registry
        = ({ rt.registry with
            internalPluginResidents := rt.registry.internalPluginResidents.erase b
            }.invalidateBundle b).2 := by
  unfold Runtime.unloadRegisteredBundle Runtime.unloadReleases
  cases haffinity : rt.ensureRegisteredBundleResidentAffinity thread b d.name with
  | error e => exact Or.inl ⟨rfl, e, rfl⟩
  | ok u =>
    have howner : ∀ resident, rt.registry.internalPluginResidents.lookup b = some resident →
        resident.ownerThreadId = thread := by
      intro resident hresident
      unfold Runtime.ensureRegisteredBundleResidentAffinity at haffinity
      rw [hresident] at haffinity
      by_contra hne
      simp [hne] at haffinity
    rcases invalidateRegistered_ends rt b d with ⟨e, heq⟩ | ⟨hok, hregistry⟩
    · dsimp only
      rw [heq]
      exact Or.inl ⟨rfl, e, rfl⟩
    · right
      dsimp only
      cases hinvalidate : rt.invalidateRegistered b d with
      | mk result rt' =>
        rw [hinvalidate] at hok hregistry
        cases hok
        exact ⟨rfl, howner, hregistry⟩

/-- The unload of one bundle keeps the invariant. -/
theorem unloading_leave {s : Runtime × List Release} (h : Unloading rt₀ thread s) (hooks : Hooks)
    (b : BundleId) (d : BundleDescriptor) :
    Unloading rt₀ thread ((Runtime.unloadRegisteredBundle hooks thread s.1 b d).2,
      s.2 ++ ((s.1.unloadReleases thread b d).map fun resident =>
        Release.mk b resident thread).toList) ∧
    ((Runtime.unloadRegisteredBundle hooks thread s.1 b d).1 = .ok () →
      Finmap.lookup b
          (Runtime.unloadRegisteredBundle hooks thread s.1 b d).2.registry.internalPluginResidents
        = none) := by
  rcases unloadRegisteredBundle_cases hooks thread s.1 b d with
    ⟨hnone, e, heq⟩ | ⟨hreleases, howner, hregistry⟩
  · rw [hnone, heq]
    refine ⟨?_, nofun⟩
    rw [Option.map_none, Option.toList_none, List.append_nil]
    exact h
  · obtain ⟨hrecords, hdeclared, hprepared, hmap⟩ := invalidateBundle_bundles { s.1.registry with
      internalPluginResidents := s.1.registry.internalPluginResidents.erase b } b
    rw [← hregistry] at hrecords hdeclared hprepared hmap
    rw [hreleases]
    -- The map loses the resident of `b`, and the log gains it.
    have hlookup (c : BundleId) :
        Finmap.lookup c
          (Runtime.unloadRegisteredBundle hooks thread s.1 b d).2.registry.internalPluginResidents
            = if c = b then none else s.1.registry.internalPluginResidents.lookup c := by
      rw [hmap]
      exact lookup_erase_eq ..
    refine ⟨⟨hprepared.trans h.prepared, ?_, ?_, fun c hc => ?_, fun c resident hc => ?_,
      fun c resident hc => ?_, hdeclared.trans h.declared⟩, fun _ => ?_⟩
    · rw [h.balance, mappedResidents_erase hmap, List.map_append, ← Multiset.coe_add]
      have hheld : (((s.1.registry.internalPluginResidents.lookup b).map fun resident =>
            Release.mk b resident thread).toList).map Release.held
          = ((s.1.registry.internalPluginResidents.lookup b).map (b, ·)).toList := by
        cases s.1.registry.internalPluginResidents.lookup b <;> rfl
      rw [hheld]
      exact (add_assoc _ _ _).trans (congrArg _ (add_comm _ _))
    · intro release hrelease
      rw [List.mem_append, Option.mem_toList, Option.map_eq_some_iff] at hrelease
      rcases hrelease with hrelease | ⟨resident, hresident, rfl⟩
      · exact h.owner release hrelease
      · exact ⟨rfl, howner resident hresident⟩
    · rw [hlookup] at hc
      rw [hrecords]
      split
      · rename_i hcb
        rw [if_pos hcb] at hc
        cases hc
      · rename_i hcb
        rw [if_neg hcb] at hc
        exact h.backed c hc
    · rw [hlookup]
      -- What had left the map before has been released before.
      rcases h.moved c resident hc with hstill | ⟨hgone, hrelease⟩
      · by_cases hcb : c = b
        · subst hcb
          rw [if_pos rfl]
          refine Or.inr ⟨rfl, List.mem_append.mpr (Or.inr ?_)⟩
          rw [hstill]
          exact List.mem_singleton.mpr rfl
        · rw [if_neg hcb]
          exact Or.inl hstill
      · refine Or.inr ⟨?_, List.mem_append.mpr (Or.inl hrelease)⟩
        split
        · rfl
        · exact hgone
    · rw [hlookup] at hc
      split at hc
      · cases hc
      · exact h.kept c resident hc
    · rw [hlookup, if_pos rfl]

/-- The unload of one bundle of a cascade keeps it, with the release it logs. -/
theorem unloading_pass {s : Teardown × List Release}
    (h : Unloading rt₀ thread (s.1.runtime, s.2)) (second : Iteration) (hooks : Hooks)
    (d : BundleDescriptor) (c : BundleId) :
    let left := ((unloadPass second hooks thread).logged
      (Teardown.unloadReleases thread)).leave d c s
    Unloading rt₀ thread (left.2.1.runtime, left.2.2) ∧
      (left.1 = .ok () → left.2.1.runtime.registry.internalPluginResidents.lookup c = none) := by
  have hleave := unloading_leave h hooks c d
  rw [unloadRegisteredBundle_eq] at hleave
  exact hleave

/-- The passes of a cascade end within its fuel. -/
theorem cascade_isSome (first second : Iteration) (hooks : Hooks) (h : rt.registry.Backed)
    (thread : ThreadId) (b : BundleId) :
    ((affinityPass first thread).visit rt.cascadeFuel rt ∅ b).isSome ∧
      (((unloadPass second hooks thread).logged (Teardown.unloadReleases thread)).visit
        rt.cascadeFuel (⟨rt, []⟩, []) ∅ b).isSome := by
  have hfuel : (insert b rt.registry.data.bundleDeclaredDeps.keys \ ∅).card < rt.cascadeFuel := by
    rw [Finset.sdiff_empty]
    exact Nat.lt_succ_of_le (Finset.card_insert_le _ _)
  constructor
  · -- The affinity check reads one runtime only.
    refine Visitor.visit_isSome (I := fun rt' => rt' = rt) _ (fun _ _ _ hs => hs) ?_
      rt.cascadeFuel rt ∅ b rfl (Finset.mem_insert_self _ _) hfuel
    intro rt' visited c x children hrt henter d hd
    subst hrt
    unfold affinityPass at henter
    dsimp only at henter
    cases hrecord : rt'.registry.getBundleDescriptor c with
    | none =>
      rw [hrecord] at henter
      cases henter
    | some descriptor =>
      rw [hrecord] at henter
      dsimp only at henter
      cases haff : rt'.ensureRegisteredBundleResidentAffinity thread c descriptor.name with
      | error e =>
        rw [haff] at henter
        cases henter
      | ok u =>
        rw [haff] at henter
        cases henter
        exact Finset.mem_insert_of_mem (dependents_subset_keys hd)
  · refine Visitor.visit_isSome (I := fun s : Teardown × List Release =>
        Unloading rt thread (s.1.runtime, s.2)) _
      (fun d c s hs => (unloading_pass hs second hooks d c).1) ?_ rt.cascadeFuel (⟨rt, []⟩, []) ∅ b
      (unloading_start h thread) (Finset.mem_insert_self _ _) hfuel
    intro s visited c x children hs henter d hd
    change (unloadPass second hooks thread).enter s.1 visited c = _ at henter
    unfold unloadPass at henter
    dsimp only at henter
    cases hrecord : s.1.runtime.registry.getBundleDescriptor c with
    | none =>
      rw [hrecord] at henter
      cases henter
    | some descriptor =>
      rw [hrecord] at henter
      cases henter
      exact Finset.mem_insert_of_mem (hs.declared (dependents_subset_keys hd))

/-- A cascade ends, and keeps it with its releases. -/
theorem unloadBundleCascade_unloading (first second : Iteration) (thread : ThreadId)
    (hooks : Hooks) (h : rt.registry.Backed) (b : BundleId) :
    ∃ result t,
      unloadBundleCascade first second hooks thread rt.cascadeFuel ⟨rt, []⟩ b
        = some (result, t) ∧
      Unloading rt thread (t.runtime, rt.cascadeReleases first second hooks thread b) ∧
      (result = .ok () → t.runtime.registry.internalPluginResidents.lookup b = none) := by
  obtain ⟨hfirst, hsecond⟩ := cascade_isSome first second hooks h thread b
  obtain ⟨⟨e | u, rt', visited⟩, hchecked⟩ := Option.isSome_iff_exists.mp hfirst
  · refine ⟨.error e, ⟨rt, []⟩, ?_, ?_, fun hok => by cases hok⟩
    · unfold unloadBundleCascade
      rw [hchecked]
    · unfold Runtime.cascadeReleases
      rw [hchecked]
      exact unloading_start h thread
  · obtain ⟨⟨result, ⟨t, released⟩, visited'⟩, hvisit⟩ := Option.isSome_iff_exists.mp hsecond
    have hreleases : rt.cascadeReleases first second hooks thread b = released := by
      unfold Runtime.cascadeReleases
      rw [hchecked]
      dsimp only
      rw [hvisit]
    have hleave := fun (d : BundleDescriptor) (c : BundleId) (s : Teardown × List Release)
      (hs : Unloading rt thread (s.1.runtime, s.2)) => (unloading_pass hs second hooks d c).1
    refine ⟨result, t, ?_, ?_, fun hok => ?_⟩
    · unfold unloadBundleCascade
      rw [hchecked]
      dsimp only
      rw [← Visitor.visit_logged _ (Teardown.unloadReleases thread) (⟨rt, []⟩, []), hvisit]
      rfl
    · rw [hreleases]
      exact (Visitor.visit_invariant hleave _ _ _ _ _ _ _ (unloading_start h thread) hvisit).1
    · subst hok
      obtain ⟨d, s, hs, hlast⟩ := Visitor.visit_ok hleave (unloading_start h thread)
        (Finset.notMem_empty b) hvisit
      have hgone := (unloading_pass hs second hooks d b).2
      rw [hlast] at hgone
      exact hgone rfl

end

/-! ### Runs -/

namespace ResidentHost

section
variable (compatibility : Compatibility) (hooks : Hooks)

/-- The release of a bundle's resident on a thread, if there is one. -/
def releaseOf (thread : ThreadId) (b : BundleId) (resident : Option InternalPluginResident) :
    List Release :=
  (resident.map fun resident => ⟨b, resident, thread⟩).toList

/-- The residents a call has to release. A refused commit and an abort release the one of
the staged bundle. An unload that returns `Ok` releases the one of the map, and so does
a cascade for every bundle whose resident leaves the map. -/
def Due (r : ResidentHost) (step : ThreadId × ResidentCall) : Prop :=
  let after := r.exec compatibility hooks step
  match step.2 with
  | .plugin (.commit b) =>
    (∃ e, (r.host.commitInternalPlugin compatibility step.1 b).1 = .error e) →
      after.released = r.released ++ releaseOf step.1 b (r.registry.heldBy step.1 b)
  | .plugin (.commitIntoHandles b outHandles) =>
    (∃ e, (r.host.commitInternalPluginIntoHandles compatibility step.1 b outHandles).1
        = .error e) →
      after.released = r.released ++ releaseOf step.1 b (r.registry.heldBy step.1 b)
  | .plugin (.abort b) =>
    after.released = r.released ++ releaseOf step.1 b (r.registry.heldBy step.1 b)
  | .plugin _ => after.released = r.released
  | .unload b =>
    (Runtime.unloadBundle hooks step.1 r.host.runtime b).1 = .ok () →
      after.released = r.released
          ++ releaseOf step.1 b (r.registry.internalPluginResidents.lookup b) ∧
        after.registry.internalPluginResidents.lookup b = none
  | .unloadCascade first second b =>
    ∃ result t released,
      unloadBundleCascade first second hooks step.1 r.host.runtime.cascadeFuel
        ⟨r.host.runtime, []⟩ b = some (result, t) ∧
      after.host.runtime = t.runtime ∧
      after.released = r.released ++ released ∧
      (∀ c resident, r.registry.internalPluginResidents.lookup c = some resident →
        after.registry.internalPluginResidents.lookup c = some resident ∨
        after.registry.internalPluginResidents.lookup c = none ∧
          ⟨c, resident, step.1⟩ ∈ released) ∧
      (result = .ok () → after.registry.internalPluginResidents.lookup b = none)

variable {compatibility hooks} {r : ResidentHost} {thread : ThreadId}

/-- A refused commit drops the resident of the staged bundle. -/
theorem commitReleases_of_error {b : BundleId} {e : RuntimeError}
    (herror : (r.host.runtime.commitPreparedBundleTransactionWithHandles thread b
      ⟨compatibility, false⟩).1 = .error e) :
    r.host.runtime.commitReleases compatibility thread b = r.registry.heldBy thread b := by
  unfold Runtime.commitReleases RuntimeStore.heldBy
  rcases takePreparedBundle_cases r.registry thread b with ⟨hnone, htake⟩ | ⟨e', l, hfind, -, htake⟩
  · rw [hnone, show r.host.runtime.registry.takePreparedBundle thread b = _ from htake]
    rfl
  · rw [hfind, show r.host.runtime.registry.takePreparedBundle thread b = _ from htake]
    dsimp only
    rw [herror]
    rfl

theorem abortReleases_eq (b : BundleId) :
    r.host.runtime.abortReleases thread b = r.registry.heldBy thread b := by
  unfold Runtime.abortReleases RuntimeStore.heldBy RuntimeStore.discardPreparedBundle
  rcases takePreparedBundle_cases r.registry thread b with ⟨hnone, htake⟩ | ⟨e', l, hfind, -, htake⟩
  · rw [hnone, show r.host.runtime.registry.takePreparedBundle thread b = _ from htake]
    rfl
  · rw [hfind, show r.host.runtime.registry.takePreparedBundle thread b = _ from htake]
    rfl

/-- The result of a commit is that of the transaction. -/
theorem error_of_commit {h : InitStacks} {b : BundleId} {e : RuntimeError}
    (herror : (h.commitInternalPluginWithHandles compatibility thread b).1 = .error e) :
    (h.runtime.commitPreparedBundleTransactionWithHandles thread b ⟨compatibility, false⟩).1
      = .error e := by
  change (h.runtime.commitInternalPluginWithHandles compatibility thread b).1 = _ at herror
  unfold Runtime.commitInternalPluginWithHandles at herror
  rcases hcommit : h.runtime.commitPreparedBundleTransactionWithHandles thread b
    ⟨compatibility, false⟩ with ⟨_ | _, rt⟩
  · rw [hcommit] at herror
    exact herror
  · rw [hcommit] at herror
    cases herror

theorem released_plugin (call : PluginCall) {b : BundleId}
    {resident : Option InternalPluginResident}
    (h : r.host.releases compatibility thread call = resident.map (b, ·)) :
    (r.exec compatibility hooks (thread, .plugin call)).released
      = r.released ++ releaseOf thread b resident := by
  show r.released ++ (Option.map _ (r.host.releases compatibility thread call)).toList = _
  rw [h, Option.map_map]
  rfl

theorem due_commit (b : BundleId) :
    r.Due compatibility hooks (thread, .plugin (.commit b)) := by
  rintro ⟨e, herror⟩
  cases hcommit : (r.host.commitInternalPluginWithHandles compatibility thread b).1 with
  | ok handles =>
    rw [InitStacks.commitInternalPlugin, hcommit] at herror
    cases herror
  | error e' =>
    exact released_plugin (.commit b)
      (congrArg (Option.map (b, ·)) (commitReleases_of_error (error_of_commit hcommit)))

theorem due_commitIntoHandles (b : BundleId) (outHandles : Nat) :
    r.Due compatibility hooks (thread, .plugin (.commitIntoHandles b outHandles)) := by
  rintro ⟨e, herror⟩
  refine released_plugin (.commitIntoHandles b outHandles) ?_
  unfold InitStacks.commitInternalPluginIntoHandles at herror
  unfold InitStacks.releases
  dsimp only
  cases hcount : r.host.runtime.registry.preparedBundleContractCount thread b with
  | none => exact congrArg (Option.map (b, ·)) (abortReleases_eq b)
  | some expectedCount =>
    rw [hcount] at herror
    dsimp only at herror ⊢
    by_cases hne : expectedCount ≠ outHandles
    · rw [if_pos hne]
      exact congrArg (Option.map (b, ·)) (abortReleases_eq b)
    · rw [if_neg hne] at herror ⊢
      cases hcommit : (r.host.commitInternalPluginWithHandles compatibility thread b).1 with
      | ok handles =>
        rw [hcommit] at herror
        cases herror
      | error e' =>
        exact congrArg (Option.map (b, ·)) (commitReleases_of_error (error_of_commit hcommit))

/-- `unload_bundle` is refused, or is the unload of a registered bundle. -/
theorem unloadBundle_ends (hooks : Hooks) (thread : ThreadId) (r : ResidentHost) (b : BundleId) :
    (∃ e, Runtime.unloadBundle hooks thread r.host.runtime b = (.error e, r.host.runtime) ∧
      r.host.runtime.unloadBundleReleases thread b = none) ∨
    ∃ d, Runtime.unloadBundle hooks thread r.host.runtime b
        = Runtime.unloadRegisteredBundle hooks thread r.host.runtime b d ∧
      r.host.runtime.unloadBundleReleases thread b
        = r.host.runtime.unloadReleases thread b d := by
  unfold Runtime.unloadBundle Runtime.unloadBundleReleases
  cases r.host.runtime.registry.getBundleDescriptor b with
  | none => exact Or.inl ⟨_, rfl, rfl⟩
  | some d =>
    dsimp only
    by_cases hdependents : r.host.runtime.dependentNames b ≠ 0
    · rw [if_pos hdependents, if_pos hdependents]
      exact Or.inl ⟨_, rfl, rfl⟩
    · rw [if_neg hdependents, if_neg hdependents]
      exact Or.inr ⟨d, rfl, rfl⟩

/-- An unload keeps the invariant. -/
theorem held_unloading (h : r.Held) {r' : ResidentHost} {released : List Release}
    (hunloading : Unloading r.host.runtime thread (r'.host.runtime, released))
    (hattached : r'.attached = r.attached)
    (hreleased : r'.released = r.released ++ released) : r'.Held := by
  have hheld (t : ThreadId) : r'.registry.heldOn t = r.registry.heldOn t := by
    rw [heldOn, heldOn, preparedOn, preparedOn]
    rw [show r'.registry.preparedBundles = r.registry.preparedBundles from hunloading.prepared]
  refine h.transfer thread 0 released (by rw [hattached, add_zero]) hreleased
    (fun t _ => hheld t) ?_ (fun p hp => ?_) (fun release hrelease => ?_) hunloading.backed
  · rw [hheld, add_zero, add_assoc]
    exact congrArg _ hunloading.balance
  · rw [hheld] at hp
    exact h.stagedOwner thread p hp
  · obtain ⟨hthread, howner⟩ := hunloading.owner release hrelease
    rw [howner, hthread]

/-- Every call keeps the invariant and releases what it has to. -/
theorem held_exec (h : r.Held) (step : ThreadId × ResidentCall) :
    (r.exec compatibility hooks step).Held ∧ r.Due compatibility hooks step := by
  obtain ⟨thread, call⟩ := step
  cases call with
  | plugin call =>
    refine ⟨held_plugin h call, ?_⟩
    cases call with
    | commit b => exact due_commit b
    | commitIntoHandles b outHandles => exact due_commitIntoHandles b outHandles
    | abort b =>
      exact released_plugin (.abort b) (congrArg (Option.map (b, ·)) (abortReleases_eq b))
    | begin manifest language => exact List.append_nil _
    | attach b resident => exact List.append_nil _
    | register descriptor interface functions ptr => exact List.append_nil _
  | unload b =>
    -- Refused before the unload of the bundle itself, or not.
    rcases unloadBundle_ends hooks thread r b with ⟨e, heq, hnone⟩ | ⟨d, heq, hreleases⟩
    · constructor
      · refine h.quiet rfl ?_ (fun t => ?_) ?_ fun c hc => ?_
        · show r.released
            ++ (Option.map _ (r.host.runtime.unloadBundleReleases thread b)).toList = _
          rw [hnone]
          exact List.append_nil _
        all_goals
          show _
          simp only [registry, exec, heq]
        exact hc
      · intro hok
        rw [heq] at hok
        cases hok
    · obtain ⟨hunloading, hgone⟩ :=
        unloading_leave (unloading_start h.backed thread) hooks b d
      have hruntime : (r.exec compatibility hooks (thread, .unload b)).host.runtime
          = (Runtime.unloadRegisteredBundle hooks thread r.host.runtime b d).2 :=
        congrArg Prod.snd heq
      have hreleased : (r.exec compatibility hooks (thread, .unload b)).released
          = r.released ++ releaseOf thread b (r.host.runtime.unloadReleases thread b d) := by
        show r.released ++ (Option.map _ (r.host.runtime.unloadBundleReleases thread b)).toList = _
        rw [hreleases]
        rfl
      constructor
      · exact held_unloading h (hruntime ▸ hunloading) rfl hreleased
      · intro hok
        rw [heq] at hok
        refine ⟨hreleased.trans ?_, ?_⟩
        · rcases unloadRegisteredBundle_cases hooks thread r.host.runtime b d with
            ⟨-, e, herror⟩ | ⟨hreleases, -, -⟩
          · rw [herror] at hok
            cases hok
          · rw [hreleases]
            rfl
        · show (ResidentHost.exec compatibility hooks r
            (thread, .unload b)).host.runtime.registry.internalPluginResidents.lookup b = none
          rw [hruntime]
          exact hgone hok
  | unloadCascade first second b =>
    -- The fuel is enough, so the cascade ends.
    obtain ⟨result, t, heq, hunloading, hgone⟩ :=
      unloadBundleCascade_unloading first second thread hooks h.backed b
    have hexec : r.exec compatibility hooks (thread, .unloadCascade first second b)
        = { r with
            host := { r.host with runtime := t.runtime }
            released := r.released
              ++ r.host.runtime.cascadeReleases first second hooks thread b } := by
      simp only [exec, heq]
    have hdue : r.Due compatibility hooks (thread, .unloadCascade first second b) := by
      refine ⟨result, t, r.host.runtime.cascadeReleases first second hooks thread b, heq,
        by rw [hexec], by rw [hexec], fun c resident hc => ?_, fun hok => ?_⟩
      · rw [hexec]
        exact hunloading.moved c resident hc
      · rw [hexec]
        exact hgone hok
    refine ⟨?_, hdue⟩
    rw [hexec]
    exact held_unloading h hunloading rfl rfl

end

/-- A plugin with a contract, and one that asks for it. -/
def codec : ManifestData :=
  { providing "codec" ["codec@1"] with functionCount := Finmap.singleton "codec@1" 0 }

def viewer : ManifestData :=
  { providing "viewer" [] with dependencies :=
      [⟨"contract", "codec@1", "1.0.0", none, GuestContractId.new "codec" 1, none⟩] }

/-- The registration of the contract of `codec`. -/
def registerCodec : PluginCall :=
  .register (some ⟨⟨some "codec".toUTF8.toList⟩, ⟨some "codec".toUTF8.toList⟩, ⟨1, 0, 0⟩⟩)
    (some ⟨GuestContractId.new "codec" 1, ⟨1, 0, 0⟩, 0, 0, 16, 24, ⟨0, 0⟩⟩) (fun _ => 0) 0

/-- Thread 1 publishes two bundles with residents and unloads both with a cascade. Thread 2
has a commit refused, since the bundle lacks the contract it names, aborts a bundle, and
publishes and unloads a third one. -/
def residentCalls : List (ThreadId × ResidentCall) :=
  [(1, .plugin (.begin codec .rust)), (1, .plugin (.attach (BundleId.new "codec") ⟨7, 1, 0⟩)),
    (2, .plugin (.begin (providing "hollow" ["hollow@1"]) .rust)),
    (2, .plugin (.attach (BundleId.new "hollow") ⟨8, 2, 0⟩)),
    (1, .plugin registerCodec), (1, .plugin (.commit (BundleId.new "codec"))),
    (2, .plugin (.commit (BundleId.new "hollow"))),
    (1, .plugin (.begin viewer .rust)), (1, .plugin (.attach (BundleId.new "viewer") ⟨9, 1, 0⟩)),
    (2, .plugin (.begin (providing "late" []) .rust)),
    (2, .plugin (.attach (BundleId.new "late") ⟨10, 2, 0⟩)),
    (1, .plugin (.commit (BundleId.new "viewer"))), (2, .plugin (.abort (BundleId.new "late"))),
    (2, .plugin (.begin (providing "spare" []) .rust)),
    (2, .plugin (.attach (BundleId.new "spare") ⟨11, 2, 0⟩)),
    (2, .plugin (.commit (BundleId.new "spare"))), (2, .unload (BundleId.new "spare")),
    (1, .unloadCascade .byId .byId (BundleId.new "codec"))]

example : (run (exec .strict fun _ => none) ⟨⟨Runtime.new, 0⟩, 0, []⟩ residentCalls).released
    = [⟨BundleId.new "hollow", ⟨8, 2, 0⟩, 2⟩, ⟨BundleId.new "late", ⟨10, 2, 0⟩, 2⟩,
      ⟨BundleId.new "spare", ⟨11, 2, 0⟩, 2⟩, ⟨BundleId.new "viewer", ⟨9, 1, 0⟩, 1⟩,
      ⟨BundleId.new "codec", ⟨7, 1, 0⟩, 1⟩] := by
  decide +kernel

end ResidentHost

end PolyPlug.Lifecycle
