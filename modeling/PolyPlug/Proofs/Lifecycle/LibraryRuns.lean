import PolyPlug.Proofs.Lifecycle.LibrarySafety

/-!
# `PolyPlug.Proofs.Lifecycle.LibraryRuns`: native plugins over whole runs

The steps that begin a call, the registrations of a guest and the collector keep `Safe`, and
with the sections of the calls every orderly run does. A guest that runs has its library in
the hand of its own call, while it is in its init, or under the guard of its call, and neither
is closed (`orderly_run`).
-/

set_option autoImplicit false

namespace PolyPlug.Registry

open PolyPlug.Abi
open PolyPlug.Lib
open PolyPlug.Common
open RuntimeStoreData

/-- What is registered was there before, or is one of the new registrations. -/
theorem Registers.content_cases {data data' : RuntimeStoreData} {b : BundleId}
    {rs : List Registration} {hs : List GuestContractHandle} (h : Registers data b rs hs data')
    {i : Nat} {g : Registration} (hg : data'.catalog.content i = some g) :
    data.catalog.content i = some g ∨ g ∈ rs := by
  have hall : ∀ i g, data'.catalog.content i = some g →
      data.catalog.content i = some g ∨ g ∈ rs := by
    refine h.rule (I := fun d => ∀ i g, d.catalog.content i = some g →
      data.catalog.content i = some g ∨ g ∈ rs) (fun _ _ => .inl) ?_ ?_
    · intro d d' hsame _ hd i g hg
      rw [hsame.catalog_eq] at hg
      exact hd i g hg
    · intro d r handle d' hr _ _ hins hd i g hg
      rw [hins.catalog_eq] at hg
      by_cases hi : i = handle.index
      · subst hi
        have heq : r = g := by simpa [Catalog.add] using hg
        exact .inr (heq ▸ hr)
      · refine hd i g ?_
        simpa [Catalog.add, hi] using hg
  exact hall i g hg

end PolyPlug.Registry

namespace PolyPlug.Lifecycle

open PolyPlug.Abi
open PolyPlug.Lib
open PolyPlug.Common
open PolyPlug.Registry
open RuntimeStore

namespace LibraryHost

/-! ### The calls that begin -/

section
variable {s mid : LibraryHost} {thread : ThreadId} {call : NativeCall}

theorem kept_begin (h : s.Kept) (step : LibraryStep) : (s.begin step).Kept :=
  h.same (sameLibraries_begin s step)

/-- A call for a bundle, which leaves the registry. -/
theorem Safe.enterStill (h : s.Safe) {b : BundleId} (hnext : Follows b call) (hbusy : ¬ s.Busy b)
    (hok : s.CallOk thread call) (hkept : (s.enter thread call).Kept) :
    (s.enter thread call).Safe := by
  refine h.enter hkept ?_ ?_ ?_
  · intro x hx
    rw [hnext.changes] at hx
    cases hx
    exact hbusy
  · intro guard hguard
    rw [hnext.guard] at hguard
    cases hguard
  · exact
      { calls := rfl
        tidy := h.tidy
        nextGuard := le_rfl
        pinned := fun _ hg _ => hg
        newGuards := fun c hc guard hguard => by
          rw [List.mem_singleton.1 hc, hnext.guard] at hguard
          cases hguard
        safe := fun _ _ _ hprotected => hprotected
        stacked := by simp [initIds, hnext.init]
        stackedElse := fun _ _ => rfl
        staged := by simp [loadIds, hnext.loads]
        stagedElse := fun _ _ => rfl
        same := fun t x _ => sameFor_of_eq rfl rfl rfl rfl h.tidy
        ok := fun c hc => by
          rw [List.mem_singleton.1 hc]
          exact hok
        freed := fun x hx hno => absurd hx (hno call List.mem_cons_self) }

/-- A call under a new guard. -/
theorem Safe.enterPinned (h : s.Safe) (hguard : call.guard? = some s.nextGuard)
    (hsafe : ∀ library, call.guarded? = some (s.nextGuard, library) →
      s.pin.epoch.Protected s.nextGuard library)
    (hkept : (s.pin.enter thread call).Kept) : (s.pin.enter thread call).Safe := by
  obtain ⟨hchanges, hinit, hloads⟩ := NativeCall.changes_of_guard hguard
  refine h.enter hkept ?_ ?_ ?_
  · intro x hx
    rw [hchanges] at hx
    cases hx
  · intro guard hg
    rw [hguard] at hg
    cases hg
    exact le_rfl
  · exact
      { calls := rfl
        tidy := h.tidy
        nextGuard := Nat.le_succ _
        pinned := fun _ hg _ => List.mem_append_left _ hg
        newGuards := fun c hc guard hg => by
          rw [List.mem_singleton.1 hc, hguard] at hg
          cases hg
          exact ⟨List.mem_append_right _ (List.mem_singleton_self _), Nat.lt_succ_self _⟩
        safe := fun _ _ _ hprotected => hprotected.exec (.pin s.nextGuard) (by simp)
        stacked := by
          show s.runtime.initStackOn thread = _
          simp [initIds, hinit]
        stackedElse := fun _ _ => rfl
        staged := by
          show s.stagedIds thread = _
          simp [loadIds, hloads]
        stagedElse := fun _ _ => rfl
        same := fun t x _ => sameFor_of_eq rfl rfl rfl rfl h.tidy
        ok := fun c hc => by
          rw [List.mem_singleton.1 hc]
          exact callOk_of_guard hguard hsafe
        freed := fun x hx => by
          rw [hchanges] at hx
          cases hx }

/-- The snapshot of a reload is the list of the slots of its bundle. -/
theorem Safe.beginReload (h : s.Safe) (replacement : Replacement)
    (hbusy : ¬ s.Busy replacement.descriptor.id) :
    s.CallOk thread (.snapshot (.reload replacement
      (s.runtime.registry.getBundlePluginSlots replacement.descriptor.id))) := by
  refine callOk_of_job rfl ⟨?_, ?_⟩
  · -- Nothing is registered outside of the snapshot.
    rintro ptr ⟨i, g, ⟨hg, howner⟩, hi, -⟩
    refine absurd ?_ hi
    rw [getBundlePluginSlots_eq, ← howner]
    exact h.tidy.consistent.held_of_content hg
  · have hslots := getBundlePluginSlots_eq s.runtime.registry replacement.descriptor.id
    have hown : OwnSlots s.runtime.registry.data replacement.descriptor.id
        (s.runtime.registry.getBundlePluginSlots replacement.descriptor.id) := by
      rw [hslots]
      exact ⟨fun _ hi => hi, h.tidy.consistent.held_nodup _⟩
    exact ⟨hown, fun _ i g hlive _ => h.quiet _ hbusy i g hlive⟩

/-- A thread has staged nothing of a bundle that no call changes. -/
theorem Safe.not_staged_of_not_busy (h : s.Safe) {b : BundleId} (hbusy : ¬ s.Busy b)
    (t : ThreadId) : ∀ e ∈ s.runtime.registry.staged t, e.isFor b = false := by
  intro e he
  refine decide_eq_false fun heq => hbusy ?_
  have hmem : b.id ∈ loadIds (s.calls t) := by
    rw [← h.staged, ← heq]
    exact List.mem_map_of_mem he
  obtain ⟨b', hb', hid⟩ := List.mem_map.1 hmem
  cases bundleId_injective hid
  obtain ⟨c, hc, hcb⟩ := List.mem_filterMap.1 hb'
  exact ⟨t, c, hc, NativeCall.changes_of_loads hcb⟩

/-- A bundle without a descriptor owns no live slot. -/
theorem Safe.absent_of_no_descriptor (h : s.Safe) {b : BundleId}
    (hnone : s.runtime.registry.getBundleDescriptor b = none) : s.Absent b := by
  rintro i g ⟨hg, howner⟩
  refine content_of_pluginSlots_nil h.tidy ?_ hg howner
  rw [getBundleDescriptor, Option.map_eq_none_iff] at hnone
  simp [RuntimeStoreData.pluginSlots, hnone]

/-- A load stages its bundle, and its loader is called. -/
theorem Safe.beginLoad (h : s.Safe) {env : LoadEnv} {manifest : ManifestData}
    {source : BundleSource} {opts : LoadOptions} {rt : Runtime}
    (hbusy : ¬ s.Busy (BundleId.new manifest.name))
    (hid : manifest.id = (BundleId.new manifest.name).id)
    (hnone : s.runtime.registry.getBundleDescriptor (BundleId.new manifest.name) = none)
    (hrt : rt = s.runtime.setStaged env.thread
      (s.runtime.registry.preparedOn env.thread ++ [staging manifest source []]))
    (hkept : ({ s with runtime := rt }.callLoader env.thread (s.calls env.thread)
      (.load env manifest (BundleId.new manifest.name) opts)).Kept) :
    ({ s with runtime := rt }.callLoader env.thread (s.calls env.thread)
      (.load env manifest (BundleId.new manifest.name) opts)).Safe := by
  obtain ⟨b, hb⟩ : ∃ b, b = BundleId.new manifest.name := ⟨_, rfl⟩
  obtain ⟨job, hjob⟩ : ∃ job, job = LoaderJob.load env manifest b opts := ⟨_, rfl⟩
  rw [← hb] at hbusy hid hnone hkept ⊢
  rw [← hjob] at hkept ⊢
  have htop : rt.registry.staged env.thread
      = staging manifest source [] :: s.runtime.registry.staged env.thread := by
    rw [hrt, Runtime.setStaged, staged_setPreparedOn, List.reverse_append]
    rfl
  have hother : ∀ t, t ≠ env.thread → rt.registry.staged t = s.runtime.registry.staged t := by
    intro t ht
    rw [hrt, Runtime.setStaged, RuntimeStore.staged, preparedOn_setPreparedOn_ne _ _ _ ht]
    rfl
  have hdata : rt.registry.data = s.runtime.registry.data := by
    rw [hrt]
    rfl
  have htidy : rt.registry.Tidy := by
    rw [hrt]
    exact h.tidy.of_core rfl rfl
  have hinit : ∀ t, rt.initStackOn t = s.runtime.initStackOn t := by
    intro t
    rw [hrt]
    rfl
  have hnew := h.not_staged_of_not_busy hbusy env.thread
  have habsent := h.absent_of_no_descriptor hnone
  -- The staged bundle is of this id, so no other bundle sees it.
  have hsame : ∀ t x, x ≠ b → SameFor s { s with runtime := rt } t x := by
    intro t x hx
    refine ⟨fun i g => by simp only [LiveAt, hdata], fun e he => ?_, rfl,
      ⟨h.tidy.consistent, htidy.consistent⟩, fun _ _ => rfl⟩
    show e ∈ rt.registry.staged t ↔ _
    by_cases ht : t = env.thread
    · subst ht
      rw [htop]
      exact mem_cons_of_isFor_ne (decide_eq_true hid) hx he
    · rw [hother t ht]
  -- The load has neither staged nor registered a contract yet.
  have hjobOk : ∀ {s' : LibraryHost} {next : NativeCall}, s'.runtime.registry = rt.registry →
      s'.JobOk env.thread next job := by
    intro s' next hregistry
    rw [hjob]
    refine ⟨?_, rfl, ?_⟩
    · rintro ptr ⟨e, he, hfor, contract, hcontract, -⟩
      rw [hregistry, htop] at he
      rcases List.mem_cons.1 he with rfl | hold
      · exact absurd hcontract List.not_mem_nil
      · rw [hnew e hold] at hfor
        cases hfor
    · rintro i g ⟨hg, howner⟩
      rw [hregistry, hdata] at hg
      exact habsent i g ⟨hg, howner⟩
  have hstep : ∀ {rt' : Runtime} {next : NativeCall}, rt'.registry = rt.registry →
      next.job? = some job →
      rt'.initStackOn env.thread = s.runtime.initStackOn env.thread ++ initIds [next] →
      (∀ t, t ≠ env.thread → rt'.initStackOn t = s.runtime.initStackOn t) →
      Replaces s { s with runtime := rt' } env.thread [] [next]
        (fun b => next.changes = some b) fun _ => False := by
    intro rt' next hregistry hnext hstacked hstackedElse
    have hchanges : next.changes = some b := by
      rw [NativeCall.changes_of_job hnext, hjob]
      rfl
    have hloads : next.loads? = some b := by
      rw [NativeCall.loads?, hnext, hjob]
      rfl
    exact
      { calls := rfl
        tidy := by
          show rt'.registry.Tidy
          rw [hregistry]
          exact htidy
        nextGuard := le_rfl
        pinned := fun _ hg _ => hg
        newGuards := fun c hc guard hguard => by
          rw [List.mem_singleton.1 hc, NativeCall.guard_of_job hnext] at hguard
          cases hguard
        safe := fun _ _ _ hprotected => hprotected
        stacked := by
          show rt'.initStackOn env.thread = _
          rw [hstacked]
          simp [initIds]
        stackedElse := hstackedElse
        staged := by
          show (rt'.registry.staged env.thread).map (fun e => e.manifest.id) = _
          rw [hregistry, htop, loadIds, List.filterMap_cons_some hloads, List.map_cons]
          show manifest.id :: _ = _
          rw [hid]
          rfl
        stagedElse := fun t ht => by
          show rt'.registry.staged t = _
          rw [hregistry, hother t ht]
        same := fun t x hx => by
          rw [hchanges] at hx
          have hframe := hsame t x fun heq => hx (heq ▸ rfl)
          refine ⟨fun i g => ?_, fun e he => ?_, rfl, ⟨h.tidy.consistent, ?_⟩, fun _ _ => rfl⟩
          · have hlive := hframe.live i g
            simp only [LiveAt] at hlive ⊢
            rw [hregistry]
            exact hlive
          · show e ∈ rt'.registry.staged t ↔ _
            rw [hregistry]
            exact hframe.staged e he
          · show rt'.registry.data.Consistent
            rw [hregistry]
            exact htidy.consistent
        ok := fun c hc => by
          rw [List.mem_singleton.1 hc]
          exact callOk_of_job hnext (hjobOk hregistry)
        freed := fun x hx hno => absurd hx (hno next List.mem_cons_self) }
  have hfree : ∀ {next : NativeCall}, next.job? = some job →
      ∀ x, next.changes = some x → ¬ s.Busy x := by
    intro next hnext x hx
    rw [NativeCall.changes_of_job hnext, hjob] at hx
    cases hx
    exact hbusy
  unfold LibraryHost.callLoader at hkept ⊢
  -- A native loader opens its library first, the others call the init at once.
  by_cases hnative : job.isNative = true
  · rw [if_pos hnative] at hkept ⊢
    refine h.enter hkept (hfree rfl) (fun _ hg => by cases hg) (hstep rfl rfl ?_ ?_)
    · rw [hinit]
      exact (List.append_nil _).symm
    · exact fun t _ => hinit t
  · rw [if_neg hnative] at hkept ⊢
    refine h.enter hkept (hfree rfl) (fun _ hg => by cases hg) (hstep rfl rfl ?_ ?_)
    · rw [initStackOn_push, hinit]
      rfl
    · intro t ht
      rw [initStackOn_push_ne _ _ _ ht, hinit]

end

/-! ### The registrations of a guest -/

section
variable {s s' : LibraryHost} {thread : ThreadId} {b : BundleId} {call : NativeCall}
  {job : LoaderJob}

/-- A step that leaves the calls, and changes something for the bundles of `touched` only, which
have a call. -/
theorem Safe.renew (h : s.Safe) (touched : BundleId → Prop) (hkept : s'.Kept)
    (hcalls : s'.calls = s.calls) (htidy : s'.runtime.registry.Tidy)
    (hnextGuard : s'.nextGuard = s.nextGuard) (hpinned : s'.epoch.pinned = s.epoch.pinned)
    (hsafe : ∀ guard library, s.epoch.Protected guard library → s'.epoch.Protected guard library)
    (hstack : ∀ t, s'.runtime.initStackOn t = s.runtime.initStackOn t)
    (hstaged : ∀ t, s'.stagedIds t = s.stagedIds t)
    (hsame : ∀ t x, ¬ touched x → SameFor s s' t x)
    (hok : ∀ t, ∀ c ∈ s.calls t, ∀ x, c.changes = some x → touched x → s'.CallOk t c)
    (hbusy : ∀ x, touched x → s.Busy x) : s'.Safe where
  kept := hkept
  tidy := htidy
  single := by
    rw [hcalls]
    exact h.single
  guards := by
    rw [hcalls]
    exact h.guards
  pinned t c hc guard hguard := by
    rw [hcalls] at hc
    rw [hpinned, hnextGuard]
    exact h.pinned t c hc guard hguard
  stacked t := by
    rw [hcalls, hstack]
    exact h.stacked t
  staged t := by
    rw [hcalls, hstaged]
    exact h.staged t
  ok t c hc := by
    rw [hcalls] at hc
    by_cases htouched : ∃ x, c.changes = some x ∧ touched x
    · obtain ⟨x, hx, htouched⟩ := htouched
      exact hok t c hc x hx htouched
    · refine (h.ok t c hc).frame (fun x hx => hsame t x fun hxt => htouched ⟨x, hx, hxt⟩) ?_
      intro guard library _
      exact hsafe guard library
  quiet x hx := by
    have hquiet : ¬ s.Busy x := by
      rintro ⟨t, c, hc, hcx⟩
      refine hx ⟨t, c, ?_, hcx⟩
      rwa [hcalls]
    exact (h.quiet x hquiet).frame (hsame default x fun hxt => hquiet (hbusy x hxt))

/-- The innermost init of a thread. -/
theorem Safe.initiating (h : s.Safe) (hid : s.runtime.currentInitBundleId thread ≠ 0) :
    ∃ call ∈ s.calls thread, ∃ b library, call.init? = some (b, library) ∧
      s.runtime.currentInitBundleId thread = b.id ∧ s.initLibrary thread = library := by
  have htop : s.runtime.currentInitBundleId thread
      = (((s.calls thread).findSome? NativeCall.init?).map fun p => p.1.id).getD 0 := by
    rw [Runtime.currentInitBundleId, h.stacked, initIds, List.getLast?_reverse, List.head?_map,
      List.head?_filterMap]
  cases hfound : (s.calls thread).findSome? NativeCall.init? with
  | none =>
    rw [hfound] at htop
    exact absurd htop hid
  | some p =>
    obtain ⟨call, hcall, hinit⟩ := List.exists_of_findSome?_eq_some hfound
    obtain ⟨b, library⟩ := p
    rw [hfound] at htop
    refine ⟨call, hcall, b, library, hinit, htop, ?_⟩
    rw [initLibrary, hfound]
    rfl

/-- The guest of a load or a reload is in its init. -/
theorem job_of_init {library : Option Nat} (hinit : call.init? = some (b, library)) :
    ∃ job, call.job? = some job ∧ job.bundleId = b ∧
      ∀ l, library = some l → ∀ s : LibraryHost, s.Origin l call := by
  cases call with
  | initializing job opened =>
    cases hinit
    refine ⟨job, rfl, rfl, ?_⟩
    intro l hl _
    exact (Option.some.inj hl).symm
  | foreign job =>
    cases hinit
    exact ⟨job, rfl, rfl, fun _ hl => by cases hl⟩
  | _ => cases hinit

/-- A bundle is staged on the thread while its load runs there. -/
theorem Safe.staged_iff (h : s.Safe) (hcall : call ∈ s.calls thread)
    (hjob : call.job? = some job) :
    (∃ e ∈ s.runtime.registry.staged thread, e.isFor job.bundleId = true) ↔
      job.isReload = false := by
  have hids : (∃ e ∈ s.runtime.registry.staged thread, e.isFor job.bundleId = true) ↔
      job.bundleId.id ∈ loadIds (s.calls thread) := by
    rw [← h.staged, stagedIds, List.mem_map]
    refine exists_congr fun e => and_congr_right' ?_
    exact decide_eq_true_iff
  rw [hids, loadIds, List.mem_map]
  constructor
  · rintro ⟨x, hx, hid⟩
    cases bundleId_injective hid
    obtain ⟨c, hc, hcx⟩ := List.mem_filterMap.1 hx
    -- The load is this call.
    have heq : c = call := h.single.unique hc (NativeCall.changes_of_loads hcx) hcall
      (NativeCall.changes_of_job hjob)
    subst heq
    rw [NativeCall.loads?, hjob, Option.map_eq_some_iff] at hcx
    obtain ⟨job', hfilter, -⟩ := hcx
    obtain ⟨heq, hload⟩ := Option.filter_eq_some_iff.1 hfilter
    cases heq
    simpa using hload
  · intro hload
    refine ⟨job.bundleId, List.mem_filterMap.2 ⟨call, hcall, ?_⟩, rfl⟩
    rw [NativeCall.loads?, hjob]
    simp [hload]

end

/-- The state after a registration, at an address of its own. -/
def registered (s : LibraryHost) (thread : ThreadId) (ptr : Nat) (registry : RuntimeStore) :
    LibraryHost :=
  { s with
      runtime := { s.runtime with registry := registry }
      code := Function.update s.code ptr (s.initLibrary thread) }

section
variable {s : LibraryHost} {thread : ThreadId} {call : NativeCall} {job : LoaderJob}
  {library : Option Nat} {ptr : Nat}

/-- An address in use has the origin it had. -/
theorem code_registered (hfresh : ∀ b, ¬ s.runtime.registry.UsesAddress ptr b) (thread : ThreadId)
    (registry : RuntimeStore) {p : Nat} {b : BundleId}
    (huses : s.runtime.registry.UsesAddress p b) :
    (s.registered thread ptr registry).code p = s.code p := by
  refine Function.update_of_ne ?_ _ _
  rintro rfl
  exact hfresh b huses

theorem code_registered_self (thread : ThreadId) (registry : RuntimeStore) :
    (s.registered thread ptr registry).code ptr = s.initLibrary thread :=
  Function.update_self ..

/-- A registration that is refused. -/
theorem Safe.registerNothing (h : s.Safe) (hfresh : ∀ b, ¬ s.runtime.registry.UsesAddress ptr b)
    (hkept : (s.registered thread ptr s.runtime.registry).Kept) :
    (s.registered thread ptr s.runtime.registry).Safe := by
  refine h.renew (fun _ => False) hkept rfl h.tidy rfl rfl (fun _ _ => id)
    (fun _ => rfl) (fun _ => rfl) (fun t x _ => ?_) (fun _ _ _ _ _ => False.elim)
    fun _ => False.elim
  exact ⟨fun _ _ => Iff.rfl, fun _ _ => Iff.rfl, rfl, ⟨h.tidy.consistent, h.tidy.consistent⟩,
    fun _ huses => code_registered hfresh _ _ huses⟩

/-- A registration in the init of a load stages the contract. -/
theorem Safe.registerStaged (h : s.Safe) (hfresh : ∀ b, ¬ s.runtime.registry.UsesAddress ptr b)
    (hcall : call ∈ s.calls thread) (hjob : call.job? = some job) (hload : job.isReload = false)
    (horigin : ∀ l, s.initLibrary thread = some l → ∀ s : LibraryHost, s.Origin l call)
    {contract : PreparedGuestContract} (hptr : contract.interface.ptr = ptr)
    {l : List PreparedBundleRegistration}
    (hl : l.reverse = modifyFirst (·.isFor job.bundleId) (·.stage contract)
      (s.runtime.registry.staged thread))
    (hkept : (s.registered thread ptr (s.runtime.registry.setPreparedOn thread l)).Kept) :
    (s.registered thread ptr (s.runtime.registry.setPreparedOn thread l)).Safe := by
  obtain ⟨s', hs'⟩ : ∃ s', s' = s.registered thread ptr
      (s.runtime.registry.setPreparedOn thread l) := ⟨_, rfl⟩
  have htop : s'.runtime.registry.staged thread
      = modifyFirst (·.isFor job.bundleId) (·.stage contract)
        (s.runtime.registry.staged thread) := by
    rw [hs', ← hl]
    exact staged_setPreparedOn ..
  have hother : ∀ t, t ≠ thread →
      s'.runtime.registry.staged t = s.runtime.registry.staged t := by
    intro t ht
    rw [hs']
    exact congrArg List.reverse (preparedOn_setPreparedOn_ne _ _ _ ht)
  -- The contract joins a staged bundle of the job, and no other.
  have hsame : ∀ t x, x ≠ job.bundleId → SameFor s s' t x := by
    intro t x hx
    refine ⟨fun _ _ => by rw [hs']; exact Iff.rfl, fun e he => ?_, by rw [hs']; rfl,
      ⟨h.tidy.consistent, by rw [hs']; exact h.tidy.consistent⟩, fun _ huses => ?_⟩
    · by_cases ht : t = thread
      · subst ht
        have hnot : e.isFor job.bundleId = false := by
          refine decide_eq_false fun heq => hx (bundleId_injective ?_)
          rw [← of_decide_eq_true he, ← heq]
        rw [htop]
        exact mem_modifyFirst_other (fun _ => rfl) hnot
      · rw [hother t ht]
    · rw [hs']
      exact code_registered hfresh _ _ huses
  have hchanges := NativeCall.changes_of_job hjob
  rw [← hs'] at hkept ⊢
  refine h.renew (· = job.bundleId) hkept (by rw [hs']; rfl)
    (by rw [hs']; exact h.tidy.of_core rfl rfl) (by rw [hs']; rfl) (by rw [hs']; rfl)
    (fun _ _ hprotected => by rw [hs']; exact hprotected) (fun _ => by rw [hs']; rfl)
    (fun t => ?_) hsame (fun t c hc x hx heq => ?_) ?_
  · by_cases ht : t = thread
    · subst ht
      rw [stagedIds, htop]
      exact map_modifyFirst (f := fun e : PreparedBundleRegistration => e.stage contract)
        fun _ => rfl
    · rw [stagedIds, hother t ht, stagedIds]
  · -- The call of the bundle is this one.
    rw [heq] at hx
    obtain rfl : c = call := h.single.unique hc hx hcall hchanges
    obtain rfl : t = thread := h.single.apart t thread _ (List.mem_filterMap.2 ⟨c, hc, hx⟩)
      (List.mem_filterMap.2 ⟨c, hcall, hx⟩)
    have hok := (h.ok t c hc).job job hjob
    refine callOk_of_job hjob ?_
    cases job with
    | reload replacement slotIndices => cases hload
    | load env manifest b opts =>
      refine ⟨?_, hok.old.1, ?_⟩
      · rintro p ⟨e, he, hfor, contract', hcontract, rfl⟩ library hcode
        have hold : ∀ e ∈ s.runtime.registry.staged t, e.isFor b = true →
            contract' ∈ e.contracts → s'.Origin library c := by
          intro e he hfor hcontract
          refine origin_frame hjob (by rw [hs']; rfl)
            (hok.new _ ⟨e, he, hfor, contract', hcontract, rfl⟩ library ?_)
          rw [hs', code_registered hfresh _ _ (usesAddress_of_staged he hfor hcontract)] at hcode
          exact hcode
        rw [htop] at he
        -- A contract that was staged keeps its library, and the new one has that of the init.
        rcases mem_modifyFirst he with hwas | ⟨e', he', hfor', rfl⟩
        · exact hold e hwas hfor hcontract
        · rcases List.mem_append.1 hcontract with hwas | hnew
          · exact hold e' he' hfor' hwas
          · rw [List.mem_singleton.1 hnew, hptr, hs'] at hcode
            refine horigin library ?_ _
            rw [← code_registered_self t, hcode]
      · rw [hs']
        exact hok.old.2
  · rintro x rfl
    exact ⟨thread, call, hcall, hchanges⟩

/-- A registration in the init of a reload is made in a slot outside of the snapshot. -/
theorem Safe.registerReloaded (h : s.Safe) (hfresh : ∀ b, ¬ s.runtime.registry.UsesAddress ptr b)
    (hcall : call ∈ s.calls thread) (hjob : call.job? = some job) (hreload : job.isReload = true)
    (horigin : ∀ l, s.initLibrary thread = some l → ∀ s : LibraryHost, s.Origin l call)
    {contract : PreparedGuestContract} (hptr : contract.interface.ptr = ptr)
    {handle : GuestContractHandle} {data' : RuntimeStoreData}
    (hreg : Registers s.runtime.registry.data job.bundleId [contract.registration job.bundleId]
      [handle] data')
    (hkept : (s.registered thread ptr (s.runtime.registry.publish data')).Kept) :
    (s.registered thread ptr (s.runtime.registry.publish data')).Safe := by
  obtain ⟨s', hs'⟩ : ∃ s', s' = s.registered thread ptr (s.runtime.registry.publish data') :=
    ⟨_, rfl⟩
  have hdata : s'.runtime.registry.data = data' := by rw [hs']; rfl
  have hstaged : ∀ t, s'.runtime.registry.staged t = s.runtime.registry.staged t := by
    intro t
    rw [hs']
    rfl
  have htidy : s'.runtime.registry.Tidy := by
    rw [hs']
    exact h.tidy.of_registers hreg
  -- What is registered was there before, or is the new contract.
  have hcontent : ∀ i g, s'.runtime.registry.data.catalog.content i = some g →
      s.runtime.registry.data.catalog.content i = some g ∨
        g.owner = job.bundleId ∧ g.arc.ptr = ptr := by
    intro i g hg
    rw [hdata] at hg
    rcases hreg.content_cases hg with hwas | hnew
    · exact .inl hwas
    · rw [List.mem_singleton.1 hnew]
      exact .inr ⟨rfl, hptr⟩
  have hkeeps : ∀ i g, s.runtime.registry.data.catalog.content i = some g →
      s'.runtime.registry.data.catalog.content i = some g := by
    intro i g hg
    rw [hdata]
    exact hreg.content_kept hg
  have hcode : ∀ p x, s.runtime.registry.UsesAddress p x → s'.code p = s.code p := by
    intro p x huses
    rw [hs']
    exact code_registered hfresh _ _ huses
  have hsame : ∀ t x, x ≠ job.bundleId → SameFor s s' t x := by
    intro t x hx
    refine ⟨fun i g => ⟨?_, ?_⟩, fun e _ => by rw [hstaged], by rw [hs']; rfl,
      ⟨h.tidy.consistent, htidy.consistent⟩, fun p huses => hcode p x huses⟩
    · rintro ⟨hg, howner⟩
      refine ⟨(hcontent i g hg).resolve_right ?_, howner⟩
      rintro ⟨howner', -⟩
      exact hx (howner.symm.trans howner')
    · rintro ⟨hg, howner⟩
      exact ⟨hkeeps i g hg, howner⟩
  have hchanges := NativeCall.changes_of_job hjob
  rw [← hs'] at hkept ⊢
  refine h.renew (· = job.bundleId) hkept (by rw [hs']; rfl) htidy (by rw [hs']; rfl)
    (by rw [hs']; rfl) (fun _ _ hprotected => by rw [hs']; exact hprotected)
    (fun _ => by rw [hs']; rfl) (fun t => by rw [stagedIds, hstaged, stagedIds]) hsame
    (fun t c hc x hx heq => ?_) ?_
  · -- The call of the bundle is this one.
    rw [heq] at hx
    obtain rfl : c = call := h.single.unique hc hx hcall hchanges
    have hok := (h.ok t c hc).job job hjob
    refine callOk_of_job hjob ?_
    cases job with
    | load env manifest b opts => cases hreload
    | reload replacement slotIndices =>
      obtain ⟨hown, hrooted⟩ := hok.old
      refine ⟨?_, ?_, ?_⟩
      · rintro p ⟨i, g, ⟨hg, howner⟩, hi, rfl⟩ library hcode'
        rcases hcontent i g hg with hwas | ⟨-, hnew⟩
        · have hlive : s.LiveAt replacement.descriptor.id i g := ⟨hwas, howner⟩
          rw [hcode _ _ hlive.usesAddress] at hcode'
          exact origin_frame hjob (by rw [hs']; rfl)
            (hok.new _ ⟨i, g, hlive, hi, rfl⟩ library hcode')
        · rw [hnew, hs'] at hcode'
          refine horigin library ?_ _
          rw [← code_registered_self thread, hcode']
      · exact hown.of_content h.tidy.consistent htidy.consistent fun i _ g hg => hkeeps i g hg
      · rintro hold i g ⟨hg, howner⟩ hi library hcode'
        -- A slot of the snapshot is not vacant, so it has what it had.
        obtain ⟨g', hg', howner'⟩ := h.tidy.consistent.content_of_held (hown.held i hi)
        have heq' := hkeeps i g' hg'
        rw [hg] at heq'
        cases heq'
        have hlive : s.LiveAt replacement.descriptor.id i g := ⟨hg', howner⟩
        rw [hcode _ _ hlive.usesAddress] at hcode'
        rw [hs']
        exact hrooted hold i g hlive hi library hcode'
  · rintro x rfl
    exact ⟨thread, call, hcall, hchanges⟩

/-- A registration of a guest. -/
theorem Safe.register (h : s.Safe) (hfresh : ∀ b, ¬ s.runtime.registry.UsesAddress ptr b)
    (descriptor : Option PluginDescriptor) (interface : Option RawGuestContractInterface)
    (functions : Nat → Nat)
    (hlength : (s.begin (.register thread descriptor interface functions
      ptr)).runtime.registry.data.slots.length ≤ 2 ^ 32) :
    (s.begin (.register thread descriptor interface functions ptr)).Safe := by
  have hkept := kept_begin h.kept (.register thread descriptor interface functions ptr)
  have hnothing : (s.registered thread ptr s.runtime.registry).Kept →
      (s.registered thread ptr s.runtime.registry).Safe := h.registerNothing hfresh
  simp only [LibraryHost.begin, hostRegisterGuestContract_state] at hkept hlength ⊢
  cases hchecked : checkedArguments descriptor interface functions with
  | none =>
    rw [hchecked] at hkept
    exact hnothing hkept
  | some arguments =>
    obtain ⟨desc, interface, contractName⟩ := arguments
    rw [hchecked] at hkept hlength
    dsimp only at hkept hlength ⊢
    by_cases hid : s.runtime.currentInitBundleId thread = 0
    · rw [if_pos hid] at hkept ⊢
      exact hnothing hkept
    · rw [if_neg hid] at hkept hlength ⊢
      obtain ⟨call, hcall, b, library, hinit, hb, hlibrary⟩ := h.initiating hid
      obtain ⟨job, hjob, rfl, horigin⟩ := job_of_init hinit
      rw [hb] at hkept hlength ⊢
      rw [← hlibrary] at horigin
      have hstaged := h.staged_iff hcall hjob
      unfold RuntimeStore.stageOrRegister at hkept hlength ⊢
      by_cases hsome : (s.runtime.registry.preparedManifest thread ⟨job.bundleId.id⟩).isSome
      · rw [if_pos hsome] at hkept hlength ⊢
        have hload : job.isReload = false := by
          rw [preparedManifest_eq, Option.isSome_map] at hsome
          obtain ⟨e, hfind⟩ := Option.isSome_iff_exists.1 hsome
          exact hstaged.1 ⟨e, List.mem_of_find?_eq_some hfind, List.find?_some hfind⟩
        rcases stageGuestContract_cases s.runtime.registry thread ⟨job.bundleId.id⟩ desc interface
            ptr contractName with ⟨e, heq, -⟩ | ⟨contract, e, l, hprep, -, hl, heq⟩
        · rw [heq] at hkept ⊢
          exact hnothing hkept
        · rw [heq] at hkept ⊢
          exact h.registerStaged hfresh hcall hjob hload horigin
            (Runtime.prepareGuestContract_ptr hprep) hl hkept
      · rw [if_neg hsome] at hkept hlength ⊢
        have hreload : job.isReload = true := by
          by_contra hload
          obtain ⟨e, he, hfor⟩ := hstaged.2 (by simpa using hload)
          refine hsome ?_
          rw [preparedManifest_eq, Option.isSome_map, List.find?_isSome]
          exact ⟨e, he, hfor⟩
        rcases registerGuestContract_cases s.runtime.registry desc interface ptr contractName
            ⟨job.bundleId.id⟩ with ⟨e, heq⟩ | ⟨contract, handle, data', hprep, -, hins, heq⟩
        · rw [heq] at hkept ⊢
          exact hnothing hkept
        · rw [heq] at hkept hlength ⊢
          exact h.registerReloaded hfresh hcall hjob hreload horigin
            (Runtime.prepareGuestContract_ptr hprep)
            (registers_of_registerGuestContract hins hlength) hkept

end

/-! ### The libraries that have been through a check -/

end LibraryHost

/-- The library whose symbols are looked up. -/
def NativeCall.checks : NativeCall → Option Nat
  | .checking _ library => some library
  | _                   => none

namespace LibraryHost

/-- The library is open, and was not refused and will not be. -/
structure Started (s : LibraryHost) (library : Nat) : Prop where
  opened : library < s.opened
  kept : library ∉ s.refused
  checked : ∀ thread, ∀ call ∈ s.calls thread, call.checks ≠ some library

/-- Code that runs, or that an interface has, is in a library that has been through its check. -/
structure Runs (s : LibraryHost) : Prop where
  code : ∀ ptr library, s.code ptr = some library → s.Started library
  calls : ∀ thread, ∀ call ∈ s.calls thread, ∀ library, call.runs = some library →
    s.Started library

/-- A call that is made: it checks a new library, and runs one in its init or the one of an
interface. -/
structure Enters (s : LibraryHost) (call : NativeCall) : Prop where
  checks : ∀ library, call.checks = some library → s.opened ≤ library
  runs : ∀ library, call.runs = some library →
    (∃ job, call = .initializing job library) ∨ ∃ ptr, s.code ptr = some library

/-- What a step of a thread does with the libraries that are not through their check. -/
structure Moves (s mid : LibraryHost) (thread : ThreadId) (calls : List NativeCall) : Prop where
  same : mid.calls = s.calls
  code : mid.code = s.code
  opened : s.opened ≤ mid.opened
  refused : ∀ library ∈ mid.refused, library ∈ s.refused ∨
    ∃ call ∈ s.calls thread, call.checks = some library
  calls : ∀ call ∈ calls, call ∈ s.calls thread ∨ s.Enters call

section
variable {s mid : LibraryHost} {thread : ThreadId} {call next : NativeCall}
  {calls rest : List NativeCall} {library : Nat}

theorem enters_of_none (hchecks : next.checks = none) (hruns : next.runs = none) :
    s.Enters next where
  checks library hlibrary := by
    rw [hchecks] at hlibrary
    cases hlibrary
  runs library hlibrary := by
    rw [hruns] at hlibrary
    cases hlibrary

/-- A call that runs the code of an interface. -/
theorem enters_of_code {ptr : Nat} (hchecks : next.checks = none) (hruns : next.runs = s.code ptr) :
    s.Enters next where
  checks library hlibrary := by
    rw [hchecks] at hlibrary
    cases hlibrary
  runs library hlibrary := .inr ⟨ptr, hruns ▸ hlibrary⟩

/-- The library of an init is in the hand of its call, so no other call checks it. -/
theorem Kept.started (h : s.Kept) {job : LoaderJob}
    (hcall : .initializing job library ∈ s.calls thread) : s.Started library := by
  have hhand : library ∈ hands (s.calls thread) :=
    List.mem_flatMap.2 ⟨_, hcall, List.mem_singleton_self _⟩
  have hat : 0 < s.amount (.call thread) library := List.count_pos_iff.2 hhand
  refine ⟨h.custody.lt_made hat, h.not_refused (p := .call thread) (by simp) hat, ?_⟩
  intro t c hc hchecks
  have hheld : library ∈ c.held := by
    cases c with
    | checking job opened =>
      cases hchecks
      exact List.mem_singleton_self _
    | _ => cases hchecks
  by_cases ht : t = thread
  · -- Two calls of the thread would hold it.
    subst ht
    obtain ⟨above, below, hsplit⟩ := List.append_of_mem hcall
    have hone : (hands (s.calls t)).count library = 1 := (h.custody.only hat).1
    have hother : library ∈ hands above ∨ library ∈ hands below := by
      rw [hsplit] at hc
      rcases List.mem_append.1 hc with habove | hbelow
      · exact .inl (List.mem_flatMap.2 ⟨c, habove, hheld⟩)
      · rcases List.mem_cons.1 hbelow with rfl | hbelow
        · cases hchecks
        · exact .inr (List.mem_flatMap.2 ⟨c, hbelow, hheld⟩)
    have hcount : (hands (s.calls t)).count library
        = (hands above).count library + (1 + (hands below).count library) := by
      rw [hsplit, hands, List.flatMap_append, List.flatMap_cons, List.count_append,
        List.count_append]
      simp [hands, NativeCall.held]
    rcases hother with habove | hbelow
    · have hpos := List.count_pos_iff.2 habove
      omega
    · have hpos := List.count_pos_iff.2 hbelow
      omega
  · have hzero : s.amount (.call t) library = 0 :=
      h.custody.elsewhere (q := LibraryPlace.call t) hat fun heq => ht (by cases heq; rfl)
    have hpos : 0 < s.amount (.call t) library :=
      List.count_pos_iff.2 (List.mem_flatMap.2 ⟨c, hc, hheld⟩)
    omega

theorem Started.setCalls (h : s.Started library) (hmoves : Moves s mid thread calls) :
    (mid.setCalls thread calls).Started library where
  opened := h.opened.trans_le hmoves.opened
  kept hrefused := by
    rcases hmoves.refused library hrefused with hwas | ⟨c, hc, hchecks⟩
    · exact h.kept hwas
    · exact h.checked thread c hc hchecks
  checked t c hc hchecks := by
    rw [calls_setCalls] at hc
    by_cases ht : t = thread
    · rw [if_pos ht] at hc
      rcases hmoves.calls c hc with hwas | hnew
      · exact h.checked thread c hwas hchecks
      · have hle := hnew.checks library hchecks
        have hlt := h.opened
        omega
    · rw [if_neg ht, hmoves.same] at hc
      exact h.checked t c hc hchecks

theorem Runs.setCalls (h : s.Runs) (hmoves : Moves s mid thread calls)
    (hkept : (mid.setCalls thread calls).Kept) : (mid.setCalls thread calls).Runs where
  code ptr library hcode := by
    refine (h.code ptr library ?_).setCalls hmoves
    rw [← hmoves.code]
    exact hcode
  calls t c hc library hruns := by
    have hmem := hc
    rw [calls_setCalls] at hc
    by_cases ht : t = thread
    · rw [if_pos ht] at hc
      rcases hmoves.calls c hc with hwas | hnew
      · exact (h.calls thread c hwas library hruns).setCalls hmoves
      · rcases hnew.runs library hruns with ⟨job, rfl⟩ | ⟨ptr, hcode⟩
        · exact hkept.started hmem
        · exact (h.code ptr library hcode).setCalls hmoves
    · rw [if_neg ht, hmoves.same] at hc
      exact (h.calls t c hc library hruns).setCalls hmoves

/-- Nothing is opened or refused. -/
structure OpensNothing (s mid : LibraryHost) : Prop where
  calls : mid.calls = s.calls
  code : mid.code = s.code
  opened : mid.opened = s.opened
  refused : mid.refused = s.refused

theorem OpensNothing.moves (h : OpensNothing s mid)
    (hcalls : ∀ c ∈ calls, c ∈ s.calls thread ∨ s.Enters c) : Moves s mid thread calls :=
  ⟨h.calls, h.code, h.opened.ge, fun _ hl => .inl (h.refused ▸ hl), hcalls⟩

theorem moves_callLoader (thread : ThreadId) (h : OpensNothing s mid)
    (hcalls : ∀ c ∈ rest, c ∈ s.calls thread)
    (job : LoaderJob) : ∃ mid' calls, mid.callLoader thread rest job = mid'.setCalls thread calls ∧
      Moves s mid' thread calls := by
  have hnew : ∀ {next : NativeCall}, next.checks = none → next.runs = none → ∀ c ∈ next :: rest,
      c ∈ s.calls thread ∨ s.Enters c := by
    intro next hchecks hruns c hc
    rcases List.mem_cons.1 hc with rfl | hrest
    · exact .inr (enters_of_none hchecks hruns)
    · exact .inl (hcalls c hrest)
  unfold LibraryHost.callLoader
  by_cases hnative : job.isNative = true
  · rw [if_pos hnative]
    exact ⟨_, _, rfl, h.moves (hnew rfl rfl)⟩
  · rw [if_neg hnative]
    have hpushed : OpensNothing s { mid with
        runtime := mid.runtime.pushInitBundleId thread job.bundleId.id } :=
      ⟨h.calls, h.code, h.opened, h.refused⟩
    exact ⟨_, _, rfl, hpushed.moves (hnew rfl rfl)⟩

/-- A library that gets on is refused by none but its own check. -/
theorem moves_advanceCall (hcalls : s.calls thread = call :: rest) (outcome : Outcome) :
    ∃ mid calls, s.advanceCall thread rest outcome call = mid.setCalls thread calls ∧
      Moves s mid thread calls := by
  have hrest : ∀ c ∈ rest, c ∈ s.calls thread := by
    intro c hc
    rw [hcalls]
    exact List.mem_cons_of_mem _ hc
  have hcons : ∀ {next : NativeCall}, s.Enters next → ∀ c ∈ next :: rest,
      c ∈ s.calls thread ∨ s.Enters c := by
    intro next hnext c hc
    rcases List.mem_cons.1 hc with rfl | hc
    · exact .inr hnext
    · exact .inl (hrest c hc)
  -- A step that opens and refuses nothing.
  have hone : ∀ {mid : LibraryHost} {next : NativeCall}, OpensNothing s mid →
      next.checks = none → next.runs = none → ∃ mid' calls,
      mid.setCalls thread (next :: rest) = mid'.setCalls thread calls ∧
        Moves s mid' thread calls := by
    intro mid next hmid hchecks hruns
    exact ⟨mid, _, rfl, hmid.moves (hcons (enters_of_none hchecks hruns))⟩
  have hend : ∀ {mid : LibraryHost}, OpensNothing s mid → ∃ mid' calls,
      mid.setCalls thread rest = mid'.setCalls thread calls ∧ Moves s mid' thread calls := by
    intro mid hmid
    exact ⟨mid, _, rfl, hmid.moves fun c hc => .inl (hrest c hc)⟩
  cases call with
  | snapshot job =>
    have hbegun : OpensNothing s { s with
        runtime := { s.runtime with
          registry := s.runtime.registry.beginReload job.bundleId } } := ⟨rfl, rfl, rfl, rfl⟩
    exact moves_callLoader thread hbegun hrest job
  | opening job =>
    cases hresult : outcome.result with
    | error e =>
      simp only [advanceCall, hresult]
      exact hone ⟨rfl, rfl, rfl, rfl⟩ rfl rfl
    | ok u =>
      simp only [advanceCall, hresult]
      refine ⟨_, _, rfl, rfl, rfl, Nat.le_succ _, fun _ => .inl,
        hcons ⟨?_, fun _ hruns => by cases hruns⟩⟩
      intro library heq
      cases heq
      exact le_rfl
  | checking job opened =>
    cases hresult : outcome.result with
    | error e =>
      simp only [advanceCall, hresult]
      refine ⟨_, _, rfl, rfl, rfl, le_rfl, fun library hl => ?_, hcons (enters_of_none rfl rfl)⟩
      rcases List.mem_cons.1 hl with rfl | hwas
      · refine .inr ⟨.checking job library, ?_, rfl⟩
        rw [hcalls]
        exact List.mem_cons_self
      · exact .inl hwas
    | ok u =>
      simp only [advanceCall, hresult]
      refine ⟨_, _, rfl, rfl, rfl, le_rfl, fun _ => .inl,
        hcons ⟨(fun _ hchecks => by cases hchecks), ?_⟩⟩
      intro library heq
      cases heq
      exact .inl ⟨job, rfl⟩
  | initializing job opened =>
    cases hresult : outcome.result with
    | error e =>
      simp only [advanceCall, hresult]
      exact hone ⟨rfl, rfl, rfl, rfl⟩ rfl rfl
    | ok u =>
      simp only [advanceCall, hresult]
      exact hone ⟨rfl, rfl, rfl, rfl⟩ rfl rfl
  | inserting job opened =>
    cases hlookup : s.libraries.lookup job.bundleId with
    | none =>
      simp only [advanceCall, hlookup]
      exact hone ⟨rfl, rfl, rfl, rfl⟩ rfl rfl
    | some superseded =>
      simp only [advanceCall, hlookup]
      exact hone ⟨rfl, rfl, rfl, rfl⟩ rfl rfl
  | foreign job => exact hone ⟨rfl, rfl, rfl, rfl⟩ rfl rfl
  | scheduling job opened loaded => exact hone ⟨rfl, rfl, rfl, rfl⟩ rfl rfl
  | closing job loaded =>
    cases job with
    | load env manifest b opts =>
      cases hended : s.runtime.finishLoad env b opts loaded with
      | mk result rt =>
        cases result with
        | ok u =>
          simp only [advanceCall, close, hended]
          exact hend ⟨rfl, rfl, rfl, rfl⟩
        | error e =>
          simp only [advanceCall, close, hended]
          by_cases hnative : (LoaderJob.load env manifest b opts).isNative = true
          · rw [if_pos hnative]
            exact hone ⟨rfl, rfl, rfl, rfl⟩ rfl rfl
          · rw [if_neg hnative]
            exact hend ⟨rfl, rfl, rfl, rfl⟩
    | reload replacement slotIndices =>
      cases hended : s.runtime.swapReload replacement slotIndices loaded with
      | mk result rt =>
        cases result with
        | ok u =>
          simp only [advanceCall, close, hended]
          exact hone ⟨rfl, rfl, rfl, rfl⟩ rfl rfl
        | error e =>
          simp only [advanceCall, close, hended]
          exact hend ⟨rfl, rfl, rfl, rfl⟩
  | resetting b => exact hend ⟨rfl, rfl, rfl, rfl⟩
  | unhooking b =>
    cases hlookup : s.libraries.lookup b with
    | none =>
      simp only [advanceCall, hlookup]
      exact hend ⟨rfl, rfl, rfl, rfl⟩
    | some opened =>
      simp only [advanceCall, hlookup]
      exact hone ⟨rfl, rfl, rfl, rfl⟩ rfl rfl
  | unhooked b opened => exact hend ⟨rfl, rfl, rfl, rfl⟩
  | unloading b phase =>
    cases phase with
    | returned result => exact hend ⟨rfl, rfl, rfl, rfl⟩
    | reclaiming loaderName =>
      simp only [advanceCall, advanceUnload]
      by_cases hnative : loaderName = some "native"
      · rw [if_pos hnative]
        exact hone ⟨rfl, rfl, rfl, rfl⟩ rfl rfl
      · rw [if_neg hnative]
        exact hend ⟨rfl, rfl, rfl, rfl⟩
    | _ => exact hone ⟨rfl, rfl, rfl, rfl⟩ rfl rfl
  | reserving guard interface =>
    cases hfound : s.runtime.beginGuestInstanceConstruction interface with
    | mk found rt =>
      cases found with
      | none =>
        simp only [advanceCall, hfound]
        exact hend ⟨rfl, rfl, rfl, rfl⟩
      | some b =>
        simp only [advanceCall, hfound]
        refine ⟨_, _, rfl, rfl, rfl, le_rfl, fun _ => .inl,
          hcons (enters_of_code rfl rfl)⟩
  | constructing guard interface b code => exact hend ⟨rfl, rfl, rfl, rfl⟩
  | destroying guard interface b code =>
    by_cases hnull : outcome.isNull = true
    · simp only [advanceCall, if_pos hnull]
      exact hend ⟨rfl, rfl, rfl, rfl⟩
    · simp only [advanceCall, if_neg hnull]
      exact hone ⟨rfl, rfl, rfl, rfl⟩ rfl rfl
  | noting guard interface => exact hend ⟨rfl, rfl, rfl, rfl⟩

/-- A registration has its origin in an init. -/
theorem initializing_of_initLibrary (h : s.initLibrary thread = some library) :
    ∃ job, .initializing job library ∈ s.calls thread := by
  rw [initLibrary, Option.bind_eq_some_iff] at h
  obtain ⟨p, hfound, hp⟩ := h
  obtain ⟨call, hcall, hinit⟩ := List.exists_of_findSome?_eq_some hfound
  cases call with
  | initializing job opened =>
    cases hinit
    cases hp
    exact ⟨job, hcall⟩
  | foreign job =>
    cases hinit
    cases hp
  | _ => cases hinit

theorem runs_begin (h : s.Runs) (hkept : s.Kept) (step : LibraryStep) : (s.begin step).Runs := by
  have hbegun := kept_begin hkept step
  have henter : ∀ {mid : LibraryHost} {call : NativeCall} {thread : ThreadId},
      OpensNothing s mid → s.Enters call → (mid.enter thread call).Kept →
      (mid.enter thread call).Runs := by
    intro mid call thread hmid hcall hkept
    refine h.setCalls (hmid.moves fun c hc => ?_) hkept
    rw [hmid.calls] at hc
    rcases List.mem_cons.1 hc with rfl | hwas
    · exact .inr hcall
    · exact .inl hwas
  cases step with
  | load env manifest source opts =>
    cases hadmit : s.runtime.admitLoad env manifest source with
    | mk result rt =>
      cases result with
      | error e =>
        simp only [LibraryHost.begin, hadmit]
        have hsame : ∀ library, s.Started library → Started { s with runtime := rt } library :=
          fun _ hstarted => ⟨hstarted.opened, hstarted.kept, hstarted.checked⟩
        exact ⟨fun ptr library hcode => hsame _ (h.code ptr library hcode),
          fun t c hc library hruns => hsame _ (h.calls t c hc library hruns)⟩
      | ok b =>
        simp only [LibraryHost.begin, hadmit] at hbegun ⊢
        -- The load has staged its bundle, and opened no library.
        have hstaged : OpensNothing s { s with runtime := rt } := ⟨rfl, rfl, rfl, rfl⟩
        obtain ⟨mid, calls, heq, hmoves⟩ := moves_callLoader env.thread hstaged
          (fun _ hc => hc) (.load env manifest b opts)
        rw [heq] at hbegun ⊢
        exact h.setCalls hmoves hbegun
  | reload env path =>
    cases hcheck : env.checkReload path with
    | error e =>
      simp only [LibraryHost.begin, hcheck]
      exact h
    | ok replacement =>
      simp only [LibraryHost.begin, hcheck] at hbegun ⊢
      exact henter ⟨rfl, rfl, rfl, rfl⟩ (enters_of_none rfl rfl) hbegun
  | unload thread b => exact henter ⟨rfl, rfl, rfl, rfl⟩ (enters_of_none rfl rfl) hbegun
  | unloadRegistered thread b descriptor =>
    exact henter ⟨rfl, rfl, rfl, rfl⟩ (enters_of_none rfl rfl) hbegun
  | register thread descriptor interface functions ptr =>
    have hsame : ∀ library, s.Started library →
        (s.begin (.register thread descriptor interface functions ptr)).Started library :=
      fun _ hstarted => ⟨hstarted.opened, hstarted.kept, hstarted.checked⟩
    refine ⟨fun p library hcode => hsame _ ?_,
      fun t c hc library hruns => hsame _ (h.calls t c hc library hruns)⟩
    by_cases hp : p = ptr
    · subst hp
      -- The interface is of the library whose init runs.
      have horigin : s.initLibrary thread = some library := by
        rw [← hcode]
        exact (Function.update_self p (s.initLibrary thread) s.code).symm
      obtain ⟨job, hcall⟩ := initializing_of_initLibrary horigin
      exact hkept.started hcall
    · refine h.code p library ?_
      rw [← hcode]
      exact (Function.update_of_ne hp _ _).symm
  | createGuestInstance thread interface =>
    exact henter ⟨rfl, rfl, rfl, rfl⟩ (enters_of_none rfl rfl) hbegun
  | destroyGuestInstance thread interface =>
    cases hfound : s.runtime.registry.bundleIdForGuestInterface interface with
    | none =>
      simp only [LibraryHost.begin, hfound]
      exact h
    | some b =>
      simp only [LibraryHost.begin, hfound] at hbegun ⊢
      exact henter ⟨rfl, rfl, rfl, rfl⟩ (enters_of_code rfl rfl) hbegun
  | advance thread outcome => exact h
  | collect k => exact h

end

/-! ### Whole runs -/

section
variable {s : LibraryHost} {thread : ThreadId} {call : NativeCall} {library : Nat}

/-- The collector keeps what a guard protects. -/
theorem Safe.collect (h : s.Safe) (k : Nat) : (s.exec (.collect k)).Safe := by
  exact h.renew (fun _ => False) (kept_exec h.kept _) rfl h.tidy rfl
    (Epoch.pinned_reclaim k)
    (fun guard library hprotected => hprotected.exec (.reclaim k) (by simp))
    (fun _ => rfl) (fun _ => rfl) (fun t x _ => sameFor_of_eq rfl rfl rfl rfl h.tidy)
    (fun _ _ _ _ _ => False.elim) fun _ => False.elim

/-- A call that begins. -/
theorem Safe.begin (h : s.Safe) {step : LibraryStep} (horder : s.InOrder step)
    (hlength : (s.begin step).runtime.registry.data.slots.length ≤ 2 ^ 32) :
    (s.begin step).Safe := by
  have hkept := kept_begin h.kept step
  cases step with
  | load env manifest source opts =>
    rcases admitLoad_cases s.runtime env manifest source with
      ⟨e, heq⟩ | ⟨hid, -, -, hnone, heq⟩
    · simp only [LibraryHost.begin, heq]
      exact h
    · simp only [LibraryHost.begin, heq] at hkept ⊢
      exact h.beginLoad horder hid hnone rfl hkept
  | reload env path =>
    cases hcheck : env.checkReload path with
    | error e =>
      simp only [LibraryHost.begin, hcheck]
      exact h
    | ok replacement =>
      have hbusy := horder replacement hcheck
      simp only [LibraryHost.begin, hcheck] at hkept ⊢
      exact h.enterStill ⟨rfl, rfl, rfl, rfl⟩ hbusy (h.beginReload replacement hbusy) hkept
  | unload thread b =>
    exact h.enterStill (follows_unloading ..) horder (callOk_of_backs rfl (h.quiet b horder)) hkept
  | unloadRegistered thread b descriptor =>
    exact h.enterStill (follows_unloading ..) horder (callOk_of_backs rfl (h.quiet b horder)) hkept
  | register thread descriptor interface functions ptr =>
    exact h.register horder descriptor interface functions hlength
  | createGuestInstance thread interface => exact h.enterPinned rfl (fun _ hg => by cases hg) hkept
  | destroyGuestInstance thread interface =>
    cases hfound : s.runtime.registry.bundleIdForGuestInterface interface with
    | none =>
      simp only [LibraryHost.begin, hfound]
      exact h
    | some b =>
      simp only [LibraryHost.begin, hfound] at hkept ⊢
      refine h.enterPinned rfl (fun library hguarded => ?_) hkept
      have hcode : s.code interface = some library := by
        cases hcode : s.code interface with
        | none =>
          rw [hcode] at hguarded
          cases hguarded
        | some l =>
          rw [hcode] at hguarded
          cases hguarded
          rfl
      refine Epoch.protected_of_reachable (List.mem_append_right _ (List.mem_singleton_self _)) ?_
      exact (h.reachable hfound (horder b hfound) hcode).2
  | advance thread outcome => exact h
  | collect k => exact h

/-- One step of an orderly run. -/
theorem safe_exec (h : s.Safe) {step : LibraryStep} (hstep : s.Orderly step) :
    (s.exec step).Safe := by
  obtain ⟨horder, hlength⟩ := hstep
  have hbegin : ∀ {P : Prop} [Decidable P],
      (if P then s.begin step else s).runtime.registry.data.slots.length ≤ 2 ^ 32 →
      (if P then s.begin step else s).Safe := by
    intro P _ hlength
    by_cases hP : P
    · rw [if_pos hP] at hlength ⊢
      exact h.begin horder hlength
    · rwa [if_neg hP]
  cases step with
  | advance thread outcome =>
    cases hcalls : s.calls thread with
    | nil =>
      simp only [exec, hcalls]
      exact h
    | cons call rest =>
      simp only [exec, hcalls] at hlength ⊢
      exact h.advanceCall hcalls outcome horder hlength
  | collect k => exact h.collect k
  | _ => exact hbegin hlength

theorem runs_exec (h : s.Runs) (hkept : s.Kept) (step : LibraryStep) : (s.exec step).Runs := by
  have hbegin : ∀ {P : Prop} [Decidable P], (if P then s.begin step else s).Runs := by
    intro P _
    by_cases hP : P
    · rw [if_pos hP]
      exact runs_begin h hkept step
    · rwa [if_neg hP]
  cases step with
  | advance thread outcome =>
    cases hcalls : s.calls thread with
    | nil =>
      simp only [exec, hcalls]
      exact h
    | cons call rest =>
      have hstill := kept_advanceCall hkept hcalls outcome
      obtain ⟨mid, calls, heq, hmoves⟩ := moves_advanceCall hcalls outcome
      simp only [exec, hcalls]
      rw [heq] at hstill ⊢
      exact h.setCalls hmoves hstill
  | collect k =>
    have hsame : ∀ library, s.Started library → (s.exec (.collect k)).Started library :=
      fun _ hstarted => ⟨hstarted.opened, hstarted.kept, hstarted.checked⟩
    exact ⟨fun ptr library hcode => hsame _ (h.code ptr library hcode),
      fun t c hc library hruns => hsame _ (h.calls t c hc library hruns)⟩
  | _ => exact hbegin

theorem safe_new : LibraryHost.new.Safe where
  kept := kept_new
  tidy := tidy_new
  single := exclusive_empty
  guards := exclusive_empty
  pinned _ _ hc := absurd hc List.not_mem_nil
  stacked _ := rfl
  staged _ := rfl
  ok _ _ hc := absurd hc List.not_mem_nil
  quiet b _ := by
    refine Absent.backs ?_
    rintro i g ⟨hg, -⟩
    cases hg

theorem runs_new : LibraryHost.new.Runs where
  code _ _ hcode := by cases hcode
  calls _ _ hc := absurd hc List.not_mem_nil

/-- The guest that runs in a call has its library open. -/
theorem Safe.open_of_runs (h : s.Safe) (hcall : call ∈ s.calls thread)
    (hruns : call.runs = some library) : library ∉ s.epoch.freed := by
  have hguarded : ∀ guard, call.guarded? = some (guard, library) → library ∉ s.epoch.freed :=
    fun guard heq => ((h.ok thread call hcall).guarded guard library heq).notFreed
  cases call with
  | initializing job opened =>
    cases hruns
    -- It is in the hand of the call, so it is not handed to the collector.
    have hhand : library ∈ hands (s.calls thread) :=
      List.mem_flatMap.2 ⟨_, hcall, List.mem_singleton_self _⟩
    have hat : 0 < s.amount (.call thread) library := List.count_pos_iff.2 hhand
    have hzero : s.epoch.retired.count library = 0 :=
      h.kept.custody.elsewhere (q := LibraryPlace.retired) hat (by simp)
    exact fun hfreed => Multiset.count_eq_zero.1 hzero (Epoch.mem_retired.2 (.inr hfreed))
  | constructing guard interface b code =>
    cases hruns
    exact hguarded guard rfl
  | destroying guard interface b code =>
    cases hruns
    exact hguarded guard rfl
  | _ => cases hruns

/-- In every orderly run a guest that runs, in its init, in a constructor or in a destructor,
has its library open: the collector has not closed it, and it was not refused. And the library
of an interface that is found outside of a reload is the one in the map, which is not handed
to the collector. -/
theorem orderly_run (steps : List LibraryStep) (hsteps : Steps exec Orderly new steps) :
    let s := run exec new steps
    (∀ thread, ∀ call ∈ s.calls thread, ∀ library, call.runs = some library →
      library < s.opened ∧ library ∉ s.epoch.freed ∧ library ∉ s.refused) ∧
    ∀ interface b library, s.runtime.registry.bundleIdForGuestInterface interface = some b →
      ¬ s.Reloading b → s.code interface = some library →
      s.libraries.lookup b = some library ∧ library ∉ s.epoch.retired := by
  intro s
  have hsafe : s.Safe :=
    hsteps.invariant safe_new fun _ _ h hstep => safe_exec h hstep
  have hruns : s.Runs := by
    have hboth : s.Runs ∧ s.Kept := by
      refine (steps_true new steps).invariant (I := fun s => s.Runs ∧ s.Kept)
        ⟨runs_new, kept_new⟩ ?_
      intro s step h _
      exact ⟨runs_exec h.1 h.2 step, kept_exec h.2 step⟩
    exact hboth.1
  refine ⟨fun thread call hcall library hlibrary => ?_, fun interface b library => ?_⟩
  · have hstarted := hruns.calls thread call hcall library hlibrary
    exact ⟨hstarted.opened, hsafe.open_of_runs hcall hlibrary, hstarted.kept⟩
  · exact hsafe.reachable

end

/-! ### A run -/

/-- The thread of a step. -/
def actor : LibraryStep → Option ThreadId
  | .advance thread _ => some thread
  | step              => caller step

/-- A step of a thread leaves the calls of the others. -/
theorem calls_exec_of_ne (s : LibraryHost) {step : LibraryStep} {t : ThreadId}
    (ht : ∀ thread ∈ actor step, t ≠ thread) : (s.exec step).calls t = s.calls t := by
  have hset : ∀ {mid : LibraryHost} {thread : ThreadId} {calls : List NativeCall},
      thread ∈ actor step → mid.calls = s.calls →
      (mid.setCalls thread calls).calls t = s.calls t := by
    intro mid thread calls hthread hmid
    rw [calls_setCalls, if_neg (ht thread hthread), hmid]
  have hbegin : ∀ {P : Prop} [Decidable P], (s.begin step).calls t = s.calls t →
      (if P then s.begin step else s).calls t = s.calls t := by
    intro P _ h
    by_cases hP : P
    · rw [if_pos hP, h]
    · rw [if_neg hP]
  cases step with
  | advance thread outcome =>
    cases hcalls : s.calls thread with
    | nil => simp only [exec, hcalls]
    | cons call rest =>
      obtain ⟨mid, calls, heq, hmoves⟩ := moves_advanceCall hcalls outcome
      simp only [exec, hcalls]
      rw [heq]
      exact hset rfl hmoves.same
  | collect k => rfl
  | load env manifest source opts =>
    refine hbegin ?_
    cases hadmit : s.runtime.admitLoad env manifest source with
    | mk result rt =>
      cases result with
      | error e => simp only [LibraryHost.begin, hadmit]
      | ok b =>
        have hstaged : OpensNothing s { s with runtime := rt } := ⟨rfl, rfl, rfl, rfl⟩
        obtain ⟨mid, calls, heq, hmoves⟩ := moves_callLoader env.thread hstaged
          (fun _ hc => hc) (.load env manifest b opts)
        simp only [LibraryHost.begin, hadmit]
        rw [heq]
        exact hset rfl hmoves.same
  | reload env path =>
    refine hbegin ?_
    cases hcheck : env.checkReload path with
    | error e => simp only [LibraryHost.begin, hcheck]
    | ok replacement =>
      simp only [LibraryHost.begin, hcheck]
      exact hset rfl rfl
  | unload thread b => exact hbegin (hset rfl rfl)
  | unloadRegistered thread b descriptor => exact hbegin (hset rfl rfl)
  | register thread descriptor interface functions ptr => exact hbegin rfl
  | createGuestInstance thread interface => exact hbegin (hset rfl rfl)
  | destroyGuestInstance thread interface =>
    refine hbegin ?_
    cases hfound : s.runtime.registry.bundleIdForGuestInterface interface with
    | none => simp only [LibraryHost.begin, hfound]
    | some b =>
      simp only [LibraryHost.begin, hfound]
      exact hset rfl rfl

theorem calls_run_of_ne (s : LibraryHost) {steps : List LibraryStep} {t : ThreadId}
    (ht : ∀ step ∈ steps, ∀ thread ∈ actor step, t ≠ thread) :
    (run exec s steps).calls t = s.calls t := by
  induction steps generalizing s with
  | nil => rfl
  | cons step rest ih =>
    rw [run_cons, ih _ fun step' hstep' => ht step' (List.mem_cons_of_mem _ hstep')]
    exact calls_exec_of_ne s (ht step List.mem_cons_self)

/-- The call that gets on makes no reservation. -/
theorem inOrder_advance {s : LibraryHost} {thread : ThreadId} {outcome : Outcome}
    (h : (s.calls thread).head?.all fun call => call.guard?.isNone) :
    s.InOrder (.advance thread outcome) := by
  cases hcalls : s.calls thread with
  | nil => simp only [InOrder, hcalls]
  | cons call rest =>
    rw [hcalls] at h
    cases call with
    | reserving guard interface => cases h
    | _ => simp only [InOrder, hcalls]

/-- The code outside does what it should. -/
def fine : Outcome := ⟨.ok (), false, ⟨0⟩⟩

/-- The native bundle `a` is loaded on a thread. Its guest registers the contract `x`, copied to
the address 7, and an instance of it is created. -/
def createsNative : List LibraryStep :=
  [.load ⟨1, .off, fun _ _ => .ok (), fun _ => true⟩ (providing "a" ["x@1"]) (.path "a")
      ⟨.yolo, false⟩,
    .advance 1 fine, .advance 1 fine,
    .register 1 (some ⟨⟨none⟩, ⟨some [120]⟩, ⟨1, 0, 0⟩⟩)
      (some ⟨GuestContractId.new "x" 1, ⟨1, 0, 0⟩, 0, 0, 1, 1, ⟨0, 0⟩⟩) (fun _ => 0) 7,
    .advance 1 fine, .advance 1 fine, .advance 1 fine, .createGuestInstance 1 7]

theorem orderly_createsNative :
    Steps exec Orderly new (createsNative ++ [.advance 1 fine]) := by
  -- The one reservation is made when nothing else runs.
  have hreserves : InOrder (run exec new createsNative) (.advance 1 fine) := by
    have hidle : ∀ b, ¬ (run exec new createsNative).Reloading b := by
      rintro b ⟨t, call, hcall, job, hjob, -⟩
      by_cases ht : t = 1
      · have hnone : ∀ call ∈ (run exec new createsNative).calls 1, call.job?.isNone = true := by
          decide +kernel
        have hcallNone := hnone call (ht ▸ hcall)
        rw [hjob] at hcallNone
        cases hcallNone
      · rw [calls_run_of_ne new fun step hstep thread hthread => ?_] at hcall
        · exact absurd hcall List.not_mem_nil
        · have hone : ∀ step ∈ createsNative, actor step = some 1 := by
            simp [createsNative, actor, caller]
          rw [hone step hstep] at hthread
          cases hthread
          exact ht
    cases hcalls : (run exec new createsNative).calls 1 with
    | nil => simp only [InOrder, hcalls]
    | cons call rest =>
      cases call with
      | reserving guard interface =>
        simp only [InOrder, hcalls]
        exact fun b _ => hidle b
      | _ => simp only [InOrder, hcalls]
  -- Nothing is at the address of the copy.
  have hunused : ∀ b, ¬ (run exec new (createsNative.take 3)).runtime.registry.UsesAddress 7 b := by
    have hrefers : ∀ b, ¬ BackingSystem.Refers { BackingSystem.new with
        host := ⟨(run exec new (createsNative.take 3)).runtime, 0⟩ } 7 b := by
      decide +kernel
    exact fun b huses => hrefers b (.inl huses)
  refine ⟨⟨?_, by decide +kernel⟩, ⟨inOrder_advance (by decide +kernel), by decide +kernel⟩,
    ⟨inOrder_advance (by decide +kernel), by decide +kernel⟩, ⟨hunused, by decide +kernel⟩,
    ⟨inOrder_advance (by decide +kernel), by decide +kernel⟩,
    ⟨inOrder_advance (by decide +kernel), by decide +kernel⟩,
    ⟨inOrder_advance (by decide +kernel), by decide +kernel⟩, ⟨trivial, by decide +kernel⟩,
    ⟨hreserves, by decide +kernel⟩, trivial⟩
  rintro ⟨t, call, hcall, -⟩
  exact absurd hcall List.not_mem_nil

/-- The constructor runs in the library that the load opened, and it is open. -/
theorem orderly_run_creates :
    ∃ call ∈ (run exec new (createsNative ++ [.advance 1 fine])).calls 1, call.runs = some 0 ∧
      0 ∉ (run exec new (createsNative ++ [.advance 1 fine])).epoch.freed ∧
      0 ∉ (run exec new (createsNative ++ [.advance 1 fine])).refused := by
  have hruns : ∃ call ∈ (run exec new (createsNative ++ [.advance 1 fine])).calls 1,
      call.runs = some 0 := by
    decide +kernel
  obtain ⟨call, hcall, hzero⟩ := hruns
  exact ⟨call, hcall, hzero, ((orderly_run _ orderly_createsNative).1 1 call hcall 0 hzero).2⟩

end LibraryHost

end PolyPlug.Lifecycle
