import PolyPlug.Proofs.Lifecycle.LibraryCalls

/-!
# `PolyPlug.Proofs.Lifecycle.LibrarySafety`: no guest runs in a closed library

`orderly_run` is the safety of native plugins. In an orderly run, a guest that runs in its
init, in a constructor or in a destructor runs in a library that is not closed, whatever the
other threads load, reload and unload meanwhile.

A run is orderly when the loads, reloads and unloads of one bundle do not overlap, and no
`create_guest_instance` and no `destroy_guest_instance` gets to an interface of a bundle that
is reloaded. Both are needed: a second load takes the library of the first one out of the map,
and a reload schedules the old library before it swaps the interfaces.

`Safe` is the invariant. `Safe.advance` and `Safe.enter` say what a step of a call has to
show: the rest is the frame rule.
-/

set_option autoImplicit false

namespace PolyPlug.Lifecycle

open PolyPlug.Abi
open PolyPlug.Lib
open PolyPlug.Common
open PolyPlug.Registry
open RuntimeStore

namespace LibraryHost

/-- A load, a reload or an unload of the bundle runs. -/
def Busy (s : LibraryHost) (b : BundleId) : Prop :=
  ∃ thread, ∃ call ∈ s.calls thread, call.changes = some b

/-- A reload of the bundle runs. -/
def Reloading (s : LibraryHost) (b : BundleId) : Prop :=
  ∃ thread, ∃ call ∈ s.calls thread, ∃ job, call.job? = some job ∧ job.isReload = true ∧
    job.bundleId = b

/-- The call that a thread makes, or is about to get on with, is in order. -/
def InOrder (s : LibraryHost) : LibraryStep → Prop
  | .load _ manifest _ _    => ¬ s.Busy (BundleId.new manifest.name)
  | .reload env path        =>
    ∀ replacement, env.checkReload path = .ok replacement → ¬ s.Busy replacement.descriptor.id
  | .unload _ b             => ¬ s.Busy b
  | .unloadRegistered _ b _ => ¬ s.Busy b
  -- The copy of an interface has an address of its own.
  | .register _ _ _ _ ptr   => ∀ b, ¬ s.runtime.registry.UsesAddress ptr b
  | .createGuestInstance .. => True
  | .destroyGuestInstance _ interface =>
    ∀ b, s.runtime.registry.bundleIdForGuestInterface interface = some b → ¬ s.Reloading b
  | .advance thread _ =>
    match s.calls thread with
    | .reserving _ interface :: _ =>
      ∀ b, s.runtime.registry.bundleIdForGuestInterface interface = some b → ¬ s.Reloading b
    | _ => True
  | .collect _ => True

/-- The condition on a step. -/
def Orderly (s : LibraryHost) (step : LibraryStep) : Prop :=
  s.InOrder step ∧ (s.exec step).runtime.registry.data.slots.length ≤ 2 ^ 32

/-- The ids on the init stack of a thread. -/
def initIds (calls : List NativeCall) : List UInt64 :=
  ((calls.filterMap NativeCall.init?).map fun p => p.1.id).reverse

/-- The ids of the bundles that the calls of a thread load. -/
def loadIds (calls : List NativeCall) : List UInt64 :=
  (calls.filterMap NativeCall.loads?).map BundleId.id

/-- The ids of the staged bundles of a thread. -/
def stagedIds (s : LibraryHost) (thread : ThreadId) : List UInt64 :=
  (s.runtime.registry.staged thread).map fun e => e.manifest.id

/-- The invariant of an orderly run. -/
structure Safe (s : LibraryHost) : Prop where
  kept : s.Kept
  tidy : s.runtime.registry.Tidy
  single : Exclusive NativeCall.changes s.calls
  guards : Exclusive NativeCall.guard? s.calls
  pinned : ∀ thread, ∀ call ∈ s.calls thread, ∀ guard, call.guard? = some guard →
    guard ∈ s.epoch.pinned ∧ guard < s.nextGuard
  stacked : ∀ thread, s.runtime.initStackOn thread = initIds (s.calls thread)
  staged : ∀ thread, s.stagedIds thread = loadIds (s.calls thread)
  ok : ∀ thread, ∀ call ∈ s.calls thread, s.CallOk thread call
  quiet : ∀ b, ¬ s.Busy b → s.Backs b

/-- What a step of a thread has to show, when it puts the calls `new` in place of the calls
`old` at the top and ends in the state `mid`. It is about the bundles of `touched`, and drops
the guards of `dropped`. -/
structure Replaces (s mid : LibraryHost) (thread : ThreadId) (old new : List NativeCall)
    (touched : BundleId → Prop) (dropped : Nat → Prop) : Prop where
  calls : mid.calls = s.calls
  tidy : mid.runtime.registry.Tidy
  nextGuard : s.nextGuard ≤ mid.nextGuard
  pinned : ∀ guard ∈ s.epoch.pinned, ¬ dropped guard → guard ∈ mid.epoch.pinned
  newGuards : ∀ c ∈ new, ∀ guard, c.guard? = some guard →
    guard ∈ mid.epoch.pinned ∧ guard < mid.nextGuard
  safe : ∀ guard library, ¬ dropped guard → s.epoch.Protected guard library →
    mid.epoch.Protected guard library
  stacked : mid.runtime.initStackOn thread
    = (s.runtime.initStackOn thread).take
        ((s.runtime.initStackOn thread).length - (initIds old).length) ++ initIds new
  stackedElse : ∀ t, t ≠ thread → mid.runtime.initStackOn t = s.runtime.initStackOn t
  staged : mid.stagedIds thread = loadIds new ++ (s.stagedIds thread).drop (loadIds old).length
  stagedElse : ∀ t, t ≠ thread →
    mid.runtime.registry.staged t = s.runtime.registry.staged t
  same : ∀ t b, ¬ touched b → SameFor s mid t b
  ok : ∀ c ∈ new, mid.CallOk thread c
  freed : ∀ b, touched b → (∀ c ∈ new, c.changes ≠ some b) → mid.Backs b

section
variable {s mid : LibraryHost} {thread : ThreadId} {call : NativeCall}
  {old new rest : List NativeCall}

@[simp] theorem initIds_append (calls calls' : List NativeCall) :
    initIds (calls ++ calls') = initIds calls' ++ initIds calls := by
  simp [initIds]

@[simp] theorem loadIds_append (calls calls' : List NativeCall) :
    loadIds (calls ++ calls') = loadIds calls ++ loadIds calls' := by
  simp [loadIds]

/-- A step of a thread. The calls that were there before are about other bundles and have
other guards. -/
theorem Safe.replace (h : s.Safe) (old new : List NativeCall)
    (hcalls : s.calls thread = old ++ rest)
    {touched : BundleId → Prop} {dropped : Nat → Prop}
    (hkept : (mid.setCalls thread (new ++ rest)).Kept)
    (hstep : Replaces s mid thread old new touched dropped)
    (hsingle : Exclusive NativeCall.changes (Function.update s.calls thread (new ++ rest)))
    (hguards : Exclusive NativeCall.guard? (Function.update s.calls thread (new ++ rest)))
    (hold : ∀ c ∈ old, ∀ b, c.changes = some b → touched b)
    (hapart : ∀ t, ∀ c ∈ s.calls t, t ≠ thread ∨ c ∈ rest →
      (∀ b, c.changes = some b → ¬ touched b) ∧ ∀ guard, c.guard? = some guard → ¬ dropped guard) :
    (mid.setCalls thread (new ++ rest)).Safe := by
  have hupdate : (mid.setCalls thread (new ++ rest)).calls
      = Function.update s.calls thread (new ++ rest) := by
    show Function.update mid.calls _ _ = _
    rw [hstep.calls]
  have hthread : (mid.setCalls thread (new ++ rest)).calls thread = new ++ rest := by
    rw [hupdate, Function.update_self]
  have helse : ∀ t, t ≠ thread → (mid.setCalls thread (new ++ rest)).calls t = s.calls t := by
    intro t ht
    rw [hupdate, Function.update_of_ne ht]
  -- A call is a new one, or was there before.
  have hwas : ∀ t, ∀ c ∈ (mid.setCalls thread (new ++ rest)).calls t,
      (t = thread ∧ c ∈ new) ∨ (c ∈ s.calls t ∧ (t ≠ thread ∨ c ∈ rest)) := by
    intro t c hc
    by_cases ht : t = thread
    · subst ht
      rw [hthread] at hc
      rcases List.mem_append.1 hc with hnew | hrest
      · exact .inl ⟨rfl, hnew⟩
      · rw [hcalls]
        exact .inr ⟨List.mem_append_right _ hrest, .inr hrest⟩
    · rw [helse t ht] at hc
      exact .inr ⟨hc, .inl ht⟩
  refine ⟨hkept, hstep.tidy, ?_, ?_, ?_, ?_, ?_, ?_, ?_⟩
  · rw [hupdate]
    exact hsingle
  · rw [hupdate]
    exact hguards
  · intro t c hc guard hguard
    rcases hwas t c hc with ⟨-, hnew⟩ | ⟨hmem, hother⟩
    · exact hstep.newGuards c hnew guard hguard
    · obtain ⟨hpinned, hlt⟩ := h.pinned t c hmem guard hguard
      have hkeeps := (hapart t c hmem hother).2 guard hguard
      exact ⟨hstep.pinned guard hpinned hkeeps, hlt.trans_le hstep.nextGuard⟩
  · intro t
    show mid.runtime.initStackOn t = _
    by_cases ht : t = thread
    · subst ht
      have hbefore := h.stacked t
      rw [hcalls, initIds_append] at hbefore
      rw [hthread, hstep.stacked, hbefore, initIds_append, List.length_append, Nat.add_sub_cancel,
        List.take_left]
    · rw [helse t ht, hstep.stackedElse t ht]
      exact h.stacked t
  · intro t
    show mid.stagedIds t = _
    by_cases ht : t = thread
    · subst ht
      have hbefore := h.staged t
      rw [hcalls, loadIds_append] at hbefore
      rw [hthread, hstep.staged, hbefore, loadIds_append, List.drop_left]
    · rw [helse t ht, stagedIds, hstep.stagedElse t ht]
      exact h.staged t
  · intro t c hc
    rcases hwas t c hc with ⟨rfl, hnew⟩ | ⟨hmem, hother⟩
    · exact (hstep.ok c hnew).setCalls hstep.tidy _ _
    · obtain ⟨hchanges, hguard⟩ := hapart t c hmem hother
      refine (h.ok t c hmem).frame (fun b hb => ?_) (fun guard library hg hprotected => ?_)
      · exact (hstep.same t b (hchanges b hb)).setCalls _ _
      · exact hstep.safe guard library (hguard guard (NativeCall.guard_of_guarded hg)) hprotected
  · intro b hb
    show mid.Backs b
    have hnew : ∀ c ∈ new, c.changes ≠ some b := by
      intro c hc heq
      refine hb ⟨thread, c, ?_, heq⟩
      rw [hthread]
      exact List.mem_append_left _ hc
    by_cases htouched : touched b
    · exact hstep.freed b htouched hnew
    · refine (h.quiet b ?_).frame (hstep.same thread b htouched)
      rintro ⟨t, c, hc, heq⟩
      refine hb ⟨t, c, ?_, heq⟩
      by_cases ht : t = thread
      · subst ht
        rw [hcalls] at hc
        rw [hthread]
        rcases List.mem_append.1 hc with htop | hrest
        · exact absurd (hold c htop b heq) htouched
        · exact List.mem_append_right _ hrest
      · rwa [helse t ht]

/-- What the top call of a thread has to show when it gets on. -/
structure Advances (s mid : LibraryHost) (thread : ThreadId) (call : NativeCall)
    (new : List NativeCall) : Prop extends
    Replaces s mid thread [call] new (fun b => call.changes = some b)
      (fun guard => call.guard? = some guard) where
  changes : (new.filterMap NativeCall.changes).Sublist call.changes.toList
  guards : (new.filterMap NativeCall.guard?).Sublist call.guard?.toList

/-- A step of the top call of a thread. -/
theorem Safe.advance (h : s.Safe) (hcalls : s.calls thread = call :: rest)
    (new : List NativeCall) (hkept : (mid.setCalls thread (new ++ rest)).Kept)
    (hadv : Advances s mid thread call new) : (mid.setCalls thread (new ++ rest)).Safe := by
  refine h.replace [call] new hcalls hkept hadv.toReplaces (h.single.advance hcalls hadv.changes)
    (h.guards.advance hcalls hadv.guards) ?_ ?_
  · intro c hc b hb
    rwa [List.mem_singleton.1 hc] at hb
  · have htop : call ∈ s.calls thread := by
      rw [hcalls]
      exact List.mem_cons_self
    rintro t c hc (ht | hrest)
    · exact ⟨fun b hb hcall => h.single.not_beside htop hcall hc ht hb,
        fun guard hg hcall => h.guards.not_beside htop hcall hc ht hg⟩
    · exact ⟨fun b hb hcall => h.single.not_below hcalls hcall hrest hb,
        fun guard hg hcall => h.guards.not_below hcalls hcall hrest hg⟩

/-- A thread makes a call, for a bundle that no other call is about and with a guard that no
other call has. -/
theorem Safe.enter (h : s.Safe) (hkept : (mid.setCalls thread (call :: s.calls thread)).Kept)
    (hfree : ∀ b, call.changes = some b → ¬ s.Busy b)
    (hfresh : ∀ guard, call.guard? = some guard → s.nextGuard ≤ guard)
    (hstep : Replaces s mid thread [] [call] (fun b => call.changes = some b) fun _ => False) :
    (mid.setCalls thread (call :: s.calls thread)).Safe := by
  have hother : ∀ t, ∀ c ∈ s.calls t, ∀ b, c.changes = some b → call.changes ≠ some b := by
    intro t c hc b hb hcall
    exact hfree b hcall ⟨t, c, hc, hb⟩
  refine h.replace [] [call] rfl hkept hstep (h.single.enter ?_) (h.guards.enter ?_)
    (fun c hc => absurd hc List.not_mem_nil) ?_
  · intro b hb t hmem
    obtain ⟨c, hc, hcb⟩ := List.mem_filterMap.1 hmem
    exact hother t c hc b hcb hb
  · intro guard hguard t hmem
    obtain ⟨c, hc, hcg⟩ := List.mem_filterMap.1 hmem
    have hlt := (h.pinned t c hc guard hcg).2
    have hle := hfresh guard hguard
    omega
  · intro t c hc _
    exact ⟨hother t c hc, fun _ _ => id⟩

/-! ### The steps of a load or a reload -/

theorem Safe.top_ok (h : s.Safe) (hcalls : s.calls thread = call :: rest) :
    s.CallOk thread call :=
  h.ok thread call (by rw [hcalls]; exact List.mem_cons_self)

/-- The stacks of a step that leaves them. -/
theorem Safe.staged_same (h : s.Safe) (hcalls : s.calls thread = call :: rest)
    (hregistry : mid.runtime.registry.staged thread = s.runtime.registry.staged thread)
    (hids : loadIds new = loadIds [call]) :
    mid.stagedIds thread = loadIds new ++ (s.stagedIds thread).drop (loadIds [call]).length := by
  have hwas := h.staged thread
  rw [hcalls, ← List.singleton_append, loadIds_append] at hwas
  rw [stagedIds, hregistry, hids, hwas, List.drop_left, ← hwas]
  rfl

theorem Safe.stacked_same (h : s.Safe) (hcalls : s.calls thread = call :: rest)
    (hstack : mid.runtime.initStackOn thread = s.runtime.initStackOn thread)
    (hids : initIds new = initIds [call]) :
    mid.runtime.initStackOn thread
      = (s.runtime.initStackOn thread).take
          ((s.runtime.initStackOn thread).length - (initIds [call]).length) ++ initIds new := by
  have hwas := h.stacked thread
  rw [hcalls, ← List.singleton_append, initIds_append] at hwas
  rw [hstack, hids, hwas, List.length_append, Nat.add_sub_cancel, List.take_left]

/-- The push and the pop of the init stack. -/
theorem stacked_push {id : UInt64}
    (hstack : mid.runtime.initStackOn thread = s.runtime.initStackOn thread ++ [id])
    (hcall : initIds [call] = []) (hnew : initIds new = [id]) :
    mid.runtime.initStackOn thread
      = (s.runtime.initStackOn thread).take
          ((s.runtime.initStackOn thread).length - (initIds [call]).length) ++ initIds new := by
  simp [hstack, hcall, hnew]

theorem stacked_pop {id : UInt64}
    (hstack : mid.runtime.initStackOn thread = (s.runtime.initStackOn thread).dropLast)
    (hcall : initIds [call] = [id]) (hnew : initIds new = []) :
    mid.runtime.initStackOn thread
      = (s.runtime.initStackOn thread).take
          ((s.runtime.initStackOn thread).length - (initIds [call]).length) ++ initIds new := by
  simp [hstack, hcall, hnew, List.dropLast_eq_take]

/-- A step that leaves what the calls know, and the guards. -/
structure Calm (s mid : LibraryHost) : Prop where
  calls : mid.calls = s.calls
  tidy : mid.runtime.registry.Tidy
  same : ∀ t b, SameFor s mid t b
  staged : ∀ t, mid.runtime.registry.staged t = s.runtime.registry.staged t
  nextGuard : mid.nextGuard = s.nextGuard
  pinned : mid.epoch.pinned = s.epoch.pinned
  safe : ∀ guard library, s.epoch.Protected guard library → mid.epoch.Protected guard library

/-- The next place of a load or a reload. -/
theorem Safe.advancesJob (h : s.Safe) (hcalls : s.calls thread = call :: rest)
    {next : NativeCall} {job : LoaderJob} (hcalm : Calm s mid) (hjob : call.job? = some job)
    (hnext : next.job? = some job)
    (horigin : ∀ library, s.Origin library call → mid.Origin library next)
    (hkeeps : next.keepsOld = true → call.keepsOld = true)
    (hstacked : mid.runtime.initStackOn thread
      = (s.runtime.initStackOn thread).take
          ((s.runtime.initStackOn thread).length - (initIds [call]).length) ++ initIds [next])
    (hstackedElse : ∀ t, t ≠ thread →
      mid.runtime.initStackOn t = s.runtime.initStackOn t) :
    Advances s mid thread call [next] where
  calls := hcalm.calls
  tidy := hcalm.tidy
  newGuards c hc guard hguard := by
    rw [List.mem_singleton.1 hc, NativeCall.guard_of_job hnext] at hguard
    cases hguard
  changes := by
    rw [List.filterMap_cons_some (NativeCall.changes_of_job hnext), NativeCall.changes_of_job hjob]
    exact .refl _
  guards := by
    rw [List.filterMap_cons_none (NativeCall.guard_of_job hnext)]
    exact List.nil_sublist _
  nextGuard := hcalm.nextGuard.ge
  pinned guard hg _ := by rwa [hcalm.pinned]
  safe guard library _ := hcalm.safe guard library
  stacked := hstacked
  stackedElse := hstackedElse
  staged := by
    refine h.staged_same hcalls (hcalm.staged thread) ?_
    simp only [loadIds, List.filterMap_cons, NativeCall.loads_of_job (hnext.trans hjob.symm)]
  stagedElse t _ := hcalm.staged t
  same t b _ := hcalm.same t b
  ok c hc := by
    rw [List.mem_singleton.1 hc]
    exact callOk_of_job hnext
      (((h.top_ok hcalls).job job hjob).next (hcalm.same _ _) horigin hkeeps)
  freed b hb hno := by
    rw [NativeCall.changes_of_job hjob] at hb
    exact absurd ((NativeCall.changes_of_job hnext).trans hb) (hno next List.mem_cons_self)

/-- A step that changes only what the loader has counted, opened or refused. -/
theorem Safe.calm (h : s.Safe) (hcalls : mid.calls = s.calls)
    (hregistry : mid.runtime.registry = s.runtime.registry) (hcode : mid.code = s.code)
    (hlibraries : mid.libraries = s.libraries) (hnextGuard : mid.nextGuard = s.nextGuard)
    (hepoch : mid.epoch = s.epoch) : Calm s mid where
  calls := hcalls
  tidy := by
    rw [hregistry]
    exact h.tidy
  same _ _ := sameFor_of_eq (by rw [hregistry]) (by rw [hregistry]) (by rw [hlibraries])
    hcode h.tidy
  staged t := by rw [hregistry]
  nextGuard := hnextGuard
  pinned := by rw [hepoch]
  safe guard library hprotected := by rwa [hepoch]

theorem Safe.opening (h : s.Safe) {job : LoaderJob} (hcalls : s.calls thread = .opening job :: rest)
    (outcome : Outcome) : (s.advanceCall thread rest outcome (.opening job)).Safe := by
  have hkept := kept_advanceCall h.kept hcalls outcome
  cases hresult : outcome.result with
  | error e =>
    simp only [advanceCall, hresult] at hkept ⊢
    refine h.advance hcalls [.closing job (.error e)] hkept ?_
    exact h.advancesJob hcalls (h.calm rfl rfl rfl rfl rfl rfl) rfl rfl (fun _ _ => trivial)
      (fun _ => rfl) (h.stacked_same hcalls rfl rfl) fun _ _ => rfl
  | ok u =>
    simp only [advanceCall, hresult] at hkept ⊢
    refine h.advance hcalls [.checking job s.opened] hkept ?_
    exact h.advancesJob hcalls (h.calm rfl rfl rfl rfl rfl rfl) rfl rfl (fun _ => False.elim)
      (fun _ => rfl) (h.stacked_same hcalls rfl rfl) fun _ _ => rfl

theorem Safe.checking (h : s.Safe) {job : LoaderJob} {library : Nat}
    (hcalls : s.calls thread = .checking job library :: rest) (outcome : Outcome) :
    (s.advanceCall thread rest outcome (.checking job library)).Safe := by
  have hkept := kept_advanceCall h.kept hcalls outcome
  cases hresult : outcome.result with
  | error e =>
    simp only [advanceCall, hresult] at hkept ⊢
    refine h.advance hcalls [.closing job (.error e)] hkept ?_
    exact h.advancesJob hcalls (h.calm rfl rfl rfl rfl rfl rfl) rfl rfl (fun _ _ => trivial)
      (fun _ => rfl) (h.stacked_same hcalls rfl rfl) fun _ _ => rfl
  | ok u =>
    simp only [advanceCall, hresult] at hkept ⊢
    refine h.advance hcalls [.initializing job library] hkept ?_
    exact h.advancesJob hcalls (h.calm rfl rfl rfl rfl rfl rfl) rfl rfl (fun _ => False.elim)
      (fun _ => rfl) (stacked_push (initStackOn_push ..) rfl rfl)
      fun t ht => initStackOn_push_ne _ _ _ ht

theorem Safe.initializing (h : s.Safe) {job : LoaderJob} {library : Nat}
    (hcalls : s.calls thread = .initializing job library :: rest) (outcome : Outcome) :
    (s.advanceCall thread rest outcome (.initializing job library)).Safe := by
  have hkept := kept_advanceCall h.kept hcalls outcome
  cases hresult : outcome.result with
  | error e =>
    simp only [advanceCall, hresult] at hkept ⊢
    refine h.advance hcalls [.scheduling job library (.error e)] hkept ?_
    exact h.advancesJob hcalls (h.calm rfl (registry_pop ..) rfl rfl rfl rfl) rfl rfl
      (fun _ _ => trivial) (fun _ => rfl) (stacked_pop (initStackOn_pop ..) rfl rfl)
      fun t ht => initStackOn_pop_ne _ _ ht
  | ok u =>
    simp only [advanceCall, hresult] at hkept ⊢
    refine h.advance hcalls [.inserting job library] hkept ?_
    exact h.advancesJob hcalls (h.calm rfl (registry_pop ..) rfl rfl rfl rfl) rfl rfl
      (fun _ horigin => horigin) (fun _ => rfl) (stacked_pop (initStackOn_pop ..) rfl rfl)
      fun t ht => initStackOn_pop_ne _ _ ht

theorem Safe.foreign (h : s.Safe) {job : LoaderJob} (hcalls : s.calls thread = .foreign job :: rest)
    (outcome : Outcome) : (s.advanceCall thread rest outcome (.foreign job)).Safe := by
  refine h.advance hcalls [.closing job outcome.result]
    (kept_advanceCall h.kept hcalls outcome) ?_
  exact h.advancesJob hcalls (h.calm rfl (registry_pop ..) rfl rfl rfl rfl) rfl rfl
    (fun _ => False.elim) (fun _ => rfl) (stacked_pop (initStackOn_pop ..) rfl rfl)
    fun t ht => initStackOn_pop_ne _ _ ht

/-- A deferral leaves what is protected. -/
theorem Safe.calm_scheduleReclaim (h : s.Safe) (library : Nat) :
    Calm s (s.scheduleReclaim library) where
  calls := rfl
  tidy := h.tidy
  same _ _ := sameFor_of_eq rfl rfl rfl rfl h.tidy
  staged _ := rfl
  nextGuard := rfl
  pinned := rfl
  safe _ _ h := h.exec (.defer library) (by simp)

theorem Safe.scheduling (h : s.Safe) {job : LoaderJob} {library : Nat}
    {loaded : Except LoaderError Unit}
    (hcalls : s.calls thread = .scheduling job library loaded :: rest) (outcome : Outcome) :
    (s.advanceCall thread rest outcome (.scheduling job library loaded)).Safe := by
  refine h.advance hcalls [.closing job loaded] (kept_advanceCall h.kept hcalls outcome) ?_
  refine h.advancesJob hcalls (h.calm_scheduleReclaim library) rfl rfl (fun _ horigin => ?_)
    (fun hkeeps => ?_) (h.stacked_same hcalls rfl rfl) fun _ _ => rfl
  · cases loaded with
    | error e => trivial
    | ok u => exact horigin
  · cases loaded with
    | error e => rfl
    | ok u => cases hkeeps

/-- The library of a load or a reload takes its place in the map. -/
theorem Safe.inserting (h : s.Safe) {job : LoaderJob} {library : Nat}
    (hcalls : s.calls thread = .inserting job library :: rest) (outcome : Outcome) :
    (s.advanceCall thread rest outcome (.inserting job library)).Safe := by
  have hkept := kept_advanceCall h.kept hcalls outcome
  have hadv : ∀ next : NativeCall, next.job? = some job → next.keepsOld = false →
      initIds [next] = [] →
      (∀ l, (s.libraries.insert job.bundleId library).lookup job.bundleId = some l →
        Origin { s with libraries := s.libraries.insert job.bundleId library } l next) →
      Advances s { s with libraries := s.libraries.insert job.bundleId library } thread
        (.inserting job library) [next] := by
    intro next hnext hkeeps hids horigin
    have hok := (h.top_ok hcalls).job job rfl
    refine
      { calls := rfl
        tidy := h.tidy
        changes := ?_
        guards := ?_
        nextGuard := le_rfl
        pinned := fun _ hg _ => hg
        newGuards := fun c hc guard hguard => ?_
        safe := fun _ _ _ hprotected => hprotected
        stacked := h.stacked_same hcalls rfl hids
        stackedElse := fun _ _ => rfl
        staged := h.staged_same hcalls rfl ?_
        stagedElse := fun _ _ => rfl
        same := fun t b hb => ?_
        ok := fun c hc => ?_
        freed := fun b hb hno => ?_ }
    · rw [List.mem_singleton.1 hc, NativeCall.guard_of_job hnext] at hguard
      cases hguard
    · simp only [loadIds, List.filterMap_cons]
      rw [NativeCall.loads_of_job
        (show next.job? = (NativeCall.inserting job library).job? from hnext)]
    · refine sameFor_of_eq rfl rfl ?_ rfl h.tidy
      rw [lookup_insert_eq, if_neg]
      rintro rfl
      exact hb rfl
    · rw [List.mem_singleton.1 hc]
      refine callOk_of_job hnext ⟨fun ptr hptr l hcode => horigin l ?_, ?_⟩
      · have hl : l = library := hok.new ptr hptr l hcode
        rw [lookup_insert_eq, if_pos rfl, hl]
      · cases job with
        | load env manifest b opts => exact hok.old
        | reload replacement slotIndices =>
          refine ⟨hok.old.1, fun hold => ?_⟩
          rw [hkeeps] at hold
          cases hold
    · exact absurd ((NativeCall.changes_of_job hnext).trans hb) (hno next List.mem_cons_self)
    · rw [List.filterMap_cons_some (NativeCall.changes_of_job hnext)]
      exact .refl _
    · rw [List.filterMap_cons_none (NativeCall.guard_of_job hnext)]
      exact List.nil_sublist _
  cases hlookup : s.libraries.lookup job.bundleId with
  | none =>
    simp only [advanceCall, hlookup] at hkept ⊢
    exact h.advance hcalls [.closing job (.ok ())] hkept (hadv _ rfl rfl rfl fun _ hl => hl)
  | some superseded =>
    simp only [advanceCall, hlookup] at hkept ⊢
    exact h.advance hcalls [.scheduling job superseded (.ok ())] hkept
      (hadv _ rfl rfl rfl fun _ hl => hl)

/-- The loader of a load or a reload is called. -/
theorem Safe.callLoader (h : s.Safe) (hcalls : s.calls thread = call :: rest) {job : LoaderJob}
    (hcalm : Calm s mid) (hjob : call.job? = some job) (hids : initIds [call] = [])
    (horigin : ∀ library, ¬ s.Origin library call)
    (hstack : ∀ t, mid.runtime.initStackOn t = s.runtime.initStackOn t)
    (hkeeps : call.keepsOld = true) (hkept : (mid.callLoader thread rest job).Kept) :
    (mid.callLoader thread rest job).Safe := by
  unfold LibraryHost.callLoader at hkept ⊢
  by_cases hnative : job.isNative = true
  · rw [if_pos hnative] at hkept ⊢
    refine h.advance hcalls [.opening job] hkept ?_
    exact h.advancesJob hcalls hcalm hjob rfl (fun library hl => absurd hl (horigin library))
      (fun _ => hkeeps) (h.stacked_same hcalls (hstack thread) hids.symm) fun t _ => hstack t
  · rw [if_neg hnative] at hkept ⊢
    have hpushed : Calm s { mid with
        runtime := mid.runtime.pushInitBundleId thread job.bundleId.id } :=
      { calls := hcalm.calls
        tidy := hcalm.tidy
        same := fun t b => ⟨(hcalm.same t b).live, (hcalm.same t b).staged,
          (hcalm.same t b).library,
          (hcalm.same t b).tidy, (hcalm.same t b).code⟩
        staged := hcalm.staged
        nextGuard := hcalm.nextGuard
        pinned := hcalm.pinned
        safe := hcalm.safe }
    refine h.advance hcalls [.foreign job] hkept ?_
    refine h.advancesJob hcalls hpushed hjob rfl (fun library hl => absurd hl (horigin library))
      (fun _ => hkeeps) (stacked_push ?_ hids rfl) fun t ht => ?_
    · show (mid.runtime.pushInitBundleId thread job.bundleId.id).initStackOn thread = _
      rw [initStackOn_push, hstack]
    · show (mid.runtime.pushInitBundleId thread job.bundleId.id).initStackOn t = _
      rw [initStackOn_push_ne _ _ _ ht, hstack]

/-- A reload opens its window. -/
theorem Safe.snapshot (h : s.Safe) {job : LoaderJob}
    (hcalls : s.calls thread = .snapshot job :: rest) (outcome : Outcome)
    (hlength : (s.advanceCall thread rest outcome
      (.snapshot job)).runtime.registry.data.slots.length ≤ 2 ^ 32) :
    (s.advanceCall thread rest outcome (.snapshot job)).Safe := by
  have hop : TidyStep s.runtime.registry (.beginReload job.bundleId) := by
    refine ⟨trivial, ?_⟩
    have hslots : (s.advanceCall thread rest outcome (.snapshot job)).runtime.registry.data.slots
        = (s.runtime.registry.exec (.beginReload job.bundleId)).data.slots := by
      simp only [advanceCall, LibraryHost.callLoader]
      by_cases hnative : job.isNative = true
      · rw [if_pos hnative]
        rfl
      · rw [if_neg hnative]
        rfl
    rwa [← hslots]
  have htidy := (exec_effect h.tidy hop).1
  refine h.callLoader hcalls ?_ rfl rfl (fun _ => id) (fun _ => rfl) rfl
    (kept_advanceCall h.kept hcalls outcome)
  exact
    { calls := rfl
      tidy := htidy
      same := fun _ _ =>
        ⟨fun _ _ => Iff.rfl, fun _ _ => Iff.rfl, rfl, ⟨h.tidy.consistent, htidy.consistent⟩,
          fun _ _ => rfl⟩
      staged := fun _ => rfl
      nextGuard := rfl
      pinned := rfl
      safe := fun _ _ hprotected => hprotected }

/-! ### The end of a load or a reload -/

/-- A call that follows one for the bundle and runs no guest. -/
structure Follows (b : BundleId) (next : NativeCall) : Prop where
  changes : next.changes = some b
  guard : next.guard? = none
  init : next.init? = none
  loads : next.loads? = none

/-- A step of a call for a bundle, which changes what the registry or the map has for it. -/
theorem Safe.advancesOn (h : s.Safe) (hcalls : s.calls thread = call :: rest) {b : BundleId}
    (hchanges : call.changes = some b) (hids : initIds [call] = []) (hmid : mid.calls = s.calls)
    (htidy : mid.runtime.registry.Tidy) (hnew : new = [] ∨ ∃ next, new = [next] ∧ Follows b next)
    (hnextGuard : mid.nextGuard = s.nextGuard) (hpinned : mid.epoch.pinned = s.epoch.pinned)
    (hsafe : ∀ guard library, s.epoch.Protected guard library → mid.epoch.Protected guard library)
    (hstack : ∀ t, mid.runtime.initStackOn t = s.runtime.initStackOn t)
    (hstaged : mid.stagedIds thread = (s.stagedIds thread).drop (loadIds [call]).length)
    (hstagedElse : ∀ t, t ≠ thread → mid.runtime.registry.staged t = s.runtime.registry.staged t)
    (hsame : ∀ t x, x ≠ b → SameFor s mid t x) (hok : ∀ c ∈ new, mid.CallOk thread c)
    (hfreed : new = [] → mid.Backs b) : Advances s mid thread call new where
  calls := hmid
  tidy := htidy
  changes := by
    rw [hchanges]
    rcases hnew with rfl | ⟨next, rfl, hnext⟩
    · exact List.nil_sublist _
    · rw [List.filterMap_cons_some hnext.changes]
      exact .refl _
  guards := by
    rcases hnew with rfl | ⟨next, rfl, hnext⟩
    · exact List.nil_sublist _
    · rw [List.filterMap_cons_none hnext.guard]
      exact List.nil_sublist _
  nextGuard := hnextGuard.ge
  pinned guard hg _ := by rwa [hpinned]
  newGuards c hc guard hguard := by
    rcases hnew with rfl | ⟨next, rfl, hnext⟩
    · exact absurd hc List.not_mem_nil
    · rw [List.mem_singleton.1 hc, hnext.guard] at hguard
      cases hguard
  safe guard library _ := hsafe guard library
  stacked := by
    have hnone : initIds new = [] := by
      rcases hnew with rfl | ⟨next, rfl, hnext⟩
      · rfl
      · simp [initIds, hnext.init]
    exact h.stacked_same hcalls (hstack thread) (hnone.trans hids.symm)
  stackedElse t _ := hstack t
  staged := by
    have hnone : loadIds new = [] := by
      rcases hnew with rfl | ⟨next, rfl, hnext⟩
      · rfl
      · simp [loadIds, hnext.loads]
    rw [hnone, hstaged, List.nil_append]
  stagedElse := hstagedElse
  same t x hx := hsame t x fun heq => hx (by rw [hchanges, heq])
  ok := hok
  freed x hx hno := by
    rw [hchanges] at hx
    cases hx
    rcases hnew with rfl | ⟨next, rfl, hnext⟩
    · exact hfreed rfl
    · exact absurd hnext.changes (hno next List.mem_cons_self)

end

/-! ### The staged bundle of a load -/

section
variable {rt : Runtime} {thread : ThreadId} {b : BundleId} {e : PreparedBundleRegistration}
  {l : List PreparedBundleRegistration}

/-- The runtime with the staged bundle of the load taken away. -/
theorem discard_staged (hstaged : rt.registry.staged thread = e :: l) (he : e.isFor b = true) :
    rt.discardPreparedBundle thread b = rt.setStaged thread l.reverse := by
  rcases discardPreparedBundle_cases rt thread b with ⟨hfind, -⟩ | ⟨r, l', -, hl', heq⟩
  · rw [hstaged, List.find?_cons_of_pos he] at hfind
    cases hfind
  · rw [hstaged, List.eraseP_cons_of_pos he] at hl'
    rw [heq, ← hl', List.reverse_reverse]

theorem discard_nothing (hnone : ∀ e ∈ rt.registry.staged thread, e.isFor b = false) :
    rt.discardPreparedBundle thread b = rt := by
  rcases discardPreparedBundle_cases rt thread b with ⟨-, heq⟩ | ⟨r, l', hfind, -, -⟩
  · exact heq
  · have hfor := List.find?_some hfind
    rw [hnone r (List.mem_of_find?_eq_some hfind)] at hfor
    cases hfor

/-- A load ends with nothing published, or with its staged contracts registered. -/
theorem finishLoad_cases (env : LoadEnv) (hstaged : rt.registry.staged env.thread = e :: l)
    (he : e.isFor b = true) (hl : ∀ e' ∈ l, e'.isFor b = false) (opts : LoadOptions)
    (loaded : Except LoaderError Unit) :
    (∃ error, rt.finishLoad env b opts loaded = (.error error, rt.setStaged env.thread l.reverse)) ∨
    loaded = .ok () ∧ ∃ version rt', rt.finishLoad env b opts loaded = (.ok (), rt') ∧
      rt'.registry.data = ((rt.setStaged env.thread l.reverse).registry.exec
        (.registerPreparedBundle (Runtime.preparedDescriptor e b version)
          (Runtime.preparedDependencies e.manifest) e.contracts)).data ∧
      rt'.registry.published = ((rt.setStaged env.thread l.reverse).registry.exec
        (.registerPreparedBundle (Runtime.preparedDescriptor e b version)
          (Runtime.preparedDependencies e.manifest) e.contracts)).published ∧
      (∀ t, rt'.registry.staged t = (rt.setStaged env.thread l.reverse).registry.staged t) ∧
      ∀ t, rt'.initStackOn t = rt.initStackOn t := by
  cases loaded with
  | error error =>
    refine .inl ⟨.loader error, ?_⟩
    rw [Runtime.finishLoad, discard_staged hstaged he]
  | ok u =>
    have htaken : rt.commitPreparedBundleTransactionWithHandles env.thread b opts
        = (rt.setStaged env.thread l.reverse).publishPrepared e b opts := by
      rcases commit_cases rt env.thread b opts with ⟨hfind, -⟩ | ⟨r, l', hfind, hl', heq⟩
      · rw [hstaged, List.find?_cons_of_pos he] at hfind
        cases hfind
      · rw [hstaged, List.find?_cons_of_pos he] at hfind
        rw [hstaged, List.eraseP_cons_of_pos he] at hl'
        cases hfind
        rw [heq, ← hl', List.reverse_reverse]
    have hnone : (rt.setStaged env.thread l.reverse).discardPreparedBundle env.thread b
        = rt.setStaged env.thread l.reverse := by
      refine discard_nothing fun e' he' => hl e' ?_
      have hset : (rt.setStaged env.thread l.reverse).registry.staged env.thread = l := by
        rw [Runtime.setStaged, staged_setPreparedOn, List.reverse_reverse]
      rwa [hset] at he'
    rcases publishPrepared_ends (rt.setStaged env.thread l.reverse) b e opts with
      ⟨error, heq⟩ | ⟨version, handles, registry, hregister, heq⟩
    · refine .inl ⟨error, ?_⟩
      simp only [Runtime.finishLoad, htaken, heq, hnone]
    · have hended : rt.finishLoad env b opts (.ok u)
          = (.ok (), ((rt.setStaged env.thread l.reverse).publishPrepared e b opts).2) := by
        simp only [Runtime.finishLoad, htaken, heq]
      rw [heq] at hended
      refine .inr ⟨rfl, version, _, hended, ?_, ?_, fun t => ?_, fun t => ?_⟩
      · simp only [RuntimeStore.exec, hregister]
      · simp only [RuntimeStore.exec, hregister]
      · have hbeside := (exec_beside (rt.setStaged env.thread l.reverse).registry
          (.registerPreparedBundle (Runtime.preparedDescriptor e b version)
            (Runtime.preparedDependencies e.manifest) e.contracts)).1
        simp only [RuntimeStore.exec, hregister] at hbeside
        simp only [RuntimeStore.staged, RuntimeStore.preparedOn, hbeside]
      · rfl

end

section
variable {s mid : LibraryHost} {thread : ThreadId} {call : NativeCall} {new rest : List NativeCall}

/-- The staged bundle of the load at the top is the innermost one, and the only one of its
bundle. -/
theorem Safe.staged_top (h : s.Safe) (hcalls : s.calls thread = call :: rest) {b : BundleId}
    (hloads : call.loads? = some b) :
    ∃ e l, s.runtime.registry.staged thread = e :: l ∧ e.isFor b = true ∧
      ∀ e' ∈ l, e'.isFor b = false := by
  have hids := h.staged thread
  rw [hcalls, stagedIds, loadIds, List.filterMap_cons_some hloads, List.map_cons] at hids
  cases hstaged : s.runtime.registry.staged thread with
  | nil =>
    rw [hstaged] at hids
    cases hids
  | cons e l =>
    rw [hstaged, List.map_cons] at hids
    obtain ⟨hid, htail⟩ := List.cons.inj hids
    refine ⟨e, l, rfl, decide_eq_true hid, fun e' he' => decide_eq_false fun heq => ?_⟩
    -- A second load of the bundle would be below this one.
    have hmem : b.id ∈ (rest.filterMap NativeCall.loads?).map BundleId.id := by
      rw [← htail, ← heq]
      exact List.mem_map_of_mem he'
    obtain ⟨b', hb', hidb⟩ := List.mem_map.1 hmem
    cases bundleId_injective hidb
    obtain ⟨c, hc, hcb⟩ := List.mem_filterMap.1 hb'
    exact h.single.not_below hcalls (NativeCall.changes_of_loads hloads) hc
      (NativeCall.changes_of_loads hcb)

/-- The end of a load. -/
theorem Safe.closingLoad (h : s.Safe) {env : LoadEnv} {manifest : ManifestData} {b : BundleId}
    {opts : LoadOptions} {loaded : Except LoaderError Unit}
    (hcalls : s.calls thread = .closing (.load env manifest b opts) loaded :: rest)
    (hkept : (s.close thread rest loaded (.load env manifest b opts)).Kept)
    (hlength : (s.close thread rest loaded
      (.load env manifest b opts)).runtime.registry.data.slots.length ≤ 2 ^ 32) :
    (s.close thread rest loaded (.load env manifest b opts)).Safe := by
  have hok := (h.top_ok hcalls).job _ rfl
  obtain ⟨rfl, habsent⟩ : env.thread = thread ∧ s.Absent b := hok.old
  obtain ⟨e, l, hstaged, he, hl⟩ := h.staged_top hcalls (b := b) rfl
  obtain ⟨store, hstore⟩ : ∃ store, store = (s.runtime.setStaged env.thread l.reverse).registry :=
    ⟨_, rfl⟩
  have hstoreTidy : store.Tidy := by
    rw [hstore]
    exact h.tidy.of_core rfl rfl
  have htop : store.staged env.thread = l := by
    rw [hstore, Runtime.setStaged, staged_setPreparedOn, List.reverse_reverse]
  have hother : ∀ t, t ≠ env.thread → store.staged t = s.runtime.registry.staged t := by
    intro t ht
    rw [hstore, Runtime.setStaged, RuntimeStore.staged, preparedOn_setPreparedOn_ne _ _ _ ht]
    rfl
  have hdropped : (store.staged env.thread).map (fun e => e.manifest.id)
      = (s.stagedIds env.thread).drop 1 := by
    rw [htop, stagedIds, hstaged]
    rfl
  have hforeign : ∀ t x, x ≠ b → ∀ e', e'.isFor x = true →
      (e' ∈ store.staged t ↔ e' ∈ s.runtime.registry.staged t) := by
    intro t x hx e' he'
    by_cases ht : t = env.thread
    · subst ht
      rw [htop, hstaged]
      exact (mem_cons_of_isFor_ne he hx he').symm
    · rw [hother t ht]
  -- The load is dropped, or its commit registers what was staged.
  rcases finishLoad_cases env hstaged he hl opts loaded with
    ⟨error, heq⟩ | ⟨rfl, version, rt', heq, hdata, hpublished, hstagedRt, hinit⟩
  · simp only [LibraryHost.close, heq] at hkept ⊢
    have hsame : ∀ t x, x ≠ b →
        SameFor s { s with runtime := s.runtime.setStaged env.thread l.reverse } t x := by
      intro t x hx
      refine ⟨fun _ _ => Iff.rfl, ?_, rfl, ⟨h.tidy.consistent, h.tidy.consistent⟩, fun _ _ => rfl⟩
      intro e' he'
      have hiff := hforeign t x hx e' he'
      rwa [hstore] at hiff
    have hadv : ∀ new : List NativeCall, (new = [] ∨ ∃ next, new = [next] ∧ Follows b next) →
        (∀ c ∈ new, c.clears? = some b) →
        Advances s { s with runtime := s.runtime.setStaged env.thread l.reverse } env.thread
          (.closing (.load env manifest b opts) loaded) new := by
      intro new hnew hclears
      refine h.advancesOn hcalls rfl rfl rfl (h.tidy.of_core rfl rfl) hnew rfl rfl
        (fun _ _ hprotected => hprotected) (fun _ => rfl) ?_ ?_ hsame ?_ ?_
      · rw [hstore] at hdropped
        exact hdropped
      · intro t ht
        rw [← hother t ht, hstore]
      · intro c hc
        exact callOk_of_absent (hclears c hc) habsent
      · intro _
        exact Absent.backs habsent
    -- A native loader has hooks to take back.
    by_cases hnative : (LoaderJob.load env manifest b opts).isNative = true
    · rw [if_pos hnative] at hkept ⊢
      refine h.advance hcalls [.unhooking b] hkept (hadv _ (.inr ⟨_, rfl, rfl, rfl, rfl, rfl⟩) ?_)
      intro c hc
      rw [List.mem_singleton.1 hc]
      rfl
    · rw [if_neg hnative] at hkept ⊢
      exact h.advance hcalls [] hkept (hadv _ (.inl rfl) fun c hc => absurd hc List.not_mem_nil)
  · simp only [LibraryHost.close, heq] at hkept hlength ⊢
    rw [← hstore] at hdata hpublished hstagedRt
    -- The commit is a registry call on the store without the staged bundle.
    have hop : TidyStep store (.registerPreparedBundle (Runtime.preparedDescriptor e b version)
        (Runtime.preparedDependencies e.manifest) e.contracts) := by
      refine ⟨trivial, ?_⟩
      rw [← hdata]
      exact hlength
    obtain ⟨htidy, heffect⟩ := exec_effect hstoreTidy hop
    have hstoreData : store.data = s.runtime.registry.data := by
      rw [hstore]
      rfl
    refine h.advance hcalls [] hkept ?_
    refine h.advancesOn hcalls rfl rfl rfl (htidy.of_core hdata hpublished) (.inl rfl) rfl rfl
      (fun _ _ hprotected => hprotected) hinit ?_ ?_ ?_
      (fun c hc => absurd hc List.not_mem_nil) fun _ => ?_
    · show (rt'.registry.staged env.thread).map (fun e => e.manifest.id) = _
      rw [hstagedRt]
      exact hdropped
    · intro t ht
      show rt'.registry.staged t = _
      rw [hstagedRt, hother t ht]
    · intro t x hx
      refine sameFor_of_exec hstoreData hstoreTidy hop hx hdata ?_ rfl fun _ _ => rfl
      intro e' he'
      show e' ∈ rt'.registry.staged t ↔ _
      rw [hstagedRt]
      exact hforeign t x hx e' he'
    · -- What is registered now was staged.
      rintro i g ⟨hg, rfl⟩ library hcode
      have hg' : (store.exec (.registerPreparedBundle (Runtime.preparedDescriptor e g.owner version)
          (Runtime.preparedDependencies e.manifest) e.contracts)).data.catalog.content i
          = some g := by
        rw [← hdata]
        exact hg
      rcases heffect.source i g hg' with ⟨j, hj⟩ | ⟨-, contract, hcontract, harc⟩
      · rw [hstoreData] at hj
        exact absurd ⟨hj, rfl⟩ (habsent j g)
      · refine hok.new g.arc.ptr ⟨e, ?_, he, contract, hcontract, by rw [harc]⟩ library hcode
        rw [hstaged]
        exact List.mem_cons_self

/-- A registry call of a call for a bundle. -/
theorem Safe.advancesExec (h : s.Safe) (store : RuntimeStore)
    (hcalls : s.calls thread = call :: rest) {b : BundleId}
    (hchanges : call.changes = some b) (hids : initIds [call] = []) (hloads : loadIds [call] = [])
    {o : StoreOp} (hstore : store.data = s.runtime.registry.data)
    (hpublished : store.published = s.runtime.registry.published)
    (hprepared : store.preparedBundles = s.runtime.registry.preparedBundles)
    (hop : TidyStep store o) (hbundle : o.bundleId = b) {rt : Runtime}
    (hregistry : rt.registry = store.exec o)
    (hstack : rt.initBundleStack = s.runtime.initBundleStack)
    (hnew : new = [] ∨ ∃ next, new = [next] ∧ Follows b next)
    (hok : ∀ c ∈ new, CallOk { s with runtime := rt } thread c)
    (hfreed : new = [] → Backs { s with runtime := rt } b) :
    Advances s { s with runtime := rt } thread call new := by
  have hstaged : ∀ t, rt.registry.staged t = s.runtime.registry.staged t := by
    intro t
    rw [hregistry]
    simp only [RuntimeStore.staged, RuntimeStore.preparedOn, (exec_beside store o).1, hprepared]
  have htidy : store.Tidy := h.tidy.of_core hstore hpublished
  refine h.advancesOn hcalls hchanges hids rfl ?_ hnew rfl rfl (fun _ _ hprotected => hprotected)
    (fun t => ?_) ?_ (fun t _ => hstaged t) (fun t x hx => ?_) hok hfreed
  · show rt.registry.Tidy
    rw [hregistry]
    exact (exec_effect htidy hop).1
  · show rt.initStackOn t = _
    rw [Runtime.initStackOn, hstack]
    rfl
  · rw [hloads]
    show (rt.registry.staged thread).map (fun e => e.manifest.id) = _
    rw [hstaged]
    rfl
  · refine sameFor_of_exec hstore htidy hop (hbundle ▸ hx) (congrArg RuntimeStore.data hregistry)
      (fun e _ => ?_) rfl fun _ _ => rfl
    show e ∈ rt.registry.staged t ↔ _
    rw [hstaged]

/-- The end of a reload. -/
theorem Safe.closingReload (h : s.Safe) {replacement : Replacement} {slotIndices : List Nat}
    {loaded : Except LoaderError Unit}
    (hcalls : s.calls thread = .closing (.reload replacement slotIndices) loaded :: rest)
    (hkept : (s.close thread rest loaded (.reload replacement slotIndices)).Kept)
    (hlength : (s.close thread rest loaded
      (.reload replacement slotIndices)).runtime.registry.data.slots.length ≤ 2 ^ 32) :
    (s.close thread rest loaded (.reload replacement slotIndices)).Safe := by
  have hok := (h.top_ok hcalls).job _ rfl
  obtain ⟨hown, hrooted⟩ := hok.old
  cases loaded with
  | error e =>
    simp only [LibraryHost.close, Runtime.swapReload] at hkept hlength ⊢
    refine h.advance hcalls [] hkept ?_
    refine h.advancesExec s.runtime.registry hcalls rfl rfl rfl rfl rfl rfl
      (o := .abortReload replacement.descriptor.id slotIndices) ⟨trivial, hlength⟩ rfl rfl rfl
      (.inl rfl) (fun c hc => absurd hc List.not_mem_nil) fun _ => ?_
    rintro i g ⟨hg, howner⟩
    obtain ⟨hwas, hi⟩ := live_abortReload h.tidy hg howner
    exact hrooted rfl i g ⟨hwas, howner⟩ hi
  | ok u =>
    rcases live_applyReloadSwap h.tidy hown replacement.descriptor replacement.dependencies with
      ⟨store, heq, hlive⟩ | ⟨e, store, heq, hlive⟩
    · simp only [LibraryHost.close, Runtime.swapReload, heq] at hkept hlength ⊢
      have hexec : s.runtime.registry.exec (.applyReloadSwap replacement.descriptor.id slotIndices
          replacement.descriptor replacement.dependencies) = store := by
        simp only [RuntimeStore.exec, heq]
      -- The interfaces that are left are those of the new library.
      have hbacks : ∀ i g, store.data.catalog.content i = some g →
          g.owner = replacement.descriptor.id →
          s.Rooted replacement.descriptor.id g.arc.ptr := by
        intro i g hg howner library hcode
        obtain ⟨n, hn, hwas⟩ := hlive i g hg howner
        exact hok.new g.arc.ptr ⟨n, g, ⟨hwas, howner⟩, hn, rfl⟩ library hcode
      refine h.advance hcalls [.resetting replacement.descriptor.id] hkept ?_
      refine h.advancesExec s.runtime.registry hcalls rfl rfl rfl rfl rfl rfl
        (o := .applyReloadSwap replacement.descriptor.id slotIndices replacement.descriptor
          replacement.dependencies) ⟨hown, by rw [hexec]; exact hlength⟩ rfl hexec.symm rfl
        (.inr ⟨_, rfl, rfl, rfl, rfl, rfl⟩) (fun c hc => ?_) (fun hnil => by cases hnil)
      rw [List.mem_singleton.1 hc]
      refine callOk_of_backs rfl ?_
      rintro i g ⟨hg, howner⟩
      exact hbacks i g hg howner
    · simp only [LibraryHost.close, Runtime.swapReload, heq] at hkept hlength ⊢
      have hexec : s.runtime.registry.exec (.applyReloadSwap replacement.descriptor.id slotIndices
          replacement.descriptor replacement.dependencies) = store := by
        simp only [RuntimeStore.exec, heq]
      refine h.advance hcalls [] hkept ?_
      refine h.advancesExec s.runtime.registry hcalls rfl rfl rfl rfl rfl rfl
        (o := .applyReloadSwap replacement.descriptor.id slotIndices replacement.descriptor
          replacement.dependencies) ⟨hown, by rw [hexec]; exact hlength⟩ rfl hexec.symm rfl
        (.inl rfl) (fun c hc => absurd hc List.not_mem_nil) fun _ => ?_
      rintro i g ⟨hg, howner⟩
      exact absurd howner (hlive i g hg)

/-! ### The steps of an unload -/

/-- A step of a call for a bundle that leaves the registry. -/
theorem Safe.advancesStill (h : s.Safe) (hcalls : s.calls thread = call :: rest) {b : BundleId}
    (hchanges : call.changes = some b) (hids : initIds [call] = []) (hloads : loadIds [call] = [])
    (hmid : mid.calls = s.calls) (hregistry : mid.runtime.registry = s.runtime.registry)
    (hstack : mid.runtime.initBundleStack = s.runtime.initBundleStack) (hcode : mid.code = s.code)
    (hlibraries : ∀ x, x ≠ b → mid.libraries.lookup x = s.libraries.lookup x)
    (hnextGuard : mid.nextGuard = s.nextGuard) (hpinned : mid.epoch.pinned = s.epoch.pinned)
    (hsafe : ∀ guard library, s.epoch.Protected guard library → mid.epoch.Protected guard library)
    (hnew : new = [] ∨ ∃ next, new = [next] ∧ Follows b next)
    (hok : ∀ c ∈ new, mid.CallOk thread c) (hfreed : new = [] → mid.Backs b) :
    Advances s mid thread call new := by
  refine h.advancesOn hcalls hchanges hids hmid ?_ hnew hnextGuard hpinned hsafe (fun t => ?_) ?_
    (fun t _ => by rw [hregistry]) (fun t x hx => ?_) hok hfreed
  · rw [hregistry]
    exact h.tidy
  · rw [Runtime.initStackOn, hstack]
    rfl
  · rw [hloads, stagedIds, hregistry]
    rfl
  · exact sameFor_of_eq (by rw [hregistry]) (by rw [hregistry]) (hlibraries x hx) hcode h.tidy

theorem Safe.resetting (h : s.Safe) {b : BundleId} (hcalls : s.calls thread = .resetting b :: rest)
    (outcome : Outcome) : (s.advanceCall thread rest outcome (.resetting b)).Safe := by
  have hbacks : s.Backs b := (h.top_ok hcalls).backs b rfl
  refine h.advance hcalls [] (kept_advanceCall h.kept hcalls outcome) ?_
  exact h.advancesStill hcalls rfl rfl rfl rfl rfl rfl rfl (fun _ _ => rfl) rfl rfl
    (fun _ _ hprotected => hprotected) (.inl rfl)
    (fun c hc => absurd hc List.not_mem_nil) fun _ => hbacks

theorem Safe.unhooking (h : s.Safe) {b : BundleId} (hcalls : s.calls thread = .unhooking b :: rest)
    (outcome : Outcome) : (s.advanceCall thread rest outcome (.unhooking b)).Safe := by
  have hkept := kept_advanceCall h.kept hcalls outcome
  have habsent : s.Absent b := (h.top_ok hcalls).absent b rfl
  have hadv : ∀ new : List NativeCall, (new = [] ∨ ∃ next, new = [next] ∧ Follows b next) →
      (∀ c ∈ new, c.clears? = some b) →
      Advances s { s with libraries := s.libraries.erase b } thread (.unhooking b) new := by
    intro new hnew hclears
    refine h.advancesStill hcalls rfl rfl rfl rfl rfl rfl rfl (fun x hx => ?_) rfl rfl
      (fun _ _ hprotected => hprotected) hnew (fun c hc => ?_) fun _ => Absent.backs habsent
    · show (s.libraries.erase b).lookup x = _
      rw [lookup_erase_eq, if_neg hx]
    · exact callOk_of_absent (hclears c hc) habsent
  cases hlookup : s.libraries.lookup b with
  | none =>
    simp only [advanceCall, hlookup] at hkept ⊢
    exact h.advance hcalls [] hkept (hadv _ (.inl rfl) fun c hc => absurd hc List.not_mem_nil)
  | some library =>
    simp only [advanceCall, hlookup] at hkept ⊢
    refine h.advance hcalls [.unhooked b library] hkept
      (hadv _ (.inr ⟨_, rfl, rfl, rfl, rfl, rfl⟩) fun c hc => ?_)
    rw [List.mem_singleton.1 hc]
    rfl

theorem Safe.unhooked (h : s.Safe) {b : BundleId} {library : Nat}
    (hcalls : s.calls thread = .unhooked b library :: rest) (outcome : Outcome) :
    (s.advanceCall thread rest outcome (.unhooked b library)).Safe := by
  have habsent : s.Absent b := (h.top_ok hcalls).absent b rfl
  refine h.advance hcalls [] (kept_advanceCall h.kept hcalls outcome) ?_
  exact h.advancesStill hcalls rfl rfl rfl rfl rfl rfl rfl (fun _ _ => rfl) rfl rfl
    (h.calm_scheduleReclaim library).safe (.inl rfl) (fun c hc => absurd hc List.not_mem_nil)
    fun _ => Absent.backs habsent

/-- A section before the critical one leaves the runtime, and is followed by another such
section, the critical one or the return. -/
theorem advance_early (hooks : Hooks) (thread : ThreadId) (b dep : BundleId) (rt : Runtime)
    {phase : UnloadPhase}
    (hrests : (NativeCall.unloading b phase).rests? = some b)
    (hphase : ∀ descriptor loaderName, phase ≠ .checked descriptor loaderName) :
    (UnloadSystem.advance hooks thread b ⟨rt, phase⟩ dep).runtime = rt ∧
      (NativeCall.unloading b (UnloadSystem.advance hooks thread b ⟨rt, phase⟩ dep).phase).rests?
        = some b := by
  refine ⟨BackingSystem.advance_runtime hooks b dep rt hphase, ?_⟩
  cases phase with
  | idle =>
    simp only [UnloadSystem.advance]
    cases rt.registry.getBundleDescriptor b <;> rfl
  | described descriptor => rfl
  | exported descriptor contracts => rfl
  | naming descriptor remaining dependents =>
    simp only [UnloadSystem.advance]
    by_cases hempty : remaining = ∅
    · rw [if_pos hempty]
      by_cases hnone : dependents ≠ 0
      · rw [if_pos hnone]
        rfl
      · rw [if_neg hnone]
        rfl
    · rw [if_neg hempty]
      by_cases hdep : dep ∈ remaining
      · rw [if_pos hdep]
        rfl
      · rw [if_neg hdep]
        rfl
  | admitted descriptor =>
    simp only [UnloadSystem.advance]
    cases rt.ensureRegisteredBundleResidentAffinity thread b descriptor.name <;> rfl
  | checked descriptor loaderName => exact absurd rfl (hphase descriptor loaderName)
  | reclaiming loaderName => cases hrests
  | returned result => rfl

theorem follows_unloading (b : BundleId) (phase : UnloadPhase) : Follows b (.unloading b phase) :=
  ⟨rfl, rfl, rfl, rfl⟩

/-- The critical section of an unload. -/
theorem Safe.invalidating (h : s.Safe) {b : BundleId} {descriptor : BundleDescriptor}
    {loaderName : Option String} {dep : BundleId}
    (hcalls : s.calls thread = .unloading b (.checked descriptor loaderName) :: rest)
    (hkept : (s.advanceUnload thread rest b (.checked descriptor loaderName) dep).Kept)
    (hlength : (s.advanceUnload thread rest b (.checked descriptor
      loaderName) dep).runtime.registry.data.slots.length ≤ 2 ^ 32) :
    (s.advanceUnload thread rest b (.checked descriptor loaderName) dep).Safe := by
  have hbacks : s.Backs b := (h.top_ok hcalls).backs b rfl
  simp only [LibraryHost.advanceUnload, UnloadSystem.advance, Runtime.invalidateRegistered]
    at hkept hlength ⊢
  by_cases hlive : ((decide (b ∈ s.runtime.internalPluginLifecycle)
      || (s.runtime.internalPluginRoots.lookup b).isSome
      || (s.runtime.registry.internalPluginResidents.lookup b).isSome) = true ∧
      0 < (s.runtime.instanceCounts.lookup b).getD 0)
  · simp only [gt_iff_lt, if_pos hlive] at hkept ⊢
    refine h.advance hcalls [.unloading b _] hkept ?_
    refine h.advancesStill hcalls rfl rfl rfl rfl rfl rfl rfl (fun _ _ => rfl) rfl rfl
      (fun _ _ hprotected => hprotected) (.inr ⟨_, rfl, follows_unloading ..⟩) (fun c hc => ?_)
      (fun hnil => by cases hnil)
    rw [List.mem_singleton.1 hc]
    exact callOk_of_backs rfl hbacks
  · simp only [gt_iff_lt, if_neg hlive] at hkept hlength ⊢
    refine h.advance hcalls [.unloading b _] hkept ?_
    have hstore : RuntimeStore.Tidy { s.runtime.registry with
        internalPluginResidents := s.runtime.registry.internalPluginResidents.erase b } :=
      h.tidy.of_core rfl rfl
    refine h.advancesExec { s.runtime.registry with
        internalPluginResidents := s.runtime.registry.internalPluginResidents.erase b }
      hcalls rfl rfl rfl rfl rfl rfl (o := .invalidateBundle b) ⟨trivial, hlength⟩ rfl rfl rfl
      (.inr ⟨_, rfl, follows_unloading ..⟩) (fun c hc => ?_)
      (fun hnil => by cases hnil)
    rw [List.mem_singleton.1 hc]
    refine callOk_of_absent rfl ?_
    rintro i g ⟨hg, howner⟩
    exact live_invalidateBundle hstore hg howner

/-- A section of an unload. -/
theorem Safe.unloading (h : s.Safe) {b : BundleId} {phase : UnloadPhase} {dep : BundleId}
    (hcalls : s.calls thread = .unloading b phase :: rest)
    (hkept : (s.advanceUnload thread rest b phase dep).Kept)
    (hlength : (s.advanceUnload thread rest b phase
      dep).runtime.registry.data.slots.length ≤ 2 ^ 32) :
    (s.advanceUnload thread rest b phase dep).Safe := by
  -- A section that reads only.
  have hreads : (NativeCall.unloading b phase).rests? = some b →
      (∀ descriptor loaderName, phase ≠ .checked descriptor loaderName) →
      ∀ next, next = UnloadSystem.advance (fun _ => none) thread b ⟨s.runtime, phase⟩ dep →
      ({ s with runtime := next.runtime }.setCalls thread (.unloading b next.phase :: rest)).Kept →
      ({ s with runtime := next.runtime }.setCalls thread
        (.unloading b next.phase :: rest)).Safe := by
    intro hrests hphase next hnext hkept
    obtain ⟨hruntime, hphase'⟩ := advance_early (fun _ => none) thread b dep s.runtime
      hrests hphase
    rw [← hnext] at hruntime hphase'
    refine h.advance hcalls [.unloading b next.phase] hkept ?_
    refine h.advancesStill hcalls rfl rfl rfl rfl ?_ ?_ rfl (fun _ _ => rfl) rfl rfl
      (fun _ _ hprotected => hprotected) (.inr ⟨_, rfl, follows_unloading ..⟩) (fun c hc => ?_)
      (fun hnil => by cases hnil)
    · show next.runtime.registry = _
      rw [hruntime]
    · show next.runtime.initBundleStack = _
      rw [hruntime]
    · rw [List.mem_singleton.1 hc]
      refine callOk_of_backs hphase' ?_
      rw [hruntime]
      exact (h.top_ok hcalls).backs b hrests
  cases phase with
  | returned result =>
    have hbacks : s.Backs b := (h.top_ok hcalls).backs b rfl
    refine h.advance hcalls [] hkept ?_
    exact h.advancesStill hcalls rfl rfl rfl rfl rfl rfl rfl (fun _ _ => rfl) rfl rfl
      (fun _ _ hprotected => hprotected) (.inl rfl)
      (fun c hc => absurd hc List.not_mem_nil) fun _ => hbacks
  | reclaiming loaderName =>
    have habsent : s.Absent b := (h.top_ok hcalls).absent b rfl
    have hadv : ∀ new : List NativeCall, (new = [] ∨ ∃ next, new = [next] ∧ Follows b next) →
        (∀ c ∈ new, c.clears? = some b) →
        Advances s s thread (.unloading b (.reclaiming loaderName)) new := by
      intro new hnew hclears
      exact h.advancesStill hcalls rfl rfl rfl rfl rfl rfl rfl (fun _ _ => rfl) rfl rfl
        (fun _ _ hprotected => hprotected) hnew
        (fun c hc => callOk_of_absent (hclears c hc) habsent)
        fun _ => Absent.backs habsent
    simp only [LibraryHost.advanceUnload] at hkept ⊢
    by_cases hnative : loaderName = some "native"
    · rw [if_pos hnative] at hkept ⊢
      refine h.advance hcalls [.unhooking b] hkept
        (hadv _ (.inr ⟨_, rfl, rfl, rfl, rfl, rfl⟩) fun c hc => ?_)
      rw [List.mem_singleton.1 hc]
      rfl
    · rw [if_neg hnative] at hkept ⊢
      exact h.advance hcalls [] hkept (hadv _ (.inl rfl) fun c hc => absurd hc List.not_mem_nil)
  | checked descriptor loaderName => exact h.invalidating hcalls hkept hlength
  | idle => exact hreads rfl (by simp) _ rfl hkept
  | described descriptor => exact hreads rfl (by simp) _ rfl hkept
  | exported descriptor contracts => exact hreads rfl (by simp) _ rfl hkept
  | naming descriptor remaining dependents => exact hreads rfl (by simp) _ rfl hkept
  | admitted descriptor => exact hreads rfl (by simp) _ rfl hkept

/-! ### The steps of a constructor or destructor -/

/-- The interfaces of a bundle are those of its library in the map, outside of its reloads. -/
theorem Safe.backs (h : s.Safe) {b : BundleId} (hreload : ¬ s.Reloading b) : s.Backs b := by
  by_cases hbusy : s.Busy b
  · obtain ⟨t, c, hc, hchanges⟩ := hbusy
    have hok := h.ok t c hc
    rcases NativeCall.cases_of_changes hchanges with ⟨job, hjob, rfl⟩ | hclears | hrests
    · have hknows := hok.job job hjob
      cases job with
      | load env manifest b opts => exact Absent.backs hknows.old.2
      | reload replacement slotIndices => exact absurd ⟨t, c, hc, _, hjob, rfl, rfl⟩ hreload
    · exact Absent.backs (hok.absent b hclears)
    · exact hok.backs b hrests
  · exact h.quiet b hbusy

/-- The library of an interface that is found is not scheduled. -/
theorem Safe.reachable (h : s.Safe) {interface library : Nat} {b : BundleId}
    (hfound : s.runtime.registry.bundleIdForGuestInterface interface = some b)
    (hreload : ¬ s.Reloading b) (hcode : s.code interface = some library) :
    s.libraries.lookup b = some library ∧ library ∉ s.epoch.retired := by
  obtain ⟨g, ⟨slot, hslot, hregistered⟩, rfl, howner⟩ :=
    hasAddress_of_bundleIdForGuestInterface hfound
  obtain ⟨i, hi⟩ := List.getElem?_of_mem hslot
  have hlive : s.LiveAt b i g :=
    ⟨content_eq_some.mpr ⟨slot, hi, registration_eq_some.mp hregistered⟩, howner⟩
  have hlookup := h.backs hreload i g hlive library hcode
  exact ⟨hlookup, h.kept.not_retired hlookup⟩

/-- A call about an instance ends. -/
theorem Safe.unpins (h : s.Safe) {guard : Nat} {rt : Runtime}
    (hcalls : s.calls thread = call :: rest)
    (hkept : (({ s with runtime := rt }.unpin guard).setCalls thread rest).Kept)
    (hguard : call.guard? = some guard) (hregistry : rt.registry = s.runtime.registry)
    (hstack : ∀ t, rt.initStackOn t = s.runtime.initStackOn t) :
    (({ s with runtime := rt }.unpin guard).setCalls thread rest).Safe := by
  obtain ⟨hchanges, hinit, hloads⟩ := NativeCall.changes_of_guard hguard
  refine h.advance hcalls [] hkept ?_
  exact
    { calls := rfl
      tidy := by
        show rt.registry.Tidy
        rw [hregistry]
        exact h.tidy
      nextGuard := le_rfl
      pinned := fun g hg hne => by
        refine List.mem_filter.2 ⟨hg, decide_eq_true ?_⟩
        rintro rfl
        exact hne hguard
      newGuards := fun c hc => absurd hc List.not_mem_nil
      safe := fun g library hne hprotected => by
        refine hprotected.exec (.unpin guard) fun heq => ?_
        cases heq
        exact hne hguard
      stacked := h.stacked_same hcalls (hstack thread) (by simp [initIds, hinit])
      stackedElse := fun t _ => hstack t
      staged := h.staged_same hcalls (congrArg (fun r => RuntimeStore.staged r thread) hregistry)
        (by simp [loadIds, hloads])
      stagedElse := fun t _ => congrArg (fun r => RuntimeStore.staged r t) hregistry
      same := fun t b _ => sameFor_of_eq (congrArg RuntimeStore.data hregistry)
        (congrArg (fun r => RuntimeStore.staged r t) hregistry) rfl rfl h.tidy
      ok := fun c hc => absurd hc List.not_mem_nil
      freed := fun b hb => by
        rw [hchanges] at hb
        cases hb
      changes := List.nil_sublist _
      guards := List.nil_sublist _ }

/-- A call about an instance gets on under its guard. -/
theorem Safe.keepsGuard (h : s.Safe) {guard : Nat} {rt : Runtime} {next : NativeCall}
    (hcalls : s.calls thread = call :: rest)
    (hkept : ({ s with runtime := rt }.setCalls thread (next :: rest)).Kept)
    (hguard : call.guard? = some guard) (hnext : next.guard? = some guard)
    (hregistry : rt.registry = s.runtime.registry)
    (hstack : ∀ t, rt.initStackOn t = s.runtime.initStackOn t)
    (hsafe : ∀ library, next.guarded? = some (guard, library) → s.epoch.Protected guard library) :
    ({ s with runtime := rt }.setCalls thread (next :: rest)).Safe := by
  obtain ⟨hchanges, hinit, hloads⟩ := NativeCall.changes_of_guard hguard
  obtain ⟨hchanges', hinit', hloads'⟩ := NativeCall.changes_of_guard hnext
  have hpinned := h.pinned thread call (by rw [hcalls]; exact List.mem_cons_self) guard hguard
  refine h.advance hcalls [next] hkept ?_
  exact
    { calls := rfl
      tidy := by
        show rt.registry.Tidy
        rw [hregistry]
        exact h.tidy
      nextGuard := le_rfl
      pinned := fun _ hg _ => hg
      newGuards := fun c hc g hg => by
        rw [List.mem_singleton.1 hc, hnext] at hg
        cases hg
        exact hpinned
      safe := fun _ _ _ hprotected => hprotected
      stacked := h.stacked_same hcalls (hstack thread) (by simp [initIds, hinit, hinit'])
      stackedElse := fun t _ => hstack t
      staged := h.staged_same hcalls (congrArg (fun r => RuntimeStore.staged r thread) hregistry)
        (by simp [loadIds, hloads, hloads'])
      stagedElse := fun t _ => congrArg (fun r => RuntimeStore.staged r t) hregistry
      same := fun t b _ => sameFor_of_eq (congrArg RuntimeStore.data hregistry)
        (congrArg (fun r => RuntimeStore.staged r t) hregistry) rfl rfl h.tidy
      ok := fun c hc => by
        rw [List.mem_singleton.1 hc]
        exact callOk_of_guard hnext hsafe
      freed := fun b hb => by
        rw [hchanges] at hb
        cases hb
      changes := by
        rw [List.filterMap_cons_none hchanges']
        exact List.nil_sublist _
      guards := by
        rw [List.filterMap_cons_some hnext, hguard]
        exact .refl _ }

theorem noteInstanceDestroyed_registry (rt : Runtime) (b : BundleId) :
    (rt.noteInstanceDestroyed b).registry = rt.registry ∧
      ∀ t, (rt.noteInstanceDestroyed b).initStackOn t = rt.initStackOn t := by
  unfold Runtime.noteInstanceDestroyed
  cases rt.instanceCounts.lookup b <;> exact ⟨rfl, fun _ => rfl⟩

/-- The reservation of a constructor. -/
theorem Safe.reserving (h : s.Safe) {guard interface : Nat}
    (hcalls : s.calls thread = .reserving guard interface :: rest) (outcome : Outcome)
    (horder : ∀ b, s.runtime.registry.bundleIdForGuestInterface interface = some b →
      ¬ s.Reloading b) :
    (s.advanceCall thread rest outcome (.reserving guard interface)).Safe := by
  have hkept := kept_advanceCall h.kept hcalls outcome
  cases hfound : s.runtime.registry.bundleIdForGuestInterface interface with
  | none =>
    simp only [advanceCall, Runtime.beginGuestInstanceConstruction, hfound] at hkept ⊢
    exact h.unpins hcalls hkept rfl rfl fun _ => rfl
  | some b =>
    simp only [advanceCall, Runtime.beginGuestInstanceConstruction, hfound] at hkept ⊢
    refine h.keepsGuard hcalls hkept rfl rfl rfl (fun _ => rfl) fun library hguarded => ?_
    have hpinned := h.pinned thread _ (by rw [hcalls]; exact List.mem_cons_self) guard rfl
    refine Epoch.protected_of_reachable hpinned.1 (h.reachable hfound (horder b hfound) ?_).2
    cases hcode : s.code interface with
    | none =>
      rw [hcode] at hguarded
      cases hguarded
    | some l =>
      rw [hcode] at hguarded
      cases hguarded
      rfl

theorem Safe.constructing (h : s.Safe) {guard interface : Nat} {b : BundleId} {code : Option Nat}
    (hcalls : s.calls thread = .constructing guard interface b code :: rest) (outcome : Outcome) :
    (s.advanceCall thread rest outcome (.constructing guard interface b code)).Safe := by
  refine h.unpins hcalls (kept_advanceCall h.kept hcalls outcome) rfl ?_ ?_
  · by_cases hnull : outcome.isNull = true
    · rw [if_pos hnull]
      exact (noteInstanceDestroyed_registry s.runtime b).1
    · rw [if_neg hnull]
  · by_cases hnull : outcome.isNull = true
    · rw [if_pos hnull]
      exact (noteInstanceDestroyed_registry s.runtime b).2
    · rw [if_neg hnull]
      exact fun _ => rfl

theorem Safe.destroying (h : s.Safe) {guard interface : Nat} {b : BundleId} {code : Option Nat}
    (hcalls : s.calls thread = .destroying guard interface b code :: rest) (outcome : Outcome) :
    (s.advanceCall thread rest outcome (.destroying guard interface b code)).Safe := by
  have hkept := kept_advanceCall h.kept hcalls outcome
  by_cases hnull : outcome.isNull = true
  · simp only [advanceCall, if_pos hnull] at hkept ⊢
    exact h.unpins hcalls hkept rfl rfl fun _ => rfl
  · simp only [advanceCall, if_neg hnull] at hkept ⊢
    exact h.keepsGuard hcalls hkept rfl rfl rfl (fun _ => rfl) fun _ hg => by cases hg

theorem Safe.noting (h : s.Safe) {guard interface : Nat}
    (hcalls : s.calls thread = .noting guard interface :: rest) (outcome : Outcome) :
    (s.advanceCall thread rest outcome (.noting guard interface)).Safe := by
  have hkept := kept_advanceCall h.kept hcalls outcome
  cases hfound : s.runtime.registry.bundleIdForGuestInterface interface with
  | none =>
    simp only [advanceCall, hfound] at hkept ⊢
    exact h.unpins hcalls hkept rfl rfl fun _ => rfl
  | some b =>
    simp only [advanceCall, hfound] at hkept ⊢
    obtain ⟨hregistry, hstack⟩ := noteInstanceDestroyed_registry s.runtime b
    exact h.unpins hcalls hkept rfl hregistry hstack

/-- The next section of a call. -/
theorem Safe.advanceCall (h : s.Safe) (hcalls : s.calls thread = call :: rest) (outcome : Outcome)
    (horder : s.InOrder (.advance thread outcome))
    (hlength : (s.advanceCall thread rest outcome call).runtime.registry.data.slots.length
      ≤ 2 ^ 32) : (s.advanceCall thread rest outcome call).Safe := by
  cases call with
  | snapshot job => exact h.snapshot hcalls outcome hlength
  | opening job => exact h.opening hcalls outcome
  | checking job library => exact h.checking hcalls outcome
  | initializing job library => exact h.initializing hcalls outcome
  | inserting job library => exact h.inserting hcalls outcome
  | foreign job => exact h.foreign hcalls outcome
  | scheduling job library loaded => exact h.scheduling hcalls outcome
  | closing job loaded =>
    have hkept := kept_advanceCall h.kept hcalls outcome
    cases job with
    | load env manifest b opts => exact h.closingLoad hcalls hkept hlength
    | reload replacement slotIndices => exact h.closingReload hcalls hkept hlength
  | resetting b => exact h.resetting hcalls outcome
  | unhooking b => exact h.unhooking hcalls outcome
  | unhooked b library => exact h.unhooked hcalls outcome
  | unloading b phase =>
    exact h.unloading hcalls (kept_advanceCall h.kept hcalls outcome) hlength
  | reserving guard interface =>
    refine h.reserving hcalls outcome ?_
    simpa only [InOrder, hcalls] using horder
  | constructing guard interface b code => exact h.constructing hcalls outcome
  | destroying guard interface b code => exact h.destroying hcalls outcome
  | noting guard interface => exact h.noting hcalls outcome

end

end LibraryHost

end PolyPlug.Lifecycle
