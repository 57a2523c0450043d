import PolyPlug.Proofs.Registry.Tidy
import PolyPlug.Proofs.Registry.Views
import PolyPlug.Proofs.Registry.WellFormed

/-!
# `PolyPlug.Proofs.Registry.Handles`: the lifetime of a handle

A handle is a slot index with the generation the slot had when the handle was
minted. `handleLifetime` follows one handle through a run: it resolves to an
interface of the same bundle and contract until the slot is emptied, and never
again after that, whatever is registered into the slot later.

The purge of `abort_reload` empties a slot without a bump, so a handle of a
purged registration comes back to life with the next registration into its slot
(`purged_handle_resolves`). The theorem asks that the registration of the handle
is not removed by a purge (`Unpurged`), and that every swap of the run is given
slots of its own bundle (`TidyStep`).
-/

set_option autoImplicit false

namespace PolyPlug.Registry

open PolyPlug.Abi
open PolyPlug.Lib
open PolyPlug.Lib.Catalog
open RuntimeStoreData RuntimeStore

/-! ### The property -/

/-- How often a run empties the slot. -/
def vacations (i : Nat) : RuntimeStore → List StoreOp → Nat
  | _, []        => 0
  | s, op :: ops =>
    (if s.Live i ∧ ¬ (s.exec op).Live i then 1 else 0) + vacations i (s.exec op) ops

/-- The first call of the run that empties the slot is not a purge. -/
def Unpurged (i : Nat) : RuntimeStore → List StoreOp → Prop
  | _, []        => True
  | s, op :: ops => ¬ Purges s op i ∧ ((s.exec op).Live i → Unpurged i (s.exec op) ops)

/-- The ways to obtain a handle at the end of a run from the empty registry. -/
inductive Minted (ops : List StoreOp) (h : GuestContractHandle) : Prop
  | returned (before : List StoreOp) (op : StoreOp) (hops : ops = before ++ [op])
      (hmem : h ∈ (run RuntimeStore.exec RuntimeStore.new before).returned op)
  | found (cid : GuestContractId) (v : Nat)
      (hfind : (run RuntimeStore.exec RuntimeStore.new ops).findGuestContract cid v = .ok h)
  | collected (cid : GuestContractId) (v : Nat)
      (hmem : h ∈ (run RuntimeStore.exec RuntimeStore.new ops).collectGuestContracts cid v)
  | listed (hmem : h ∈ (run RuntimeStore.exec RuntimeStore.new ops).listRegisteredGuestContracts)

/-- The handle, minted after `pre`, at the end of `post`. The registration it was
minted for has the entry and the interface its slot has then. While the slot has
not been emptied the handle resolves to an interface that was registered by the
same bundle for the same contract, and afterwards it does not resolve. -/
def HandleLifetime (pre post : List StoreOp) (h : GuestContractHandle) : Prop :=
  let minted := run RuntimeStore.exec RuntimeStore.new pre
  let now := run RuntimeStore.exec RuntimeStore.new (pre ++ post)
  ∃ entry arc, LiveAt minted.data h.index entry arc ∧
    (vacations h.index minted post = 0 →
      ∃ current, now.resolveGuestContract h = .ok current ∧
        current.val.contractId = arc.val.contractId ∧
        ∃ op ∈ pre ++ post, Provides op entry.bundleId current) ∧
    (0 < vacations h.index minted post → ∃ e, now.resolveGuestContract h = .error e)

/-! ### Counting -/

theorem vacations_append (i : Nat) (s : RuntimeStore) (before after : List StoreOp) :
    vacations i s (before ++ after)
      = vacations i s before + vacations i (run RuntimeStore.exec s before) after := by
  induction before generalizing s with
  | nil => simp [vacations]
  | cons op rest ih =>
    rw [List.cons_append, vacations, vacations, ih, run_cons]
    omega

theorem vacations_le_length (i : Nat) (s : RuntimeStore) (ops : List StoreOp) :
    vacations i s ops ≤ ops.length := by
  induction ops generalizing s with
  | nil => exact Nat.le_refl _
  | cons op rest ih =>
    have hrest := ih (s.exec op)
    rw [vacations, List.length_cons]
    split <;> omega

/-! ### Runs from a tidy state -/

section
variable {s : RuntimeStore} {i : Nat} {ops : List StoreOp}

/-- A bump below `2 ^ 32` does not wrap. -/
theorem wrappingSucc_eq {g : Nat} (h : g + 1 < 2 ^ 32) : wrappingSucc g = g + 1 :=
  Nat.mod_eq_of_lt h

/-- Generations do not fall, and rise by at most the number of vacations. -/
theorem generation_run (h : s.Tidy) (hops : Steps RuntimeStore.exec TidyStep s ops)
    (hbound : s.data.generationAt i + vacations i s ops < 2 ^ 32) :
    s.data.generationAt i ≤ (run RuntimeStore.exec s ops).data.generationAt i ∧
      (run RuntimeStore.exec s ops).data.generationAt i
        ≤ s.data.generationAt i + vacations i s ops := by
  induction ops generalizing s with
  | nil => exact ⟨Nat.le_refl _, Nat.le_refl _⟩
  | cons op rest ih =>
    obtain ⟨htidy, heffect⟩ := exec_effect h hops.1
    have hgen := heffect.generation i
    rw [vacations] at hbound ⊢
    rw [run_cons]
    by_cases hvac : s.Live i ∧ ¬ (s.exec op).Live i
    · rw [if_pos hvac] at hbound ⊢
      by_cases hpurge : Purges s op i
      · rw [if_neg (fun hc => hc.2 hpurge)] at hgen
        have := ih htidy hops.2 (by omega)
        omega
      · rw [if_pos ⟨hvac, hpurge⟩, wrappingSucc_eq (by omega)] at hgen
        have := ih htidy hops.2 (by omega)
        omega
    · rw [if_neg hvac] at hbound ⊢
      rw [if_neg (fun hc => hvac hc.1)] at hgen
      have := ih htidy hops.2 (by omega)
      omega

/-- A slot that is never emptied keeps its bundle, its contract and its
generation. -/
theorem kept_run {r : Registration} (h : s.Tidy)
    (hops : Steps RuntimeStore.exec TidyStep s ops) (hr : s.data.catalog.content i = some r)
    (hnone : vacations i s ops = 0) :
    ∃ r', (run RuntimeStore.exec s ops).data.catalog.content i = some r' ∧
      r'.owner = r.owner ∧ r'.key = r.key ∧
      (run RuntimeStore.exec s ops).data.generationAt i = s.data.generationAt i := by
  induction ops generalizing s r with
  | nil => exact ⟨r, hr, rfl, rfl, rfl⟩
  | cons op rest ih =>
    obtain ⟨htidy, heffect⟩ := exec_effect h hops.1
    rw [vacations] at hnone
    have hlive : s.Live i := by simp [Live, hr]
    have hkept : (s.exec op).Live i := by
      by_contra hdead
      rw [if_pos ⟨hlive, hdead⟩] at hnone
      omega
    rw [if_neg (fun hc => hc.2 hkept), Nat.zero_add] at hnone
    obtain ⟨r₁, hr₁⟩ := Option.ne_none_iff_exists'.mp hkept
    obtain ⟨howner, hkey⟩ := heffect.kept i r r₁ hr hr₁
    have hgen := heffect.generation i
    rw [if_neg (fun hc => hc.1.2 hkept)] at hgen
    obtain ⟨r', hr', howner', hkey', hgen'⟩ := ih htidy hops.2 hr₁ hnone
    exact ⟨r', hr', howner'.trans howner, hkey'.trans hkey, hgen'.trans hgen⟩

/-- A slot that is emptied, and not by a purge the first time, has a higher
generation ever after. -/
theorem bumped_run (h : s.Tidy) (hops : Steps RuntimeStore.exec TidyStep s ops)
    (hlive : s.Live i) (hsome : 0 < vacations i s ops) (hpurge : Unpurged i s ops)
    (hbound : s.data.generationAt i + vacations i s ops < 2 ^ 32) :
    s.data.generationAt i < (run RuntimeStore.exec s ops).data.generationAt i := by
  induction ops generalizing s with
  | nil => exact absurd hsome (Nat.lt_irrefl 0)
  | cons op rest ih =>
    obtain ⟨htidy, heffect⟩ := exec_effect h hops.1
    have hgen := heffect.generation i
    rw [vacations] at hsome hbound
    rw [run_cons]
    by_cases hkept : (s.exec op).Live i
    · -- Not emptied yet: the generation is the same one.
      rw [if_neg (fun hc => hc.2 hkept), Nat.zero_add] at hsome hbound
      rw [if_neg (fun hc => hc.1.2 hkept)] at hgen
      have := ih htidy hops.2 hkept hsome (hpurge.2 hkept) (by omega)
      omega
    · -- This call empties it with a bump, and generations do not fall later.
      rw [if_pos ⟨hlive, hkept⟩] at hbound
      rw [if_pos ⟨⟨hlive, hkept⟩, hpurge.1⟩, wrappingSucc_eq (by omega)] at hgen
      have := generation_run htidy hops.2 (i := i) (by omega)
      omega

/-- Every registration in a slot was made by a call of the run. -/
theorem provided_run {r : Registration}
    (hops : Steps RuntimeStore.exec TidyStep RuntimeStore.new ops)
    (hr : (run RuntimeStore.exec RuntimeStore.new ops).data.catalog.content i = some r) :
    ∃ op ∈ ops, Provides op r.owner r.arc := by
  induction ops using List.reverseRecOn generalizing i with
  | nil => simp [RuntimeStore.new, RuntimeStoreData.new, catalog] at hr
  | append_singleton before op ih =>
    obtain ⟨hbefore, hop⟩ := steps_append.mp hops
    rw [run_append] at hr
    obtain ⟨-, heffect⟩ := exec_effect (tidy_run tidy_new hbefore) hop.1
    rcases heffect.source i r hr with ⟨j, hj⟩ | hprov
    · obtain ⟨op', hmem, hprov⟩ := ih hbefore hj
      exact ⟨op', List.mem_append_left _ hmem, hprov⟩
    · exact ⟨op, by simp, hprov⟩

end

/-! ### Minted handles -/

section
variable {s : RuntimeStore}

/-- The slot of the handle is live at the handle's generation. -/
def AtLiveSlot (s : RuntimeStore) (h : GuestContractHandle) : Prop :=
  s.Live h.index ∧ h.generation = s.data.generationAt h.index

/-- A provider is at a live slot. -/
theorem atLiveSlot_of_provider (hi : s.data.Indexed) {cid : GuestContractId} {v : Nat}
    {h : GuestContractHandle} (hmem : h ∈ s.providers cid v) : AtLiveSlot s h := by
  obtain ⟨i, hin, rfl⟩ := List.mem_map.mp hmem
  obtain ⟨r, hr, -⟩ := hi.content_of_listed (List.mem_filter.mp hin).1
  exact ⟨by simp [handleAt, Live, hr], rfl⟩

theorem atLiveSlot_of_find (hm : s.Mirrors) (hi : s.data.Indexed) {cid : GuestContractId}
    {v : Nat} {h : GuestContractHandle} (hfind : s.findGuestContract cid v = .ok h) :
    AtLiveSlot s h := by
  rw [hm.find_eq hi] at hfind
  cases hproviders : s.providers cid v with
  | nil =>
    rw [hproviders] at hfind
    cases hfind
  | cons handle rest =>
    rw [hproviders] at hfind
    cases hfind
    exact atLiveSlot_of_provider hi (hproviders ▸ List.mem_cons_self)

theorem atLiveSlot_of_list (hlen : s.data.slots.length ≤ 2 ^ 32) {h : GuestContractHandle}
    (hmem : h ∈ s.listRegisteredGuestContracts) : AtLiveSlot s h := by
  simp only [listRegisteredGuestContracts, List.mem_filterMap, Prod.exists,
    List.mem_zipIdx_iff_getElem?] at hmem
  obtain ⟨slot, i, hslot, hsome⟩ := hmem
  have hlt : i < s.data.slots.length := (List.getElem?_eq_some_iff.mp hslot).1
  have hcast : asU32 i = i := Nat.mod_eq_of_lt (by omega)
  obtain ⟨entry, interface, generation⟩ := slot
  unfold registeredHandle at hsome
  cases interface with
  | none => cases hsome
  | some arc =>
    dsimp only at hsome
    split at hsome
    · cases entry with
      | none => cases hsome
      | some entry =>
        cases hsome
        rw [hcast]
        simp [AtLiveSlot, Live, catalog, hslot, PluginSlot.registration, generationAt]
    · cases hsome

/-- The handles of a run of insertions are at live slots when it ends. -/
theorem InsertsAll.atLiveSlot {publishContract : Bool} {data data' : RuntimeStoreData}
    {rs : List Registration} {hs : List GuestContractHandle}
    (hins : InsertsAll publishContract data rs hs data') {h : GuestContractHandle}
    (hmem : h ∈ hs) :
    data'.catalog.content h.index ≠ none ∧ h.generation = data'.generationAt h.index := by
  induction hins with
  | nil => cases hmem
  | @cons d mid d' r h₀ rs hs hhead htail ih =>
    rcases List.mem_cons.mp hmem with rfl | hrest
    · have hfilled : mid.catalog.content h.index = some r := by
        rw [hhead.catalog_eq]
        simp [add]
      refine ⟨by simp [htail.content_kept hfilled], ?_⟩
      rw [htail.generationAt_eq, hhead.generations, hhead.generation]
    · exact ih hrest

/-- The handles a call returns are at live slots after it. -/
theorem atLiveSlot_of_returned {op : StoreOp}
    (hlen : (s.exec op).data.slots.length ≤ 2 ^ 32) {h : GuestContractHandle}
    (hmem : h ∈ s.returned op) : AtLiveSlot (s.exec op) h := by
  cases op with
  | registerGuestContract descriptor interface ptr contractName b =>
    simp only [RuntimeStore.returned, RuntimeStore.exec] at hmem hlen ⊢
    rcases registerGuestContract_cases s descriptor interface ptr contractName b with
      ⟨e, heq⟩ | ⟨contract, handle, data', hprep, -, hins, heq⟩
    · rw [heq] at hmem
      cases hmem
    · rw [heq] at hmem hlen ⊢
      obtain ⟨_, -, -, -, hall⟩ := registers_of_registerGuestContract hins hlen
      exact hall.atLiveSlot hmem
  | registerPreparedBundle descriptor dependencies contracts =>
    simp only [RuntimeStore.returned, RuntimeStore.exec] at hmem hlen ⊢
    rcases registerPreparedBundle_cases s descriptor dependencies contracts with
      ⟨e, heq⟩ | ⟨hs, data', -, -, hnew, hins, heq⟩
    · rw [heq] at hmem
      cases hmem
    · rw [heq] at hmem hlen ⊢
      obtain ⟨_, -, -, -, hall⟩ := registers_of_registerPreparedBundle hnew hins hlen
      exact hall.atLiveSlot hmem
  | _ => cases hmem

/-- Every minted handle is at a live slot when it is minted. -/
theorem Minted.atLiveSlot {ops : List StoreOp} {h : GuestContractHandle} (hmint : Minted ops h)
    (hops : Steps RuntimeStore.exec TidyStep RuntimeStore.new ops) :
    AtLiveSlot (run RuntimeStore.exec RuntimeStore.new ops) h := by
  have htidy := tidy_run tidy_new hops
  cases hmint with
  | returned before op hsplit hmem =>
    subst hsplit
    rw [run_append]
    exact atLiveSlot_of_returned (steps_append.mp hops).2.1.2 hmem
  | found cid v hfind => exact atLiveSlot_of_find htidy.mirrors htidy.consistent.toIndexed hfind
  | collected cid v hmem =>
    rw [htidy.mirrors.collect_eq htidy.consistent.toIndexed] at hmem
    exact atLiveSlot_of_provider htidy.consistent.toIndexed hmem
  | listed hmem =>
    have hlen : (run RuntimeStore.exec RuntimeStore.new ops).data.slots.length ≤ 2 ^ 32 :=
      hops.invariant (I := fun s => s.data.slots.length ≤ 2 ^ 32) (by decide)
        fun _ _ _ hop => hop.2
    exact atLiveSlot_of_list hlen hmem

/-! ### Resolution -/

theorem resolve_ok (hm : s.Mirrors) {h : GuestContractHandle} {r : Registration}
    (hr : s.data.catalog.content h.index = some r)
    (hgen : h.generation = s.data.generationAt h.index) :
    s.resolveGuestContract h = .ok r.arc := by
  have hat : h = s.handleAt h.index := by
    cases h
    exact congrArg _ hgen
  rw [hat]
  exact hm.resolve_handleAt hr

theorem resolve_stale (hm : s.Mirrors) {h : GuestContractHandle}
    (hgen : h.generation ≠ s.data.generationAt h.index) :
    ∃ e, s.resolveGuestContract h = .error e := by
  unfold resolveGuestContract
  rw [hm]
  simp only [ReadView.rebuild, List.getElem?_map]
  cases hslot : s.data.slots[h.index]? with
  | none => exact ⟨_, rfl⟩
  | some slot =>
    have hne : h.generation ≠ slot.generation := by simpa [generationAt, hslot] using hgen
    simp only [Option.map_some, PluginSlot.view]
    rw [if_pos hne]
    exact ⟨_, rfl⟩

end

/-! ### The lifetime -/

/-- In a run whose swaps are given slots of their own bundle, with no slot
emptied `2 ^ 32` times, a handle whose registration is not removed by a purge
resolves until its slot is emptied and never again. -/
theorem handleLifetime (pre post : List StoreOp) (h : GuestContractHandle)
    (hops : Steps RuntimeStore.exec TidyStep RuntimeStore.new (pre ++ post))
    (hcount : ∀ i, vacations i RuntimeStore.new (pre ++ post) < 2 ^ 32)
    (hmint : Minted pre h)
    (hpurge : Unpurged h.index (run RuntimeStore.exec RuntimeStore.new pre) post) :
    HandleLifetime pre post h := by
  obtain ⟨hpre, hpost⟩ := steps_append.mp hops
  have htidy := tidy_run tidy_new hpre
  obtain ⟨hlive, hgen⟩ := hmint.atLiveSlot hpre
  have hend := tidy_run tidy_new hops
  obtain ⟨r, hr⟩ := Option.ne_none_iff_exists'.mp hlive
  -- The generation at the mint is at most the number of vacations before it.
  have hbound : (run RuntimeStore.exec RuntimeStore.new pre).data.generationAt h.index
      + vacations h.index (run RuntimeStore.exec RuntimeStore.new pre) post < 2 ^ 32 := by
    have htotal := hcount h.index
    rw [vacations_append] at htotal
    have hzero : RuntimeStore.new.data.generationAt h.index = 0 := by
      simp [RuntimeStore.new, RuntimeStoreData.new, generationAt]
    have := (generation_run tidy_new hpre (i := h.index) (by omega)).2
    omega
  refine ⟨r.entry, r.arc, liveAt_iff.mpr hr, fun hnone => ?_, fun hsome => ?_⟩
  · obtain ⟨r', hr', howner, hkey, hgen'⟩ := kept_run htidy hpost hr hnone
    rw [← run_append] at hr' hgen'
    obtain ⟨op, hmem, hprov⟩ := provided_run hops hr'
    exact ⟨r'.arc, resolve_ok hend.mirrors hr' (hgen.trans hgen'.symm), hkey, op, hmem,
      (show r'.owner = r.entry.bundleId from howner) ▸ hprov⟩
  · have hlt := bumped_run htidy hpost hlive hsome hpurge hbound
    rw [← run_append] at hlt
    exact resolve_stale hend.mirrors (by omega)

/-- A bundle is reloaded and unloaded, and its slot is taken by another bundle:
the handle of the first registration is stale. -/
theorem handleLifetime_reload_unload :
    let pre : List StoreOp := [.register ⟨1⟩ ⟨10⟩ "log" 100]
    let post : List StoreOp := [.beginReload ⟨1⟩, .register ⟨1⟩ ⟨10⟩ "log" 101, .swap ⟨1⟩ [0],
      .invalidateBundle ⟨1⟩, .register ⟨2⟩ ⟨10⟩ "log" 102]
    Minted pre ⟨0, 0⟩ ∧ HandleLifetime pre post ⟨0, 0⟩ := by
  have hmint : Minted [.register ⟨1⟩ ⟨10⟩ "log" 100] ⟨0, 0⟩ :=
    .returned [] _ rfl (by decide +kernel)
  refine ⟨hmint, handleLifetime _ _ _ (by decide +kernel) (fun i => ?_) hmint ?_⟩
  · exact Nat.lt_of_le_of_lt (vacations_le_length _ _ _) (by decide)
  · refine ⟨by decide +kernel, fun _ => ⟨by decide +kernel, fun _ => ⟨by decide +kernel,
      fun _ => ⟨by decide +kernel, fun hlive => absurd hlive (by decide +kernel)⟩⟩⟩⟩

/-- A pending registration is purged by `abort_reload` and its slot is taken by
another bundle: the old handle resolves to the interface of that bundle. -/
theorem purged_handle_resolves :
    let pre : List StoreOp := [.beginReload ⟨1⟩, .register ⟨1⟩ ⟨10⟩ "log" 100]
    let post : List StoreOp := [.abortReload ⟨1⟩ [], .register ⟨2⟩ ⟨10⟩ "log" 101]
    (∀ i, vacations i RuntimeStore.new (pre ++ post) < 2 ^ 32) ∧ Minted pre ⟨0, 0⟩ ∧
      ¬ HandleLifetime pre post ⟨0, 0⟩ := by
  refine ⟨fun i => ?_, .returned [.beginReload ⟨1⟩] _ rfl (by decide +kernel), ?_⟩
  · exact Nat.lt_of_le_of_lt (vacations_le_length _ _ _) (by decide)
  · rintro ⟨entry, arc, -, -, hremoved⟩
    obtain ⟨e, he⟩ := hremoved (by decide +kernel)
    have hok : Except.isOk ((run RuntimeStore.exec RuntimeStore.new
        [.beginReload ⟨1⟩, .register ⟨1⟩ ⟨10⟩ "log" 100, .abortReload ⟨1⟩ [],
          .register ⟨2⟩ ⟨10⟩ "log" 101]).resolveGuestContract ⟨0, 0⟩) = true := by
      decide +kernel
    rw [show (run RuntimeStore.exec RuntimeStore.new
        [.beginReload ⟨1⟩, .register ⟨1⟩ ⟨10⟩ "log" 100, .abortReload ⟨1⟩ [],
          .register ⟨2⟩ ⟨10⟩ "log" 101]).resolveGuestContract ⟨0, 0⟩ = .error e from he] at hok
    cases hok

end PolyPlug.Registry
