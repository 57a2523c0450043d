import PolyPlug.Lib.Run
import PolyPlug.Proofs.Registry.Swap
import PolyPlug.Registry.Ops

/-!
# `PolyPlug.Proofs.Registry.Mirror`: when the published view is the locked data

Every mutator publishes before it returns `Ok`, and all of them but
`apply_reload_swap` return an error only before the first write. A swap writes
slot by slot and returns from the middle of its loop without publishing or
undoing anything.

`SwapClean` is the condition on the state before a swap under which this does
not show: the swap fails on its first old slot, or it does not fail at all.
`Completes` says when the loop runs to its end. An old slot is lost to the loop
once it is dropped, so an old slot may be visited again only as long as its
contract still has replacements left.

`mirrors_run_iff` proves that a run keeps the published view equal to the locked
data, and keeps the registry on a failing swap, exactly if each of its swaps is
clean.
-/

set_option autoImplicit false

namespace PolyPlug.Registry

open PolyPlug.Abi
open PolyPlug.Lib
open PolyPlug.Lib.Catalog
open RuntimeStoreData RuntimeStore

/-! ### The property -/

/-- The published view is the one of the locked data. -/
def RuntimeStore.Mirrors (s : RuntimeStore) : Prop := s.published = ReadView.rebuild s.data

instance (s : RuntimeStore) : Decidable s.Mirrors := inferInstanceAs (Decidable (_ = _))

/-- Slots with their generations, contract index, slot lists and descriptors,
and declared dependencies are the same. -/
structure SameRegistry (data data' : RuntimeStoreData) : Prop where
  slots : data'.slots = data.slots
  index : data'.guestContractIndex = data.guestContractIndex
  bundleData : data'.bundleData = data.bundleData
  declaredDeps : data'.bundleDeclaredDeps = data.bundleDeclaredDeps

/-- A failing swap leaves the registry as it was, or as it was without the
bundle's pending slots. -/
def KeptOnError (s : RuntimeStore) : StoreCall → Prop
  | .op (.applyReloadSwap b old descriptor dependencies) =>
    ∀ e, (s.applyReloadSwap b old descriptor dependencies).1 = .error e →
      SameRegistry s.data (s.applyReloadSwap b old descriptor dependencies).2.data ∨
      SameRegistry (s.abortReload b old).data
        (s.applyReloadSwap b old descriptor dependencies).2.data
  | _ => True

/-- The call leaves a published view of the locked data, and a failing swap
leaves the registry. -/
def Faithful (s : RuntimeStore) (call : StoreCall) : Prop :=
  (s.call call).Mirrors ∧ KeptOnError s call

/-! ### The condition -/

/-- The number of slots of the window that can replace a provider of `cid`. -/
def replacements (contractAt : Nat → Option GuestContractId) (news : List Nat)
    (cid : GuestContractId) : Nat :=
  (news.toFinset.filter fun n => contractAt n = some cid).card

/-- Every old slot is live, and the old slots of a contract that are left over
after its replacements are used up are distinct. -/
def Completes (contractAt : Nat → Option GuestContractId) (news old : List Nat) : Prop :=
  (∀ o ∈ old, (contractAt o).isSome) ∧
  ∀ cid ∈ old.filterMap contractAt,
    ((old.filter fun o => contractAt o = some cid).drop (replacements contractAt news cid)).Nodup

instance (contractAt : Nat → Option GuestContractId) (news old : List Nat) :
    Decidable (Completes contractAt news old) := inferInstanceAs (Decidable (_ ∧ _))

/-- The swap has no old slot, or its first one is not live, or the bundle is
registered and the loop runs to its end. -/
def SwapClean (data : RuntimeStoreData) (b : BundleId) (old : List Nat) : Prop :=
  (∀ o ∈ old.head?, data.contractAt o = none) ∨
  ((data.bundleData.lookup b).isSome ∧
    Completes data.contractAt (pendingSlots data b old) old)

instance (data : RuntimeStoreData) (b : BundleId) (old : List Nat) :
    Decidable (SwapClean data b old) := inferInstanceAs (Decidable (_ ∨ _))

/-- The condition on a call: only swaps have one. -/
def Clean (s : RuntimeStore) : StoreCall → Prop
  | .op (.applyReloadSwap b old _ _) => SwapClean s.data b old
  | _ => True

/-! ### When the loop completes -/

section
variable {f : Nat → Option GuestContractId} {news rest : List Nat} {o : Nat}
  {cid : GuestContractId}

/-- `Completes` with its second part at every contract. -/
theorem completes_iff {old : List Nat} :
    Completes f news old ↔ (∀ o ∈ old, (f o).isSome) ∧
      ∀ cid, ((old.filter fun o => f o = some cid).drop (replacements f news cid)).Nodup := by
  refine and_congr_right fun _ => ⟨fun h cid => ?_, fun h cid _ => h cid⟩
  by_cases hmem : cid ∈ old.filterMap f
  · exact h cid hmem
  · have hnil : (old.filter fun o => f o = some cid) = [] := by
      refine List.filter_eq_nil_iff.mpr fun o ho hf => hmem ?_
      exact List.mem_filterMap.mpr ⟨o, ho, by simpa using hf⟩
    simp [hnil]

/-- The loop after a drop of its first slot. -/
theorem completes_drop (hold : f o = some cid) (hnone : ∀ n ∈ news, f n ≠ some cid)
    (ho : o ∉ news) :
    Completes (Function.update f o none) news rest ↔ Completes f news (o :: rest) := by
  have hzero : replacements f news cid = 0 := by
    simpa [replacements, Finset.filter_eq_empty_iff] using hnone
  have hsame : ∀ k, replacements (Function.update f o none) news k = replacements f news k := by
    intro k
    unfold replacements
    congr 1
    apply Finset.filter_congr
    intro n hn
    have hne : n ≠ o := fun he => ho (he ▸ List.mem_toFinset.mp hn)
    rw [Function.update_of_ne hne]
  -- Either side rules out a second visit of `o`: it is no longer live then.
  have hfresh : Completes (Function.update f o none) news rest ∨ Completes f news (o :: rest) →
      o ∉ rest := by
    rintro (h | h) hmem
    · simpa using h.1 o hmem
    · have hnodup := (completes_iff.mp h).2 cid
      rw [hzero, List.filter_cons_of_pos (by simpa using hold)] at hnodup
      exact (List.nodup_cons.mp hnodup).1 (List.mem_filter.mpr ⟨hmem, by simpa using hold⟩)
  have hkey : o ∉ rest →
      (Completes (Function.update f o none) news rest ↔ Completes f news (o :: rest)) := by
    intro hnot
    have hupdate : ∀ j ∈ rest, Function.update f o none j = f j := by
      intro j hj
      have hne : j ≠ o := fun he => hnot (he ▸ hj)
      rw [Function.update_of_ne hne]
    have hfilter : ∀ k, (rest.filter fun j => Function.update f o none j = some k)
        = rest.filter fun j => f j = some k := fun k =>
      List.filter_congr fun j hj => by rw [hupdate j hj]
    rw [completes_iff, completes_iff]
    refine and_congr ?_ (forall_congr' fun k => ?_)
    · simp only [List.forall_mem_cons, hold, Option.isSome_some, true_and]
      exact forall₂_congr fun j hj => by rw [hupdate j hj]
    · rw [hsame, hfilter]
      by_cases hk : k = cid
      · subst hk
        have hnot' : o ∉ rest.filter fun j => f j = some k := fun hmem =>
          hnot (List.mem_filter.mp hmem).1
        rw [hzero, List.filter_cons_of_pos (by simpa using hold)]
        simp [hnot']
      · rw [List.filter_cons_of_neg (by simpa [hold] using Ne.symm hk)]
  constructor
  · intro h
    exact (hkey (hfresh (Or.inl h))).mp h
  · intro h
    exact (hkey (hfresh (Or.inr h))).mpr h

/-- The loop after a replacement of its first slot. -/
theorem completes_move {n : Nat} (hold : f o = some cid) (hmem : n ∈ news)
    (hnew : f n = some cid) (hn : n ∉ o :: rest) :
    Completes (Function.update f n none) news rest ↔ Completes f news (o :: rest) := by
  have hless : replacements f news cid = replacements (Function.update f n none) news cid + 1 := by
    unfold replacements
    have hmem' : n ∈ news.toFinset.filter fun i => f i = some cid :=
      Finset.mem_filter.mpr ⟨List.mem_toFinset.mpr hmem, hnew⟩
    have herase : (news.toFinset.filter fun i => Function.update f n none i = some cid)
        = (news.toFinset.filter fun i => f i = some cid).erase n := by
      ext i
      by_cases hi : i = n
      · simp [hi]
      · simp [hi]
    rw [herase, Finset.card_erase_add_one hmem']
  have hsame : ∀ k, k ≠ cid →
      replacements (Function.update f n none) news k = replacements f news k := by
    intro k hk
    unfold replacements
    congr 1
    apply Finset.filter_congr
    intro i _
    by_cases hi : i = n
    · simp [hi, hnew, Ne.symm hk]
    · rw [Function.update_of_ne hi]
  have hupdate : ∀ j ∈ rest, Function.update f n none j = f j := by
    intro j hj
    have hne : j ≠ n := fun he => hn (he ▸ List.mem_cons_of_mem _ hj)
    rw [Function.update_of_ne hne]
  have hfilter : ∀ k, (rest.filter fun j => Function.update f n none j = some k)
      = rest.filter fun j => f j = some k := fun k =>
    List.filter_congr fun j hj => by rw [hupdate j hj]
  rw [completes_iff, completes_iff]
  refine and_congr ?_ (forall_congr' fun k => ?_)
  · simp only [List.forall_mem_cons, hold, Option.isSome_some, true_and]
    exact forall₂_congr fun j hj => by rw [hupdate j hj]
  · rw [hfilter]
    by_cases hk : k = cid
    · subst hk
      rw [hless, List.filter_cons_of_pos (by simpa using hold), List.drop_succ_cons]
    · rw [hsame k hk, List.filter_cons_of_neg (by simpa [hold] using Ne.symm hk)]

end

section
variable {data data' : RuntimeStoreData} {b : BundleId} {news : List Nat}

/-- The contracts after an iteration: one slot loses its contract, and it is the
old slot itself when nothing replaces it. -/
theorem swapOldSlot_contractAt {oldIdx : Nat} {cid : GuestContractId} (hp : data.Present)
    (hcid : data.contractAt oldIdx = some cid)
    (hok : swapOldSlot b news data oldIdx = .ok data') :
    ((∀ n ∈ news, data.contractAt n ≠ some cid) ∧
        data'.contractAt = Function.update data.contractAt oldIdx none) ∨
      ∃ n ∈ news, data.contractAt n = some cid ∧
        data'.contractAt = Function.update data.contractAt n none := by
  have hp' := (swapOldSlot_effect hp hok).present
  obtain ⟨cid', hcid', hcase⟩ := swapOldSlot_cases hok
  obtain rfl : cid = cid' := Option.some.inj (hcid.symm.trans hcid')
  rcases hcase with ⟨hnone, rfl⟩ | ⟨newIdx, oldSlot, newSlot, hmatch, hold, hnew, rfl⟩
  · refine Or.inl ⟨hnone, funext fun j => ?_⟩
    rw [contractAt_eq hp', keyAt, retainPluginSlots_catalog_content, vacateSlot_content,
      Function.update_apply, contractAt_eq hp, keyAt]
    split <;> rfl
  · obtain ⟨hmem, hncid⟩ := matchingNewSlot_some hmatch
    refine Or.inr ⟨newIdx, hmem, hncid, funext fun j => ?_⟩
    rw [contractAt_eq hp', keyAt, moveSlot_content hold hnew, Function.update_apply]
    split
    · rfl
    · split
      · rename_i hj
        rw [← keyAt, ← contractAt_eq hp, hncid, hj, hcid]
      · rw [← keyAt, ← contractAt_eq hp]

/-- The loop runs to its end exactly under `Completes`. -/
theorem swapOldSlots_ok_iff {old : List Nat} (hp : data.Present) (hdisj : ∀ n ∈ news, n ∉ old) :
    (∃ mid, swapOldSlots b news old data = (.ok (), mid)) ↔
      Completes data.contractAt news old := by
  induction old generalizing data with
  | nil => simp [swapOldSlots, Completes]
  | cons oldIdx rest ih =>
    have hdisj' : ∀ n ∈ news, n ∉ rest := fun n hn hmem =>
      hdisj n hn (List.mem_cons_of_mem _ hmem)
    cases hcid : data.contractAt oldIdx with
    | none =>
      have herror : swapOldSlot b news data oldIdx = .error (.invalidHandle oldIdx) := by
        simp [swapOldSlot, hcid]
      simp [swapOldSlots, herror, Completes, hcid]
    | some cid =>
      obtain ⟨mid, hone⟩ := swapOldSlot_ok b news hp oldIdx (content_of_contractAt hp hcid)
      have hnew : oldIdx ∉ news := fun hmem => hdisj oldIdx hmem List.mem_cons_self
      have hiff := ih (swapOldSlot_effect hp hone).present hdisj'
      rw [swapOldSlots, hone, hiff]
      rcases swapOldSlot_contractAt hp hcid hone with ⟨hnone, heq⟩ | ⟨n, hmem, hn, heq⟩
      · rw [heq, completes_drop hcid hnone hnew]
      · rw [heq, completes_move hcid hmem hn (hdisj n hmem)]

/-- Every iteration empties a slot. -/
theorem swapOldSlot_empties {oldIdx : Nat} (hp : data.Present)
    (hok : swapOldSlot b news data oldIdx = .ok data') :
    ∃ i, data.catalog.content i ≠ none ∧ data'.catalog.content i = none := by
  obtain ⟨cid, hcid, hcase⟩ := swapOldSlot_cases hok
  rcases hcase with ⟨hnone, rfl⟩ | ⟨newIdx, oldSlot, newSlot, hmatch, hold, hnew, rfl⟩
  · refine ⟨oldIdx, content_of_contractAt hp hcid, ?_⟩
    rw [retainPluginSlots_catalog_content, vacateSlot_content, if_pos rfl]
  · refine ⟨newIdx, content_of_contractAt hp (matchingNewSlot_some hmatch).2, ?_⟩
    rw [moveSlot_content hold hnew, if_pos rfl]

/-- So does every loop whose first old slot is live, whatever its end. -/
theorem swapOldSlots_empties {oldIdx : Nat} {rest : List Nat}
    {result : Except RegistryError Unit} {mid : RuntimeStoreData} (hp : data.Present)
    (hlive : data.contractAt oldIdx ≠ none)
    (hloop : swapOldSlots b news (oldIdx :: rest) data = (result, mid)) :
    ∃ i, data.catalog.content i ≠ none ∧ mid.catalog.content i = none := by
  obtain ⟨cid, hcid⟩ := Option.ne_none_iff_exists'.mp hlive
  obtain ⟨next, hone⟩ := swapOldSlot_ok b news hp oldIdx (content_of_contractAt hp hcid)
  obtain ⟨i, hi, hempty⟩ := swapOldSlot_empties hp hone
  rw [swapOldSlots, hone] at hloop
  have heffect := swapOldSlots_effect (swapOldSlot_effect hp hone).present hloop
  exact ⟨i, hi, by_contra fun hne => heffect.vacates.live i hne hempty⟩

/-- The view shows which slots are live. -/
theorem rebuild_content (hview : ReadView.rebuild data' = ReadView.rebuild data) (i : Nat) :
    data'.catalog.content i = none ↔ data.catalog.content i = none := by
  have hslots : (data'.slots.map PluginSlot.view)[i]? = (data.slots.map PluginSlot.view)[i]? := by
    rw [show data'.slots.map PluginSlot.view = data.slots.map PluginSlot.view from
      congrArg ReadView.slots hview]
  have hview : ∀ slot : PluginSlot, slot.registration = none ↔ slot.view.iface = none := by
    rintro ⟨entry, interface, generation⟩
    cases entry <;> cases interface <;> simp [PluginSlot.registration, PluginSlot.view]
  simp only [List.getElem?_map] at hslots
  simp only [catalog]
  cases h' : data'.slots[i]? <;> cases h : data.slots[i]? <;> simp_all

end

/-! ### One call -/

section
variable {s : RuntimeStore} {b : BundleId} {old : List Nat} {descriptor : BundleDescriptor}
  {dependencies : Finset GuestContractId}

/-- A swap that has emptied a slot and does not publish is caught by the view. -/
theorem not_mirrors_unpublished {mid : RuntimeStoreData} (hm : s.Mirrors)
    (hempties : ∃ i, s.data.catalog.content i ≠ none ∧ mid.catalog.content i = none) :
    ¬ (s.unpublished mid).Mirrors := by
  obtain ⟨i, hi, hempty⟩ := hempties
  intro hmid
  exact hi ((rebuild_content (hmid.symm.trans hm) i).mp hempty)

/-- A loop whose first old slot is not live does nothing. -/
theorem swapOldSlots_of_head {mid : RuntimeStoreData} {news : List Nat}
    {result : Except RegistryError Unit} (hhead : ∀ o ∈ old.head?, s.data.contractAt o = none)
    (hloop : swapOldSlots b news old (closeWindow s.data b) = (result, mid)) :
    mid = closeWindow s.data b := by
  cases old with
  | nil =>
    cases hloop
    rfl
  | cons o rest =>
    have hdead : (closeWindow s.data b).contractAt o = none := hhead o rfl
    have herror : swapOldSlot b news (closeWindow s.data b) o = .error (.invalidHandle o) := by
      simp [swapOldSlot, hdead]
    rw [swapOldSlots, herror] at hloop
    cases hloop
    rfl

/-- When the view still mirrors the data, the first old slot was not live. -/
theorem head_of_mirrors {mid data' : RuntimeStoreData} {result : Except RegistryError Unit}
    (hp : s.data.Present) (hm : s.Mirrors)
    (hloop : swapOldSlots b (pendingSlots s.data b old) old (closeWindow s.data b)
      = (result, mid)) (hcontent : data'.catalog.content = mid.catalog.content)
    (hmid : (s.unpublished data').Mirrors) :
    ∀ o ∈ old.head?, s.data.contractAt o = none := by
  intro o ho
  by_contra hlive
  obtain ⟨rest, rfl⟩ : ∃ rest, old = o :: rest := by
    cases old with
    | nil => simp at ho
    | cons o' rest => exact ⟨rest, by simpa using ho⟩
  obtain ⟨i, hi, hempty⟩ := swapOldSlots_empties
    ((sameSlots_closeWindow s.data b).present.mpr hp) hlive hloop
  exact not_mirrors_unpublished hm ⟨i, hi, by rw [hcontent]; exact hempty⟩ hmid

/-- A failing swap that wrote nothing is faithful. -/
theorem faithful_of_closeWindow {e : RegistryError} (hm : s.Mirrors)
    (heq : s.applyReloadSwap b old descriptor dependencies
      = (.error e, s.unpublished (closeWindow s.data b))) :
    Faithful s (.op (.applyReloadSwap b old descriptor dependencies)) := by
  refine ⟨?_, fun _ _ => Or.inl ?_⟩
  · change (s.applyReloadSwap b old descriptor dependencies).2.Mirrors
    rw [heq]
    exact hm
  · rw [heq]
    exact ⟨rfl, rfl, rfl, rfl⟩

/-- A swap is faithful exactly if it is clean. -/
theorem faithful_swap_iff (hp : s.data.Present) (hm : s.Mirrors) :
    Faithful s (.op (.applyReloadSwap b old descriptor dependencies)) ↔
      SwapClean s.data b old := by
  have hp' := (sameSlots_closeWindow s.data b).present.mpr hp
  have hdisj : ∀ n ∈ pendingSlots s.data b old, n ∉ old := by simp [pendingSlots]
  have hcompletes := swapOldSlots_ok_iff (b := b) hp' hdisj
  rcases applyReloadSwap_cases s b old descriptor dependencies with
    ⟨e, mid, hloop, heq⟩ | ⟨mid, hloop, ⟨hnone, heq⟩ | ⟨bd, hbd, heq⟩⟩
  · -- The loop stops at an error.
    constructor
    · intro hf
      have hmid := hf.1
      rw [RuntimeStore.call, RuntimeStore.exec, heq] at hmid
      exact Or.inl (head_of_mirrors hp hm hloop rfl hmid)
    · rintro (hhead | ⟨-, hall⟩)
      · obtain rfl := swapOldSlots_of_head hhead hloop
        exact faithful_of_closeWindow hm heq
      · obtain ⟨mid', hok⟩ := hcompletes.mpr hall
        rw [hloop] at hok
        cases hok
  · -- The bundle has no record, so it has no pending slot.
    have hpub := foldl_publishSlot (pendingSlots s.data b old) mid
    have hrecord : s.data.bundleData.lookup b = none := by
      have hsome := (swapOldSlots_effect hp' hloop).bundles.isSome b
      rw [hpub.bundleData] at hnone
      rw [hnone] at hsome
      exact Option.isNone_iff_eq_none.mp (by simpa [closeWindow] using hsome.symm)
    constructor
    · intro hf
      have hmid := hf.1
      rw [RuntimeStore.call, RuntimeStore.exec, heq] at hmid
      exact Or.inl (head_of_mirrors hp hm hloop (by simp only [catalog, hpub.slots]) hmid)
    · rintro (hhead | ⟨hsome, -⟩)
      · obtain rfl := swapOldSlots_of_head hhead hloop
        have hpending : pendingSlots s.data b old = [] := by
          simp [pendingSlots, pluginSlots, hrecord]
        rw [hpending] at heq
        exact faithful_of_closeWindow hm heq
      · simp [hrecord] at hsome
  · -- The swap succeeds and publishes.
    have hpub := foldl_publishSlot (pendingSlots s.data b old) mid
    have hsome : (s.data.bundleData.lookup b).isSome := by
      have hsame := (swapOldSlots_effect hp' hloop).bundles.isSome b
      rw [hpub.bundleData] at hbd
      rw [hbd] at hsame
      exact hsame.symm
    refine iff_of_true ⟨?_, fun e he => ?_⟩ (Or.inr ⟨hsome, hcompletes.mp ⟨mid, hloop⟩⟩)
    · change (s.applyReloadSwap b old descriptor dependencies).2.Mirrors
      rw [heq]
      rfl
    · rw [heq] at he
      cases he

end

section
variable {s : RuntimeStore}

/-- A swap keeps `Present`, whatever its arguments and its result. -/
theorem present_swap (hp : s.data.Present) (b : BundleId) (old : List Nat)
    (descriptor : BundleDescriptor) (dependencies : Finset GuestContractId) :
    (s.applyReloadSwap b old descriptor dependencies).2.data.Present := by
  have hp' := (sameSlots_closeWindow s.data b).present.mpr hp
  rcases applyReloadSwap_cases s b old descriptor dependencies with
    ⟨e, mid, hloop, heq⟩ | ⟨mid, hloop, ⟨-, heq⟩ | ⟨bd, -, heq⟩⟩ <;> rw [heq]
  · exact (swapOldSlots_effect hp' hloop).present
  all_goals
    have hpub := foldl_publishSlot (pendingSlots s.data b old) mid
    intro slot hslot
    exact (swapOldSlots_effect hp' hloop).present slot (hpub.slots ▸ hslot)

theorem foldl_purgeSlot_present (b : BundleId) (cells : List Nat) {data : RuntimeStoreData}
    (hp : data.Present) : (cells.foldl (purgeSlot b) data).Present := by
  induction cells generalizing data with
  | nil => exact hp
  | cons i rest ih => exact ih (purgeSlot_present hp b i)

theorem foldl_vacateSlot_present (cells : List Nat) {data : RuntimeStoreData}
    (hp : data.Present) : (cells.foldl vacateSlot data).Present := by
  induction cells generalizing data with
  | nil => exact hp
  | cons i rest ih => exact ih (vacateSlot_present hp i)

/-- Every call keeps `Present`, with any arguments. -/
theorem present_call (hp : s.data.Present) (call : StoreCall) : (s.call call).data.Present := by
  rcases call with op | ⟨slotIndex, newInterface⟩
  · cases op with
    | registerGuestContract d interface ptr contractName b =>
      simp only [RuntimeStore.call, RuntimeStore.exec]
      rcases registerGuestContract_cases s d interface ptr contractName b with
        ⟨e, heq⟩ | ⟨contract, h, data', -, -, hins, heq⟩ <;> rw [heq]
      · exact hp
      · exact insertPreparedGuestContract_present
          ((sameSlots_ensureDefaultBundleData s.data b).present.mpr hp) hins
    | registerPreparedBundle d dependencies contracts =>
      simp only [RuntimeStore.call, RuntimeStore.exec]
      rcases registerPreparedBundle_cases s d dependencies contracts with
        ⟨e, heq⟩ | ⟨hs, data', -, -, hnew, hins, heq⟩ <;> rw [heq]
      · exact hp
      · exact insertAll_present ((sameSlots_insertBundle s.data d dependencies hnew).present.mpr hp)
          hins
    | declareBundleDependencies b contractIds => exact hp
    | registerBundleMetadata b bundleName version runtime origin dependencies => exact hp
    | beginReload b => exact hp
    | abortReload b old => exact foldl_purgeSlot_present b _ hp
    | applyReloadSwap b old d dependencies => exact present_swap hp b old d dependencies
    | invalidateBundle b =>
      simp only [RuntimeStore.call, RuntimeStore.exec, invalidateBundle]
      cases s.data.bundleData.lookup b with
      | none => exact hp
      | some bd => exact foldl_vacateSlot_present bd.pluginSlots hp
  · simp only [RuntimeStore.call, swapGuestContractInterface]
    cases hslot : s.data.slots[slotIndex]? with
    | none => exact hp
    | some slot =>
      dsimp only
      cases harc : slot.interface with
      | none => exact hp
      | some arc =>
        refine present_set hp ?_
        rw [hp slot (List.mem_of_getElem? hslot), harc]
        rfl

/-- Every call but a swap publishes or writes nothing. -/
theorem mirrors_call (hm : s.Mirrors) {call : StoreCall}
    (hcall : ∀ b old descriptor dependencies,
      call ≠ .op (.applyReloadSwap b old descriptor dependencies)) : (s.call call).Mirrors := by
  rcases call with op | ⟨slotIndex, newInterface⟩
  · cases op with
    | registerGuestContract d interface ptr contractName b =>
      simp only [RuntimeStore.call, RuntimeStore.exec]
      rcases registerGuestContract_cases s d interface ptr contractName b with
        ⟨e, heq⟩ | ⟨contract, h, data', -, -, hins, heq⟩ <;> rw [heq]
      · exact hm
      · rfl
    | registerPreparedBundle d dependencies contracts =>
      simp only [RuntimeStore.call, RuntimeStore.exec]
      rcases registerPreparedBundle_cases s d dependencies contracts with
        ⟨e, heq⟩ | ⟨hs, data', -, -, hnew, hins, heq⟩ <;> rw [heq]
      · exact hm
      · rfl
    | declareBundleDependencies b contractIds => rfl
    | registerBundleMetadata b bundleName version runtime origin dependencies => rfl
    | beginReload b => rfl
    | abortReload b old => rfl
    | applyReloadSwap b old d dependencies => exact absurd rfl (hcall b old d dependencies)
    | invalidateBundle b =>
      simp only [RuntimeStore.call, RuntimeStore.exec, invalidateBundle]
      cases s.data.bundleData.lookup b with
      | none => exact hm
      | some bd => rfl
  · simp only [RuntimeStore.call, swapGuestContractInterface]
    cases hslot : s.data.slots[slotIndex]? with
    | none => exact hm
    | some slot =>
      dsimp only
      cases harc : slot.interface with
      | none => exact hm
      | some arc => rfl

/-- A call is faithful exactly if it is clean. -/
theorem faithful_iff (hp : s.data.Present) (hm : s.Mirrors) (call : StoreCall) :
    Faithful s call ↔ Clean s call := by
  by_cases hswap : ∃ b old descriptor dependencies,
      call = .op (.applyReloadSwap b old descriptor dependencies)
  · obtain ⟨b, old, descriptor, dependencies, rfl⟩ := hswap
    exact faithful_swap_iff hp hm
  · push Not at hswap
    refine iff_of_true ⟨mirrors_call hm hswap, ?_⟩ ?_
    · unfold KeptOnError
      split
      · exact absurd rfl (hswap _ _ _ _)
      · trivial
    · unfold Clean
      split
      · exact absurd rfl (hswap _ _ _ _)
      · trivial

end

/-! ### Whole runs -/

/-- A run is faithful at every call exactly if each of its swaps is clean. -/
theorem faithful_steps_iff {s : RuntimeStore} (hp : s.data.Present) (hm : s.Mirrors)
    (calls : List StoreCall) :
    Steps RuntimeStore.call Faithful s calls ↔ Steps RuntimeStore.call Clean s calls := by
  induction calls generalizing s with
  | nil => exact Iff.rfl
  | cons call rest ih =>
    have hiff := faithful_iff hp hm call
    constructor
    · rintro ⟨hf, hrest⟩
      exact ⟨hiff.mp hf, (ih (present_call hp call) hf.1).mp hrest⟩
    · rintro ⟨hc, hrest⟩
      have hf := hiff.mpr hc
      exact ⟨hf, (ih (present_call hp call) hf.1).mpr hrest⟩

/-- In a run of any mutators with any arguments, from the empty registry, the
published view is the one of the locked data after every call and every failing
swap leaves the registry, exactly if each swap of the run is clean. -/
theorem mirrors_run_iff (calls : List StoreCall) :
    (RuntimeStore.new.Mirrors ∧ Steps RuntimeStore.call Faithful RuntimeStore.new calls) ↔
      Steps RuntimeStore.call Clean RuntimeStore.new calls := by
  have hnew : RuntimeStore.new.Mirrors := rfl
  rw [faithful_steps_iff present_new hnew, and_iff_right hnew]

/-- Slot `0` is dropped, then slot `7` does not exist: the swap returns an error
with the slot gone from the locked data and still live in the published view. -/
theorem not_mirrors_half_swap :
    ¬ ∀ calls, RuntimeStore.new.Mirrors ∧
      Steps RuntimeStore.call Faithful RuntimeStore.new calls := by
  intro h
  obtain ⟨-, -, hswap, -⟩ := h [.op (.register ⟨1⟩ ⟨10⟩ "log" 100), .op (.swap ⟨1⟩ [0, 7])]
  exact absurd hswap.1 (by decide +kernel)

end PolyPlug.Registry
