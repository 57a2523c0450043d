import PolyPlug.Proofs.Registry.Catalogue

/-!
# `PolyPlug.Proofs.Registry.Reload`: reload windows and unload on the catalogue

The reconciliation loop of `apply_reload_swap` is a `Lib.Catalog.Reconcile` run,
its publishing loop `Lib.Catalog.publish`, and `abort_reload` and
`invalidate_bundle` are withdrawals.

A slot is emptied in three ways with a bumped generation (`vacateSlot`, the
consumed slot of a move, unload) and in one way without (`purgeSlot`).
`Vacates` names the first kind.
-/

set_option autoImplicit false

namespace PolyPlug.Registry

open PolyPlug.Abi
open PolyPlug.Lib (Catalog lookup_insert_eq lookup_erase_eq)
open PolyPlug.Lib.Catalog
open RuntimeStoreData RuntimeStore

/-! ### Vacated slots -/

/-- Slots were emptied, each with its generation bumped once. No slot was filled
and no other generation moved. -/
structure Vacates (data data' : RuntimeStoreData) : Prop where
  live : ∀ i, data'.catalog.content i ≠ none → data.catalog.content i ≠ none
  generation : ∀ i, data'.generationAt i
    = if data.catalog.content i ≠ none ∧ data'.catalog.content i = none
      then wrappingSucc (data.generationAt i) else data.generationAt i

theorem Vacates.refl (data : RuntimeStoreData) : Vacates data data where
  live := fun _ h => h
  generation := fun i => by rw [if_neg (by tauto)]

theorem Vacates.of_eq {data data' : RuntimeStoreData}
    (hcontent : data'.catalog.content = data.catalog.content)
    (hgen : ∀ i, data'.generationAt i = data.generationAt i) : Vacates data data' where
  live := fun i h => by rwa [hcontent] at h
  generation := fun i => by rw [hcontent, hgen, if_neg (by tauto)]

theorem Vacates.trans {data mid data' : RuntimeStoreData} (h : Vacates data mid)
    (h' : Vacates mid data') : Vacates data data' where
  live := fun i hi => h.live i (h'.live i hi)
  generation := by
    intro i
    have hlive := h.live i
    have hlive' := h'.live i
    rw [h'.generation i, h.generation i]
    -- A slot emptied in the first part stays empty in the second, so it is bumped once.
    by_cases h0 : data.catalog.content i = none <;>
      by_cases h1 : mid.catalog.content i = none <;>
        by_cases h2 : data'.catalog.content i = none <;> simp_all

section
variable {data data' : RuntimeStoreData} {b : BundleId}

/-- Vacating a live slot. -/
theorem vacates_vacateSlot {i : Nat} (hi : data.catalog.content i ≠ none) :
    Vacates data (data.vacateSlot i) where
  live := by
    intro j hj
    rw [vacateSlot_content] at hj
    split at hj
    · exact absurd rfl hj
    · exact hj
  generation := by
    intro j
    have hlt := lt_length_of_content hi
    rw [vacateSlot_generationAt, vacateSlot_content]
    by_cases hj : j = i
    · subst hj
      simp [hlt, hi]
    · rw [if_neg (by tauto), if_neg (by simp [hj])]

/-! ### The move of a replacement -/

section
variable {cid : GuestContractId} {oldIdx newIdx : Nat} {oldSlot newSlot : PluginSlot}

theorem moveSlot_slots :
    (moveSlot b data cid oldIdx newIdx oldSlot newSlot).slots
      = (data.slots.set oldIdx ⟨newSlot.entry, newSlot.interface, oldSlot.generation⟩).set
          newIdx ⟨none, none, wrappingSucc newSlot.generation⟩ := by
  simp [moveSlot]

@[simp] theorem moveSlot_reloading :
    (moveSlot b data cid oldIdx newIdx oldSlot newSlot).reloadingBundles
      = data.reloadingBundles := by
  simp [moveSlot]

theorem sameBundles_moveSlot :
    SameBundles data (moveSlot b data cid oldIdx newIdx oldSlot newSlot) := by
  unfold moveSlot
  refine SameBundles.trans ?_ (sameBundles_retainPluginSlots b newIdx)
  exact ⟨fun _ => rfl, rfl, rfl⟩

theorem moveSlot_present (h : data.Present) (hnew : data.slots[newIdx]? = some newSlot) :
    (moveSlot b data cid oldIdx newIdx oldSlot newSlot).Present := by
  unfold Present
  rw [moveSlot_slots]
  exact present_set (present_set h (h newSlot (List.mem_of_getElem? hnew))) rfl

theorem moveSlot_content (hold : data.slots[oldIdx]? = some oldSlot)
    (hnew : data.slots[newIdx]? = some newSlot) (j : Nat) :
    (moveSlot b data cid oldIdx newIdx oldSlot newSlot).catalog.content j
      = if j = newIdx then none
        else if j = oldIdx then data.catalog.content newIdx else data.catalog.content j := by
  have holdlt := (List.getElem?_eq_some_iff.mp hold).1
  have hnewlt := (List.getElem?_eq_some_iff.mp hnew).1
  simp only [catalog, moveSlot_slots]
  rw [getElem?_set_registration, getElem?_set_registration]
  by_cases hjn : j = newIdx
  · simp [hjn, hnewlt, PluginSlot.registration]
  · by_cases hjo : j = oldIdx
    · subst hjo
      simp [hjn, holdlt, hnew, PluginSlot.registration]
    · simp [hjn, hjo]

theorem moveSlot_generationAt (hold : data.slots[oldIdx]? = some oldSlot)
    (hnew : data.slots[newIdx]? = some newSlot) (j : Nat) :
    (moveSlot b data cid oldIdx newIdx oldSlot newSlot).generationAt j
      = if j = newIdx then wrappingSucc (data.generationAt j) else data.generationAt j := by
  have hnewlt := (List.getElem?_eq_some_iff.mp hnew).1
  simp only [generationAt, moveSlot_slots]
  rw [getElem?_set_generation, getElem?_set_generation]
  by_cases hjn : j = newIdx
  · subst hjn
    rw [if_pos ⟨rfl, by simpa using hnewlt⟩, if_pos rfl, hnew]
    rfl
  · by_cases hjo : j = oldIdx
    · subst hjo
      rw [if_neg (by tauto), if_neg hjn, hold]
      simp
    · simp [hjn, hjo]

/-- A move into a live slot empties the new slot only. -/
theorem vacates_moveSlot (hold : data.slots[oldIdx]? = some oldSlot)
    (hnew : data.slots[newIdx]? = some newSlot) (holive : data.catalog.content oldIdx ≠ none)
    (hnlive : data.catalog.content newIdx ≠ none) :
    Vacates data (moveSlot b data cid oldIdx newIdx oldSlot newSlot) where
  live := by
    intro j hj
    rw [moveSlot_content hold hnew] at hj
    by_cases hjn : j = newIdx
    · rw [hjn]
      exact hnlive
    · by_cases hjo : j = oldIdx
      · rw [hjo]
        exact holive
      · simpa [hjn, hjo] using hj
  generation := by
    intro j
    rw [moveSlot_generationAt hold hnew, moveSlot_content hold hnew]
    by_cases hjn : j = newIdx
    · subst hjn
      simp [hnlive]
    · by_cases hjo : j = oldIdx
      · subst hjo
        simp [hjn, hnlive]
      · rw [if_neg hjn, if_neg (by simp [hjn, hjo])]

/-- The index after a move: the consumed slot leaves the list of the contract. -/
theorem moveSlot_indexOf (k : GuestContractId) :
    (moveSlot b data cid oldIdx newIdx oldSlot newSlot).indexOf k
      = if k = cid then (data.indexOf k).filter (· ∉ [newIdx]) else data.indexOf k := by
  simp only [moveSlot, indexOf, retainPluginSlots_index]
  cases hl : data.guestContractIndex.lookup cid with
  | none =>
    dsimp only
    split
    · rename_i hk
      subst hk
      simp [hl]
    · rfl
  | some indices =>
    dsimp only
    rw [lookup_insert_eq]
    split
    · rename_i hk
      subst hk
      simp [hl]
    · rfl

theorem catalog_moveSlot (hi : data.Indexed) (hold : data.slots[oldIdx]? = some oldSlot)
    (hnew : data.slots[newIdx]? = some newSlot)
    (hkey : data.catalog.keyAt Registration.key newIdx = some cid) :
    (moveSlot b data cid oldIdx newIdx oldSlot newSlot).catalog
      = data.catalog.move b newIdx oldIdx := by
  ext1
  · funext j
    exact moveSlot_content hold hnew j
  · funext k
    refine (moveSlot_indexOf k).trans ?_
    split
    · rfl
    · rename_i hk
      exact (hi.filter_of_key_ne (by simpa [hkey] using Ne.symm hk)).symm
  · funext x
    exact pluginSlots_retainPluginSlots b x newIdx

/-- A move keeps every key non-empty when the consumed slot was not listed. -/
theorem moveSlot_noEmptyKey (h : data.NoEmptyKey) (hpending : newIdx ∉ data.indexOf cid) :
    (moveSlot b data cid oldIdx newIdx oldSlot newSlot).NoEmptyKey := by
  intro k indices hl
  simp only [moveSlot, retainPluginSlots_index] at hl
  cases hc : data.guestContractIndex.lookup cid with
  | none =>
    rw [hc] at hl
    exact h k indices hl
  | some kept =>
    rw [hc] at hl
    dsimp only at hl
    rw [lookup_insert_eq] at hl
    split at hl
    · have hsame : kept.filter (fun idx => idx ≠ newIdx) = kept := by
        refine List.filter_eq_self.mpr fun j hj => ?_
        have hne : j ≠ newIdx := by
          rintro rfl
          exact hpending (by simpa [indexOf, hc] using hj)
        simpa using hne
      rw [hsame] at hl
      exact Option.some.inj hl ▸ h cid kept hc
    · exact h k indices hl

end

/-! ### The reconciliation loop -/

/-- An iteration that goes on drops an old slot without a replacement, or moves
the first replacement into it. -/
theorem swapOldSlot_cases {news : List Nat} {oldIdx : Nat}
    (hok : swapOldSlot b news data oldIdx = .ok data') :
    ∃ cid, data.contractAt oldIdx = some cid ∧
      (((∀ n ∈ news, data.contractAt n ≠ some cid) ∧
          data' = (data.vacateSlot oldIdx).retainPluginSlots b oldIdx) ∨
        ∃ newIdx oldSlot newSlot, matchingNewSlot data news cid = some newIdx ∧
          data.slots[oldIdx]? = some oldSlot ∧ data.slots[newIdx]? = some newSlot ∧
          data' = moveSlot b data cid oldIdx newIdx oldSlot newSlot) := by
  unfold swapOldSlot at hok
  cases hcid : data.contractAt oldIdx with
  | none =>
    rw [hcid] at hok
    cases hok
  | some cid =>
    rw [hcid] at hok
    refine ⟨cid, rfl, ?_⟩
    dsimp only at hok
    cases hmatch : matchingNewSlot data news cid with
    | none =>
      rw [hmatch] at hok
      refine Or.inl ⟨fun n hn => ?_, (Except.ok.inj hok).symm⟩
      simpa using List.find?_eq_none.mp hmatch n hn
    | some newIdx =>
      rw [hmatch] at hok
      dsimp only at hok
      cases hnew : data.slots[newIdx]? with
      | none =>
        rw [hnew] at hok
        cases hok
      | some newSlot =>
        rw [hnew] at hok
        dsimp only at hok
        split at hok
        · cases hok
        · cases hold : data.slots[oldIdx]? with
          | none =>
            rw [hold] at hok
            cases hok
          | some oldSlot =>
            rw [hold] at hok
            dsimp only at hok
            split at hok
            · cases hok
            · exact Or.inr ⟨newIdx, oldSlot, newSlot, rfl, rfl, hnew,
                (Except.ok.inj hok).symm⟩

/-- The chosen replacement is a slot of the window with the contract asked for. -/
theorem matchingNewSlot_some {news : List Nat} {cid : GuestContractId} {newIdx : Nat}
    (h : matchingNewSlot data news cid = some newIdx) :
    newIdx ∈ news ∧ data.contractAt newIdx = some cid :=
  ⟨List.mem_of_find?_eq_some h, by simpa using List.find?_some h⟩

/-- A slot with a contract is live. -/
theorem content_of_contractAt (hp : data.Present) {i : Nat} {cid : GuestContractId}
    (hcid : data.contractAt i = some cid) : data.catalog.content i ≠ none := by
  intro hn
  rw [contractAt_eq hp] at hcid
  simp [keyAt, hn] at hcid

/-- What the reconciliation loop does to the data whatever its index says: it
empties slots with a bump, and leaves the metadata of the bundles. -/
structure SwapEffect (data data' : RuntimeStoreData) : Prop where
  vacates : Vacates data data'
  present : data'.Present
  bundles : SameBundles data data'
  reloading : data'.reloadingBundles = data.reloadingBundles
  length : data'.slots.length = data.slots.length

theorem SwapEffect.refl (hp : data.Present) : SwapEffect data data :=
  ⟨.refl data, hp, .refl data, rfl, rfl⟩

theorem SwapEffect.trans {mid : RuntimeStoreData} (h : SwapEffect data mid)
    (h' : SwapEffect mid data') : SwapEffect data data' :=
  ⟨h.vacates.trans h'.vacates, h'.present, h.bundles.trans h'.bundles,
    h'.reloading.trans h.reloading, h'.length.trans h.length⟩

theorem swapOldSlot_effect {news : List Nat} {oldIdx : Nat} (hp : data.Present)
    (hok : swapOldSlot b news data oldIdx = .ok data') : SwapEffect data data' := by
  obtain ⟨cid, hcid, hcase⟩ := swapOldSlot_cases hok
  have holive := content_of_contractAt hp hcid
  rcases hcase with ⟨hnone, rfl⟩ | ⟨newIdx, oldSlot, newSlot, hmatch, hold, hnew, rfl⟩
  · refine ⟨(vacates_vacateSlot holive).trans (.of_eq (by simp) (by simp)), ?_,
      (sameBundles_vacateSlot oldIdx).trans (sameBundles_retainPluginSlots b oldIdx),
      by simp, by simp⟩
    unfold Present
    rw [retainPluginSlots_slots]
    exact vacateSlot_present hp oldIdx
  · have hnlive := content_of_contractAt hp (matchingNewSlot_some hmatch).2
    refine ⟨vacates_moveSlot hold hnew holive hnlive, moveSlot_present hp hnew,
      sameBundles_moveSlot, by simp, ?_⟩
    rw [moveSlot_slots]
    simp

/-- A loop, also one that stops at an error. -/
theorem swapOldSlots_effect {news old : List Nat} {result : Except RegistryError Unit}
    (hp : data.Present) (hloop : swapOldSlots b news old data = (result, data')) :
    SwapEffect data data' := by
  induction old generalizing data with
  | nil =>
    cases hloop
    exact .refl hp
  | cons oldIdx rest ih =>
    unfold swapOldSlots at hloop
    cases hone : swapOldSlot b news data oldIdx with
    | error e =>
      rw [hone] at hloop
      cases hloop
      exact .refl hp
    | ok mid =>
      rw [hone] at hloop
      have hstep := swapOldSlot_effect hp hone
      exact hstep.trans (ih hstep.present hloop)

/-- What one iteration does to the catalogue. -/
structure SwapStep (b : BundleId) (news : List Nat) (data : RuntimeStoreData) (oldIdx : Nat)
    (data' : RuntimeStoreData) : Prop where
  replace : Replace Registration.key b news data.catalog oldIdx data'.catalog
  noEmptyKey : (∀ n ∈ news, ∀ k, n ∉ data.indexOf k) → data.NoEmptyKey → data'.NoEmptyKey

theorem swapOldSlot_step {news : List Nat} {oldIdx : Nat} (hp : data.Present)
    (hi : data.Indexed) (hok : swapOldSlot b news data oldIdx = .ok data') :
    SwapStep b news data oldIdx data' := by
  obtain ⟨cid, hcid, hcase⟩ := swapOldSlot_cases hok
  have hkey : data.catalog.keyAt Registration.key oldIdx = some cid := by
    rw [← contractAt_eq hp, hcid]
  rcases hcase with ⟨hnone, rfl⟩ | ⟨newIdx, oldSlot, newSlot, hmatch, hold, hnew, rfl⟩
  · refine ⟨?_, fun _ hk => ?_⟩
    · rw [catalog_vacateSlot_retain hp hi]
      exact .drop hkey fun n hn => by rw [← contractAt_eq hp]; exact hnone n hn
    · unfold NoEmptyKey
      rw [retainPluginSlots_index]
      exact vacateSlot_noEmptyKey hk oldIdx
  · obtain ⟨hmem, hncid⟩ := matchingNewSlot_some hmatch
    have hnkey : data.catalog.keyAt Registration.key newIdx = some cid := by
      rw [← contractAt_eq hp, hncid]
    refine ⟨?_, fun hpending hk => moveSlot_noEmptyKey hk (hpending newIdx hmem cid)⟩
    rw [catalog_moveSlot hi hold hnew hnkey]
    exact .replace hkey hmem hnkey

/-- What the whole loop does. -/
structure SwapLoop (b : BundleId) (news old : List Nat) (data data' : RuntimeStoreData) :
    Prop extends SwapEffect data data' where
  reconcile : Reconcile Registration.key b news data.catalog old data'.catalog
  noEmptyKey : (∀ n ∈ news, ∀ k, n ∉ data.indexOf k) → data.NoEmptyKey → data'.NoEmptyKey

/-- A non-empty loop is an iteration and the loop over the rest. -/
theorem swapOldSlots_cons_ok {news rest : List Nat} {oldIdx : Nat}
    (hok : swapOldSlots b news (oldIdx :: rest) data = (.ok (), data')) :
    ∃ mid, swapOldSlot b news data oldIdx = .ok mid ∧
      swapOldSlots b news rest mid = (.ok (), data') := by
  unfold swapOldSlots at hok
  cases hone : swapOldSlot b news data oldIdx with
  | error e =>
    rw [hone] at hok
    cases hok
  | ok mid =>
    rw [hone] at hok
    exact ⟨mid, rfl, hok⟩

/-- A loop that ends without an error is a `Reconcile` run. -/
theorem swapOldSlots_loop {news old : List Nat} (hp : data.Present) (hi : data.Indexed)
    (hok : swapOldSlots b news old data = (.ok (), data')) :
    SwapLoop b news old data data' := by
  induction old generalizing data with
  | nil =>
    cases hok
    exact ⟨.refl hp, .nil, fun _ hk => hk⟩
  | cons oldIdx rest ih =>
    obtain ⟨mid, hone, hrest⟩ := swapOldSlots_cons_ok hok
    have hstep := swapOldSlot_step hp hi hone
    have heffect := swapOldSlot_effect hp hone
    have hloop := ih heffect.present (hstep.replace.indexed _ hi) hrest
    refine ⟨heffect.trans hloop.toSwapEffect, .cons hstep.replace hloop.reconcile, ?_⟩
    intro hpending hk
    refine hloop.noEmptyKey (fun n hn k hmem => ?_) (hstep.noEmptyKey hpending hk)
    exact hpending n hn k (hstep.replace.listed_subset _ k hmem)

/-! ### The publishing loop -/

@[simp] theorem publishSlot_slots (i : Nat) : (publishSlot data i).slots = data.slots := by
  unfold publishSlot
  repeat' split
  all_goals rfl

@[simp] theorem publishSlot_bundleData (i : Nat) :
    (publishSlot data i).bundleData = data.bundleData := by
  unfold publishSlot
  repeat' split
  all_goals rfl

@[simp] theorem publishSlot_reloading (i : Nat) :
    (publishSlot data i).reloadingBundles = data.reloadingBundles := by
  unfold publishSlot
  repeat' split
  all_goals rfl

@[simp] theorem publishSlot_bundleDeclaredDeps (i : Nat) :
    (publishSlot data i).bundleDeclaredDeps = data.bundleDeclaredDeps := by
  unfold publishSlot
  repeat' split
  all_goals rfl

@[simp] theorem publishSlot_bundleNameIndex (i : Nat) :
    (publishSlot data i).bundleNameIndex = data.bundleNameIndex := by
  unfold publishSlot
  repeat' split
  all_goals rfl

theorem publishSlot_noEmptyKey (h : data.NoEmptyKey) (i : Nat) :
    (publishSlot data i).NoEmptyKey := by
  unfold publishSlot
  split
  · exact h
  · split
    · split
      · exact h
      · intro k indices hl
        dsimp only at hl
        rw [lookup_insert_eq] at hl
        split at hl
        · obtain rfl := Option.some.inj hl
          split
          · rename_i hmem
            exact List.ne_nil_of_mem hmem
          · simp
        · exact h k indices hl
    · exact h

theorem catalog_publishSlot (i : Nat) :
    (publishSlot data i).catalog = data.catalog.offer Registration.key i := by
  ext1
  · simp only [catalog, offer, publishSlot_slots]
  · funext k
    cases hslot : data.slots[i]? with
    | none => simp [catalog, offer, keyAt, publishSlot, hslot]
    | some slot =>
      obtain ⟨entry, interface, generation⟩ := slot
      cases entry with
      | none => simp [catalog, offer, keyAt, publishSlot, hslot, PluginSlot.registration]
      | some entry =>
        cases interface with
        | none => simp [catalog, offer, keyAt, publishSlot, hslot, PluginSlot.registration]
        | some arc =>
          simp only [catalog, offer, keyAt, publishSlot, hslot, Option.isSome_some, if_true,
            PluginSlot.registration, Option.bind_some, Option.map_some, Registration.key, indexOf,
            lookup_insert_eq]
          by_cases hk : k = arc.val.contractId
          · subst hk
            by_cases hmem : i ∈ data.indexOf arc.val.contractId <;>
              simp_all [indexOf]
          · simp [hk, Ne.symm hk]
  · funext x
    simp only [catalog, offer, pluginSlots, publishSlot_bundleData]

/-- What the publishing loop does. -/
structure PublishLoop (news : List Nat) (data data' : RuntimeStoreData) : Prop where
  catalog_eq : data'.catalog = data.catalog.publish Registration.key news
  slots : data'.slots = data.slots
  bundleData : data'.bundleData = data.bundleData
  declaredDeps : data'.bundleDeclaredDeps = data.bundleDeclaredDeps
  nameIndex : data'.bundleNameIndex = data.bundleNameIndex
  reloading : data'.reloadingBundles = data.reloadingBundles
  noEmptyKey : data.NoEmptyKey → data'.NoEmptyKey

theorem foldl_publishSlot (news : List Nat) (data : RuntimeStoreData) :
    PublishLoop news data (news.foldl publishSlot data) := by
  induction news generalizing data with
  | nil => exact ⟨rfl, rfl, rfl, rfl, rfl, rfl, fun h => h⟩
  | cons i rest ih =>
    obtain ⟨hcat, hslots, hbd, hdeps, hnames, hreload, hkeys⟩ := ih (publishSlot data i)
    refine ⟨?_, by simpa using hslots, by simpa using hbd, by simpa using hdeps,
      by simpa using hnames, by simpa using hreload,
      fun h => hkeys (publishSlot_noEmptyKey h i)⟩
    rw [catalog_publishSlot] at hcat
    exact hcat

/-! ### Closing a window -/

theorem sameSlots_closeWindow (data : RuntimeStoreData) (b : BundleId) :
    SameSlots data (closeWindow data b) :=
  ⟨rfl, rfl, fun _ => rfl⟩

theorem pendingSlots_closeWindow (data : RuntimeStoreData) (b : BundleId) (old : List Nat) :
    pendingSlots (closeWindow data b) b old = pendingSlots data b old := rfl

/-- The purge loop. -/
structure PurgeLoop (b : BundleId) (cells : List Nat) (data data' : RuntimeStoreData) :
    Prop where
  catalog_eq : data'.catalog = data.catalog.withdraw b cells
  generations : ∀ i, data'.generationAt i = data.generationAt i
  present : data'.Present
  bundles : SameBundles data data'
  reloading : data'.reloadingBundles = data.reloadingBundles
  length : data'.slots.length = data.slots.length
  noEmptyKey : data.NoEmptyKey → data'.NoEmptyKey

theorem foldl_purgeSlot (cells : List Nat) (hp : data.Present) (hi : data.Indexed) :
    PurgeLoop b cells data (cells.foldl (purgeSlot b) data) := by
  induction cells generalizing data with
  | nil => exact ⟨by simp, fun _ => rfl, hp, .refl _, rfl, rfl, fun h => h⟩
  | cons i rest ih =>
    have hcat := catalog_purgeSlot hp hi b i
    have hi' : (purgeSlot b data i).Indexed := by
      rw [RuntimeStoreData.Indexed, hcat]
      exact indexed_withdraw hi b [i]
    obtain ⟨hrest, hgen, hpres, hbundles, hreload, hlen, hkeys⟩ :=
      ih (purgeSlot_present hp b i) hi'
    refine ⟨?_, ?_, hpres, (sameBundles_purgeSlot b i).trans hbundles, ?_, ?_, fun h =>
      hkeys (purgeSlot_noEmptyKey h b i)⟩
    · rw [hcat, withdraw_withdraw] at hrest
      exact hrest
    · intro j
      rw [List.foldl_cons, hgen j, purgeSlot_generationAt]
    · rw [List.foldl_cons, hreload, purgeSlot_reloading]
    · rw [List.foldl_cons, hlen, purgeSlot_length]

/-- `abort_reload` withdraws the pending slots of the bundle and keeps every
generation. -/
theorem abortReload_purge (s : RuntimeStore) (b : BundleId) (old : List Nat)
    (hp : s.data.Present) (hi : s.data.Indexed) :
    ∃ data', s.abortReload b old = s.publish data' ∧
      PurgeLoop b (pendingSlots s.data b old) (closeWindow s.data b) data' := by
  have hsame := sameSlots_closeWindow s.data b
  exact ⟨_, rfl, foldl_purgeSlot _ (hsame.present.mpr hp) (hsame.indexed.mpr hi)⟩

/-- A swap that succeeds: the reconciliation loop, the publishing loop, and the
replacement of the bundle's metadata. -/
structure Swaps (s : RuntimeStore) (b : BundleId) (old : List Nat) (data' : RuntimeStoreData) :
    Prop where
  loop : ∃ mid, SwapLoop b (pendingSlots s.data b old) old (closeWindow s.data b) mid ∧
    data'.catalog = mid.catalog.publish Registration.key (pendingSlots s.data b old) ∧
    data'.slots = mid.slots ∧ (mid.NoEmptyKey → data'.NoEmptyKey)
  reloading : data'.reloadingBundles = s.data.reloadingBundles.erase b

/-- The three ends of `apply_reload_swap`. -/
theorem applyReloadSwap_cases (s : RuntimeStore) (b : BundleId) (old : List Nat)
    (descriptor : BundleDescriptor) (dependencies : Finset GuestContractId) :
    (∃ e mid, swapOldSlots b (pendingSlots s.data b old) old (closeWindow s.data b)
        = (.error e, mid) ∧
      s.applyReloadSwap b old descriptor dependencies = (.error e, s.unpublished mid)) ∨
    ∃ mid, swapOldSlots b (pendingSlots s.data b old) old (closeWindow s.data b)
        = (.ok (), mid) ∧
      ((((pendingSlots s.data b old).foldl publishSlot mid).bundleData.lookup b = none ∧
        s.applyReloadSwap b old descriptor dependencies
          = (.error (.missingBundleMetadata b.id),
              s.unpublished ((pendingSlots s.data b old).foldl publishSlot mid))) ∨
      ∃ bd, ((pendingSlots s.data b old).foldl publishSlot mid).bundleData.lookup b = some bd ∧
        s.applyReloadSwap b old descriptor dependencies
          = (.ok (), s.publish
              { (pendingSlots s.data b old).foldl publishSlot mid with
                  bundleData := ((pendingSlots s.data b old).foldl publishSlot
                    mid).bundleData.insert b { bd with descriptor := descriptor }
                  bundleDeclaredDeps := ((pendingSlots s.data b old).foldl publishSlot
                    mid).bundleDeclaredDeps.insert b dependencies })) := by
  unfold applyReloadSwap
  dsimp only
  rw [pendingSlots_closeWindow]
  cases hloop : swapOldSlots b (pendingSlots s.data b old) old (closeWindow s.data b) with
  | mk result mid =>
    cases result with
    | error e => exact Or.inl ⟨e, mid, rfl, rfl⟩
    | ok u =>
      refine Or.inr ⟨mid, rfl, ?_⟩
      dsimp only
      cases hbd : ((pendingSlots s.data b old).foldl publishSlot mid).bundleData.lookup b with
      | none => exact Or.inl ⟨rfl, rfl⟩
      | some bd => exact Or.inr ⟨bd, rfl, rfl⟩

/-- A swap that returns `Ok` is a `Swaps`. -/
theorem swaps_of_applyReloadSwap {s s' : RuntimeStore} {old : List Nat}
    {descriptor : BundleDescriptor} {dependencies : Finset GuestContractId}
    (hp : s.data.Present) (hi : s.data.Indexed)
    (hok : s.applyReloadSwap b old descriptor dependencies = (.ok (), s')) :
    ∃ data', s' = s.publish data' ∧ Swaps s b old data' := by
  have hsame := sameSlots_closeWindow s.data b
  rcases applyReloadSwap_cases s b old descriptor dependencies with
    ⟨e, mid, -, heq⟩ | ⟨mid, hloop, ⟨-, heq⟩ | ⟨bd, hbd, heq⟩⟩
  · rw [heq] at hok
    cases hok
  · rw [heq] at hok
    cases hok
  · rw [heq] at hok
    have hrun := swapOldSlots_loop (hsame.present.mpr hp) (hsame.indexed.mpr hi) hloop
    have hpub := foldl_publishSlot (pendingSlots s.data b old) mid
    refine ⟨_, (congrArg Prod.snd hok).symm, ⟨mid, hrun, ?_, hpub.slots, hpub.noEmptyKey⟩, ?_⟩
    · -- The metadata write keeps the slot list of the bundle's record.
      rw [← hpub.catalog_eq]
      refine SameSlots.catalog_eq ⟨rfl, rfl, fun x => ?_⟩
      simp only [pluginSlots, lookup_insert_eq]
      split
      · rename_i hx
        rw [hx, hbd]
        rfl
      · rfl
    · exact hpub.reloading.trans hrun.reloading

/-! ### Unload -/

/-- The vacating loop of `invalidate_bundle`. -/
structure VacateLoop (cells : List Nat) (data data' : RuntimeStoreData) : Prop where
  content : ∀ i, data'.catalog.content i = if i ∈ cells then none else data.catalog.content i
  listed : ∀ k, data'.indexOf k = (data.indexOf k).filter (· ∉ cells)
  present : data'.Present
  bundleData : data'.bundleData = data.bundleData
  bundleNameIndex : data'.bundleNameIndex = data.bundleNameIndex
  bundleDeclaredDeps : data'.bundleDeclaredDeps = data.bundleDeclaredDeps
  reloading : data'.reloadingBundles = data.reloadingBundles
  length : data'.slots.length = data.slots.length
  noEmptyKey : data.NoEmptyKey → data'.NoEmptyKey

theorem vacateSlot_indexed (hp : data.Present) (hi : data.Indexed) (i : Nat) :
    (data.vacateSlot i).Indexed where
  listed_key k j hj := by
    change j ∈ (data.vacateSlot i).indexOf k at hj
    rw [vacateSlot_indexOf hp hi] at hj
    obtain ⟨hmem, hne⟩ := List.mem_filter.mp hj
    have hne' : j ≠ i := by simpa using hne
    simpa [keyAt, vacateSlot_content, hne'] using hi.listed_key k j hmem
  listed_nodup k := by
    change ((data.vacateSlot i).indexOf k).Nodup
    rw [vacateSlot_indexOf hp hi]
    exact (hi.listed_nodup k).filter _

theorem foldl_vacateSlot (cells : List Nat) (hp : data.Present) (hi : data.Indexed) :
    VacateLoop cells data (cells.foldl vacateSlot data) := by
  induction cells generalizing data with
  | nil => exact ⟨by simp, by simp, hp, rfl, rfl, rfl, rfl, rfl, fun h => h⟩
  | cons i rest ih =>
    have h := ih (vacateSlot_present hp i) (vacateSlot_indexed hp hi i)
    refine ⟨?_, ?_, h.present, by simpa using h.bundleData, by simpa using h.bundleNameIndex,
      by simpa using h.bundleDeclaredDeps, by simpa using h.reloading, by simpa using h.length,
      fun hk => h.noEmptyKey (vacateSlot_noEmptyKey hk i)⟩
    · intro j
      rw [List.foldl_cons, h.content j, vacateSlot_content]
      by_cases hj : j = i <;> simp [hj]
    · intro k
      rw [List.foldl_cons, h.listed k, vacateSlot_indexOf hp hi, List.filter_filter]
      apply List.filter_congr
      intro j _
      simp [Bool.and_comm]

/-- Vacating distinct live slots bumps each of them once. -/
theorem vacates_foldl_vacateSlot {cells : List Nat} (hnodup : cells.Nodup)
    (hlive : ∀ i ∈ cells, data.catalog.content i ≠ none) :
    Vacates data (cells.foldl vacateSlot data) := by
  induction cells generalizing data with
  | nil => exact .refl _
  | cons i rest ih =>
    obtain ⟨hi, hrest⟩ := List.nodup_cons.mp hnodup
    refine (vacates_vacateSlot (hlive i List.mem_cons_self)).trans (ih hrest ?_)
    intro j hj
    have hne : j ≠ i := fun he => hi (he ▸ hj)
    rw [vacateSlot_content, if_neg hne]
    exact hlive j (List.mem_cons_of_mem _ hj)

/-- `invalidate_bundle` of a registered bundle. -/
structure Invalidates (s : RuntimeStore) (b : BundleId) (data' : RuntimeStoreData) : Prop where
  catalog_eq : data'.catalog = s.data.catalog.withdraw b (s.data.pluginSlots b)
  vacates : (s.data.pluginSlots b).Nodup →
    (∀ i ∈ s.data.pluginSlots b, s.data.catalog.content i ≠ none) → Vacates s.data data'
  present : data'.Present
  reloading : data'.reloadingBundles = s.data.reloadingBundles
  length : data'.slots.length = s.data.slots.length
  noEmptyKey : s.data.NoEmptyKey → data'.NoEmptyKey

/-- `invalidate_bundle` of an unknown bundle does nothing; otherwise it withdraws
the bundle's slots. -/
theorem invalidateBundle_cases (s : RuntimeStore) (b : BundleId) (hp : s.data.Present)
    (hi : s.data.Indexed) :
    (s.data.bundleData.lookup b = none ∧ s.invalidateBundle b = (0, s)) ∨
    ∃ data', (s.invalidateBundle b).2 = s.publish data' ∧ Invalidates s b data' := by
  unfold invalidateBundle
  cases hbd : s.data.bundleData.lookup b with
  | none => exact Or.inl ⟨rfl, rfl⟩
  | some bd =>
    have hslots : s.data.pluginSlots b = bd.pluginSlots := by simp [pluginSlots, hbd]
    have hloop := foldl_vacateSlot bd.pluginSlots hp hi
    refine Or.inr ⟨_, rfl, ?_⟩
    rw [← hslots] at hloop ⊢
    refine ⟨?_, ?_, hloop.present, hloop.reloading, hloop.length, hloop.noEmptyKey⟩
    · ext1
      · funext i
        exact hloop.content i
      · funext k
        exact hloop.listed k
      · funext x
        change pluginSlots _ x = if x = b then _ else s.data.pluginSlots x
        by_cases hx : x = b
        · subst hx
          have hall : (s.data.pluginSlots x).filter (· ∉ s.data.pluginSlots x) = [] :=
            List.filter_eq_nil_iff.mpr fun i hi => by simpa using hi
          simp only [catalog, if_true, hall]
          simp [pluginSlots]
        · rw [if_neg hx, pluginSlots]
          dsimp only
          rw [lookup_erase_eq, if_neg hx, hloop.bundleData]
          rfl
    · intro hnodup hlive
      exact (vacates_foldl_vacateSlot hnodup hlive).trans (.of_eq rfl fun _ => rfl)

end

end PolyPlug.Registry
