import PolyPlug.Lib.Run
import PolyPlug.Proofs.Registry.Swap
import PolyPlug.Registry.Ops

/-!
# `PolyPlug.Proofs.Registry.WellFormed`: the representation invariant

The registry keeps the same facts in four places: the slots, the contract index,
the slot lists of the bundles and the set of reloading bundles. `WellFormed`
says in the words of the source how they agree. `wellFormed_run` proves it for
every state of every disciplined session (`Session.Disciplined`).

The proof goes through `Session.Valid`, the `Windowed` invariant of the
catalogue of the locked data, with one preservation lemma per mutator
(`valid_exec`). `Valid` also carries that the published view is the one of the
locked data, which the lookup paths need.
-/

set_option autoImplicit false

namespace PolyPlug.Registry

open PolyPlug.Abi
open PolyPlug.Lib
open PolyPlug.Lib.Catalog
open RuntimeStoreData RuntimeStore

/-! ### The invariant in source terms -/

/-- Slot `i` is live: it has the entry and the interface. -/
def LiveAt (data : RuntimeStoreData) (i : Nat) (entry : PluginEntry)
    (arc : Arc GuestContractInterface) : Prop :=
  data.entryAt i = some entry ∧ data.interfaceAt i = some arc

/-- The four structures agree, when `windows` are the open reload windows with
the slots each one opened on. -/
structure WellFormed (data : RuntimeStoreData)
    (windows : Finmap fun _ : BundleId => List Nat) : Prop where
  /-- A slot has an entry exactly if it has an interface. -/
  entry_iff_interface : ∀ slot ∈ data.slots, slot.entry.isSome ↔ slot.interface.isSome
  /-- An indexed slot is in bounds, live, and provides the contract of its key. -/
  index_live : ∀ cid i, i ∈ data.indexOf cid → i < data.slots.length ∧
    ∃ entry arc, LiveAt data i entry arc ∧ arc.val.contractId = cid
  /-- An indexed slot occurs once in the whole index. -/
  index_once : ∀ cid i, i ∈ data.indexOf cid → (data.indexOf cid).count i = 1 ∧
    ∀ cid', i ∈ data.indexOf cid' → cid' = cid
  /-- No key maps to an empty list. -/
  index_nonempty : ∀ cid indices, data.guestContractIndex.lookup cid = some indices →
    indices ≠ []
  /-- A live slot occurs once in the list of its bundle, and in no other list. -/
  slot_owned : ∀ i entry arc, LiveAt data i entry arc →
    (data.pluginSlots entry.bundleId).count i = 1 ∧
    ∀ b, i ∈ data.pluginSlots b → b = entry.bundleId
  /-- The list of a bundle has only live slots of that bundle. -/
  owned_live : ∀ b i, i ∈ data.pluginSlots b →
    ∃ entry arc, LiveAt data i entry arc ∧ entry.bundleId = b
  /-- The reloading bundles are those with an open window. -/
  reloading_iff : ∀ b, b ∈ data.reloadingBundles ↔ (windows.lookup b).isSome
  /-- A live slot is indexed under its contract, or was registered in the open
  window of its bundle, and not both. -/
  indexed_or_pending : ∀ i entry arc, LiveAt data i entry arc →
    (i ∈ data.indexOf arc.val.contractId ∧
      ∀ old, windows.lookup entry.bundleId = some old → i ∈ old) ∨
    (i ∉ data.indexOf arc.val.contractId ∧ entry.bundleId ∈ data.reloadingBundles ∧
      ∃ old, windows.lookup entry.bundleId = some old ∧ i ∉ old)

/-! ### The invariant on the catalogue -/

/-- The window of each bundle, as the catalogue reads it. -/
def Session.window (s : Session) (b : BundleId) : Option (List Nat) := s.windows.lookup b

/-- The invariant the proofs carry. -/
structure Session.Valid (s : Session) : Prop where
  present : s.store.data.Present
  noEmptyKey : s.store.data.NoEmptyKey
  windowed : Windowed Registration.key Registration.owner s.window s.store.data.catalog
  reloading : ∀ b, b ∈ s.store.data.reloadingBundles ↔ (s.window b).isSome
  published : s.store.published = ReadView.rebuild s.store.data

theorem liveAt_iff {data : RuntimeStoreData} {i : Nat} {entry : PluginEntry}
    {arc : Arc GuestContractInterface} :
    LiveAt data i entry arc ↔ data.catalog.content i = some ⟨entry, arc⟩ := by
  rw [content_eq_some]
  cases hslot : data.slots[i]? <;> simp [LiveAt, entryAt, interfaceAt, hslot]

/-- `Valid` is `WellFormed` in the words of the source. -/
theorem Session.Valid.wellFormed {s : Session} (h : s.Valid) :
    WellFormed s.store.data s.windows where
  entry_iff_interface slot hslot := by rw [h.present slot hslot]
  index_live cid i hi := by
    obtain ⟨r, hr, hkey⟩ : ∃ r, s.store.data.catalog.content i = some r ∧ r.key = cid := by
      simpa [keyAt] using h.windowed.listed_key cid i hi
    exact ⟨lt_length_of_content (by simp [hr]), r.entry, r.arc, liveAt_iff.mpr hr, hkey⟩
  index_once cid i hi :=
    ⟨List.count_eq_one_of_mem (h.windowed.listed_nodup cid) hi,
      fun cid' hi' => h.windowed.key_unique hi' hi⟩
  index_nonempty := h.noEmptyKey
  slot_owned i entry arc hlive := by
    have hheld := h.windowed.toConsistent.held_of_content (liveAt_iff.mp hlive)
    exact ⟨List.count_eq_one_of_mem (h.windowed.held_nodup _) hheld,
      fun b hb => h.windowed.toConsistent.holder_unique hb hheld⟩
  owned_live b i hi := by
    obtain ⟨r, hr, howner⟩ := h.windowed.toConsistent.content_of_held hi
    exact ⟨r.entry, r.arc, liveAt_iff.mpr hr, howner⟩
  reloading_iff := h.reloading
  indexed_or_pending i entry arc hlive := by
    have hsettled := h.windowed.settled i _ (liveAt_iff.mp hlive)
    by_cases hi : i ∈ s.store.data.indexOf arc.val.contractId
    · exact Or.inl ⟨hi, hsettled.mp hi⟩
    · refine Or.inr ⟨hi, ?_⟩
      have hpending := mt hsettled.mpr hi
      push Not at hpending
      obtain ⟨old, hold, hnot⟩ := hpending
      exact ⟨(h.reloading entry.bundleId).mpr (Option.isSome_iff_exists.mpr ⟨old, hold⟩),
        old, hold, hnot⟩

/-! ### One call -/

theorem valid_new : Session.new.Valid where
  present := present_new
  noEmptyKey := noEmptyKey_new
  windowed := by
    refine
      { toConsistent := consistent_new
        settled := ?_
        order := ?_
        opened := ?_ } <;>
      simp [Session.new, RuntimeStore.new, RuntimeStoreData.new, catalog, indexOf, pluginSlots,
        Session.window]
  reloading := by
    simp [Session.new, RuntimeStore.new, RuntimeStoreData.new, Session.window]
  published := rfl

section
variable {s : Session} {b : BundleId} {old : List Nat}

/-- A call that leaves the slots and the windows alone. -/
theorem Session.Valid.of_sameSlots (h : s.Valid) {data' : RuntimeStoreData}
    (hsame : SameSlots s.store.data data')
    (hreload : data'.reloadingBundles = s.store.data.reloadingBundles) :
    Session.Valid ⟨s.store.publish data', s.windows⟩ where
  present := hsame.present.mpr h.present
  noEmptyKey := hsame.noEmptyKey.mpr h.noEmptyKey
  windowed := by
    change Windowed _ _ s.window data'.catalog
    rw [hsame.catalog_eq]
    exact h.windowed
  reloading x := by
    change x ∈ data'.reloadingBundles ↔ (s.window x).isSome
    rw [hreload]
    exact h.reloading x
  published := rfl

/-- A registration call that changed the store. -/
theorem Session.Valid.of_registers (h : s.Valid) {rs : List Registration}
    {hs : List GuestContractHandle} {data' : RuntimeStoreData}
    (hreg : Registers s.store.data b rs hs data') :
    Session.Valid ⟨s.store.publish data', s.windows⟩ := by
  have hlisting : (!decide (b ∈ s.store.data.reloadingBundles)) = (s.window b).isNone := by
    have := h.reloading b
    cases hw : s.window b <;> simp_all
  have hinv : data'.Present ∧ data'.NoEmptyKey ∧
      Windowed Registration.key Registration.owner s.window data'.catalog ∧
      data'.reloadingBundles = s.store.data.reloadingBundles := by
    refine hreg.rule
      (I := fun d => d.Present ∧ d.NoEmptyKey ∧
        Windowed Registration.key Registration.owner s.window d.catalog ∧
        d.reloadingBundles = s.store.data.reloadingBundles)
      ⟨h.present, h.noEmptyKey, h.windowed, rfl⟩ ?_ ?_
    · rintro d d' hsame hreload ⟨hp, hk, hw, hr⟩
      refine ⟨hsame.present.mpr hp, hsame.noEmptyKey.mpr hk, ?_, hreload.trans hr⟩
      rw [hsame.catalog_eq]
      exact hw
    · rintro d r i d' - howner - hins ⟨hp, hk, hw, hr⟩
      refine ⟨hins.present hp, hins.noEmptyKey hk, ?_, hins.reloading.trans hr⟩
      rw [hins.catalog_eq, hlisting, ← howner]
      exact windowed_add hw hins.vacant r
  obtain ⟨hp, hk, hw, hr⟩ := hinv
  refine ⟨hp, hk, hw, fun x => ?_, rfl⟩
  change x ∈ data'.reloadingBundles ↔ _
  rw [hr]
  exact h.reloading x

/-- The windows after the window of a bundle was closed. -/
theorem window_erase (store : RuntimeStore) :
    Session.window ⟨store, s.windows.erase b⟩ = Function.update s.window b none := by
  funext x
  rw [Function.update_apply]
  exact lookup_erase_eq s.windows b x

/-- A closing call takes the bundle out of the reloading set. -/
theorem Session.Valid.reloading_erase (h : s.Valid) {store : RuntimeStore}
    (hreload : store.data.reloadingBundles = s.store.data.reloadingBundles.erase b)
    (x : BundleId) :
    x ∈ store.data.reloadingBundles ↔
      (Session.window ⟨store, s.windows.erase b⟩ x).isSome := by
  have hx := h.reloading x
  rw [hreload, window_erase]
  by_cases hxb : x = b
  · simp [hxb]
  · rw [Finset.mem_erase, Function.update_of_ne hxb, hx]
    simp [hxb]

theorem Session.Valid.of_beginReload (h : s.Valid) :
    (s.exec (.beginReload b)).Valid := by
  have hsame : SameSlots s.store.data (s.store.beginReload b).data := ⟨rfl, rfl, fun _ => rfl⟩
  have hwindow : (s.exec (.beginReload b)).window
      = if (s.window b).isSome then s.window
        else Function.update s.window b (some (s.store.data.catalog.held b)) := by
    funext x
    by_cases hb : (s.window b).isSome
    · rw [if_pos hb]
      simp only [Session.window] at hb
      simp [Session.exec, Session.windowsAfter, Session.window, hb]
    · rw [if_neg hb, Function.update_apply]
      simp only [Session.window] at hb
      simp only [Session.exec, Session.windowsAfter, Session.window, if_neg hb]
      exact lookup_insert_eq ..
  refine ⟨hsame.present.mpr h.present, hsame.noEmptyKey.mpr h.noEmptyKey, ?_, ?_, rfl⟩
  · change Windowed _ _ _ (s.store.beginReload b).data.catalog
    rw [hsame.catalog_eq, hwindow]
    split
    · exact h.windowed
    · rename_i hb
      exact windowed_open h.windowed (by simpa using hb)
  · intro x
    change x ∈ insert b s.store.data.reloadingBundles ↔ _
    rw [Finset.mem_insert, h.reloading x, hwindow]
    split
    · rename_i hb
      exact ⟨fun hx => hx.elim (fun he => he ▸ hb) fun hx => hx, Or.inr⟩
    · by_cases hx : x = b <;> simp [hx]

theorem Session.Valid.of_abortReload (h : s.Valid)
    (hclose : s.windows.lookup b = none ∨ s.windows.lookup b = some old) :
    (s.exec (.abortReload b old)).Valid := by
  obtain ⟨data', heq, hpurge⟩ :=
    abortReload_purge s.store b old h.present h.windowed.toConsistent.toIndexed
  have hsame := sameSlots_closeWindow s.store.data b
  have hcat := hpurge.catalog_eq
  rw [hsame.catalog_eq] at hcat
  simp only [Session.exec, RuntimeStore.exec, Session.windowsAfter, heq]
  refine ⟨hpurge.present, hpurge.noEmptyKey (hsame.noEmptyKey.mpr h.noEmptyKey), ?_,
    h.reloading_erase hpurge.reloading, rfl⟩
  change Windowed _ _ _ data'.catalog
  rw [hcat, window_erase]
  rcases hclose with hnone | hold
  · rw [Function.update_eq_self_iff.mpr (show none = s.window b from hnone.symm)]
    exact windowed_withdraw h.windowed hnone fun i hi => (List.mem_filter.mp hi).1
  · exact windowed_abandon h.windowed hold

theorem Session.Valid.of_applyReloadSwap (h : s.Valid) (hold : s.windows.lookup b = some old)
    (descriptor : BundleDescriptor) (dependencies : Finset GuestContractId) :
    (s.exec (.applyReloadSwap b old descriptor dependencies)).Valid := by
  have hprefix := h.windowed.opened b old hold
  have hown : OwnSlots s.store.data b old :=
    ⟨fun i hi => hprefix.subset hi, (h.windowed.held_nodup b).sublist hprefix.sublist⟩
  simp only [Session.exec, RuntimeStore.exec, Session.windowsAfter]
  rcases applyReloadSwap_own h.present h.windowed.toConsistent hown descriptor dependencies with
    ⟨data', heq, hswap⟩ | ⟨-, rfl, hempty, heq⟩
  · rw [heq]
    obtain ⟨c, hrec, hcat⟩ := hswap.reconciled
    refine ⟨hswap.present, hswap.noEmptyKey ?_ h.noEmptyKey, ?_,
      h.reloading_erase hswap.reloading, rfl⟩
    · intro n hn k
      obtain ⟨hheld, hnew⟩ := List.mem_filter.mp hn
      exact h.windowed.pending_not_listed hold hheld (by simpa using hnew) k
    · change Windowed _ _ _ data'.catalog
      rw [hcat, window_erase]
      exact windowed_reconcile h.windowed hold hrec
  · -- A bundle without a record holds nothing, so closing its window changes nothing.
    rw [heq]
    have hsame := sameSlots_closeWindow s.store.data b
    refine ⟨hsame.present.mpr h.present, hsame.noEmptyKey.mpr h.noEmptyKey, ?_,
      h.reloading_erase rfl, ?_⟩
    · change Windowed _ _ _ (closeWindow s.store.data b).catalog
      rw [hsame.catalog_eq, window_erase]
      have habandon := windowed_abandon h.windowed hold
      have hnone : s.store.data.catalog.held b = [] := hempty
      rw [hnone] at habandon
      simpa using habandon
    · exact h.published.trans rfl

theorem Session.Valid.of_invalidateBundle (h : s.Valid) (hclosed : s.windows.lookup b = none) :
    (s.exec (.invalidateBundle b)).Valid := by
  simp only [Session.exec, RuntimeStore.exec, Session.windowsAfter]
  rcases invalidateBundle_cases s.store b h.present h.windowed.toConsistent.toIndexed with
    ⟨-, heq⟩ | ⟨data', heq, hinv⟩
  · rw [heq]
    exact h
  · rw [heq]
    refine ⟨hinv.present, hinv.noEmptyKey h.noEmptyKey, ?_, ?_, rfl⟩
    · change Windowed _ _ s.window data'.catalog
      rw [hinv.catalog_eq]
      exact windowed_withdraw h.windowed hclosed fun _ hi => hi
    · intro x
      change x ∈ data'.reloadingBundles ↔ _
      rw [hinv.reloading]
      exact h.reloading x

/-- Every disciplined call keeps the invariant. -/
theorem valid_exec (h : s.Valid) {op : StoreOp} (hop : s.Disciplined op) : (s.exec op).Valid := by
  obtain ⟨hadmits, hlen⟩ := hop
  cases op with
  | registerGuestContract descriptor interface ptr contractName b =>
    simp only [Session.exec, RuntimeStore.exec, Session.windowsAfter] at hlen ⊢
    rcases registerGuestContract_cases s.store descriptor interface ptr contractName b with
      ⟨e, heq⟩ | ⟨contract, handle, data', -, -, hins, heq⟩
    · rw [heq]
      exact h
    · rw [heq] at hlen ⊢
      exact h.of_registers (registers_of_registerGuestContract hins (by
        change data'.slots.length < _ at hlen
        omega))
  | registerPreparedBundle descriptor dependencies contracts =>
    simp only [Session.exec, RuntimeStore.exec, Session.windowsAfter] at hlen ⊢
    rcases registerPreparedBundle_cases s.store descriptor dependencies contracts with
      ⟨e, heq⟩ | ⟨hs, data', -, -, hnew, hins, heq⟩
    · rw [heq]
      exact h
    · rw [heq] at hlen ⊢
      exact h.of_registers (registers_of_registerPreparedBundle hnew hins (by
        change data'.slots.length < _ at hlen
        omega))
  | declareBundleDependencies b contractIds =>
    exact h.of_sameSlots ⟨rfl, rfl, fun _ => rfl⟩ rfl
  | registerBundleMetadata b bundleName version runtime origin dependencies =>
    exact h.of_sameSlots (sameSlots_registerBundleMetadata s.store b bundleName version runtime
      origin dependencies) rfl
  | beginReload b => exact h.of_beginReload
  | abortReload b old => exact h.of_abortReload hadmits
  | applyReloadSwap b old descriptor dependencies =>
    exact h.of_applyReloadSwap hadmits descriptor dependencies
  | invalidateBundle b => exact h.of_invalidateBundle hadmits

end

/-! ### Whole runs -/

/-- Every state of a disciplined session satisfies the invariant. -/
theorem valid_run {ops : List StoreOp}
    (hops : Steps Session.exec Session.Disciplined Session.new ops) :
    (run Session.exec Session.new ops).Valid :=
  hops.invariant valid_new fun _ _ h hop => valid_exec h hop

/-- The slot indices of a disciplined session fit the handle's index, and none is
the null index. -/
theorem length_run {ops : List StoreOp}
    (hops : Steps Session.exec Session.Disciplined Session.new ops) :
    (run Session.exec Session.new ops).store.data.slots.length < 2 ^ 32 - 1 :=
  hops.invariant (I := fun s => s.store.data.slots.length < 2 ^ 32 - 1) (by decide)
    fun _ _ _ hop => hop.2

/-- The representation invariant holds after every call of every disciplined
session. -/
theorem wellFormed_run (ops : List StoreOp)
    (hops : Steps Session.exec Session.Disciplined Session.new ops) :
    WellFormed (run Session.exec Session.new ops).store.data
      (run Session.exec Session.new ops).windows :=
  (valid_run hops).wellFormed

/-- A reload that replaces one contract and drops another, next to a second
provider, and the unload of the reloaded bundle. -/
theorem wellFormed_run_reload :
    let ops : List StoreOp :=
      [.register ⟨1⟩ ⟨10⟩ "log" 100, .register ⟨1⟩ ⟨11⟩ "kv" 101, .register ⟨2⟩ ⟨10⟩ "log" 102,
        .beginReload ⟨1⟩, .register ⟨1⟩ ⟨10⟩ "log" 103, .register ⟨1⟩ ⟨12⟩ "net" 104,
        .swap ⟨1⟩ [0, 1], .invalidateBundle ⟨1⟩]
    Steps Session.exec Session.Disciplined Session.new ops ∧
      WellFormed (run Session.exec Session.new ops).store.data
        (run Session.exec Session.new ops).windows := by
  refine ⟨by decide +kernel, wellFormed_run _ (by decide +kernel)⟩

end PolyPlug.Registry
