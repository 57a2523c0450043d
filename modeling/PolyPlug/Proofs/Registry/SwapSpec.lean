import PolyPlug.Lib.Pairing
import PolyPlug.Proofs.Registry.Additions
import PolyPlug.Proofs.Registry.Views

/-!
# `PolyPlug.Proofs.Registry.SwapSpec`: what a reload swap does to each contract

A bundle `b` opens its window with the slots `old`, registrations follow, and the swap closes the
window. `reload_swap` follows one contract through it: the `m` old slots and the `n` registrations
of `b` for the contract are paired in order, the old slots without a partner become stale, and
the registrations without one stay at their handles (`ContractSwap`). The slots of the other
bundles do not change (`ForeignSwap`).

The pairing is `Lib.Catalog.FirstReconcile.paired`, and `Adds` says where the registrations of the
window are.
-/

set_option autoImplicit false

namespace PolyPlug.Registry

open PolyPlug.Abi
open PolyPlug.Lib
open PolyPlug.Lib.Catalog
open RuntimeStoreData RuntimeStore

/-! ### The specification -/

/-- The slots of a list that hold an interface of the contract, in order. -/
def slotsFor (data : RuntimeStoreData) (slots : List Nat) (cid : GuestContractId) : List Nat :=
  slots.filter fun i => data.contractAt i = some cid

/-- The registrations of a bundle for a contract, in order. -/
def registrationsFor (regs : List (GuestContractHandle × Registration)) (b : BundleId)
    (cid : GuestContractId) : List (GuestContractHandle × Registration) :=
  regs.filter fun p => p.2.entry.bundleId = b ∧ p.2.arc.val.contractId = cid

/-- No lookup answers with the slot. -/
structure Unfound (s : RuntimeStore) (i : Nat) : Prop where
  find : ∀ cid v h, s.findGuestContract cid v = .ok h → h.index ≠ i
  findByBundle : ∀ b cid v h, s.findGuestContractByBundle b cid v = .ok h → h.index ≠ i
  collect : ∀ cid v, ∀ h ∈ s.collectGuestContracts cid v, h.index ≠ i
  findAll : ∀ cid v out, ∀ h ∈ (s.findAllGuestContracts cid v out).1.take
    (s.findAllGuestContracts cid v out).2, h.index ≠ i
  list : ∀ h ∈ s.listRegisteredGuestContracts, h.index ≠ i
  descriptors : ∀ d ∈ s.registeredContractDescriptors, d.handle.index ≠ i

/-- One contract of the bundle. `opened` is the data when the window opened, `window` the data
before the swap and `closed` the store after it. -/
structure ContractSwap (opened window : RuntimeStoreData) (closed : RuntimeStore) (b : BundleId)
    (regs : List (GuestContractHandle × Registration)) (cid : GuestContractId) : Prop where
  /-- The slots of the bundle are those of the first old slots and the last registrations. -/
  slots : slotsFor closed.data (closed.data.pluginSlots b) cid
    = (slotsFor opened (opened.pluginSlots b) cid).take (registrationsFor regs b cid).length
      ++ ((registrationsFor regs b cid).map fun p => p.1.index).drop
          (slotsFor opened (opened.pluginSlots b) cid).length
  /-- They are as many as the registrations. -/
  length : (slotsFor closed.data (closed.data.pluginSlots b) cid).length
    = (registrationsFor regs b cid).length
  nodup : (slotsFor closed.data (closed.data.pluginSlots b) cid).Nodup
  /-- They are the live slots of the bundle for the contract. -/
  live : ∀ i, i ∈ slotsFor closed.data (closed.data.pluginSlots b) cid ↔
    ∃ entry arc, LiveAt closed.data i entry arc ∧ entry.bundleId = b ∧ arc.val.contractId = cid
  listed : ∀ i ∈ slotsFor closed.data (closed.data.pluginSlots b) cid, i ∈ closed.data.indexOf cid
  /-- An old slot with a partner takes over its entry and its interface. -/
  replaced : ∀ (k o : Nat) (h : GuestContractHandle) (r : Registration),
    (slotsFor opened (opened.pluginSlots b) cid)[k]? = some o →
    (registrationsFor regs b cid)[k]? = some (h, r) →
    LiveAt closed.data o r.entry r.arc ∧ closed.data.generationAt o = opened.generationAt o
  /-- An old slot without a partner is gone. -/
  dropped : ∀ (k o : Nat), (slotsFor opened (opened.pluginSlots b) cid)[k]? = some o →
    (registrationsFor regs b cid).length ≤ k →
    closed.resolveGuestContract ⟨o, opened.generationAt o⟩ = .error (.staleHandle o) ∧
      Unfound closed o
  /-- A registration without a partner keeps its handle. -/
  kept : ∀ (k : Nat) (h : GuestContractHandle) (r : Registration),
    (registrationsFor regs b cid)[k]? = some (h, r) →
    (slotsFor opened (opened.pluginSlots b) cid).length ≤ k →
    LiveAt closed.data h.index r.entry r.arc ∧ closed.resolveGuestContract h = .ok r.arc
  /-- The entries of the index that stay keep their order, and the kept registrations follow. -/
  order : closed.data.indexOf cid
    = (window.indexOf cid).filter (· ∈ closed.data.indexOf cid)
      ++ ((registrationsFor regs b cid).map fun p => p.1.index).drop
          (slotsFor opened (opened.pluginSlots b) cid).length

/-- The other bundles. -/
structure ForeignSwap (window closed : RuntimeStoreData) (b : BundleId) : Prop where
  slots : ∀ i entry arc, LiveAt window i entry arc → entry.bundleId ≠ b →
    LiveAt closed i entry arc ∧ closed.generationAt i = window.generationAt i
  pluginSlots : ∀ x, x ≠ b → closed.pluginSlots x = window.pluginSlots x

/-! ### The invariant -/

section
variable {data : RuntimeStoreData} {windows : Finmap fun _ : BundleId => List Nat}

theorem WellFormed.present (h : WellFormed data windows) : data.Present :=
  fun slot hslot => Bool.eq_iff_iff.mpr (h.entry_iff_interface slot hslot)

/-- The representation invariant is the one of the catalogue. -/
theorem WellFormed.consistent (h : WellFormed data windows) : data.Consistent where
  listed_key cid i hi := by
    obtain ⟨-, entry, arc, hlive, hcid⟩ := h.index_live cid i hi
    show (data.catalog.content i).map Registration.key = some cid
    rw [liveAt_iff.mp hlive]
    exact congrArg some hcid
  listed_nodup cid := List.nodup_iff_count_eq_one.mpr fun i hi => (h.index_once cid i hi).1
  mem_held b i := by
    constructor
    · intro hi
      obtain ⟨entry, arc, hlive, howner⟩ := h.owned_live b i hi
      show (data.catalog.content i).map Registration.owner = some b
      rw [liveAt_iff.mp hlive]
      exact congrArg some howner
    · intro howner
      obtain ⟨r, hr, hb⟩ := Option.map_eq_some_iff.mp howner
      have hcount := (h.slot_owned i r.entry r.arc (liveAt_iff.mpr hr)).1
      rw [show r.entry.bundleId = b from hb] at hcount
      exact List.count_pos_iff.mp (hcount ▸ Nat.one_pos)
  held_nodup b := List.nodup_iff_count_eq_one.mpr fun i hi => by
    obtain ⟨entry, arc, hlive, howner⟩ := h.owned_live b i hi
    exact howner ▸ (h.slot_owned i entry arc hlive).1

/-- The slots of a bundle without a window are listed. -/
theorem WellFormed.listed (h : WellFormed data windows) {b : BundleId}
    (hclosed : windows.lookup b = none) {i : Nat} {cid : GuestContractId}
    (hi : i ∈ data.pluginSlots b) (hcid : data.contractAt i = some cid) :
    i ∈ data.indexOf cid := by
  obtain ⟨entry, arc, hlive, rfl⟩ := h.owned_live b i hi
  obtain rfl : arc.val.contractId = cid := by
    rw [contractAt, hlive.2] at hcid
    exact Option.some.inj hcid
  rcases h.indexed_or_pending i entry arc hlive with ⟨hmem, -⟩ | ⟨-, -, old, hold, -⟩
  · exact hmem
  · rw [hclosed] at hold
    cases hold

end

/-! ### The loop takes the first registration -/

section
variable {data data' : RuntimeStoreData} {b : BundleId} {news old : List Nat}

theorem swapOldSlot_first {oldIdx : Nat} (hp : data.Present) (hi : data.Indexed)
    (hok : swapOldSlot b news data oldIdx = .ok data') :
    FirstReplace Registration.key b news data.catalog oldIdx data'.catalog := by
  have hkeys : ∀ cid, (news.find? fun n => data.catalog.keyAt Registration.key n = some cid)
      = matchingNewSlot data news cid := by
    intro cid
    rw [matchingNewSlot]
    congr 1
    funext n
    rw [contractAt_eq hp]
  obtain ⟨cid, hcid, hcase⟩ := swapOldSlot_cases hok
  have hkey : data.catalog.keyAt Registration.key oldIdx = some cid := by
    rw [← contractAt_eq hp, hcid]
  rcases hcase with ⟨hnone, rfl⟩ | ⟨newIdx, oldSlot, newSlot, hmatch, hold, hnew, rfl⟩
  · rw [catalog_vacateSlot_retain hp hi]
    refine .drop hkey ?_
    rw [hkeys, matchingNewSlot, List.find?_eq_none]
    simpa using hnone
  · rw [catalog_moveSlot hi hold hnew]
    · exact .replace hkey ((hkeys cid).trans hmatch)
    · rw [← contractAt_eq hp]
      exact (matchingNewSlot_some hmatch).2

/-- A loop that ends without an error. -/
theorem swapOldSlots_first (hp : data.Present) (hi : data.Indexed)
    (hok : swapOldSlots b news old data = (.ok (), data')) :
    FirstReconcile Registration.key b news data.catalog old data'.catalog := by
  induction old generalizing data with
  | nil =>
    cases hok
    exact .nil
  | cons oldIdx rest ih =>
    obtain ⟨mid, hone, hrest⟩ := swapOldSlots_cons_ok hok
    have hstep := swapOldSlot_step hp hi hone
    exact .cons (swapOldSlot_first hp hi hone)
      (ih (swapOldSlot_effect hp hone).present (hstep.replace.indexed _ hi) hrest)

end

/-- What a swap that returns `Ok` leaves. -/
structure SwapResult (s : RuntimeStore) (b : BundleId) (old : List Nat)
    (descriptor : BundleDescriptor) (dependencies : Finset GuestContractId) (s' : RuntimeStore) :
    Prop where
  mirrors : s'.published = ReadView.rebuild s'.data
  loop : ∃ c, FirstReconcile Registration.key b (pendingSlots s.data b old) s.data.catalog old c ∧
    s'.data.catalog = c.publish Registration.key (pendingSlots s.data b old)
  reloading : s'.data.reloadingBundles = s.data.reloadingBundles.erase b
  descriptor : s'.getBundleDescriptor b = some descriptor
  dependencies : s'.data.bundleDeclaredDeps.lookup b = some dependencies

theorem swapResult_of_ok {s s' : RuntimeStore} {b : BundleId} {old : List Nat}
    {descriptor : BundleDescriptor} {dependencies : Finset GuestContractId}
    (hp : s.data.Present) (hi : s.data.Indexed)
    (hok : s.applyReloadSwap b old descriptor dependencies = (.ok (), s')) :
    SwapResult s b old descriptor dependencies s' := by
  have hsame := sameSlots_closeWindow s.data b
  rcases applyReloadSwap_cases s b old descriptor dependencies with
    ⟨e, mid, -, heq⟩ | ⟨mid, hloop, ⟨-, heq⟩ | ⟨bd, hbd, heq⟩⟩
  · rw [heq] at hok
    cases hok
  · rw [heq] at hok
    cases hok
  · rw [heq] at hok
    obtain rfl := congrArg Prod.snd hok
    have hfirst := swapOldSlots_first (hsame.present.mpr hp) (hsame.indexed.mpr hi) hloop
    have hrun := swapOldSlots_loop (hsame.present.mpr hp) (hsame.indexed.mpr hi) hloop
    have hpub := foldl_publishSlot (pendingSlots s.data b old) mid
    rw [hsame.catalog_eq] at hfirst
    refine ⟨rfl, ⟨mid.catalog, hfirst, ?_⟩, hpub.reloading.trans hrun.reloading, ?_, ?_⟩
    · -- The metadata write keeps the slot list of the bundle's record.
      rw [← hpub.catalog_eq]
      refine SameSlots.catalog_eq ⟨rfl, rfl, fun x => ?_⟩
      simp only [RuntimeStore.publish, pluginSlots, lookup_insert_eq]
      split
      · next hx =>
        rw [hx, hbd]
        rfl
      · rfl
    · simp [getBundleDescriptor, RuntimeStore.publish]
    · simp [RuntimeStore.publish]

/-! ### A vacant slot is not found -/

/-- The scan of a bundle's slots answers with a live slot. -/
theorem live_of_findOwnedIn {data : RuntimeStoreData} {b : BundleId} {cid : GuestContractId}
    {v : Nat} {cells : List Nat} {h : GuestContractHandle}
    (hfind : findOwnedIn data b cid v cells = some h) : data.catalog.content h.index ≠ none := by
  induction cells with
  | nil => cases hfind
  | cons i rest ih =>
    unfold findOwnedIn at hfind
    split at hfind
    · exact ih hfind
    · split at hfind
      · exact ih hfind
      · next slot hslot =>
        split at hfind
        · next entry arc hentry harc =>
          split at hfind
          · obtain rfl := Option.some.inj hfind
            have hlive : data.catalog.content i = some ⟨entry, arc⟩ :=
              content_eq_some.mpr ⟨slot, hslot, hentry, harc⟩
            rw [hlive]
            exact Option.some_ne_none _
          · exact ih hfind
        · exact ih hfind

/-- No lookup answers with a vacant slot. -/
theorem unfound_of_vacant {s : RuntimeStore} (hm : s.Mirrors) (hi : s.data.Indexed)
    (hlen : s.data.slots.length ≤ 2 ^ 32) {i : Nat} (hvacant : s.data.catalog.content i = none) :
    Unfound s i := by
  have hproviders : ∀ cid v, ∀ h ∈ s.providers cid v, h.index ≠ i := by
    intro cid v h hmem
    obtain ⟨j, hj, rfl⟩ := List.mem_map.mp hmem
    rintro rfl
    exact hi.not_listed hvacant cid (List.mem_filter.mp hj).1
  -- A slot of the array that has an entry and an interface is another one.
  have harray : ∀ p ∈ s.data.slots.zipIdx, p.1.entry.isSome → p.1.interface.isSome →
      asU32 p.2 ≠ i := by
    rintro ⟨slot, j⟩ hp hentry harc rfl
    have hslot : s.data.slots[j]? = some slot := List.mem_zipIdx_iff_getElem?.mp hp
    have hlt : j < 2 ^ 32 := (List.getElem?_eq_some_iff.mp hslot).1.trans_le hlen
    obtain ⟨entry, hentry⟩ := Option.isSome_iff_exists.mp hentry
    obtain ⟨arc, harc⟩ := Option.isSome_iff_exists.mp harc
    have hlive : s.data.catalog.content j = some ⟨entry, arc⟩ :=
      content_eq_some.mpr ⟨slot, hslot, hentry, harc⟩
    rw [show asU32 j = j from Nat.mod_eq_of_lt hlt, hlive] at hvacant
    cases hvacant
  refine ⟨fun cid v h hfind => ?_, fun b cid v h hfind => ?_, fun cid v h hmem => ?_,
    fun cid v out h hmem => ?_, fun h hmem => ?_, fun d hmem => ?_⟩
  · rw [hm.find_eq hi] at hfind
    split at hfind
    · next heq =>
      obtain rfl := Except.ok.inj hfind
      exact hproviders cid v _ (heq ▸ List.mem_cons_self)
    · cases hfind
  · rw [findGuestContractByBundle] at hfind
    split at hfind
    · cases hfind
    · split at hfind
      · next hscan =>
        obtain rfl := Except.ok.inj hfind
        rintro rfl
        exact live_of_findOwnedIn hscan hvacant
      · cases hfind
  · rw [hm.collect_eq hi] at hmem
    exact hproviders cid v h hmem
  · rw [hm.findAll_eq hi] at hmem
    dsimp only at hmem
    rw [List.take_append_of_le_length (by simp)] at hmem
    exact hproviders cid v h (List.mem_of_mem_take (List.mem_of_mem_take hmem))
  · obtain ⟨⟨slot, j⟩, hp, hhandle⟩ := List.mem_filterMap.mp hmem
    unfold registeredHandle at hhandle
    split at hhandle
    · cases hhandle
    · next arc harc =>
      split at hhandle
      · obtain ⟨entry, hentry, rfl⟩ := Option.map_eq_some_iff.mp hhandle
        exact harray _ hp (Option.isSome_of_eq_some hentry) (Option.isSome_of_eq_some harc)
      · cases hhandle
  · obtain ⟨⟨slot, j⟩, hp, hdescriptor⟩ := List.mem_filterMap.mp hmem
    unfold registeredDescriptor at hdescriptor
    split at hdescriptor
    · next entry arc hentry harc =>
      split at hdescriptor
      · obtain rfl := Option.some.inj hdescriptor
        exact harray _ hp (Option.isSome_of_eq_some hentry) (Option.isSome_of_eq_some harc)
      · cases hdescriptor
    · cases hdescriptor

/-! ### The window -/

/-- The data when a bundle has just opened its window. -/
structure Opened (data : RuntimeStoreData) (b : BundleId) : Prop where
  present : data.Present
  consistent : data.Consistent
  listed : ∀ i ∈ data.pluginSlots b, ∀ cid, data.contractAt i = some cid → i ∈ data.indexOf cid
  reloading : b ∈ data.reloadingBundles

theorem WellFormed.opened {s : RuntimeStore} {windows : Finmap fun _ : BundleId => List Nat}
    (h : WellFormed s.data windows) {b : BundleId} (hclosed : windows.lookup b = none) :
    Opened (s.beginReload b).data b where
  present := h.present
  consistent := h.consistent
  listed _ hi _ hcid := h.listed hclosed hi hcid
  reloading := Finset.mem_insert_self b _

section
variable {opened data : RuntimeStoreData} {b : BundleId}
  {regs : List (GuestContractHandle × Registration)}

namespace Opened

/-- The slots that the window adds to the bundle are those of its registrations. -/
theorem pending_eq (ho : Opened opened b) (hadds : Adds opened regs data) :
    pendingSlots data b (opened.pluginSlots b)
      = (regs.filter fun p => p.2.owner = b).map fun p => p.1.index := by
  rw [pendingSlots, hadds.held, List.filter_append]
  have hold : ((opened.pluginSlots b).filter fun i => decide (i ∉ opened.pluginSlots b)) = [] :=
    List.filter_eq_nil_iff.mpr fun i hi => by simpa using hi
  rw [hold, List.nil_append]
  refine List.filter_eq_self.mpr fun i hi => decide_eq_true fun hmem => ?_
  obtain ⟨p, hp, rfl⟩ := List.mem_map.mp hi
  exact ho.consistent.not_held (hadds.placed p (List.mem_filter.mp hp).1).1 b hmem

theorem held_eq (ho : Opened opened b) (hadds : Adds opened regs data) :
    data.catalog.held b
      = opened.pluginSlots b ++ pendingSlots data b (opened.pluginSlots b) := by
  rw [ho.pending_eq hadds]
  exact hadds.held b

/-- The old slots keep their contract in the window. -/
theorem old_ofKey (ho : Opened opened b) (hadds : Adds opened regs data) (cid : GuestContractId) :
    ofKey Registration.key data.catalog (opened.pluginSlots b) cid
      = slotsFor opened (opened.pluginSlots b) cid := by
  apply List.filter_congr
  intro i hi
  obtain ⟨r, hr, -⟩ := ho.consistent.content_of_held hi
  rw [contractAt_eq ho.present, keyAt, keyAt, hr, hadds.kept i r hr]

/-- The new slots of a contract are those of its registrations. -/
theorem pending_ofKey (ho : Opened opened b) (hadds : Adds opened regs data)
    (cid : GuestContractId) :
    ofKey Registration.key data.catalog (pendingSlots data b (opened.pluginSlots b)) cid
      = (registrationsFor regs b cid).map fun p => p.1.index := by
  rw [ho.pending_eq hadds, ofKey, List.filter_map, List.filter_filter, registrationsFor]
  congr 1
  apply List.filter_congr
  intro p hp
  have hkey : data.catalog.keyAt Registration.key p.1.index = some p.2.key := by
    rw [keyAt, (hadds.placed p hp).2.1]
    rfl
  rw [Bool.decide_and, Bool.and_comm]
  exact congrArg₂ (· && ·) rfl (decide_eq_decide.mpr (by simp [hkey, Registration.key]))

/-- A registration of the window is pending. -/
theorem pending_not_listed (ho : Opened opened b) (hadds : Adds opened regs data)
    (cid : GuestContractId) :
    ∀ n ∈ pendingSlots data b (opened.pluginSlots b), n ∉ data.indexOf cid := by
  intro n hn hmem
  rw [ho.pending_eq hadds] at hn
  obtain ⟨p, hp, rfl⟩ := List.mem_map.mp hn
  obtain ⟨hp, howner⟩ := List.mem_filter.mp hp
  obtain ⟨hvacant, hfilled, -⟩ := hadds.placed p hp
  rw [hadds.listed] at hmem
  rcases List.mem_append.mp hmem with hold | hnew
  · exact ho.consistent.indexed.not_listed hvacant cid hold
  · -- A listed registration in the same slot would be one of `b`, which is in its window.
    obtain ⟨q, hq, hindex⟩ := List.mem_map.mp hnew
    obtain ⟨hq, hlisted⟩ := List.mem_filter.mp hq
    have hsame : q.2 = p.2 := by
      have hq' := (hadds.placed q hq).2.1
      rw [hindex, hfilled] at hq'
      exact (Option.some.inj hq').symm
    have hunlisted := (of_decide_eq_true hlisted).2
    rw [hsame, of_decide_eq_true howner] at hunlisted
    exact hunlisted ho.reloading

/-- The old slots are distinct slots of the bundle. -/
theorem ownSlots (ho : Opened opened b) (hadds : Adds opened regs data) :
    OwnSlots data b (opened.pluginSlots b) where
  held i hi := by
    rw [hadds.held]
    exact List.mem_append_left _ hi
  nodup := ho.consistent.held_nodup b

end Opened

end

/-! ### The swap of a contract -/

section
variable {opened : RuntimeStoreData} {s s' : RuntimeStore} {b : BundleId}
  {regs : List (GuestContractHandle × Registration)} {descriptor : BundleDescriptor}
  {dependencies : Finset GuestContractId}

/-- What the loop of a swap does, for the proofs below. -/
structure Closing (opened : RuntimeStoreData) (s s' : RuntimeStore) (b : BundleId)
    (c : Catalog Nat Registration BundleId GuestContractId) : Prop where
  paired : Paired Registration.key (pendingSlots s.data b (opened.pluginSlots b))
    (opened.pluginSlots b) s.data.catalog c
  reconciling : Reconciling Registration.key Registration.owner s.data.catalog b
    (opened.pluginSlots b) [] c
  catalog_eq : s'.data.catalog
    = c.publish Registration.key (pendingSlots s.data b (opened.pluginSlots b))
  vacates : Vacates s.data s'.data
  present : s'.data.Present
  consistent : s'.data.Consistent
  length : s'.data.slots.length = s.data.slots.length

theorem Opened.closing (ho : Opened opened b) (hadds : Adds opened regs s.data)
    (hok : s.applyReloadSwap b (opened.pluginSlots b) descriptor dependencies = (.ok (), s')) :
    ∃ c, Closing opened s s' b c := by
  have hp := hadds.present ho.present
  have hc := hadds.consistent ho.consistent
  have hown := ho.ownSlots hadds
  obtain ⟨c, hfirst, hcatalog⟩ := (swapResult_of_ok hp hc.indexed hok).loop
  obtain ⟨data', heq, hswap⟩ := swaps_of_applyReloadSwap hp hc.indexed hok
  obtain rfl : s'.data = data' := by rw [heq]; rfl
  have hswap := hown.ownSwap hc hswap
  have hnews : ∀ n ∈ pendingSlots s.data b (opened.pluginSlots b),
      n ∈ s.data.catalog.held b ∧ n ∉ opened.pluginSlots b := by
    simp [pendingSlots, catalog]
  have hrec := hfirst.reconcile.reconciling hnews (Reconciling.start hc hown.held hown.nodup)
  refine ⟨c, ?_, hrec, hcatalog, hswap.vacates, hswap.present, ?_, hswap.length⟩
  · exact hfirst.paired ((hc.held_nodup b).filter _) hown.nodup fun i hi hmem =>
      (hnews i hmem).2 hi
  · rw [RuntimeStoreData.Consistent, hcatalog]
    exact consistent_publish hrec.consistent _

namespace Closing

variable {c : Catalog Nat Registration BundleId GuestContractId}

theorem content_eq (h : Closing opened s s' b c) : s'.data.catalog.content = c.content := by
  rw [h.catalog_eq, publish_content]

/-- The slots of the bundle for a contract. -/
theorem slotsFor_eq (h : Closing opened s s' b c) (ho : Opened opened b)
    (hadds : Adds opened regs s.data) (cid : GuestContractId) :
    slotsFor s'.data (s'.data.pluginSlots b) cid
      = (slotsFor opened (opened.pluginSlots b) cid).take (registrationsFor regs b cid).length
        ++ ((registrationsFor regs b cid).map fun p => p.1.index).drop
            (slotsFor opened (opened.pluginSlots b) cid).length := by
  have hheld : s'.data.pluginSlots b = c.held b := by
    show s'.data.catalog.held b = _
    rw [h.catalog_eq, publish_held]
  have hkey : slotsFor s'.data (s'.data.pluginSlots b) cid
      = ofKey Registration.key c (c.held b) cid := by
    rw [hheld]
    apply List.filter_congr
    intro i _
    rw [contractAt_eq h.present, keyAt, keyAt, h.content_eq]
  rw [hkey, h.paired.held_ofKey h.reconciling (ho.held_eq hadds), ho.old_ofKey hadds,
    ho.pending_ofKey hadds, List.length_map]

/-- The value of a slot after the swap. -/
theorem liveAt (h : Closing opened s s' b c) {i : Nat} {r : Registration}
    (hr : c.content i = some r) : LiveAt s'.data i r.entry r.arc := by
  rw [liveAt_iff, h.content_eq]
  exact hr

/-- A slot that is filled keeps its generation. -/
theorem generationAt_eq (h : Closing opened s s' b c) {i : Nat} {r : Registration}
    (hr : c.content i = some r) : s'.data.generationAt i = s.data.generationAt i := by
  rw [h.vacates.generation, if_neg]
  rw [h.content_eq, hr]
  exact fun hc => Option.some_ne_none r hc.2

/-- An old slot with a partner takes over its value. -/
theorem replaced (h : Closing opened s s' b c) (ho : Opened opened b)
    (hadds : Adds opened regs s.data) {cid : GuestContractId} {k o : Nat}
    {handle : GuestContractHandle} {r : Registration}
    (hold : (slotsFor opened (opened.pluginSlots b) cid)[k]? = some o)
    (hnew : (registrationsFor regs b cid)[k]? = some (handle, r)) :
    LiveAt s'.data o r.entry r.arc ∧ s'.data.generationAt o = opened.generationAt o := by
  have hcell := h.paired.old_cell cid k o (by rw [ho.old_ofKey hadds]; exact hold)
  have hfilled := (hadds.placed _ (List.mem_filter.mp (List.mem_of_getElem? hnew)).1).2.1
  rw [ho.pending_ofKey hadds, List.getElem?_map, hnew] at hcell
  have hcontent : c.content o = some r := hcell.trans hfilled
  exact ⟨h.liveAt hcontent, (h.generationAt_eq hcontent).trans (hadds.generations o)⟩

/-- An old slot without a partner is vacated, and its handle is stale. -/
theorem dropped (h : Closing opened s s' b c) (hm : s'.Mirrors) (ho : Opened opened b)
    (hadds : Adds opened regs s.data) (hlen : s.data.slots.length ≤ 2 ^ 32)
    {cid : GuestContractId} {k o : Nat}
    (hold : (slotsFor opened (opened.pluginSlots b) cid)[k]? = some o)
    (hnew : (registrationsFor regs b cid).length ≤ k) :
    s'.resolveGuestContract ⟨o, opened.generationAt o⟩ = .error (.staleHandle o) ∧
      Unfound s' o := by
  have hcell := h.paired.old_cell cid k o (by rw [ho.old_ofKey hadds]; exact hold)
  rw [ho.pending_ofKey hadds, List.getElem?_map, List.getElem?_eq_none hnew] at hcell
  have hvacant : s'.data.catalog.content o = none := by
    rw [h.content_eq]
    exact hcell
  have hlive : s.data.catalog.content o ≠ none := by
    have hheld := (List.mem_filter.mp (List.mem_of_getElem? hold)).1
    obtain ⟨r, hr, -⟩ := ho.consistent.content_of_held hheld
    rw [hadds.kept o r hr]
    exact Option.some_ne_none r
  have hgen : s'.data.generationAt o = wrappingSucc (opened.generationAt o) := by
    rw [h.vacates.generation, if_pos ⟨hlive, hvacant⟩, hadds.generations]
  refine ⟨?_, unfound_of_vacant hm h.consistent.indexed (h.length ▸ hlen) hvacant⟩
  have hlt : o < s'.data.slots.length := h.length ▸ lt_length_of_content hlive
  have hview : s'.published.slots[o]? = some (s'.data.slots[o]).view := by
    rw [hm, ReadView.rebuild, List.getElem?_map, List.getElem?_eq_getElem hlt]
    rfl
  have hslot : (s'.data.slots[o]).view.generation = wrappingSucc (opened.generationAt o) := by
    rw [← hgen, generationAt, List.getElem?_eq_getElem hlt]
    rfl
  rw [resolveGuestContract, hview]
  exact if_pos fun heq => wrappingSucc_ne _ (hslot.symm.trans heq.symm)

/-- A registration without a partner stays in its slot. -/
theorem kept (h : Closing opened s s' b c) (hm : s'.Mirrors) (ho : Opened opened b)
    (hadds : Adds opened regs s.data) {cid : GuestContractId} {k : Nat}
    {handle : GuestContractHandle} {r : Registration}
    (hnew : (registrationsFor regs b cid)[k]? = some (handle, r))
    (hold : (slotsFor opened (opened.pluginSlots b) cid).length ≤ k) :
    LiveAt s'.data handle.index r.entry r.arc ∧ s'.resolveGuestContract handle = .ok r.arc := by
  obtain ⟨-, hfilled, hgen⟩ :=
    hadds.placed _ (List.mem_filter.mp (List.mem_of_getElem? hnew)).1
  have hcell := h.paired.new_cell cid k handle.index (by
    rw [ho.pending_ofKey hadds, List.getElem?_map, hnew]
    rfl)
  rw [ho.old_ofKey hadds, if_neg (Nat.not_lt.mpr hold), hfilled] at hcell
  refine ⟨h.liveAt hcell, ?_⟩
  have hhandle : s'.handleAt handle.index = handle := by
    obtain ⟨index, generation⟩ := handle
    rw [handleAt, h.generationAt_eq hcell, hadds.generations]
    exact congrArg _ hgen.symm
  rw [← hhandle]
  exact hm.resolve_handleAt (h.content_eq ▸ hcell)

/-- The index of a contract. -/
theorem order (h : Closing opened s s' b c) (ho : Opened opened b)
    (hadds : Adds opened regs s.data) (cid : GuestContractId) :
    s'.data.indexOf cid
      = (s.data.indexOf cid).filter (· ∈ s'.data.indexOf cid)
        ++ ((registrationsFor regs b cid).map fun p => p.1.index).drop
            (slotsFor opened (opened.pluginSlots b) cid).length := by
  have hnodup : (pendingSlots s.data b (opened.pluginSlots b)).Nodup :=
    ((hadds.consistent ho.consistent).held_nodup b).filter _
  have hlisted : s'.data.indexOf cid
      = ((s.data.indexOf cid).filter fun i => (c.content i).isSome)
        ++ ((registrationsFor regs b cid).map fun p => p.1.index).drop
            (slotsFor opened (opened.pluginSlots b) cid).length := by
    show s'.data.catalog.listed cid = _
    rw [h.catalog_eq, h.paired.publish_listed h.reconciling hnodup cid
      (ho.pending_not_listed hadds cid), ho.pending_ofKey hadds, ho.old_ofKey hadds]
    rfl
  -- An entry stays exactly if its slot is filled.
  have hstays : ((s.data.indexOf cid).filter fun i => (c.content i).isSome)
      = (s.data.indexOf cid).filter (· ∈ s'.data.indexOf cid) := by
    apply List.filter_congr
    intro i hi
    refine Bool.eq_iff_iff.mpr (Iff.trans ?_ decide_eq_true_iff.symm)
    constructor
    · intro hsome
      rw [hlisted]
      exact List.mem_append_left _ (List.mem_filter.mpr ⟨hi, hsome⟩)
    · intro hmem
      obtain ⟨r, hr, -⟩ := h.consistent.indexed.content_of_listed hmem
      rw [h.content_eq] at hr
      rw [hr]
      rfl
  rw [← hstays]
  exact hlisted

/-- The slots of the bundle for a contract are listed: an old one was, a new one is published. -/
theorem listed (h : Closing opened s s' b c) (ho : Opened opened b)
    (hadds : Adds opened regs s.data) {cid : GuestContractId} {i : Nat}
    (hi : i ∈ slotsFor s'.data (s'.data.pluginSlots b) cid) : i ∈ s'.data.indexOf cid := by
  have hcontent : (c.content i).isSome := by
    obtain ⟨-, hkey⟩ := List.mem_filter.mp hi
    have hkey := of_decide_eq_true hkey
    rw [contractAt_eq h.present, keyAt, h.content_eq] at hkey
    obtain ⟨r, hr, -⟩ := Option.map_eq_some_iff.mp hkey
    exact Option.isSome_of_eq_some hr
  have hnodup : (pendingSlots s.data b (opened.pluginSlots b)).Nodup :=
    ((hadds.consistent ho.consistent).held_nodup b).filter _
  rw [h.slotsFor_eq ho hadds] at hi
  show i ∈ s'.data.catalog.listed cid
  rw [h.catalog_eq, h.paired.publish_listed h.reconciling hnodup cid
    (ho.pending_not_listed hadds cid), ho.pending_ofKey hadds, ho.old_ofKey hadds]
  rcases List.mem_append.mp hi with hold | hnew
  · refine List.mem_append_left _ (List.mem_filter.mpr ⟨?_, hcontent⟩)
    obtain ⟨hheld, hcid⟩ := List.mem_filter.mp (List.mem_of_mem_take hold)
    show i ∈ s.data.indexOf cid
    rw [hadds.listed]
    exact List.mem_append_left _ (ho.listed i hheld cid (of_decide_eq_true hcid))
  · exact List.mem_append_right _ hnew

/-- One contract of the bundle. -/
theorem contractSwap (h : Closing opened s s' b c) (hm : s'.Mirrors) (ho : Opened opened b)
    (hadds : Adds opened regs s.data) (hlen : s.data.slots.length ≤ 2 ^ 32)
    (cid : GuestContractId) : ContractSwap opened s.data s' b regs cid where
  slots := h.slotsFor_eq ho hadds cid
  length := by
    rw [h.slotsFor_eq ho hadds, List.length_append, List.length_take, List.length_drop,
      List.length_map]
    omega
  nodup := (h.consistent.held_nodup b).filter _
  live i := by
    constructor
    · intro hi
      obtain ⟨hheld, hcid⟩ := List.mem_filter.mp hi
      obtain ⟨r, hr, howner⟩ := h.consistent.content_of_held hheld
      have hcid := of_decide_eq_true hcid
      rw [contractAt_eq h.present, keyAt, hr] at hcid
      exact ⟨r.entry, r.arc, liveAt_iff.mpr hr, howner, Option.some.inj hcid⟩
    · rintro ⟨entry, arc, hlive, rfl, rfl⟩
      refine List.mem_filter.mpr ⟨h.consistent.held_of_content (liveAt_iff.mp hlive), ?_⟩
      rw [contractAt, hlive.2]
      exact decide_eq_true rfl
  listed _ hi := h.listed ho hadds hi
  replaced _ _ _ _ hold hnew := h.replaced ho hadds hold hnew
  dropped _ _ hold hnew := h.dropped hm ho hadds hlen hold hnew
  kept _ _ _ hnew hold := h.kept hm ho hadds hnew hold
  order := h.order ho hadds cid

/-- The other bundles. -/
theorem foreignSwap (h : Closing opened s s' b c) : ForeignSwap s.data s'.data b where
  slots i entry arc hlive hother := by
    have hcontent := liveAt_iff.mp hlive
    have hsame : c.content i = some ⟨entry, arc⟩ := by
      rw [h.reconciling.foreign i]
      · exact hcontent
      · rw [ownerAt, hcontent]
        exact fun hb => hother (Option.some.inj hb)
    exact ⟨h.liveAt hsame, h.generationAt_eq hsame⟩
  pluginSlots x hx := by
    show s'.data.catalog.held x = s.data.catalog.held x
    rw [h.catalog_eq, publish_held, h.reconciling.held_foreign x hx]

end Closing

end

/-- The opening of a window touches no slot. -/
theorem ContractSwap.of_beginReload {s closed : RuntimeStore} {window : RuntimeStoreData}
    {b : BundleId} {regs : List (GuestContractHandle × Registration)} {cid : GuestContractId}
    (h : ContractSwap (s.beginReload b).data window closed b regs cid) :
    ContractSwap s.data window closed b regs cid :=
  ⟨h.slots, h.length, h.nodup, h.live, h.listed, h.replaced, h.dropped, h.kept, h.order⟩

/-- **What a reload swap does.** A bundle opens its window in a well-formed registry, registrations
follow, and the swap over the slots of the opening returns `Ok`. -/
theorem reload_swap (s : RuntimeStore) (windows : Finmap fun _ : BundleId => List Nat)
    (b : BundleId) (ops : List StoreOp) (descriptor : BundleDescriptor)
    (dependencies : Finset GuestContractId) (s' : RuntimeStore)
    (hwf : WellFormed s.data windows) (hclosed : windows.lookup b = none)
    (hops : ∀ op ∈ ops, op.IsRegistration)
    (hlen : (run RuntimeStore.exec (s.beginReload b) ops).data.slots.length ≤ 2 ^ 32)
    (hok : (run RuntimeStore.exec (s.beginReload b) ops).applyReloadSwap b
      (s.data.pluginSlots b) descriptor dependencies = (.ok (), s')) :
    (∀ cid, ContractSwap s.data (run RuntimeStore.exec (s.beginReload b) ops).data s' b
      (registrationsIn (s.beginReload b) ops) cid) ∧
    ForeignSwap (run RuntimeStore.exec (s.beginReload b) ops).data s'.data b ∧
    s'.getBundleDescriptor b = some descriptor ∧
    s'.data.bundleDeclaredDeps.lookup b = some dependencies ∧
    s'.data.reloadingBundles = (insert b s.data.reloadingBundles).erase b := by
  have ho := hwf.opened hclosed
  have hadds := adds_run hops hlen
  have hok' : (run RuntimeStore.exec (s.beginReload b) ops).applyReloadSwap b
      ((s.beginReload b).data.pluginSlots b) descriptor dependencies = (.ok (), s') := hok
  obtain ⟨c, hclosing⟩ := ho.closing hadds hok'
  have hresult := swapResult_of_ok (hadds.present ho.present)
    (hadds.consistent ho.consistent).indexed hok
  exact ⟨fun cid => (hclosing.contractSwap hresult.mirrors ho hadds hlen cid).of_beginReload,
    hclosing.foreignSwap, hresult.descriptor, hresult.dependencies,
    hresult.reloading.trans (congrArg (·.erase b) hadds.reloading)⟩

/-- A bundle with one contract, and a bundle with another one. -/
def twoBundles : Session :=
  run Session.exec Session.new
    [.register ⟨1⟩ ⟨11⟩ "kv" 100, .register ⟨2⟩ ⟨10⟩ "log" 101]

/-- A reload has left the first bundle with two providers of its contract, and with one of the
other contract. -/
def reloadedOnce : Session :=
  run Session.exec twoBundles
    [.beginReload ⟨1⟩, .register ⟨1⟩ ⟨11⟩ "kv" 102, .register ⟨1⟩ ⟨11⟩ "kv" 103,
      .register ⟨1⟩ ⟨10⟩ "log" 104, .swap ⟨1⟩ [0]]

/-- The bundle reloads with one provider of the first contract and two of the other, next to a
registration of a third bundle. -/
def reloadOps : List StoreOp :=
  [.register ⟨1⟩ ⟨10⟩ "log" 105, .register ⟨3⟩ ⟨11⟩ "kv" 106, .register ⟨1⟩ ⟨11⟩ "kv" 107,
    .register ⟨1⟩ ⟨10⟩ "log" 108]

theorem reload_swap_instance :
    ∃ s', (run RuntimeStore.exec (reloadedOnce.store.beginReload ⟨1⟩) reloadOps).applyReloadSwap
        ⟨1⟩ (reloadedOnce.store.data.pluginSlots ⟨1⟩) (defaultDescriptor ⟨1⟩) ∅ = (.ok (), s') ∧
      ∀ cid, ContractSwap reloadedOnce.store.data
        (run RuntimeStore.exec (reloadedOnce.store.beginReload ⟨1⟩) reloadOps).data s' ⟨1⟩
        (registrationsIn (reloadedOnce.store.beginReload ⟨1⟩) reloadOps) cid := by
  have hwf : WellFormed reloadedOnce.store.data reloadedOnce.windows := by
    rw [reloadedOnce, twoBundles, ← run_append]
    exact wellFormed_run _ (by decide +kernel)
  have hok : ((run RuntimeStore.exec (reloadedOnce.store.beginReload ⟨1⟩)
      reloadOps).applyReloadSwap ⟨1⟩ (reloadedOnce.store.data.pluginSlots ⟨1⟩)
      (defaultDescriptor ⟨1⟩) ∅).1 = .ok () := by
    decide +kernel
  refine ⟨_, Prod.ext hok rfl, ?_⟩
  exact (reload_swap _ _ ⟨1⟩ _ _ _ _ hwf (by decide +kernel) (by decide) (by decide +kernel)
    (Prod.ext hok rfl)).1

/-- The old and the new slots of the bundle for the two contracts. -/
example :
    (slotsFor reloadedOnce.store.data (reloadedOnce.store.data.pluginSlots ⟨1⟩) ⟨11⟩,
      slotsFor reloadedOnce.store.data (reloadedOnce.store.data.pluginSlots ⟨1⟩) ⟨10⟩)
      = ([0, 3], [4]) := by
  decide +kernel

end PolyPlug.Registry
