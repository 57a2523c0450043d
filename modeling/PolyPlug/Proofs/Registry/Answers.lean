import PolyPlug.Proofs.Registry.Additions
import PolyPlug.Proofs.Registry.Lookups
import PolyPlug.Proofs.Registry.Handles

/-!
# `PolyPlug.Proofs.Registry.Answers`: stores that answer alike

`SameAnswers` says that two stores give the same answer to every query. The handles it asks
`resolve` about are those of a set, the ones that somebody holds.

`Hides` is the reason two stores answer alike although one has more: the additional slots are
pending registrations of one bundle, which no query shows. `Hides.answers` goes through the
queries, each from the lists it reads.
-/

set_option autoImplicit false

namespace PolyPlug.Registry

open PolyPlug.Abi
open PolyPlug.Lib
open PolyPlug.Lib.Catalog
open RuntimeStoreData RuntimeStore

/-! ### The queries -/

/-- Every query has the same answer. `held` are the handles that exist. -/
structure SameAnswers (held : GuestContractHandle → Prop) (s t : RuntimeStore) : Prop where
  resolve : ∀ h, held h → t.resolveGuestContract h = s.resolveGuestContract h
  find : ∀ cid v, t.findGuestContract cid v = s.findGuestContract cid v
  findByBundle : ∀ b cid v,
    t.findGuestContractByBundle b cid v = s.findGuestContractByBundle b cid v
  collect : ∀ cid v, t.collectGuestContracts cid v = s.collectGuestContracts cid v
  count : ∀ cid v, t.countGuestContracts cid v = s.countGuestContracts cid v
  list : t.listRegisteredGuestContracts = s.listRegisteredGuestContracts
  descriptors : t.registeredContractDescriptors = s.registeredContractDescriptors
  listBundles : t.listBundles = s.listBundles
  bundleDescriptor : ∀ b, t.getBundleDescriptor b = s.getBundleDescriptor b
  bundlesByName : ∀ name, t.getBundlesByName name = s.getBundlesByName name

section
variable {held : GuestContractHandle → Prop} {s t u : RuntimeStore}

theorem SameAnswers.symm (h : SameAnswers held s t) : SameAnswers held t s where
  resolve handle hheld := (h.resolve handle hheld).symm
  find cid v := (h.find cid v).symm
  findByBundle b cid v := (h.findByBundle b cid v).symm
  collect cid v := (h.collect cid v).symm
  count cid v := (h.count cid v).symm
  list := h.list.symm
  descriptors := h.descriptors.symm
  listBundles := h.listBundles.symm
  bundleDescriptor b := (h.bundleDescriptor b).symm
  bundlesByName name := (h.bundlesByName name).symm

theorem SameAnswers.trans (h : SameAnswers held s t) (h' : SameAnswers held t u) :
    SameAnswers held s u where
  resolve handle hheld := (h'.resolve handle hheld).trans (h.resolve handle hheld)
  find cid v := (h'.find cid v).trans (h.find cid v)
  findByBundle b cid v := (h'.findByBundle b cid v).trans (h.findByBundle b cid v)
  collect cid v := (h'.collect cid v).trans (h.collect cid v)
  count cid v := (h'.count cid v).trans (h.count cid v)
  list := h'.list.trans h.list
  descriptors := h'.descriptors.trans h.descriptors
  listBundles := h'.listBundles.trans h.listBundles
  bundleDescriptor b := (h'.bundleDescriptor b).trans (h.bundleDescriptor b)
  bundlesByName name := (h'.bundlesByName name).trans (h.bundlesByName name)

/-- `resolve` reads the slot of its handle. -/
theorem resolve_eq (hm : s.Mirrors) {h : GuestContractHandle}
    (hlt : h.index < s.data.slots.length) :
    s.resolveGuestContract h
      = if h.generation ≠ s.data.generationAt h.index then .error (.staleHandle h.index)
        else
          match s.data.catalog.content h.index with
          | some r => .ok r.arc
          | none   => .error (.invalidHandle h.index) := by
  have hslot := List.getElem?_eq_getElem hlt
  have hview : s.published.slots[h.index]? = some (s.data.slots[h.index]).view := by
    rw [hm, ReadView.rebuild, List.getElem?_map, hslot]
    rfl
  rw [resolveGuestContract, hview, generationAt, hslot]
  show (if h.generation ≠ (s.data.slots[h.index]).generation then _ else _) = _
  refine if_congr Iff.rfl rfl ?_
  simp only [catalog, hslot, Option.bind_some]
  unfold PluginSlot.view PluginSlot.registration
  cases (s.data.slots[h.index]).entry with
  | none => rfl
  | some entry => cases (s.data.slots[h.index]).interface <;> rfl

end

/-! ### Pending registrations -/

/-- `data'` has the slots of `data` and, in slots that are vacant in `data`, pending
registrations of the bundle. -/
structure Hides (data : RuntimeStoreData) (b : BundleId) (data' : RuntimeStoreData) : Prop where
  listed : ∀ cid, data'.indexOf cid = data.indexOf cid
  kept : ∀ i r, data.catalog.content i = some r → data'.catalog.content i = some r
  generations : ∀ i, data'.generationAt i = data.generationAt i
  length_le : data.slots.length ≤ data'.slots.length
  held : ∀ x, ∃ pending, data'.pluginSlots x = data.pluginSlots x ++ pending ∧
    (pending ≠ [] → x ∈ data'.reloadingBundles) ∧ ∀ i ∈ pending, ∀ cid, i ∉ data.indexOf cid
  reloading : ∀ x, x ≠ b → (x ∈ data'.reloadingBundles ↔ x ∈ data.reloadingBundles)
  bundles : SameBundles data data'
  present : data'.Present

section
variable {data data' : RuntimeStoreData} {b : BundleId}

/-- The listed slots are listed under the contracts they had. -/
theorem Hides.indexed (h : Hides data b data') (hi : data.Indexed) : data'.Indexed where
  listed_key cid i hmem := by
    have hold : i ∈ data.indexOf cid := h.listed cid ▸ hmem
    obtain ⟨r, hr, hkey⟩ := hi.content_of_listed hold
    show (data'.catalog.content i).map Registration.key = some cid
    rw [h.kept i r hr]
    exact congrArg some hkey
  listed_nodup cid := by
    show (data'.indexOf cid).Nodup
    rw [h.listed]
    exact hi.listed_nodup cid

/-- A filled slot is the same in both. -/
theorem Hides.slot_eq (h : Hides data b data') {i : Nat} {r : Registration}
    (hr : data.catalog.content i = some r) : data'.slots[i]? = data.slots[i]? := by
  obtain ⟨slot, hslot, hentry, harc⟩ := content_eq_some.mp hr
  obtain ⟨slot', hslot', hentry', harc'⟩ := content_eq_some.mp (h.kept i r hr)
  have hgen := h.generations i
  rw [generationAt, generationAt, hslot, hslot'] at hgen
  obtain ⟨entry, interface, generation⟩ := slot
  obtain ⟨entry', interface', generation'⟩ := slot'
  rw [hslot, hslot']
  cases hentry
  cases hentry'
  cases harc
  cases harc'
  cases hgen
  rfl

/-- The scan of a bundle passes over its pending slots. -/
theorem findOwnedIn_pending {x : BundleId} {cid : GuestContractId} {v : Nat}
    (cells pending : List Nat)
    (hpending : ∀ i ∈ pending, x ∈ data.reloadingBundles ∧ i ∉ data.indexOf cid) :
    findOwnedIn data x cid v (cells ++ pending) = findOwnedIn data x cid v cells := by
  induction cells with
  | nil =>
    induction pending with
    | nil => rfl
    | cons i rest ih =>
      obtain ⟨hi, hrest⟩ := List.forall_mem_cons.mp hpending
      have hskip : findOwnedIn data x cid v (i :: rest) = findOwnedIn data x cid v rest := by
        rw [findOwnedIn]
        exact if_pos hi
      exact hskip.trans (ih hrest)
  | cons i rest ih =>
    rw [List.cons_append]
    unfold findOwnedIn
    split
    · exact ih
    · split
      · exact ih
      · split
        · split
          · rfl
          · exact ih
        · exact ih

/-- The scan over slots of the bundle that are filled in both. -/
theorem Hides.findOwnedIn_eq (h : Hides data b data')
    (hsettled : ∀ i ∈ data.pluginSlots b, ∀ cid, data.contractAt i = some cid →
      i ∈ data.indexOf cid)
    (hb : b ∉ data.reloadingBundles) {x : BundleId} {cid : GuestContractId} {v : Nat}
    (cells : List Nat) (hcells : ∀ i ∈ cells, i ∈ data.pluginSlots x ∧
      ∃ r, data.catalog.content i = some r) :
    findOwnedIn data' x cid v cells = findOwnedIn data x cid v cells := by
  induction cells with
  | nil => rfl
  | cons i rest ih =>
    obtain ⟨⟨hheld, r, hr⟩, hrest⟩ := List.forall_mem_cons.mp hcells
    have ih := ih hrest
    obtain ⟨slot, hslot, hentry, harc⟩ := content_eq_some.mp hr
    rw [findOwnedIn, findOwnedIn, h.slot_eq hr, h.listed, ih, hslot]
    by_cases hx : x = b
    · subst hx
      rw [if_neg fun hskip : x ∈ data.reloadingBundles ∧ _ => hb hskip.1]
      split
      · next hskip =>
        -- A slot of the bundle that is not listed provides another contract.
        have hother : r.arc.val.contractId ≠ cid := by
          rintro rfl
          refine hskip.2 (hsettled i hheld _ ?_)
          rw [contractAt, interfaceAt, hslot]
          simp [harc]
        dsimp only
        rw [hentry, harc]
        exact (if_neg fun hc => hother hc.2.1).symm
      · rfl
    · exact if_congr (and_congr_left' (h.reloading x hx)) rfl rfl

theorem findByBundle_eq {s t : RuntimeStore} (h : Hides s.data b t.data) (hc : s.data.Consistent)
    (hsettled : ∀ i ∈ s.data.pluginSlots b, ∀ cid, s.data.contractAt i = some cid →
      i ∈ s.data.indexOf cid)
    (hb : b ∉ s.data.reloadingBundles) (x : BundleId) (cid : GuestContractId) (v : Nat) :
    t.findGuestContractByBundle x cid v = s.findGuestContractByBundle x cid v := by
  have hread : ∀ u : RuntimeStore, u.findGuestContractByBundle x cid v
      = (findOwnedIn u.data x cid v (u.data.pluginSlots x)).elim
        (.error (.pluginNotFound cid.id v)) .ok := by
    intro u
    unfold findGuestContractByBundle pluginSlots
    cases u.data.bundleData.lookup x with
    | none => rfl
    | some bd =>
      dsimp only [Option.map_some, Option.getD_some]
      cases findOwnedIn u.data x cid v bd.pluginSlots with
      | none => rfl
      | some handle => rfl
  obtain ⟨pending, hslots, hreload, hunlisted⟩ := h.held x
  rw [hread, hread, hslots, findOwnedIn_pending]
  · rw [h.findOwnedIn_eq hsettled hb (s.data.pluginSlots x) fun i hi => ?_]
    obtain ⟨r, hr, -⟩ := hc.content_of_held hi
    exact ⟨hi, r, hr⟩
  · intro i hi
    rw [h.listed]
    exact ⟨hreload (List.ne_nil_of_mem hi), hunlisted i hi cid⟩

end

/-! ### The introspection queries -/

/-- Two arrays give the same list if the longer one adds positions that give nothing. -/
theorem filterMap_zipIdx_eq {α : Type} {f f' : Nat → PluginSlot → Option α}
    (slots slots' : List PluginSlot) (n : Nat) (hle : slots.length ≤ slots'.length)
    (h : ∀ i slot', slots'[i]? = some slot' → f' (n + i) slot' = slots[i]?.bind (f (n + i))) :
    ((slots'.zipIdx n).filterMap fun p => f' p.2 p.1)
      = (slots.zipIdx n).filterMap fun p => f p.2 p.1 := by
  induction slots' generalizing slots n with
  | nil =>
    obtain rfl := List.eq_nil_of_length_eq_zero (Nat.le_zero.mp hle)
    rfl
  | cons slot' rest' ih =>
    have hhead := h 0 slot' rfl
    cases slots with
    | nil =>
      have hrest := ih [] (n + 1) (Nat.zero_le _) fun i s' hs' => by
        rw [Nat.add_right_comm]
        exact h (i + 1) s' hs'
      rw [List.zipIdx_cons, List.filterMap_cons]
      rw [Nat.add_zero] at hhead
      rw [show f' n slot' = none from hhead, hrest]
      rfl
    | cons slot rest =>
      have hrest := ih rest (n + 1) (Nat.le_of_succ_le_succ hle) fun i s' hs' => by
        rw [Nat.add_right_comm]
        exact h (i + 1) s' hs'
      rw [Nat.add_zero] at hhead
      have hslot : f' n slot' = f n slot := hhead
      rw [List.zipIdx_cons, List.zipIdx_cons, List.filterMap_cons, List.filterMap_cons, hrest,
        hslot]

/-- The introspection of one slot reads its registration. -/
theorem registeredDescriptor_eq (data : RuntimeStoreData) (i : Nat) (slot : PluginSlot) :
    registeredDescriptor data i slot
      = slot.registration.bind fun r =>
          if asU32 i ∈ data.indexOf r.arc.val.contractId then
            some ⟨⟨asU32 i, slot.generation⟩, r.arc.val.contractId, r.entry.bundleId,
              r.entry.descriptor⟩
          else none := by
  obtain ⟨entry, interface, generation⟩ := slot
  cases entry <;> cases interface <;> rfl

/-- A slot that is not listed under its contract gives no descriptor. -/
theorem registeredDescriptor_of_unlisted {data : RuntimeStoreData} {i : Nat} {slot : PluginSlot}
    (hi : asU32 i = i) (h : ∀ cid, i ∉ data.indexOf cid) :
    registeredDescriptor data i slot = none := by
  rw [registeredDescriptor_eq, hi]
  cases slot.registration with
  | none => rfl
  | some r => exact if_neg (h _)

section
variable {s t : RuntimeStore} {b : BundleId}

theorem Hides.descriptors_eq (h : Hides s.data b t.data) (hi : s.data.Indexed)
    (hlen : t.data.slots.length ≤ 2 ^ 32) :
    t.registeredContractDescriptors = s.registeredContractDescriptors := by
  refine filterMap_zipIdx_eq s.data.slots t.data.slots 0 h.length_le fun i slot' hslot' => ?_
  have hcast : asU32 i = i :=
    Nat.mod_eq_of_lt ((List.getElem?_eq_some_iff.mp hslot').1.trans_le hlen)
  rw [Nat.zero_add]
  cases hr : s.data.catalog.content i with
  | some r =>
    -- The slot is the same, and so is the index.
    have hslot : s.data.slots[i]? = some slot' := (h.slot_eq hr).symm.trans hslot'
    rw [hslot, Option.bind_some, registeredDescriptor_eq, registeredDescriptor_eq]
    congr 1
    funext r
    rw [h.listed]
  | none =>
    have hunlisted : ∀ cid, i ∉ s.data.indexOf cid := hi.not_listed hr
    rw [registeredDescriptor_of_unlisted hcast fun cid => by rw [h.listed]; exact hunlisted cid]
    cases s.data.slots[i]? with
    | none => rfl
    | some slot => exact (registeredDescriptor_of_unlisted hcast hunlisted).symm

theorem list_eq_map (s : RuntimeStore) :
    s.listRegisteredGuestContracts
      = s.registeredContractDescriptors.map RegisteredContractDescriptor.handle := by
  unfold listRegisteredGuestContracts registeredContractDescriptors
  rw [List.map_filterMap]
  congr 1
  funext p
  exact (registeredDescriptor_handle s.data p.2 p.1).symm

/-! ### The lock-free queries -/

theorem Hides.providers_eq (h : Hides s.data b t.data) (hs : s.Mirrors) (ht : t.Mirrors)
    (hi : s.data.Indexed) (cid : GuestContractId) (v : Nat) :
    t.providers cid v = s.providers cid v := by
  unfold RuntimeStore.providers
  rw [h.listed]
  have hprovides : (s.data.indexOf cid).filter (t.provides v)
      = (s.data.indexOf cid).filter (s.provides v) := by
    apply List.filter_congr
    intro i hmem
    obtain ⟨r, hr, -⟩ := hi.content_of_listed hmem
    rw [ht.provides_iff v (h.kept i r hr), hs.provides_iff v hr]
  rw [hprovides]
  apply List.map_congr_left
  intro i _
  rw [handleAt, handleAt, h.generations]

/-- A handle that is not the one of a pending registration resolves as before. -/
theorem Hides.resolve_eq (h : Hides s.data b t.data) (hs : s.Mirrors) (ht : t.Mirrors)
    {handle : GuestContractHandle} (hlt : handle.index < s.data.slots.length)
    (hfree : s.data.catalog.content handle.index = none →
      handle.generation = s.data.generationAt handle.index →
      t.data.catalog.content handle.index = none) :
    t.resolveGuestContract handle = s.resolveGuestContract handle := by
  rw [Registry.resolve_eq ht (hlt.trans_le h.length_le), Registry.resolve_eq hs hlt,
    h.generations]
  by_cases hgen : handle.generation = s.data.generationAt handle.index
  · rw [if_neg (not_not.mpr hgen), if_neg (not_not.mpr hgen)]
    cases hr : s.data.catalog.content handle.index with
    | none => rw [hfree hr hgen]
    | some r => rw [h.kept _ r hr]
  · rw [if_pos hgen, if_pos hgen]

/-! ### All queries -/

theorem SameBundles.keys_eq {data data' : RuntimeStoreData} (h : SameBundles data data') :
    data'.bundleData.keys = data.bundleData.keys := by
  ext x
  rw [Finmap.mem_keys, Finmap.mem_keys, ← Finmap.lookup_isSome, ← Finmap.lookup_isSome,
    h.isSome x]

/-- **Pending registrations are not seen**, apart from a handle that one of them returns. -/
theorem Hides.answers (h : Hides s.data b t.data) {held : GuestContractHandle → Prop}
    (hs : s.Mirrors) (ht : t.Mirrors) (hc : s.data.Consistent)
    (hlen : t.data.slots.length ≤ 2 ^ 32)
    (hsettled : ∀ i ∈ s.data.pluginSlots b, ∀ cid, s.data.contractAt i = some cid →
      i ∈ s.data.indexOf cid)
    (hb : b ∉ s.data.reloadingBundles)
    (hheld : ∀ handle, held handle → handle.index < s.data.slots.length ∧
      (s.data.catalog.content handle.index = none →
        handle.generation = s.data.generationAt handle.index →
        t.data.catalog.content handle.index = none)) :
    SameAnswers held s t where
  resolve handle hh := h.resolve_eq hs ht (hheld handle hh).1 (hheld handle hh).2
  find cid v := by
    have hindexed : t.data.Indexed := h.indexed hc.indexed
    rw [ht.find_eq hindexed, hs.find_eq hc.indexed, h.providers_eq hs ht hc.indexed]
  findByBundle := findByBundle_eq h hc hsettled hb
  collect cid v := by
    rw [ht.collect_eq (h.indexed hc.indexed), hs.collect_eq hc.indexed,
      h.providers_eq hs ht hc.indexed]
  count cid v := by
    rw [ht.count_eq (h.indexed hc.indexed), hs.count_eq hc.indexed,
      h.providers_eq hs ht hc.indexed]
  list := by rw [list_eq_map, list_eq_map, h.descriptors_eq hc.indexed hlen]
  descriptors := h.descriptors_eq hc.indexed hlen
  listBundles := by
    unfold RuntimeStore.listBundles
    rw [h.bundles.keys_eq]
  bundleDescriptor := h.bundles.descriptor
  bundlesByName name := by
    unfold getBundlesByName
    rw [h.bundles.nameIndex]

end

end PolyPlug.Registry
