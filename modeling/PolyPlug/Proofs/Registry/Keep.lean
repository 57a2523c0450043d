import PolyPlug.Proofs.Registry.Bundles
import PolyPlug.Proofs.Registry.Views

/-!
# `PolyPlug.Proofs.Registry.Keep`: the lookups of one bundle

`SameLookups b` says that every lookup of the bundle `b` gives the same result in two
registries: by its id, by the handles of its slots, and among the providers of a
contract. It follows from three facts about the tables: the bundle has the same
record (`SameRecord`), the same slot list, and its slots are kept (`SlotsKept`).
-/

set_option autoImplicit false

namespace PolyPlug.Registry

open PolyPlug.Abi
open PolyPlug.Lib
open PolyPlug.Lib.Catalog
open RuntimeStoreData RuntimeStore

/-- The lookups of the bundle give the same results. -/
structure SameLookups (b : BundleId) (s s' : RuntimeStore) : Prop where
  descriptor : s'.getBundleDescriptor b = s.getBundleDescriptor b
  pluginSlots : s'.getBundlePluginSlots b = s.getBundlePluginSlots b
  named : ∀ name, b ∈ s'.getBundlesByName name ↔ b ∈ s.getBundlesByName name
  declared : ∀ cid, s'.isBundleDependencyDeclared b cid = s.isBundleDependencyDeclared b cid
  depends : ∀ contracts, b ∈ s'.bundlesDependingOnAny contracts ↔
    b ∈ s.bundlesDependingOnAny contracts
  exported : s'.bundleExportedContracts b = s.bundleExportedContracts b
  byBundle : ∀ cid v, s'.findGuestContractByBundle b cid v = s.findGuestContractByBundle b cid v
  resolve : ∀ h : GuestContractHandle, h.index ∈ s.getBundlePluginSlots b →
    s'.resolveGuestContract h = s.resolveGuestContract h
  registered : ∀ h : GuestContractHandle, h.index ∈ s.getBundlePluginSlots b →
    s'.getRegisteredContractDescriptor h = s.getRegisteredContractDescriptor h
  /-- The handles of the bundle among the providers of a contract. -/
  providers : ∀ cid v,
    (s'.collectGuestContracts cid v).filter (·.index ∈ s'.getBundlePluginSlots b)
      = (s.collectGuestContracts cid v).filter (·.index ∈ s.getBundlePluginSlots b)

theorem SameLookups.refl (b : BundleId) (s : RuntimeStore) : SameLookups b s s :=
  ⟨rfl, rfl, fun _ => Iff.rfl, fun _ => rfl, fun _ => Iff.rfl, rfl, fun _ _ => rfl,
    fun _ _ => rfl, fun _ _ => rfl, fun _ _ => rfl⟩

/-! ### The tables -/

/-- The bundle has the same descriptor, dependencies and names. -/
structure SameRecord (b : BundleId) (data data' : RuntimeStoreData) : Prop where
  descriptor : data'.descriptorOf b = data.descriptorOf b
  declared : data'.declaredOf b = data.declaredOf b
  named : ∀ name, b ∈ data'.namedAs name ↔ b ∈ data.namedAs name

/-- The cells are the same slots, at the same places of the index. -/
structure SlotsKept (cells : List Nat) (data data' : RuntimeStoreData) : Prop where
  slots : ∀ i ∈ cells, data'.slots[i]? = data.slots[i]?
  listed : ∀ cid, (data'.indexOf cid).filter (· ∈ cells) = (data.indexOf cid).filter (· ∈ cells)

section
variable {data mid data' : RuntimeStoreData} {b : BundleId} {cells : List Nat}

theorem SameRecord.refl (b : BundleId) (data : RuntimeStoreData) : SameRecord b data data :=
  ⟨rfl, rfl, fun _ => Iff.rfl⟩

theorem SameRecord.trans (h : SameRecord b data mid) (h' : SameRecord b mid data') :
    SameRecord b data data' :=
  ⟨h'.descriptor.trans h.descriptor, h'.declared.trans h.declared,
    fun name => (h'.named name).trans (h.named name)⟩

theorem SameBundles.sameRecord (h : SameBundles data data') (b : BundleId) :
    SameRecord b data data' :=
  ⟨h.descriptorOf_eq b, h.declaredOf_eq b, fun name => by rw [h.namedAs_eq]⟩

theorem SlotsKept.trans (h : SlotsKept cells data mid) (h' : SlotsKept cells mid data') :
    SlotsKept cells data data' :=
  ⟨fun i hi => (h'.slots i hi).trans (h.slots i hi),
    fun cid => (h'.listed cid).trans (h.listed cid)⟩

theorem SlotsKept.of_eq (hslots : data'.slots = data.slots)
    (hindex : data'.guestContractIndex = data.guestContractIndex) : SlotsKept cells data data' :=
  ⟨fun _ _ => by rw [hslots], fun cid => by simp only [indexOf, hindex]⟩

theorem SlotsKept.mem_indexOf (h : SlotsKept cells data data') {i : Nat} (hi : i ∈ cells)
    (cid : GuestContractId) : i ∈ data'.indexOf cid ↔ i ∈ data.indexOf cid := by
  have hlisted := h.listed cid
  have hmem : i ∈ (data'.indexOf cid).filter (· ∈ cells) ↔
      i ∈ (data.indexOf cid).filter (· ∈ cells) := by rw [hlisted]
  simpa [hi] using hmem

/-- A live slot with the same registration and generation is kept. -/
theorem SlotsKept.of_content
    (hcontent : ∀ i ∈ cells, ∃ g, data.catalog.content i = some g ∧
      data'.catalog.content i = some g ∧ data'.generationAt i = data.generationAt i)
    (hlisted : ∀ cid,
      (data'.indexOf cid).filter (· ∈ cells) = (data.indexOf cid).filter (· ∈ cells)) :
    SlotsKept cells data data' :=
  ⟨fun i hi => by
    obtain ⟨g, hg, hg', hgen⟩ := hcontent i hi
    exact slot_eq_of_content hg hg' hgen, hlisted⟩

/-- A registration call keeps the slots that are filled. -/
theorem Registers.slotsKept {rs : List Registration} {hs : List GuestContractHandle}
    (h : Registers data b rs hs data') (hlive : ∀ i ∈ cells, data.catalog.content i ≠ none) :
    SlotsKept cells data data' := by
  have hlisted : (∀ i ∈ cells, data'.catalog.content i ≠ none) ∧ ∀ cid,
      (data'.catalog.listed cid).filter (· ∈ cells)
        = (data.indexOf cid).filter (· ∈ cells) := by
    refine h.rule (I := fun d => (∀ i ∈ cells, d.catalog.content i ≠ none) ∧ ∀ cid,
      (d.catalog.listed cid).filter (· ∈ cells) = (data.indexOf cid).filter (· ∈ cells))
      ⟨hlive, fun _ => rfl⟩ ?_ ?_
    · intro d d' hsame _ hd
      rw [hsame.catalog_eq]
      exact hd
    · rintro d r handle d' - - - hins ⟨hfilled, hd⟩
      -- The slot that is filled was vacant, so it is none of the cells.
      have hnot : handle.index ∉ cells := fun hmem => hfilled _ hmem hins.vacant
      rw [hins.catalog_eq]
      refine ⟨fun i hi => ?_, fun cid => ?_⟩
      · have hne : i ≠ handle.index := fun he => hnot (he ▸ hi)
        simpa [add, hne] using hfilled i hi
      · rw [← hd cid]
        simp only [add]
        split
        · simp [hnot]
        · rfl
  refine .of_content (fun i hi => ?_) hlisted.2
  obtain ⟨g, hg⟩ := Option.ne_none_iff_exists'.mp (hlive i hi)
  exact ⟨g, hg, h.content_kept hg, h.generationAt_eq i⟩

end

/-! ### The lookups -/

section
variable {s s' : RuntimeStore} {b : BundleId}

/-- The scan of the bundle's slots reads only these. -/
theorem findOwnedIn_eq {data data' : RuntimeStoreData} {cells : List Nat}
    (hkept : SlotsKept cells data data') (hopen : b ∉ data.reloadingBundles)
    (hopen' : b ∉ data'.reloadingBundles) (cid : GuestContractId) (v : Nat) {scanned : List Nat}
    (hscanned : ∀ i ∈ scanned, i ∈ cells) :
    findOwnedIn data' b cid v scanned = findOwnedIn data b cid v scanned := by
  induction scanned with
  | nil => rfl
  | cons i rest ih =>
    have hrest := ih fun j hj => hscanned j (List.mem_cons_of_mem _ hj)
    simp only [findOwnedIn, hopen, hopen', false_and, if_false, hrest,
      hkept.slots i (hscanned i List.mem_cons_self)]

/-- A handle of a kept slot resolves to the same. -/
theorem resolve_of_kept (hm : s.Mirrors) (hm' : s'.Mirrors) {cells : List Nat}
    (hkept : SlotsKept cells s.data s'.data) {h : GuestContractHandle} (hmem : h.index ∈ cells) :
    s'.resolveGuestContract h = s.resolveGuestContract h := by
  have hview : s'.published.slots[h.index]? = s.published.slots[h.index]? := by
    rw [hm, hm']
    simp only [ReadView.rebuild, List.getElem?_map, hkept.slots _ hmem]
  simp only [resolveGuestContract, hview]

/-- So does its contract descriptor. -/
theorem registered_of_kept {cells : List Nat} (hkept : SlotsKept cells s.data s'.data)
    {h : GuestContractHandle} (hmem : h.index ∈ cells) :
    s'.getRegisteredContractDescriptor h = s.getRegisteredContractDescriptor h := by
  simp only [getRegisteredContractDescriptor, hkept.slots _ hmem, hkept.mem_indexOf hmem]

/-- The kept slots are the same providers. -/
theorem providers_of_kept (ht : s.Tidy) (ht' : s'.Tidy) {cells : List Nat}
    (hkept : SlotsKept cells s.data s'.data) (cid : GuestContractId) (v : Nat) :
    (s'.collectGuestContracts cid v).filter (·.index ∈ cells)
      = (s.collectGuestContracts cid v).filter (·.index ∈ cells) := by
  have hsplit : ∀ t : RuntimeStore, t.Tidy →
      (t.collectGuestContracts cid v).filter (·.index ∈ cells)
        = (((t.data.indexOf cid).filter (· ∈ cells)).filter (t.provides v)).map t.handleAt := by
    intro t ht
    rw [ht.mirrors.collect_eq ht.consistent.toIndexed, providers, List.filter_map,
      List.filter_filter, List.filter_filter]
    congr 1
    refine List.filter_congr fun i _ => ?_
    show (decide (i ∈ cells) && t.provides v i) = (t.provides v i && decide (i ∈ cells))
    exact Bool.and_comm _ _
  rw [hsplit s ht, hsplit s' ht', hkept.listed cid]
  -- On the kept slots both views agree.
  have hview : ∀ i ∈ cells, s'.provides v i = s.provides v i ∧ s'.handleAt i = s.handleAt i := by
    intro i hi
    have hslot := hkept.slots i hi
    refine ⟨?_, ?_⟩
    · have hpublished : s'.published.slots[i]? = s.published.slots[i]? := by
        rw [ht.mirrors, ht'.mirrors]
        simp only [ReadView.rebuild, List.getElem?_map, hslot]
      simp only [provides, publishedInterface, hpublished]
    · simp only [handleAt, generationAt, hslot]
  have hcell : ∀ i ∈ (s.data.indexOf cid).filter (· ∈ cells), i ∈ cells := fun i hi => by
    simpa using (List.mem_filter.mp hi).2
  rw [List.filter_congr fun i hi => (hview i (hcell i hi)).1]
  exact List.map_congr_left fun i hi => (hview i (hcell i (List.mem_filter.mp hi).1)).2

/-- The bundle's part of the tables decides its lookups. -/
theorem sameLookups_of_kept (ht : s.Tidy) (ht' : s'.Tidy) (hrecord : SameRecord b s.data s'.data)
    (hheld : s'.data.pluginSlots b = s.data.pluginSlots b)
    (hkept : SlotsKept (s.data.pluginSlots b) s.data s'.data)
    (hopen : b ∉ s.data.reloadingBundles) (hopen' : b ∉ s'.data.reloadingBundles) :
    SameLookups b s s' where
  descriptor := hrecord.descriptor
  pluginSlots := hheld
  named := hrecord.named
  declared cid := by
    show decide (cid ∈ s'.data.declaredOf b) = decide (cid ∈ s.data.declaredOf b)
    rw [hrecord.declared]
  depends contracts := by
    rw [mem_bundlesDependingOnAny, mem_bundlesDependingOnAny, hrecord.declared]
  exported := by
    ext cid
    rw [mem_bundleExportedContracts, mem_bundleExportedContracts, hheld]
    exact exists_congr fun i => and_congr_left fun hi => hkept.mem_indexOf hi cid
  byBundle cid v := by
    have hsome : (s'.data.bundleData.lookup b).isSome = (s.data.bundleData.lookup b).isSome := by
      have hdescriptor := congrArg Option.isSome hrecord.descriptor
      simpa [descriptorOf] using hdescriptor
    have hscan := findOwnedIn_eq hkept hopen hopen' cid v fun _ hi => hi
    unfold findGuestContractByBundle
    unfold pluginSlots at hheld hscan
    cases hbd : s.data.bundleData.lookup b with
    | none =>
      rw [hbd, Option.isSome_none, Option.isSome_eq_false_iff, Option.isNone_iff_eq_none] at hsome
      rw [hsome]
    | some bd =>
      rw [hbd] at hsome hheld hscan
      obtain ⟨bd', hbd'⟩ := Option.isSome_iff_exists.mp hsome
      rw [hbd'] at hheld ⊢
      have hlist : bd'.pluginSlots = bd.pluginSlots := hheld
      dsimp only
      rw [hlist, show findOwnedIn s'.data b cid v bd.pluginSlots
        = findOwnedIn s.data b cid v bd.pluginSlots from hscan]
  resolve _ hmem := resolve_of_kept ht.mirrors ht'.mirrors hkept hmem
  registered _ hmem := registered_of_kept hkept hmem
  providers cid v := by
    rw [show s'.getBundlePluginSlots b = s.getBundlePluginSlots b from hheld]
    exact providers_of_kept ht ht' hkept cid v

end

end PolyPlug.Registry
