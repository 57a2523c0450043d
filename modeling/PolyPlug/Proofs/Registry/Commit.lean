import PolyPlug.Proofs.Registry.Bundles

/-!
# `PolyPlug.Proofs.Registry.Commit`: what a commit adds

`AddsSlots` describes the slots after the registrations of one bundle, in their order:
each is in a slot of its own that was vacant, the slots stand in the bundle's list
in that order, and outside a reload window they are listed under their contracts
in that order. Nothing else has changed. `Recorded` describes the tables of
bundles. `registerPreparedBundle_adds` proves both for a successful commit.
-/

set_option autoImplicit false

namespace PolyPlug.Registry

open PolyPlug.Abi
open PolyPlug.Lib
open PolyPlug.Lib.Catalog
open RuntimeStoreData RuntimeStore

/-- The slots of the registrations of one contract. -/
def slotsOf (cid : GuestContractId) (rs : List Registration) (hs : List GuestContractHandle) :
    List Nat :=
  ((rs.zip hs).filter fun p => p.1.key = cid).map fun p => p.2.index

/-- The registrations `rs` of `b` are added at the handles `hs`. -/
structure AddsSlots (b : BundleId) (publishes : Bool) (rs : List Registration)
    (hs : List GuestContractHandle) (data data' : RuntimeStoreData) : Prop where
  /-- Each registration fills the slot of its handle, which was vacant. -/
  placed : List.Forall₂ (fun r h => data.catalog.content h.index = none ∧
    data'.catalog.content h.index = some r ∧ h.generation = data.generationAt h.index) rs hs
  distinct : (hs.map GuestContractHandle.index).Nodup
  kept : ∀ i, i ∉ hs.map GuestContractHandle.index →
    data'.catalog.content i = data.catalog.content i
  generations : ∀ i, data'.generationAt i = data.generationAt i
  pluginSlots : ∀ x, data'.pluginSlots x
    = if x = b then data.pluginSlots x ++ hs.map GuestContractHandle.index
      else data.pluginSlots x
  index : ∀ cid, data'.indexOf cid
    = if publishes then data.indexOf cid ++ slotsOf cid rs hs else data.indexOf cid

/-- The record, the name entry and the declared dependencies of a new bundle are
added. -/
structure Recorded (descriptor : BundleDescriptor) (dependencies : Finset GuestContractId)
    (data data' : RuntimeStoreData) : Prop where
  descriptors : ∀ x, data'.descriptorOf x
    = if x = descriptor.id then some descriptor else data.descriptorOf x
  names : data'.bundleNameIndex
    = data.bundleNameIndex.insert descriptor.name (data.namedAs descriptor.name ++ [descriptor.id])
  declared : data'.bundleDeclaredDeps
    = data.bundleDeclaredDeps.insert descriptor.id dependencies
  windows : data'.reloadingBundles = data.reloadingBundles

/-! ### The insertions -/

section
variable {b : BundleId} {publishes : Bool} {rs : List Registration}
  {hs : List GuestContractHandle} {data data' : RuntimeStoreData}

/-- Insertions in a row add their registrations. -/
theorem InsertsAll.addsSlots (h : InsertsAll publishes data rs hs data')
    (hb : ∀ r ∈ rs, r.owner = b) :
    AddsSlots b publishes rs hs data data' := by
  induction h with
  | nil =>
    exact ⟨.nil, List.nodup_nil, fun _ _ => rfl, fun _ => rfl, fun _ => by simp,
      fun _ => by simp [slotsOf]⟩
  | @cons data mid data' r h rs hs hhead htail ih =>
    have howner : r.owner = b := hb r List.mem_cons_self
    have hrest := ih fun r' hr' => hb r' (List.mem_cons_of_mem _ hr')
    have hfilled : mid.catalog.content h.index = some r := by
      rw [hhead.catalog_eq]
      simp [add]
    have helsewhere : ∀ i, i ≠ h.index → mid.catalog.content i = data.catalog.content i := by
      intro i hi
      rw [hhead.catalog_eq]
      simp [add, hi]
    -- The slots of the other registrations are vacant after the first one.
    have hvacant : ∀ h' ∈ hs, mid.catalog.content h'.index = none := by
      intro h' hmem
      obtain ⟨k, hk, rfl⟩ := List.getElem_of_mem hmem
      have hlen := hrest.placed.length_eq
      exact (hrest.placed.get (by omega) hk).1
    have hfresh : ∀ h' ∈ hs, h'.index ≠ h.index := by
      intro h' hmem heq
      have := hvacant h' hmem
      rw [heq, hfilled] at this
      cases this
    have hnot : h.index ∉ hs.map GuestContractHandle.index := by
      intro hmem
      obtain ⟨h', hmem', heq⟩ := List.mem_map.mp hmem
      exact hfresh h' hmem' heq
    refine
      { placed := ?_
        distinct := List.nodup_cons.mpr ⟨hnot, hrest.distinct⟩
        kept := fun i hi => ?_
        generations := fun i => (hrest.generations i).trans (hhead.generations i)
        pluginSlots := fun x => ?_
        index := fun cid => ?_ }
    · refine .cons ⟨hhead.vacant, (hrest.kept _ hnot).trans hfilled, hhead.generation⟩ ?_
      refine hrest.placed.imp fun r' h' hp => ?_
      have hne : h'.index ≠ h.index := by
        intro heq
        have := hp.1
        rw [heq, hfilled] at this
        cases this
      exact ⟨by rw [← helsewhere _ hne, hp.1], hp.2.1, by rw [hp.2.2, hhead.generations]⟩
    · simp only [List.map_cons, List.mem_cons, not_or] at hi
      rw [hrest.kept i hi.2, helsewhere i hi.1]
    · have hheld : mid.pluginSlots x
          = if x = b then data.pluginSlots x ++ [h.index] else data.pluginSlots x := by
        show mid.catalog.held x = _
        rw [hhead.catalog_eq, ← howner]
        rfl
      rw [hrest.pluginSlots, hheld]
      split
      · simp
      · rfl
    · have hlisted : mid.indexOf cid = if publishes = true ∧ cid = r.key
          then data.indexOf cid ++ [h.index] else data.indexOf cid := by
        show mid.catalog.listed cid = _
        rw [hhead.catalog_eq]
        rfl
      rw [hrest.index, hlisted]
      cases publishes with
      | false => simp
      | true =>
        by_cases hkey : r.key = cid
        · simp [slotsOf, hkey]
        · simp [slotsOf, hkey, Ne.symm hkey]

/-- Writes that leave the slots alone do not change what is added. -/
theorem AddsSlots.of_sameSlots {data₀ : RuntimeStoreData} (hsame : SameSlots data data₀)
    (h : AddsSlots b publishes rs hs data₀ data') : AddsSlots b publishes rs hs data data' := by
  have hcat := hsame.catalog_eq
  refine ⟨?_, h.distinct, ?_, ?_, ?_, ?_⟩
  · simpa only [hcat, hsame.generationAt_eq] using h.placed
  · simpa only [hcat] using h.kept
  · simpa only [hsame.generationAt_eq] using h.generations
  · simpa only [hsame.pluginSlots] using h.pluginSlots
  · have hindex : ∀ cid, data₀.indexOf cid = data.indexOf cid := fun cid => by
      simp only [indexOf, hsame.index]
    simpa only [hindex] using h.index

end

/-- A successful commit adds the contracts and the record of its bundle. -/
theorem registerPreparedBundle_adds {s : RuntimeStore} {descriptor : BundleDescriptor}
    {dependencies : Finset GuestContractId} {contracts : List PreparedGuestContract}
    {hs : List GuestContractHandle} {data' : RuntimeStoreData}
    (hnew : s.data.bundleData.lookup descriptor.id = none)
    (hins : insertAll descriptor.id (!decide (descriptor.id ∈ s.data.reloadingBundles)) contracts
      [] (insertBundle s.data descriptor dependencies) = (.ok hs, data'))
    (hlen : data'.slots.length ≤ 2 ^ 32) :
    AddsSlots descriptor.id (!decide (descriptor.id ∈ s.data.reloadingBundles))
        (contracts.map fun c => c.registration descriptor.id) hs s.data data' ∧
      Recorded descriptor dependencies s.data data' := by
  have hall := insertAll_inserts hins hlen
  have hbundles := sameBundles_insertAll hins
  refine ⟨(hall.addsSlots (by simp)).of_sameSlots (sameSlots_insertBundle _ _ _ hnew), ?_⟩
  refine ⟨fun x => ?_, ?_, ?_, ?_⟩
  · rw [hbundles.descriptorOf_eq]
    simp only [descriptorOf, insertBundle, lookup_insert_eq]
    split <;> rfl
  · rw [hbundles.nameIndex]
    rfl
  · rw [hbundles.declaredDeps]
    rfl
  · have hreg : Registers s.data descriptor.id _ hs data' :=
      registers_of_registerPreparedBundle hnew hins hlen
    exact hreg.reloading

/-- A commit that passes its checks succeeds. -/
theorem registerPreparedBundle_ok {s : RuntimeStore} (descriptor : BundleDescriptor)
    {dependencies : Finset GuestContractId} {contracts : List PreparedGuestContract}
    (hstaged : validatePreparedBundleContracts contracts = .ok ())
    (hall : validateAll s.data descriptor.id (decide (descriptor.id ∈ s.data.reloadingBundles))
      contracts = .ok ())
    (hnew : s.data.bundleData.lookup descriptor.id = none) :
    ∃ hs s', s.registerPreparedBundle descriptor dependencies contracts = (.ok hs, s') := by
  have hrecorded : ((insertBundle s.data descriptor dependencies).bundleData.lookup
      descriptor.id).isSome := by
    simp [insertBundle]
  obtain ⟨hs, data', hins⟩ := insertAll_ok
    (!decide (descriptor.id ∈ s.data.reloadingBundles)) contracts _ hrecorded
  refine ⟨hs, s.publish data', ?_⟩
  simp only [registerPreparedBundle, hstaged, hall, hnew, Option.isSome_none, Bool.false_eq_true,
    if_false, hins]

/-! ### What is not added -/

/-- The entries of `b` in the second data were in the first. -/
def NoneNewOf (b : BundleId) (data data' : RuntimeStoreData) : Prop :=
  ∀ i entry, data'.entryAt i = some entry → entry.bundleId = b → data.entryAt i = some entry

theorem NoneNewOf.refl (b : BundleId) (data : RuntimeStoreData) : NoneNewOf b data data :=
  fun _ _ h _ => h

theorem NoneNewOf.trans {b : BundleId} {data mid data' : RuntimeStoreData}
    (h : NoneNewOf b data mid) (h' : NoneNewOf b mid data') : NoneNewOf b data data' :=
  fun i entry hentry hb => h i entry (h' i entry hentry hb) hb

/-- An insertion of one bundle adds no entry of another, whatever the size of the
slot array. -/
theorem noneNewOf_insertPreparedGuestContract {b c : BundleId} {data data' : RuntimeStoreData}
    {contract : PreparedGuestContract} {publishContract : Bool} {h : GuestContractHandle}
    (hins : insertPreparedGuestContract data contract c publishContract = .ok (h, data'))
    (hc : c ≠ b) : NoneNewOf b data data' := by
  intro i entry hentry hb
  unfold insertPreparedGuestContract at hins
  cases hbd : data.bundleData.lookup c with
  | none =>
    rw [hbd] at hins
    cases hins
  | some bd =>
    rw [hbd] at hins
    cases hins
    simp only [entryAt, List.getElem?_set] at hentry
    have hslots : ((allocateSlot data.slots).2)[i]?.bind PluginSlot.entry = some entry := by
      split at hentry
      · split at hentry
        · -- The written slot has an entry of `c`.
          cases hentry
          exact absurd hb hc
        · cases hentry
      · exact hentry
    -- The array is the old one, or the old one with a vacant slot at its end.
    unfold allocateSlot at hslots
    split at hslots
    · exact hslots
    · rcases Nat.lt_or_ge i data.slots.length with hlt | hge
      · rwa [List.getElem?_append_left hlt] at hslots
      · rw [List.getElem?_append_right hge] at hslots
        cases hk : i - data.slots.length with
        | zero => simp [hk, PluginSlot.vacant] at hslots
        | succ k => simp [hk] at hslots

theorem noneNewOf_insertAll {b c : BundleId} (hc : c ≠ b) {publishContract : Bool}
    {contracts : List PreparedGuestContract} {data data' : RuntimeStoreData}
    {hs : List GuestContractHandle}
    (hins : insertAll c publishContract contracts [] data = (.ok hs, data')) :
    NoneNewOf b data data' := by
  induction contracts generalizing data hs with
  | nil =>
    cases hins
    exact NoneNewOf.refl b _
  | cons contract rest ih =>
    obtain ⟨h, mid, hs', hone, hrest, -⟩ := insertAll_cons_ok hins
    exact (noneNewOf_insertPreparedGuestContract hone hc).trans (ih hrest)

end PolyPlug.Registry
