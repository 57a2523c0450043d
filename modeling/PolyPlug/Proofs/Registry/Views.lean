import PolyPlug.Proofs.Registry.Mirror

/-!
# `PolyPlug.Proofs.Registry.Views`: what the lock-free lookups read

The lock-free lookups scan the published view, each with its own loop. They all
answer from one list, `RuntimeStore.providers`: the handles of the slots listed
under a contract, in index order, whose interface has the major version asked
for.

The loops are first reduced to the list they select from the view (`selected`).
When the view mirrors the locked data and the index lists live slots only, that
list is `providers`.
-/

set_option autoImplicit false
set_option linter.unusedSectionVars false

namespace PolyPlug.Registry

open PolyPlug.Abi
open PolyPlug.Lib
open PolyPlug.Lib.Catalog
open RuntimeStoreData RuntimeStore

namespace RuntimeStore

/-! ### The common answer -/

/-- The published interface of a slot. -/
def publishedInterface (s : RuntimeStore) (i : Nat) : Option (Arc GuestContractInterface) :=
  (s.published.slots[i]?.bind SlotEntryView.iface).map SlotIfaceView.interface

/-- The slot's published interface has the major version asked for. -/
def provides (s : RuntimeStore) (minVersion i : Nat) : Bool :=
  (s.publishedInterface i).any fun arc => decide (arc.val.contractVersion.major ≥ minVersion)

/-- The handle of a slot at its current generation. -/
def handleAt (s : RuntimeStore) (i : Nat) : GuestContractHandle := ⟨i, s.data.generationAt i⟩

/-- The handles of the slots listed under a contract, in index order, whose
published interface has the major version asked for. -/
def providers (s : RuntimeStore) (cid : GuestContractId) (minVersion : Nat) :
    List GuestContractHandle :=
  ((s.data.indexOf cid).filter (s.provides minVersion)).map s.handleAt

end RuntimeStore

/-! ### The lock-free loops -/

/-- What a scan of the view selects: slot, generation and interface of the live
slots with the major version asked for. -/
def selected (view : ReadView) (minVersion : Nat) : List Nat → List (Nat × Nat × SlotIfaceView)
  | []              => []
  | slotIdx :: rest =>
    match view.slots[slotIdx]? with
    | none       => selected view minVersion rest
    | some entry =>
      match entry.iface with
      | none       => selected view minVersion rest
      | some iface =>
        if iface.contractVersionMajor ≥ minVersion then
          (slotIdx, entry.generation, iface) :: selected view minVersion rest
        else selected view minVersion rest

/-- The scan of a callback over what it selects. -/
def foldBreak {β : Type} (f : β → Nat → Nat → SlotIfaceView → β × Bool) :
    List (Nat × Nat × SlotIfaceView) → β → β
  | [], acc        => acc
  | p :: rest, acc =>
    if (f acc p.1 p.2.1 p.2.2).2 then (f acc p.1 p.2.1 p.2.2).1
    else foldBreak f rest (f acc p.1 p.2.1 p.2.2).1

section
variable {view : ReadView} {minVersion : Nat}

theorem forEachIn_eq {β : Type} (f : β → Nat → Nat → SlotIfaceView → β × Bool)
    (indices : List Nat) (acc : β) :
    forEachIn view minVersion f indices acc
      = foldBreak f (selected view minVersion indices) acc := by
  induction indices generalizing acc with
  | nil => rfl
  | cons slotIdx rest ih =>
    unfold forEachIn selected
    cases view.slots[slotIdx]? with
    | none => exact ih acc
    | some entry =>
      obtain ⟨generation, iface⟩ := entry
      cases iface with
      | none => exact ih acc
      | some iface =>
        dsimp only
        split
        · simp only [foldBreak]
          split
          · rfl
          · exact ih _
        · exact ih acc

theorem findIn_eq (indices : List Nat) :
    findIn view minVersion indices
      = (selected view minVersion indices).head?.map fun p => ⟨p.1, p.2.1⟩ := by
  induction indices with
  | nil => rfl
  | cons slotIdx rest ih =>
    unfold findIn selected
    cases view.slots[slotIdx]? with
    | none => exact ih
    | some entry =>
      obtain ⟨generation, iface⟩ := entry
      cases iface with
      | none => exact ih
      | some iface =>
        dsimp only
        split
        · rfl
        · exact ih

/-- Pushing collects the handles of the selection. -/
theorem foldBreak_push (sel : List (Nat × Nat × SlotIfaceView))
    (acc : List GuestContractHandle) :
    foldBreak (fun collected slotIdx generation _ =>
        (collected ++ [⟨slotIdx, generation⟩], false)) sel acc
      = acc ++ sel.map fun p => ⟨p.1, p.2.1⟩ := by
  induction sel generalizing acc with
  | nil => simp [foldBreak]
  | cons p rest ih => simp [foldBreak, ih]

/-- Counting counts the selection. -/
theorem foldBreak_count (sel : List (Nat × Nat × SlotIfaceView)) (acc : Nat) :
    foldBreak (fun count _ _ _ => (count + 1, false)) sel acc = acc + sel.length := by
  induction sel generalizing acc with
  | nil => simp [foldBreak]
  | cons p rest ih =>
    simp only [foldBreak, Bool.false_eq_true, if_false, ih, List.length_cons]
    omega

/-- Writing after the filled part `done` of the buffer fills the free part with
the selection and stops at its end. -/
theorem foldBreak_writeNext {α : Type} (value : Nat → Nat → α)
    (sel : List (Nat × Nat × SlotIfaceView)) (done free : List α) (hfree : free ≠ []) :
    foldBreak (writeNext value) sel (done ++ free, done.length)
      = (done ++ (sel.map fun p => value p.1 p.2.1).take free.length ++ free.drop sel.length,
          done.length + min free.length sel.length) := by
  induction sel generalizing done free with
  | nil => simp [foldBreak]
  | cons p rest ih =>
    obtain ⟨cell, free, rfl⟩ := List.exists_cons_of_ne_nil hfree
    have hset : (done ++ cell :: free).set done.length (value p.1 p.2.1)
        = (done ++ [value p.1 p.2.1]) ++ free := by simp
    simp only [foldBreak, writeNext, hset, decide_eq_true_eq]
    by_cases hend : free = []
    · subst hend
      simp
    · have hgo : ¬ done.length + 1 ≥ (done ++ [value p.1 p.2.1] ++ free).length := by
        have := List.length_pos_of_ne_nil hend
        simp
        omega
      have hpos : done.length + 1 = (done ++ [value p.1 p.2.1]).length := by simp
      rw [if_neg hgo, hpos, ih _ _ hend]
      simp
      omega

end

/-! ### Slots in the view -/

/-- An indexed slot is live, with the contract of its key. -/
theorem RuntimeStoreData.Indexed.content_of_listed {data : RuntimeStoreData} (hi : data.Indexed)
    {cid : GuestContractId} {i : Nat} (hmem : i ∈ data.indexOf cid) :
    ∃ r, data.catalog.content i = some r ∧ r.key = cid := by
  simpa [keyAt] using hi.listed_key cid i hmem

section
variable {s : RuntimeStore} (hm : s.Mirrors)
include hm

/-- The published slot of a live slot. -/
theorem RuntimeStore.Mirrors.published_slot {i : Nat} {r : Registration}
    (hr : s.data.catalog.content i = some r) :
    s.published.slots[i]?
      = some ⟨s.data.generationAt i, some ⟨r.arc, r.arc.val.contractVersion.major⟩⟩ := by
  obtain ⟨slot, hslot, hentry, harc⟩ := content_eq_some.mp hr
  rw [hm]
  simp [ReadView.rebuild, hslot, PluginSlot.view, hentry, harc, generationAt]

theorem RuntimeStore.Mirrors.publishedInterface_eq {i : Nat} {r : Registration}
    (hr : s.data.catalog.content i = some r) :
    s.publishedInterface i = some r.arc := by
  simp [publishedInterface, hm.published_slot hr]

theorem RuntimeStore.Mirrors.provides_iff {i : Nat} {r : Registration} (v : Nat)
    (hr : s.data.catalog.content i = some r) :
    s.provides v i = decide (r.arc.val.contractVersion.major ≥ v) := by
  simp [provides, hm.publishedInterface_eq hr]

/-- A handle of `providers` resolves to its slot's interface. -/
theorem RuntimeStore.Mirrors.resolve_handleAt {i : Nat} {r : Registration}
    (hr : s.data.catalog.content i = some r) :
    s.resolveGuestContract (s.handleAt i) = .ok r.arc := by
  simp [resolveGuestContract, handleAt, hm.published_slot hr]

/-- The selection of the loops is `providers`. -/
theorem RuntimeStore.Mirrors.selected_eq (v : Nat) {indices : List Nat}
    (hlive : ∀ i ∈ indices, s.data.catalog.content i ≠ none) :
    (selected s.published v indices).map (fun p => (⟨p.1, p.2.1⟩ : GuestContractHandle))
      = (indices.filter (s.provides v)).map s.handleAt := by
  induction indices with
  | nil => rfl
  | cons i rest ih =>
    have hrest := ih fun j hj => hlive j (List.mem_cons_of_mem _ hj)
    obtain ⟨r, hr⟩ := Option.ne_none_iff_exists'.mp (hlive i List.mem_cons_self)
    unfold selected
    rw [hm.published_slot hr, List.filter_cons, hm.provides_iff v hr]
    by_cases hv : r.arc.val.contractVersion.major ≥ v
    · simp [hv, hrest, handleAt]
    · simp [hv, hrest]

theorem RuntimeStore.Mirrors.selected_index (hi : s.data.Indexed)
    (cid : GuestContractId) (v : Nat) :
    (selected s.published v (s.data.indexOf cid)).map
        (fun p => (⟨p.1, p.2.1⟩ : GuestContractHandle))
      = s.providers cid v := by
  refine hm.selected_eq v fun i hmem => ?_
  obtain ⟨r, hr, -⟩ := hi.content_of_listed hmem
  simp [hr]

/-- A lock-free scan runs over the selection, also for a contract without a key. -/
theorem RuntimeStore.Mirrors.forEachLiveProvider_eq {β : Type} (cid : GuestContractId) (v : Nat)
    (f : β → Nat → Nat → SlotIfaceView → β × Bool) (acc : β) :
    s.forEachLiveProvider cid v f acc
      = foldBreak f (selected s.published v (s.data.indexOf cid)) acc := by
  unfold forEachLiveProvider indexOf
  rw [hm]
  have hindex : (ReadView.rebuild s.data).contractIndex = s.data.guestContractIndex := rfl
  rw [hindex]
  cases s.data.guestContractIndex.lookup cid with
  | none => rfl
  | some indices => exact forEachIn_eq f indices acc

/-! ### The lock-free paths -/

theorem RuntimeStore.Mirrors.collect_eq (hi : s.data.Indexed) (cid : GuestContractId) (v : Nat) :
    s.collectGuestContracts cid v = s.providers cid v := by
  unfold collectGuestContracts
  rw [hm.forEachLiveProvider_eq, foldBreak_push, hm.selected_index hi, List.nil_append]

theorem RuntimeStore.Mirrors.count_eq (hi : s.data.Indexed) (cid : GuestContractId) (v : Nat) :
    s.countGuestContracts cid v = (s.providers cid v).length := by
  unfold countGuestContracts
  rw [hm.forEachLiveProvider_eq, foldBreak_count, ← hm.selected_index hi, List.length_map,
    Nat.zero_add]

theorem RuntimeStore.Mirrors.find_eq (hi : s.data.Indexed) (cid : GuestContractId) (v : Nat) :
    s.findGuestContract cid v = match s.providers cid v with
      | handle :: _ => .ok handle
      | []          => .error (.pluginNotFound cid.id v) := by
  have hfind : findIn s.published v (s.data.indexOf cid)
      = (s.providers cid v).head? := by
    rw [findIn_eq, ← List.head?_map, hm.selected_index hi]
  unfold findGuestContract
  rw [show s.published.contractIndex = s.data.guestContractIndex from by
    rw [hm]; rfl]
  cases hindex : s.data.guestContractIndex.lookup cid with
  | none =>
    have hnil : s.providers cid v = [] := by simp [providers, indexOf, hindex]
    rw [hnil]
  | some indices =>
    have hidx : s.data.indexOf cid = indices := by simp [indexOf, hindex]
    rw [hidx] at hfind
    dsimp only
    rw [hfind]
    cases s.providers cid v <;> rfl

/-- A writing scan fills the buffer with the image of `providers`. -/
theorem RuntimeStore.Mirrors.write_eq (hi : s.data.Indexed) {α : Type} (value : Nat → Nat → α)
    (cid : GuestContractId)
    (v : Nat) (out : List α) :
    (if out.isEmpty then (out, 0)
      else s.forEachLiveProvider cid v (writeNext value) (out, 0))
      = (((s.providers cid v).map fun handle => value handle.index handle.generation).take
            out.length ++ out.drop (s.providers cid v).length,
          min out.length (s.providers cid v).length) := by
  by_cases hout : out = []
  · simp [hout]
  · rw [if_neg (by simpa using hout), hm.forEachLiveProvider_eq]
    have hwrite := foldBreak_writeNext value
      (selected s.published v (s.data.indexOf cid)) [] out hout
    simp only [List.nil_append, List.length_nil, Nat.zero_add] at hwrite
    rw [hwrite, ← hm.selected_index hi, List.map_map, List.length_map]
    rfl

theorem RuntimeStore.Mirrors.findAll_eq (hi : s.data.Indexed) (cid : GuestContractId) (v : Nat)
    (out : List GuestContractHandle) :
    s.findAllGuestContracts cid v out
      = ((s.providers cid v).take out.length ++ out.drop (s.providers cid v).length,
          min out.length (s.providers cid v).length) := by
  unfold findAllGuestContracts
  rw [hm.write_eq hi]
  simp

theorem RuntimeStore.Mirrors.findAllPacked_eq (hi : s.data.Indexed)
    (hlen : s.data.slots.length < 2 ^ 32 - 1)
    (cid : GuestContractId) (v : Nat) (out : List Nat) :
    s.findAllGuestContractsPacked cid v out
      = (((s.providers cid v).map GuestContractHandle.pack).take out.length
            ++ out.drop (s.providers cid v).length,
          min out.length (s.providers cid v).length) := by
  unfold findAllGuestContractsPacked
  rw [hm.write_eq hi]
  -- No listed index is the null index, so `pack` takes its ordinary branch.
  have hpack : ((s.providers cid v).map fun handle =>
        handle.generation <<< 32 ||| handle.index)
      = (s.providers cid v).map GuestContractHandle.pack := by
    apply List.map_congr_left
    intro handle hmem
    obtain ⟨i, hin, rfl⟩ := List.mem_map.mp hmem
    obtain ⟨r, hr, -⟩ := hi.content_of_listed (List.mem_filter.mp hin).1
    have hlt := lt_length_of_content (show s.data.catalog.content i ≠ none by simp [hr])
    have hnull : (s.handleAt i).isNull = false := by
      simp only [GuestContractHandle.isNull, handleAt, u32Max, beq_eq_false_iff_ne]
      omega
    simp [GuestContractHandle.pack, hnull]
  rw [hpack]

/-- A listed slot is found, at its current generation. -/
theorem RuntimeStore.Mirrors.mem_collect (hi : s.data.Indexed) {i : Nat} {r : Registration}
    (hr : s.data.catalog.content i = some r) (hmem : i ∈ s.data.indexOf r.key) :
    s.handleAt i ∈ s.collectGuestContracts r.key 0 := by
  rw [hm.collect_eq hi]
  refine List.mem_map.mpr ⟨i, List.mem_filter.mpr ⟨hmem, ?_⟩, rfl⟩
  simp [hm.provides_iff 0 hr]

end

end PolyPlug.Registry
