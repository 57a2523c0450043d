import PolyPlug.Lib.Run
import PolyPlug.Proofs.Registry.WellFormed

/-!
# `PolyPlug.Proofs.Registry.Additions`: what a run of registrations adds

`registrations` are the registrations a call inserts, each with the handle it returned, and
`registrationsIn` those of a run. `Adds` says what a run of registration calls does to the
locked data, whatever the calls return: every registration stands in a slot that was
vacant, the slot lists grow at the end by the slots of their bundle and contract, a pending
registration is not listed, and nothing else moves.
-/

set_option autoImplicit false

namespace PolyPlug.Registry

open PolyPlug.Abi
open PolyPlug.Lib
open PolyPlug.Lib.Catalog
open RuntimeStoreData RuntimeStore

/-! ### The registrations of a run -/

/-- The registrations a call inserts, with their handles. -/
def RuntimeStore.registrations (s : RuntimeStore) :
    StoreOp → List (GuestContractHandle × Registration)
  | .registerGuestContract descriptor interface ptr contractName b =>
    match (s.registerGuestContract descriptor interface ptr contractName b).1,
        prepareGuestContract descriptor interface contractName interface.adapterContext ptr with
    | .ok handle, .ok contract => [(handle, contract.registration b)]
    | _, _                     => []
  | .registerPreparedBundle descriptor dependencies contracts =>
    match (s.registerPreparedBundle descriptor dependencies contracts).1 with
    | .ok handles => handles.zip (contracts.map fun c => c.registration descriptor.id)
    | .error _    => []
  | _ => []

/-- The registrations of a run, in order. -/
def registrationsIn : RuntimeStore → List StoreOp → List (GuestContractHandle × Registration)
  | _, []        => []
  | s, op :: ops => s.registrations op ++ registrationsIn (s.exec op) ops

/-- The call is one of the two that register. -/
def StoreOp.IsRegistration : StoreOp → Prop
  | .registerGuestContract .. => True
  | .registerPreparedBundle .. => True
  | _ => False

instance : (op : StoreOp) → Decidable op.IsRegistration
  | .registerGuestContract .. | .registerPreparedBundle .. => inferInstanceAs (Decidable True)
  | .declareBundleDependencies .. | .registerBundleMetadata .. | .beginReload _
  | .abortReload .. | .applyReloadSwap .. | .invalidateBundle _ =>
    inferInstanceAs (Decidable False)

/-! ### What registrations add -/

/-- The registrations `regs` are added. -/
structure Adds (data : RuntimeStoreData) (regs : List (GuestContractHandle × Registration))
    (data' : RuntimeStoreData) : Prop where
  kept : ∀ i r, data.catalog.content i = some r → data'.catalog.content i = some r
  placed : ∀ p ∈ regs, data.catalog.content p.1.index = none ∧
    data'.catalog.content p.1.index = some p.2 ∧ p.1.generation = data.generationAt p.1.index
  added : ∀ i r, data'.catalog.content i = some r →
    data.catalog.content i = some r ∨ ∃ p ∈ regs, p.1.index = i ∧ p.2 = r
  held : ∀ x, data'.pluginSlots x
    = data.pluginSlots x ++ (regs.filter fun p => p.2.owner = x).map fun p => p.1.index
  /-- A registration by a bundle in its window is pending. -/
  listed : ∀ k, data'.indexOf k
    = data.indexOf k ++ (regs.filter fun p => p.2.key = k ∧
        p.2.owner ∉ data.reloadingBundles).map fun p => p.1.index
  generations : ∀ i, data'.generationAt i = data.generationAt i
  reloading : data'.reloadingBundles = data.reloadingBundles
  present : data.Present → data'.Present
  noEmptyKey : data.NoEmptyKey → data'.NoEmptyKey
  consistent : data.Consistent → data'.Consistent

section
variable {data mid data' : RuntimeStoreData}
  {regs regs' : List (GuestContractHandle × Registration)}

/-- Nothing is registered, and the slots stay. -/
theorem SameSlots.adds (h : SameSlots data data')
    (hreload : data'.reloadingBundles = data.reloadingBundles) : Adds data [] data' where
  kept i r hr := by rwa [h.catalog_eq]
  placed := nofun
  added i r hr := by
    rw [h.catalog_eq] at hr
    exact .inl hr
  held x := by simpa using h.pluginSlots x
  listed k := by simp [indexOf, h.index]
  generations := h.generationAt_eq
  reloading := hreload
  present := h.present.mpr
  noEmptyKey := h.noEmptyKey.mpr
  consistent := h.consistent.mpr

theorem Adds.refl (data : RuntimeStoreData) : Adds data [] data :=
  SameSlots.adds ⟨rfl, rfl, fun _ => rfl⟩ rfl

theorem Adds.trans (h : Adds data regs mid) (h' : Adds mid regs' data') :
    Adds data (regs ++ regs') data' where
  kept i r hr := h'.kept i r (h.kept i r hr)
  placed p hp := by
    rcases List.mem_append.mp hp with hfirst | hsecond
    · obtain ⟨hvacant, hfilled, hgen⟩ := h.placed p hfirst
      exact ⟨hvacant, h'.kept _ _ hfilled, hgen⟩
    · obtain ⟨hvacant, hfilled, hgen⟩ := h'.placed p hsecond
      refine ⟨?_, hfilled, hgen.trans (h.generations _)⟩
      -- The first part vacates nothing.
      cases hcontent : data.catalog.content p.1.index with
      | none => rfl
      | some r =>
        rw [h.kept _ _ hcontent] at hvacant
        cases hvacant
  added i r hr := by
    rcases h'.added i r hr with hmid | ⟨p, hp, hi, hpr⟩
    · rcases h.added i r hmid with hold | ⟨p, hp, hi, hpr⟩
      · exact .inl hold
      · exact .inr ⟨p, List.mem_append_left _ hp, hi, hpr⟩
    · exact .inr ⟨p, List.mem_append_right _ hp, hi, hpr⟩
  held x := by
    rw [h'.held, h.held, List.filter_append, List.map_append, List.append_assoc]
  listed k := by
    rw [h'.listed, h.listed, List.filter_append, List.map_append, List.append_assoc, h.reloading]
  generations i := (h'.generations i).trans (h.generations i)
  reloading := h'.reloading.trans h.reloading
  present hp := h'.present (h.present hp)
  noEmptyKey hk := h'.noEmptyKey (h.noEmptyKey hk)
  consistent hc := h'.consistent (h.consistent hc)

/-- One insertion. -/
theorem Inserts.adds {r : Registration} {handle : GuestContractHandle} {publishContract : Bool}
    (h : Inserts data r publishContract handle data')
    (hpublish : publishContract = !decide (r.owner ∈ data.reloadingBundles)) :
    Adds data [(handle, r)] data' where
  kept i r' hr' := by
    have hne : i ≠ handle.index := by
      rintro rfl
      rw [h.vacant] at hr'
      cases hr'
    rw [h.catalog_eq]
    simpa [add, hne] using hr'
  placed p hp := by
    obtain rfl := List.mem_singleton.mp hp
    refine ⟨h.vacant, ?_, h.generation⟩
    rw [h.catalog_eq]
    simp [add]
  added i r' hr' := by
    rw [h.catalog_eq] at hr'
    by_cases hi : i = handle.index
    · subst hi
      have hself : r = r' := by simpa [add] using hr'
      exact .inr ⟨_, List.mem_singleton_self _, rfl, hself⟩
    · exact .inl (by simpa [add, hi] using hr')
  held x := by
    show data'.catalog.held x = data.catalog.held x ++ _
    rw [h.catalog_eq]
    by_cases hx : x = r.owner
    · simp [add, hx]
    · simp [add, hx, Ne.symm hx]
  listed k := by
    show data'.catalog.listed k = data.catalog.listed k ++ _
    rw [h.catalog_eq, hpublish]
    by_cases hreload : r.owner ∈ data.reloadingBundles
    · simp [add, hreload]
    · by_cases hk : k = r.key
      · simp [add, hreload, hk]
      · simp [add, hk, Ne.symm hk]
  generations := h.generations
  reloading := h.reloading
  present := h.present
  noEmptyKey := h.noEmptyKey
  consistent hc := by
    rw [RuntimeStoreData.Consistent, h.catalog_eq]
    exact consistent_add hc h.vacant r _

/-- The insertions of a bundle. -/
theorem InsertsAll.adds {b : BundleId} {publishContract : Bool} {rs : List Registration}
    {hs : List GuestContractHandle} (h : InsertsAll publishContract data rs hs data')
    (howner : ∀ r ∈ rs, r.owner = b)
    (hpublish : publishContract = !decide (b ∈ data.reloadingBundles)) :
    Adds data (hs.zip rs) data' := by
  induction h with
  | @nil d => exact Adds.refl d
  | @cons d mid d' r handle rs hs hhead _ ih =>
    have hone := hhead.adds (by rw [howner r List.mem_cons_self, hpublish])
    have hrest := ih (fun r hr => howner r (List.mem_cons_of_mem _ hr))
      (by rw [hhead.reloading, hpublish])
    exact hone.trans hrest

/-- A registration call that changed the store. -/
theorem Registers.adds {b : BundleId} {rs : List Registration} {hs : List GuestContractHandle}
    (h : Registers data b rs hs data') : Adds data (hs.zip rs) data' := by
  obtain ⟨data₀, hsame, hreload, howner, hins⟩ := h
  exact (hsame.adds hreload).trans (hins.adds howner (by rw [hreload]))

end

/-! ### Runs -/

/-- The slot array does not shrink under a registration call. -/
theorem length_le_exec (s : RuntimeStore) {op : StoreOp} (hop : op.IsRegistration) :
    s.data.slots.length ≤ (s.exec op).data.slots.length := by
  cases op with
  | registerGuestContract descriptor interface ptr contractName b =>
    rw [RuntimeStore.exec]
    rcases registerGuestContract_cases s descriptor interface ptr contractName b with
      ⟨e, heq⟩ | ⟨contract, h, data', -, -, hins, heq⟩
    · rw [heq]
    · rw [heq]
      have hle := insertPreparedGuestContract_length_le hins
      rwa [(sameSlots_ensureDefaultBundleData s.data b).slots] at hle
  | registerPreparedBundle descriptor dependencies contracts =>
    rw [RuntimeStore.exec]
    rcases registerPreparedBundle_cases s descriptor dependencies contracts with
      ⟨e, heq⟩ | ⟨hs, data', -, -, -, hins, heq⟩
    · rw [heq]
    · rw [heq]
      have hle := insertAll_length_le hins
      exact hle
  | _ => cases hop

/-- One registration call. -/
theorem adds_exec (s : RuntimeStore) {op : StoreOp} (hop : op.IsRegistration)
    (hlen : (s.exec op).data.slots.length ≤ 2 ^ 32) :
    Adds s.data (s.registrations op) (s.exec op).data := by
  cases op with
  | registerGuestContract descriptor interface ptr contractName b =>
    rw [RuntimeStore.exec] at hlen ⊢
    rw [RuntimeStore.registrations]
    rcases registerGuestContract_cases s descriptor interface ptr contractName b with
      ⟨e, heq⟩ | ⟨contract, h, data', hprepare, -, hins, heq⟩
    · simp only [heq]
      exact Adds.refl _
    · simp only [heq, hprepare] at hlen ⊢
      exact (registers_of_registerGuestContract hins hlen).adds
  | registerPreparedBundle descriptor dependencies contracts =>
    rw [RuntimeStore.exec] at hlen ⊢
    rw [RuntimeStore.registrations]
    rcases registerPreparedBundle_cases s descriptor dependencies contracts with
      ⟨e, heq⟩ | ⟨hs, data', -, -, hnew, hins, heq⟩
    · simp only [heq]
      exact Adds.refl _
    · simp only [heq] at hlen ⊢
      exact (registers_of_registerPreparedBundle hnew hins hlen).adds
  | _ => cases hop

theorem length_le_run {s : RuntimeStore} {ops : List StoreOp}
    (hops : ∀ op ∈ ops, op.IsRegistration) :
    s.data.slots.length ≤ (run RuntimeStore.exec s ops).data.slots.length := by
  induction ops generalizing s with
  | nil => exact Nat.le_refl _
  | cons op rest ih =>
    obtain ⟨hop, hrest⟩ := List.forall_mem_cons.mp hops
    exact (length_le_exec s hop).trans (ih hrest)

/-- A run of registration calls adds its registrations. -/
theorem adds_run {s : RuntimeStore} {ops : List StoreOp} (hops : ∀ op ∈ ops, op.IsRegistration)
    (hlen : (run RuntimeStore.exec s ops).data.slots.length ≤ 2 ^ 32) :
    Adds s.data (registrationsIn s ops) (run RuntimeStore.exec s ops).data := by
  induction ops generalizing s with
  | nil => exact Adds.refl _
  | cons op rest ih =>
    obtain ⟨hop, hrest⟩ := List.forall_mem_cons.mp hops
    have hone := adds_exec s hop ((length_le_run hrest).trans hlen)
    exact hone.trans (ih hrest hlen)

end PolyPlug.Registry
