import PolyPlug.Proofs.Registry.Answers
import PolyPlug.Proofs.Registry.SwapSpec

/-!
# `PolyPlug.Proofs.Registry.Invisible`: a reload that fails

A bundle opens its window, registers, and `abort_reload` closes the window. `Invisible` says that no
query of the window or after it tells the difference, and that a later load of the bundle
ends as it would have. `failed_reload_invisible_iff` says when.

Two things show. A bundle without a record gets one with its first registration
(`ensure_default_bundle_data`), and `abort_reload` leaves it: the bundle is listed and can no
longer be loaded. And a registration can return a handle that exists, when an earlier
window emptied its slot without a bump.
-/

set_option autoImplicit false

namespace PolyPlug.Registry

open PolyPlug.Abi
open PolyPlug.Lib
open PolyPlug.Lib.Catalog
open RuntimeStoreData RuntimeStore

/-! ### The property -/

/-- A registration of the bundle. -/
def StoreOp.RegistersFor (b : BundleId) (op : StoreOp) : Prop :=
  ∃ descriptor interface ptr contractName,
    op = .registerGuestContract descriptor interface ptr contractName b

/-- How a load of a bundle ends. -/
def RuntimeStore.loadOutcome (s : RuntimeStore) (descriptor : BundleDescriptor)
    (dependencies : Finset GuestContractId) (contracts : List PreparedGuestContract) :
    Except RegistryError Unit :=
  (s.registerPreparedBundle descriptor dependencies contracts).1.map fun _ => ()

/-- The store after a reload that failed. -/
def failedReload (s : RuntimeStore) (b : BundleId) (ops : List StoreOp) : RuntimeStore :=
  (run RuntimeStore.exec (s.beginReload b) ops).abortReload b (s.data.pluginSlots b)

/-- The failed reload is not seen: in the window, after it, and by a later load. -/
structure Invisible (held : GuestContractHandle → Prop) (s : RuntimeStore) (b : BundleId)
    (ops : List StoreOp) : Prop where
  window : ∀ k, SameAnswers held s (run RuntimeStore.exec (s.beginReload b) (ops.take k))
  aborted : SameAnswers held s (failedReload s b ops)
  load : ∀ descriptor dependencies contracts, descriptor.id = b →
    (failedReload s b ops).loadOutcome descriptor dependencies contracts
      = s.loadOutcome descriptor dependencies contracts

/-! ### Loads -/

section
variable {data data' : RuntimeStoreData}

theorem validateAgainstIndexed_congr {contract : PreparedGuestContract} {b : BundleId}
    {isReloading : Bool} (indices : List Nat)
    (h : ∀ i ∈ indices, data'.entryAt i = data.entryAt i) :
    validateAgainstIndexed data' contract b isReloading indices
      = validateAgainstIndexed data contract b isReloading indices := by
  induction indices with
  | nil => rfl
  | cons i rest ih =>
    obtain ⟨hi, hrest⟩ := List.forall_mem_cons.mp h
    rw [validateAgainstIndexed, validateAgainstIndexed, hi, ih hrest]

theorem validateGuestContractRegistration_eq (data : RuntimeStoreData)
    (contract : PreparedGuestContract) (b : BundleId) (isReloading : Bool) :
    validateGuestContractRegistration data contract b isReloading
      = validateAgainstIndexed data contract b isReloading (data.indexOf contract.contractId) := by
  rw [validateGuestContractRegistration, indexOf]
  cases data.guestContractIndex.lookup contract.contractId <;> rfl

/-- The validation reads the entries of the listed slots. -/
theorem validateAll_congr {b : BundleId} {isReloading : Bool}
    (hlisted : ∀ cid, data'.indexOf cid = data.indexOf cid)
    (hentry : ∀ cid, ∀ i ∈ data.indexOf cid, data'.entryAt i = data.entryAt i)
    (contracts : List PreparedGuestContract) :
    validateAll data' b isReloading contracts = validateAll data b isReloading contracts := by
  induction contracts with
  | nil => rfl
  | cons contract rest ih =>
    rw [validateAll, validateAll, validateGuestContractRegistration_eq,
      validateGuestContractRegistration_eq, hlisted,
      validateAgainstIndexed_congr _ (hentry contract.contractId), ih]

end

/-- A load that passes its checks ends well. -/
theorem loadOutcome_eq (s : RuntimeStore) (descriptor : BundleDescriptor)
    (dependencies : Finset GuestContractId) (contracts : List PreparedGuestContract) :
    s.loadOutcome descriptor dependencies contracts
      = match validatePreparedBundleContracts contracts with
        | .error e => .error e
        | .ok ()   =>
          match validateAll s.data descriptor.id
              (decide (descriptor.id ∈ s.data.reloadingBundles)) contracts with
          | .error e => .error e
          | .ok ()   =>
            if (s.data.bundleData.lookup descriptor.id).isSome then
              .error (.bundleAlreadyRegistered descriptor.name)
            else .ok () := by
  unfold RuntimeStore.loadOutcome registerPreparedBundle
  cases validatePreparedBundleContracts contracts with
  | error e => rfl
  | ok u =>
    dsimp only
    cases validateAll s.data descriptor.id (decide (descriptor.id ∈ s.data.reloadingBundles))
        contracts with
    | error e => rfl
    | ok u =>
      dsimp only
      split
      · rfl
      · obtain ⟨hs, data', hins⟩ := insertAll_ok
          (!decide (descriptor.id ∈ s.data.reloadingBundles)) contracts
          (insertBundle s.data descriptor dependencies)
          (show ((insertBundle s.data descriptor dependencies).bundleData.lookup
            descriptor.id).isSome by simp [insertBundle])
        rw [hins]
        rfl

/-- A load of the bundle ends alike where its reloads are not seen and its window is closed. -/
theorem Hides.loadOutcome_eq {s t : RuntimeStore} {b : BundleId} (h : Hides s.data b t.data)
    (hp : s.data.Present) (hi : s.data.Indexed) (hs : b ∉ s.data.reloadingBundles)
    (ht : b ∉ t.data.reloadingBundles) {descriptor : BundleDescriptor} (hb : descriptor.id = b)
    (dependencies : Finset GuestContractId) (contracts : List PreparedGuestContract) :
    t.loadOutcome descriptor dependencies contracts
      = s.loadOutcome descriptor dependencies contracts := by
  have hentry : ∀ cid, ∀ i ∈ s.data.indexOf cid, t.data.entryAt i = s.data.entryAt i := by
    intro cid i hmem
    obtain ⟨r, hr, -⟩ := hi.content_of_listed hmem
    rw [entryAt_eq h.present, entryAt_eq hp, hr, h.kept i r hr]
  have hreload : decide (descriptor.id ∈ t.data.reloadingBundles)
      = decide (descriptor.id ∈ s.data.reloadingBundles) := by
    rw [hb, decide_eq_false ht, decide_eq_false hs]
  rw [Registry.loadOutcome_eq, Registry.loadOutcome_eq, validateAll_congr h.listed hentry, hreload,
    h.bundles.isSome]

/-! ### Registrations of the window -/

section
variable {s : RuntimeStore} {b : BundleId} {op : StoreOp} {ops : List StoreOp}

theorem StoreOp.RegistersFor.isRegistration (h : op.RegistersFor b) : op.IsRegistration := by
  obtain ⟨_, _, _, _, rfl⟩ := h
  trivial

/-- A registration that fails changes nothing; one that succeeds is of the bundle. -/
theorem registers_cases (s : RuntimeStore) (h : op.RegistersFor b) :
    (s.registrations op = [] ∧ s.exec op = s) ∨
    ∃ handle r data', s.registrations op = [(handle, r)] ∧ r.owner = b ∧
      s.exec op = s.publish data' ∧
      ((s.data.bundleData.lookup b).isSome → SameBundles s.data data') := by
  obtain ⟨descriptor, interface, ptr, contractName, rfl⟩ := h
  rw [RuntimeStore.registrations, RuntimeStore.exec]
  rcases registerGuestContract_cases s descriptor interface ptr contractName b with
    ⟨e, heq⟩ | ⟨contract, handle, data', hprepare, -, hins, heq⟩
  · rw [heq]
    exact .inl ⟨rfl, rfl⟩
  · rw [heq, hprepare]
    refine .inr ⟨handle, _, data', rfl, rfl, rfl, fun hrecord => ?_⟩
    obtain ⟨bd, hbd⟩ := Option.isSome_iff_exists.mp hrecord
    have hsame := sameBundles_insertPreparedGuestContract hins
    rwa [ensureDefaultBundleData, hbd] at hsame

theorem registrationsIn_append (s : RuntimeStore) (before after : List StoreOp) :
    registrationsIn s (before ++ after)
      = registrationsIn s before ++ registrationsIn (run RuntimeStore.exec s before) after := by
  induction before generalizing s with
  | nil => rfl
  | cons op rest ih => rw [List.cons_append, registrationsIn, registrationsIn, ih,
      List.append_assoc, run_cons]

/-- The registrations of a shorter window are among those of the window. -/
theorem registrationsIn_take (s : RuntimeStore) (ops : List StoreOp) (k : Nat) :
    ∀ p ∈ registrationsIn s (ops.take k), p ∈ registrationsIn s ops := by
  intro p hp
  rw [← List.take_append_drop k ops, registrationsIn_append]
  exact List.mem_append_left _ hp

theorem owner_of_registrationsIn (s : RuntimeStore) (hops : ∀ op ∈ ops, op.RegistersFor b) :
    ∀ p ∈ registrationsIn s ops, p.2.owner = b := by
  induction ops generalizing s with
  | nil => nofun
  | cons op rest ih =>
    obtain ⟨hop, hrest⟩ := List.forall_mem_cons.mp hops
    intro p hp
    rcases List.mem_append.mp hp with hhead | htail
    · rcases registers_cases s hop with ⟨hnil, -⟩ | ⟨handle, r, data', hone, howner, -⟩
      · rw [hnil] at hhead
        cases hhead
      · rw [hone] at hhead
        obtain rfl := List.mem_singleton.mp hhead
        exact howner
    · exact ih _ hrest p htail

/-- A window without a registration leaves the store. -/
theorem run_of_registrationsIn_nil (s : RuntimeStore) (hops : ∀ op ∈ ops, op.RegistersFor b)
    (hnil : registrationsIn s ops = []) : run RuntimeStore.exec s ops = s := by
  induction ops generalizing s with
  | nil => rfl
  | cons op rest ih =>
    obtain ⟨hop, hrest⟩ := List.forall_mem_cons.mp hops
    obtain ⟨hhead, htail⟩ := List.append_eq_nil_iff.mp hnil
    rcases registers_cases s hop with ⟨-, hsame⟩ | ⟨handle, r, data', hone, -⟩
    · rw [run_cons, hsame]
      rw [hsame] at htail
      exact ih s hrest htail
    · rw [hone] at hhead
      cases hhead

/-- The registrations of a bundle with a record leave the metadata of all bundles. -/
theorem sameBundles_run (s : RuntimeStore) (hops : ∀ op ∈ ops, op.RegistersFor b)
    (hrecord : (s.data.bundleData.lookup b).isSome) :
    SameBundles s.data (run RuntimeStore.exec s ops).data := by
  induction ops generalizing s with
  | nil => exact .refl _
  | cons op rest ih =>
    obtain ⟨hop, hrest⟩ := List.forall_mem_cons.mp hops
    rw [run_cons]
    rcases registers_cases s hop with ⟨-, hsame⟩ | ⟨handle, r, data', -, -, heq, hbundles⟩
    · rw [hsame]
      exact ih s hrest hrecord
    · rw [heq]
      have hone := hbundles hrecord
      exact hone.trans (ih (s.publish data') hrest ((hone.isSome b).trans hrecord))

theorem mirrors_registers (hm : s.Mirrors) (hops : ∀ op ∈ ops, op.RegistersFor b) :
    (run RuntimeStore.exec s ops).Mirrors := by
  induction ops generalizing s with
  | nil => exact hm
  | cons op rest ih =>
    obtain ⟨hop, hrest⟩ := List.forall_mem_cons.mp hops
    rw [run_cons]
    rcases registers_cases s hop with ⟨-, hsame⟩ | ⟨handle, r, data', -, -, heq, -⟩
    · rw [hsame]
      exact ih hm hrest
    · rw [heq]
      exact ih rfl hrest

end

/-! ### The window and its end -/

section
variable {s t : RuntimeStore} {b : BundleId} {regs : List (GuestContractHandle × Registration)}

/-- What a window adds is pending. -/
theorem Adds.hides (hadds : Adds (s.beginReload b).data regs t.data) (hc : s.data.Consistent)
    (hp : s.data.Present) (howner : ∀ p ∈ regs, p.2.owner = b)
    (hle : s.data.slots.length ≤ t.data.slots.length) (hbundles : SameBundles s.data t.data) :
    Hides s.data b t.data where
  listed cid := by
    have hnone : (regs.filter fun p => p.2.key = cid ∧
        p.2.owner ∉ (s.beginReload b).data.reloadingBundles) = [] := by
      refine List.filter_eq_nil_iff.mpr fun p hp hlisted => ?_
      have hunlisted := (of_decide_eq_true hlisted).2
      rw [howner p hp] at hunlisted
      exact hunlisted (Finset.mem_insert_self b _)
    rw [hadds.listed, hnone]
    exact List.append_nil _
  kept := hadds.kept
  generations := hadds.generations
  length_le := hle
  held x := by
    refine ⟨_, hadds.held x, fun hne => ?_, fun i hi cid => ?_⟩
    · obtain ⟨i, hi⟩ := List.exists_mem_of_ne_nil _ hne
      obtain ⟨p, hp, -⟩ := List.mem_map.mp hi
      obtain ⟨hp, hx⟩ := List.mem_filter.mp hp
      rw [hadds.reloading, ← of_decide_eq_true hx, howner p hp]
      exact Finset.mem_insert_self b _
    · obtain ⟨p, hp, rfl⟩ := List.mem_map.mp hi
      exact hc.indexed.not_listed (hadds.placed p (List.mem_filter.mp hp).1).1 cid
  reloading x hx := by
    rw [hadds.reloading]
    exact Finset.mem_insert.trans (or_iff_right hx)
  bundles := hbundles
  present := hadds.present hp

/-- The end of a failed reload withdraws what the window added. -/
theorem Opened.aborted (ho : Opened (s.beginReload b).data b)
    (hadds : Adds (s.beginReload b).data regs t.data) (howner : ∀ p ∈ regs, p.2.owner = b)
    (hh : Hides s.data b t.data) :
    Hides s.data b (t.abortReload b (s.data.pluginSlots b)).data ∧
      (t.abortReload b (s.data.pluginSlots b)).Mirrors ∧
      (t.abortReload b (s.data.pluginSlots b)).data.slots.length = t.data.slots.length ∧
      b ∉ (t.abortReload b (s.data.pluginSlots b)).data.reloadingBundles ∧
      ∀ i, s.data.catalog.content i = none →
        (t.abortReload b (s.data.pluginSlots b)).data.catalog.content i = none := by
  have hpending := ho.pending_eq hadds
  obtain ⟨data', heq, hpurge⟩ := abortReload_purge t b (s.data.pluginSlots b) hh.present
    (hadds.consistent ho.consistent).indexed
  have hsame := sameSlots_closeWindow t.data b
  have hclose : SameBundles t.data (closeWindow t.data b) := ⟨fun _ => rfl, rfl, rfl⟩
  have hcatalog := hpurge.catalog_eq
  rw [hsame.catalog_eq] at hcatalog
  -- The slots of the window were empty before it.
  have hvacant : ∀ i ∈ pendingSlots t.data b (s.data.pluginSlots b),
      s.data.catalog.content i = none := by
    intro i hi
    rw [show pendingSlots t.data b (s.data.pluginSlots b) = _ from hpending] at hi
    obtain ⟨p, hp, rfl⟩ := List.mem_map.mp hi
    exact (hadds.placed p (List.mem_filter.mp hp).1).1
  rw [heq]
  refine ⟨?_, rfl, hpurge.length, ?_, fun i hi => ?_⟩
  · refine
      { listed := fun cid => ?_
        kept := fun i r hr => ?_
        generations := fun i => (hpurge.generations i).trans (hh.generations i)
        length_le := hpurge.length ▸ hh.length_le
        held := fun x => ⟨[], ?_, fun hne => absurd rfl hne,
          fun _ hmem => absurd hmem List.not_mem_nil⟩
        reloading := fun x hx => ?_
        bundles := (hh.bundles.trans hclose).trans hpurge.bundles
        present := hpurge.present }
    · show data'.catalog.listed cid = _
      rw [hcatalog]
      refine Eq.trans (List.filter_eq_self.mpr fun i hi => decide_eq_true fun hmem => ?_)
        (hh.listed cid)
      exact ho.pending_not_listed hadds cid i hmem hi
    · show data'.catalog.content i = some r
      have hnot : i ∉ pendingSlots t.data b (s.data.pluginSlots b) := by
        intro hmem
        rw [hvacant i hmem] at hr
        cases hr
      rw [hcatalog]
      exact (if_neg hnot).trans (hh.kept i r hr)
    · show data'.catalog.held x = _
      rw [hcatalog, List.append_nil]
      by_cases hx : x = b
      · subst hx
        refine (if_pos rfl).trans ?_
        rw [ho.held_eq hadds, List.filter_append]
        -- The list of the bundle is what it was: the new part is purged, and no more.
        have hold : ((s.beginReload x).data.pluginSlots x).filter
            (· ∉ pendingSlots t.data x (s.data.pluginSlots x)) = s.data.pluginSlots x :=
          List.filter_eq_self.mpr fun i hi => decide_eq_true fun hmem =>
            of_decide_eq_true (List.mem_filter.mp hmem).2 hi
        have hnew : (pendingSlots t.data x ((s.beginReload x).data.pluginSlots x)).filter
            (· ∉ pendingSlots t.data x (s.data.pluginSlots x)) = [] :=
          List.filter_eq_nil_iff.mpr fun i hi hnot => of_decide_eq_true hnot hi
        rw [hold, hnew, List.append_nil]
      · refine (if_neg hx).trans ?_
        have hnone : (regs.filter fun p => p.2.owner = x) = [] :=
          List.filter_eq_nil_iff.mpr fun p hp hpx =>
            hx ((of_decide_eq_true hpx).symm.trans (howner p hp))
        show t.data.pluginSlots x = _
        rw [hadds.held, hnone]
        exact List.append_nil _
    · show x ∈ data'.reloadingBundles ↔ _
      rw [hpurge.reloading, closeWindow, Finset.mem_erase]
      exact (and_iff_right hx).trans (hh.reloading x hx)
  · show b ∉ data'.reloadingBundles
    rw [hpurge.reloading]
    exact Finset.notMem_erase b _
  · show data'.catalog.content i = none
    rw [hcatalog]
    by_cases hmem : i ∈ pendingSlots t.data b (s.data.pluginSlots b)
    · exact if_pos hmem
    · refine (if_neg hmem).trans ?_
      cases hr : t.data.catalog.content i with
      | none => rfl
      | some r =>
        -- A value that is there now was there before, or came in the window.
        rcases hadds.added i r hr with hold | ⟨p, hp, hindex, -⟩
        · cases hi.symm.trans hold
        · refine absurd ?_ hmem
          rw [show pendingSlots t.data b (s.data.pluginSlots b) = _ from hpending]
          exact List.mem_map.mpr
            ⟨p, List.mem_filter.mpr ⟨hp, decide_eq_true (howner p hp)⟩, hindex⟩

end

/-! ### When a failed reload is not seen -/

section
variable {s : RuntimeStore} {b : BundleId} {ops : List StoreOp}
  {windows : Finmap fun _ : BundleId => List Nat} {held : GuestContractHandle → Prop}

theorem take_registers (hops : ∀ op ∈ ops, op.RegistersFor b) (k : Nat) :
    ∀ op ∈ ops.take k, op.RegistersFor b :=
  fun op hop => hops op (List.mem_of_mem_take hop)

/-- The window after some of its calls. -/
theorem adds_take (hops : ∀ op ∈ ops, op.RegistersFor b)
    (hlen : (run RuntimeStore.exec (s.beginReload b) ops).data.slots.length ≤ 2 ^ 32) (k : Nat) :
    Adds (s.beginReload b).data (registrationsIn (s.beginReload b) (ops.take k))
        (run RuntimeStore.exec (s.beginReload b) (ops.take k)).data ∧
      (run RuntimeStore.exec (s.beginReload b) (ops.take k)).data.slots.length ≤ 2 ^ 32 := by
  have hregs : ∀ op ∈ ops, op.IsRegistration := fun op hop => (hops op hop).isRegistration
  have hle : (run RuntimeStore.exec (s.beginReload b) (ops.take k)).data.slots.length ≤ 2 ^ 32 := by
    refine Nat.le_trans ?_ hlen
    have hrun := run_append RuntimeStore.exec (s.beginReload b) (ops.take k) (ops.drop k)
    rw [List.take_append_drop] at hrun
    rw [hrun]
    exact length_le_run fun op hop => hregs op (List.mem_of_mem_drop hop)
  exact ⟨adds_run (fun op hop => hregs op (List.mem_of_mem_take hop)) hle, hle⟩

/-- The bundles keep their metadata in the window of a bundle that has a record or registers
nothing. -/
theorem sameBundles_take (hops : ∀ op ∈ ops, op.RegistersFor b)
    (hrecord : (s.data.bundleData.lookup b).isSome ∨ registrationsIn (s.beginReload b) ops = [])
    (k : Nat) :
    SameBundles s.data (run RuntimeStore.exec (s.beginReload b) (ops.take k)).data := by
  have hbegin : SameBundles s.data (s.beginReload b).data := ⟨fun _ => rfl, rfl, rfl⟩
  rcases hrecord with hsome | hnil
  · exact hbegin.trans (sameBundles_run _ (take_registers hops k) hsome)
  · rw [run_of_registrationsIn_nil _ (take_registers hops k)]
    · exact hbegin
    · rw [← List.take_append_drop k ops, registrationsIn_append] at hnil
      exact (List.append_eq_nil_iff.mp hnil).1

/-- The window after some of its calls hides what it has. -/
theorem hides_take (hwf : WellFormed s.data windows) (hops : ∀ op ∈ ops, op.RegistersFor b)
    (hlen : (run RuntimeStore.exec (s.beginReload b) ops).data.slots.length ≤ 2 ^ 32)
    (hrecord : (s.data.bundleData.lookup b).isSome ∨ registrationsIn (s.beginReload b) ops = [])
    (k : Nat) :
    Hides s.data b (run RuntimeStore.exec (s.beginReload b) (ops.take k)).data := by
  refine (adds_take hops hlen k).1.hides hwf.consistent hwf.present
    (owner_of_registrationsIn _ (take_registers hops k)) ?_ (sameBundles_take hops hrecord k)
  have hle : (s.beginReload b).data.slots.length
      ≤ (run RuntimeStore.exec (s.beginReload b) (ops.take k)).data.slots.length :=
    length_le_run fun op hop => (hops op (List.mem_of_mem_take hop)).isRegistration
  exact hle

theorem not_reloading (hwf : WellFormed s.data windows) (hclosed : windows.lookup b = none) :
    b ∉ s.data.reloadingBundles := by
  rw [hwf.reloading_iff, hclosed]
  exact Bool.false_ne_true

/-- The published store answers as a window does that returned none of the handles. -/
theorem answers_take (hwf : WellFormed s.data windows) (hclosed : windows.lookup b = none)
    (hops : ∀ op ∈ ops, op.RegistersFor b)
    (hlen : (run RuntimeStore.exec (s.beginReload b) ops).data.slots.length ≤ 2 ^ 32)
    (hheld : ∀ handle, held handle → handle.index < s.data.slots.length)
    (hrecord : (s.data.bundleData.lookup b).isSome ∨ registrationsIn (s.beginReload b) ops = [])
    (k : Nat) (hfresh : ∀ p ∈ registrationsIn (s.beginReload b) (ops.take k), ¬ held p.1) :
    SameAnswers held (s.publish s.data)
      (run RuntimeStore.exec (s.beginReload b) (ops.take k)) := by
  obtain ⟨hadds, hle⟩ := adds_take (s := s) hops hlen k
  have hhides := hides_take hwf hops hlen hrecord k
  refine @Hides.answers (s.publish s.data) _ b hhides held rfl
    (mirrors_registers rfl (take_registers hops k)) hwf.consistent hle
    (fun i hi cid hcid => hwf.listed hclosed hi hcid) (not_reloading hwf hclosed)
    fun handle hh => ⟨hheld handle hh, fun hvacant hgen => ?_⟩
  cases hr : (run RuntimeStore.exec (s.beginReload b) (ops.take k)).data.catalog.content
      handle.index with
  | none => rfl
  | some r =>
    rcases hadds.added _ r hr with hold | ⟨p, hp, hindex, -⟩
    · exact absurd (Eq.trans hvacant.symm hold) nofun
    · -- The registration in the slot returned the handle.
      have hreturned : p.1 = handle := by
        have hpgen := (hadds.placed p hp).2.2
        rw [hindex] at hpgen
        obtain ⟨index, generation⟩ := handle
        obtain ⟨⟨pindex, pgeneration⟩, pr⟩ := p
        cases hindex
        exact congrArg _ (hpgen.trans hgen.symm)
      exact absurd (hreturned ▸ hh) (hfresh p hp)

end

/-- A registration leaves its bundle with a record, also when its window is aborted. -/
theorem record_of_registered {s : RuntimeStore} {b : BundleId} {ops : List StoreOp}
    (hops : ∀ op ∈ ops, op.RegistersFor b)
    (hadds : Adds (s.beginReload b).data (registrationsIn (s.beginReload b) ops)
      (run RuntimeStore.exec (s.beginReload b) ops).data)
    (ho : Opened (s.beginReload b).data b) (hne : registrationsIn (s.beginReload b) ops ≠ []) :
    ((failedReload s b ops).getBundleDescriptor b).isSome := by
  have hslots : (run RuntimeStore.exec (s.beginReload b) ops).data.pluginSlots b ≠ [] := by
    obtain ⟨p, hp⟩ := List.exists_mem_of_ne_nil _ hne
    have howner := owner_of_registrationsIn (s.beginReload b) hops p hp
    have hmem : p.1.index ∈ (run RuntimeStore.exec (s.beginReload b) ops).data.pluginSlots b := by
      rw [hadds.held]
      refine List.mem_append_right _ (List.mem_map.mpr ⟨p, ?_, rfl⟩)
      exact List.mem_filter.mpr ⟨hp, decide_eq_true howner⟩
    exact List.ne_nil_of_mem hmem
  have hrecord : ((run RuntimeStore.exec (s.beginReload b) ops).data.bundleData.lookup
    b).isSome := by
    cases hbd : (run RuntimeStore.exec (s.beginReload b) ops).data.bundleData.lookup b with
    | none => exact absurd (by rw [pluginSlots, hbd]; rfl) hslots
    | some bd => rfl
  obtain ⟨data', heq, hpurge⟩ := abortReload_purge (run RuntimeStore.exec (s.beginReload b) ops) b
    (s.data.pluginSlots b) (hadds.present ho.present) (hadds.consistent ho.consistent).indexed
  rw [failedReload, heq, getBundleDescriptor, Option.isSome_map]
  exact (hpurge.bundles.isSome b).trans hrecord

/-- A store that mirrors its data answers from it. -/
theorem answers_publish {s : RuntimeStore} {held : GuestContractHandle → Prop} (hm : s.Mirrors) :
    SameAnswers held s (s.publish s.data) where
  resolve h _ := by
    unfold resolveGuestContract
    rw [hm]
    rfl
  find cid v := by
    unfold findGuestContract
    rw [hm]
    rfl
  findByBundle _ _ _ := rfl
  collect cid v := by
    unfold collectGuestContracts forEachLiveProvider
    rw [hm]
    rfl
  count cid v := by
    unfold countGuestContracts forEachLiveProvider
    rw [hm]
    rfl
  list := rfl
  descriptors := rfl
  listBundles := rfl
  bundleDescriptor _ := rfl
  bundlesByName _ := rfl

/-- **When a failed reload is not seen.** The published view answers as the data of the store, the
bundle has a record or registers nothing in its window, and no registration of the window
returns a handle that exists. -/
theorem failed_reload_invisible_iff (s : RuntimeStore)
    (windows : Finmap fun _ : BundleId => List Nat) (b : BundleId) (ops : List StoreOp)
    (held : GuestContractHandle → Prop) (hwf : WellFormed s.data windows)
    (hclosed : windows.lookup b = none) (hops : ∀ op ∈ ops, op.RegistersFor b)
    (hlen : (run RuntimeStore.exec (s.beginReload b) ops).data.slots.length ≤ 2 ^ 32)
    (hheld : ∀ handle, held handle → handle.index < s.data.slots.length) :
    Invisible held s b ops ↔
      SameAnswers held s (s.publish s.data) ∧
      ((s.data.bundleData.lookup b).isSome ∨ registrationsIn (s.beginReload b) ops = []) ∧
      ∀ p ∈ registrationsIn (s.beginReload b) ops, ¬ held p.1 := by
  have ho := hwf.opened hclosed
  obtain ⟨hadds, hle⟩ := adds_take (s := s) hops hlen ops.length
  rw [List.take_length] at hadds hle
  constructor
  · intro h
    -- The opening of the window publishes the data.
    have hpublish : SameAnswers held s (s.publish s.data) := by
      have hopen := answers_take hwf hclosed
        (nofun : ∀ op ∈ ([] : List StoreOp), op.RegistersFor b) (by
        have hstart : (s.beginReload b).data.slots.length ≤ _ :=
          length_le_run fun op hop => (hops op hop).isRegistration
        exact hstart.trans hlen) hheld (.inr rfl) 0 nofun
      exact (h.window 0).trans hopen.symm
    refine ⟨hpublish, ?_, fun p hp hh => ?_⟩
    · by_contra hnone
      rw [not_or, Option.not_isSome_iff_eq_none] at hnone
      have hsome := record_of_registered hops hadds ho hnone.2
      rw [h.aborted.bundleDescriptor b, getBundleDescriptor, hnone.1] at hsome
      cases hsome
    · -- The handle resolves in the window, and its slot was vacant.
      obtain ⟨hvacant, hfilled, hgen⟩ := hadds.placed p hp
      have hwindow := h.window ops.length
      rw [List.take_length] at hwindow
      have hmirrors : (run RuntimeStore.exec (s.beginReload b) ops).Mirrors :=
        mirrors_registers rfl hops
      have hsame := (hpublish.symm.trans hwindow).resolve p.1 hh
      rw [resolve_ok hmirrors hfilled (hgen.trans (hadds.generations p.1.index).symm),
        @resolve_eq (s.publish s.data) rfl p.1 (hheld p.1 hh),
        if_neg (not_not.mpr (show p.1.generation = (s.publish s.data).data.generationAt _
          from hgen)),
        show (s.publish s.data).data.catalog.content p.1.index = none from hvacant] at hsame
      cases hsame
  · rintro ⟨hpublish, hrecord, hfresh⟩
    have hhides := hides_take hwf hops hlen hrecord ops.length
    rw [List.take_length] at hhides
    obtain ⟨hgone, hmirrors, hlength, hnot, hvacant⟩ :=
      ho.aborted hadds (owner_of_registrationsIn _ hops) hhides
    refine ⟨fun k => ?_, ?_, fun descriptor dependencies contracts hb => ?_⟩
    · exact hpublish.trans (answers_take hwf hclosed hops hlen hheld hrecord k fun p hp =>
        hfresh p (registrationsIn_take _ ops k p hp))
    · refine hpublish.trans ?_
      exact @Hides.answers (s.publish s.data) _ b hgone held rfl hmirrors hwf.consistent
        (hlength ▸ hle) (fun i hi cid hcid => hwf.listed hclosed hi hcid)
        (not_reloading hwf hclosed) fun handle hh =>
          ⟨hheld handle hh, fun hv _ => hvacant handle.index hv⟩
    · exact hgone.loadOutcome_eq hwf.present hwf.consistent.indexed (not_reloading hwf hclosed)
        hnot hb dependencies contracts

/-- A bundle that is not loaded registers in its window. The reload fails, and the bundle is
listed. -/
theorem failed_reload_is_visible :
    ¬ ∀ (s : RuntimeStore) (windows : Finmap fun _ : BundleId => List Nat) (b : BundleId)
      (ops : List StoreOp) (held : GuestContractHandle → Prop), WellFormed s.data windows →
      s.Mirrors → windows.lookup b = none → (∀ op ∈ ops, op.RegistersFor b) →
      (run RuntimeStore.exec (s.beginReload b) ops).data.slots.length ≤ 2 ^ 32 →
      (∀ handle, held handle → handle.index < s.data.slots.length) → Invisible held s b ops := by
  intro hall
  have hinvisible := hall RuntimeStore.new ∅ ⟨1⟩ [.register ⟨1⟩ ⟨10⟩ "log" 100] (fun _ => False)
    (wellFormed_run [] trivial) rfl rfl (by
      intro op hop
      rw [List.mem_singleton.mp hop]
      exact ⟨_, _, _, _, rfl⟩) (by decide +kernel) nofun
  have hlist := hinvisible.aborted.bundleDescriptor ⟨1⟩
  revert hlist
  decide +kernel

/-- A loaded bundle whose reload fails. -/
theorem failed_reload_invisible_instance :
    Invisible (· ∈ [⟨0, 0⟩, ⟨1, 0⟩]) twoBundles.store ⟨1⟩ [.register ⟨1⟩ ⟨10⟩ "log" 102] := by
  have hvalid : twoBundles.Valid := valid_run (by decide +kernel)
  refine (failed_reload_invisible_iff twoBundles.store twoBundles.windows ⟨1⟩ _ _ hvalid.wellFormed
    (by decide +kernel) ?_ (by decide +kernel) (by decide +kernel)).mpr
    ⟨answers_publish hvalid.mirrors, .inl (by decide +kernel), by decide +kernel⟩
  intro op hop
  rw [List.mem_singleton.mp hop]
  exact ⟨_, _, _, _, rfl⟩

end PolyPlug.Registry
