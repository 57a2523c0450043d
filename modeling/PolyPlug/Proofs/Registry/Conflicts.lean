import PolyPlug.Proofs.Registry.Tidy

/-!
# `PolyPlug.Proofs.Registry.Conflicts`: no collision and no duplicate provider

Two registrations under one contract id conflict when their contract names have
different canonical forms, or when one bundle made them with the same plugin
name, contract name and version. Registration checks a new contract against the
index, and a prepared bundle also against itself. A registration inside a reload
window is pending: nothing checks it against the other pending ones, and later
registrations of other bundles are not checked against it. The swap publishes it
without a check.

`noConflict_run` proves that no two listed slots conflict in any run whose swaps
publish pending registrations that coexist with each other and with the slots
that stay listed (`PendingCoexist`). `conflict_in_window` is a window that
registers the same contract twice.
-/

set_option autoImplicit false

namespace PolyPlug.Registry

open PolyPlug.Abi
open PolyPlug.Lib
open PolyPlug.Lib.Catalog
open RuntimeStoreData RuntimeStore

/-! ### The property -/

/-- The two registrations may stand under one contract id: their names are one
contract, and they are not the same plugin twice. -/
def Coexist (r r' : Registration) : Prop :=
  canonicalContractName r.entry.contractName = canonicalContractName r'.entry.contractName ∧
  ¬ (r.entry.bundleId = r'.entry.bundleId ∧
    r.entry.descriptor.name = r'.entry.descriptor.name ∧
    r.entry.descriptor.contractName = r'.entry.descriptor.contractName ∧
    r.entry.descriptor.version = r'.entry.descriptor.version)

instance (r r' : Registration) : Decidable (Coexist r r') := inferInstanceAs (Decidable (_ ∧ _))

theorem Coexist.symm (r r' : Registration) (h : Coexist r r') : Coexist r' r := by
  refine ⟨h.1.symm, fun hsame => h.2 ?_⟩
  exact ⟨hsame.1.symm, hsame.2.1.symm, hsame.2.2.1.symm, hsame.2.2.2.symm⟩

/-- Any two slots listed under one contract id coexist. -/
def NoConflict (data : RuntimeStoreData) : Prop :=
  ∀ cid i j entry entry', i ≠ j → i ∈ data.indexOf cid → j ∈ data.indexOf cid →
    data.entryAt i = some entry → data.entryAt j = some entry' →
    canonicalContractName entry.contractName = canonicalContractName entry'.contractName ∧
    ¬ (entry.bundleId = entry'.bundleId ∧ entry.descriptor.name = entry'.descriptor.name ∧
      entry.descriptor.contractName = entry'.descriptor.contractName ∧
      entry.descriptor.version = entry'.descriptor.version)

/-! ### The condition -/

/-- Each pending registration coexists with the other pending ones and with the
slots that stay listed, when they have the same contract. -/
def PendingCoexist (data : RuntimeStoreData) (b : BundleId) (old : List Nat) : Prop :=
  ∀ i ∈ pendingSlots data b old, ∀ j < data.slots.length, i ≠ j →
    ∀ r ∈ data.catalog.content i, ∀ r' ∈ data.catalog.content j,
      (j ∈ pendingSlots data b old ∨ j ∈ data.indexOf r'.key ∧ j ∉ old) →
      r.key = r'.key → Coexist r r'

instance (data : RuntimeStoreData) (b : BundleId) (old : List Nat) :
    Decidable (PendingCoexist data b old) := by
  unfold PendingCoexist
  infer_instance

/-- The calls of the runs: a swap returns `Ok` and publishes pending
registrations that coexist, and the slot indices fit 32 bits. -/
def CoexistStep (s : RuntimeStore) (op : StoreOp) : Prop :=
  (match op with
    | .applyReloadSwap b old descriptor dependencies =>
      Except.isOk (s.applyReloadSwap b old descriptor dependencies).1 = true ∧
        PendingCoexist s.data b old
    | _ => True) ∧
  (s.exec op).data.slots.length ≤ 2 ^ 32

instance (s : RuntimeStore) : (op : StoreOp) → Decidable (CoexistStep s op)
  | .applyReloadSwap b old _ _ =>
    inferInstanceAs (Decidable ((_ ∧ PendingCoexist s.data b old) ∧ _))
  | .registerGuestContract .. | .registerPreparedBundle .. | .declareBundleDependencies ..
  | .registerBundleMetadata .. | .beginReload _ | .abortReload .. | .invalidateBundle _ =>
    inferInstanceAs (Decidable (True ∧ _))

/-! ### What the checks establish -/

section
variable {data : RuntimeStoreData} {contract : PreparedGuestContract} {b : BundleId}

theorem nameCollision_eq_false {a a' : String} :
    nameCollision a a' = false ↔ canonicalContractName a = canonicalContractName a' := by
  simp [nameCollision]

/-- The loop over indexed slots passes each of them. -/
theorem validateAgainstIndexed_ok {isReloading : Bool} {indices : List Nat}
    (hok : validateAgainstIndexed data contract b isReloading indices = .ok ()) :
    ∀ i ∈ indices, ∀ entry, data.entryAt i = some entry →
      canonicalContractName entry.contractName = canonicalContractName contract.contractName ∧
      (isReloading = false → entry.bundleId ≠ b) := by
  induction indices with
  | nil => simp
  | cons idx rest ih =>
    unfold validateAgainstIndexed at hok
    intro i hi entry hentry
    cases hidx : data.entryAt idx with
    | none =>
      rw [hidx] at hok
      rcases List.mem_cons.mp hi with rfl | hrest
      · rw [hidx] at hentry
        cases hentry
      · exact ih hok i hrest entry hentry
    | some existing =>
      rw [hidx] at hok
      dsimp only at hok
      split at hok
      · cases hok
      · rename_i hname
        split at hok
        · cases hok
        · rename_i hdup
          rcases List.mem_cons.mp hi with rfl | hrest
          · rw [hidx] at hentry
            cases hentry
            refine ⟨nameCollision_eq_false.mp (by simpa using hname), fun hre hb => ?_⟩
            exact hdup ⟨hb, hre⟩
          · exact ih hok i hrest entry hentry

/-- A contract that passed the check outside a window coexists with every listed
registration of its id. -/
theorem coexist_of_validated
    (hok : validateGuestContractRegistration data contract b false = .ok ()) {i : Nat}
    {r : Registration} (hi : i ∈ data.indexOf contract.contractId)
    (hr : data.catalog.content i = some r) : Coexist r (contract.registration b) := by
  unfold validateGuestContractRegistration at hok
  have hentry : data.entryAt i = some r.entry := by
    obtain ⟨slot, hslot, he, -⟩ := content_eq_some.mp hr
    simp [entryAt, hslot, he]
  cases hl : data.guestContractIndex.lookup contract.contractId with
  | none => simp [indexOf, hl] at hi
  | some indices =>
    rw [hl] at hok
    have hmem : i ∈ indices := by simpa [indexOf, hl] using hi
    obtain ⟨hname, howner⟩ := validateAgainstIndexed_ok hok i hmem r.entry hentry
    exact ⟨hname, fun hsame => howner rfl hsame.1⟩

/-- The inner loop of the staged check passes each earlier contract. -/
theorem validateAgainstStaged_ok {staged : List PreparedGuestContract}
    (hok : validateAgainstStaged contract staged = .ok ()) :
    ∀ e ∈ staged, e.contractId = contract.contractId →
      Coexist (e.registration b) (contract.registration b) := by
  induction staged with
  | nil => simp
  | cons existing rest ih =>
    unfold validateAgainstStaged at hok
    intro e he hid
    split at hok
    · rename_i hne
      rcases List.mem_cons.mp he with rfl | hrest
      · exact absurd hid hne
      · exact ih hok e hrest hid
    · split at hok
      · cases hok
      · rename_i hname
        split at hok
        · cases hok
        · rename_i hdup
          rcases List.mem_cons.mp he with rfl | hrest
          · have hsameName : nameCollision e.contractName contract.contractName = false := by
              simpa using hname
            exact ⟨nameCollision_eq_false.mp hsameName, fun hsame => hdup hsame.2⟩
          · exact ih hok e hrest hid

/-- The staged check leaves contracts that coexist pairwise. -/
theorem validateStagedFrom_ok (b : BundleId) {staged contracts : List PreparedGuestContract}
    (hok : validateStagedFrom staged contracts = .ok ()) :
    (∀ c ∈ contracts, ∀ e ∈ staged, e.contractId = c.contractId →
      Coexist (e.registration b) (c.registration b)) ∧
    contracts.Pairwise fun c c' => c.contractId = c'.contractId →
      Coexist (c.registration b) (c'.registration b) := by
  induction contracts generalizing staged with
  | nil => simp
  | cons c rest ih =>
    unfold validateStagedFrom at hok
    cases hone : validateAgainstStaged c staged with
    | error e =>
      rw [hone] at hok
      cases hok
    | ok u =>
      rw [hone] at hok
      obtain ⟨hearlier, hpairs⟩ := ih hok
      refine ⟨fun c' hc' e he hid => ?_, List.pairwise_cons.mpr ⟨fun c' hc' hid => ?_, hpairs⟩⟩
      · rcases List.mem_cons.mp hc' with rfl | hrest
        · exact validateAgainstStaged_ok hone e he hid
        · exact hearlier c' hrest e (List.mem_append_left _ he) hid
      · exact hearlier c' hc' c (by simp) hid

theorem validateAll_ok {isReloading : Bool} {contracts : List PreparedGuestContract}
    (hok : validateAll data b isReloading contracts = .ok ()) :
    ∀ c ∈ contracts, validateGuestContractRegistration data c b isReloading = .ok () := by
  induction contracts with
  | nil => simp
  | cons c rest ih =>
    unfold validateAll at hok
    cases hone : validateGuestContractRegistration data c b isReloading with
    | error e =>
      rw [hone] at hok
      cases hok
    | ok u =>
      rw [hone] at hok
      intro c' hc'
      rcases List.mem_cons.mp hc' with rfl | hrest
      · exact hone
      · exact ih hok c' hrest

end

/-! ### One call -/

/-- The invariant the proof carries. -/
structure Peaceful (data : RuntimeStoreData) : Prop where
  present : data.Present
  indexed : data.Indexed
  apart : Apart Registration.key Coexist data.catalog data.catalog.Listed

theorem Peaceful.of_sameSlots {data data' : RuntimeStoreData} (h : Peaceful data)
    (hsame : SameSlots data data') : Peaceful data' := by
  refine ⟨hsame.present.mpr h.present, hsame.indexed.mpr h.indexed, ?_⟩
  rw [hsame.catalog_eq]
  exact h.apart

/-- A run of insertions, of registrations that coexist pairwise and with the
listed ones when they are published. -/
theorem Peaceful.of_inserts {publishContract : Bool} {data data' : RuntimeStoreData}
    {rs : List Registration} {hs : List GuestContractHandle} (h : Peaceful data)
    (hins : InsertsAll publishContract data rs hs data')
    (hpairs : publishContract = true → rs.Pairwise fun r r' => r.key = r'.key → Coexist r r')
    (hlisted : publishContract = true → ∀ r ∈ rs, ∀ i r', data.catalog.Listed i →
      data.catalog.content i = some r' → r'.key = r.key → Coexist r' r) : Peaceful data' := by
  induction hins with
  | nil => exact h
  | @cons data mid data' r handle rs hs hhead _ ih =>
    have happart : Apart Registration.key Coexist mid.catalog mid.catalog.Listed := by
      rw [hhead.catalog_eq]
      exact apart_add Coexist.symm h.indexed hhead.vacant h.apart fun hp j r' hj hr' hkey =>
        hlisted hp r List.mem_cons_self j r' hj hr' hkey
    have hindexed : mid.Indexed := by
      rw [RuntimeStoreData.Indexed, hhead.catalog_eq]
      exact indexed_add h.indexed hhead.vacant r publishContract
    refine ih ⟨hhead.present h.present, hindexed, happart⟩
      (fun hp => (List.pairwise_cons.mp (hpairs hp)).2) ?_
    intro hp r' hr' i v hi hv hkey
    rw [hhead.catalog_eq] at hi hv
    by_cases hih : i = handle.index
    · -- The slot just filled: its registration comes earlier in the same list.
      simp only [add, hih, if_true, Option.some.injEq] at hv
      subst hv
      exact (List.pairwise_cons.mp (hpairs hp)).1 r' hr' hkey
    · obtain ⟨k, hk⟩ := hi
      have hold : data.catalog.Listed i := by
        simp only [add] at hk
        split at hk
        · exact ⟨k, by simpa [hih] using hk⟩
        · exact ⟨k, hk⟩
      exact hlisted hp r' (List.mem_cons_of_mem _ hr') i v hold (by simpa [add, hih] using hv)
        hkey

section
variable {s : RuntimeStore}

/-- A listed slot stands under its own contract. -/
theorem Peaceful.listed_key {data : RuntimeStoreData} (h : Peaceful data) {i : Nat}
    {r : Registration} (hi : data.catalog.Listed i) (hr : data.catalog.content i = some r) :
    i ∈ data.indexOf r.key := by
  obtain ⟨k, hk⟩ := hi
  have hkey : r.key = k := by simpa [keyAt, hr] using h.indexed.listed_key k i hk
  exact hkey ▸ hk

theorem Peaceful.of_swap (h : Peaceful s.data) {b : BundleId} {old : List Nat}
    {data' : RuntimeStoreData} (hpending : PendingCoexist s.data b old)
    (hswap : Swaps s b old data') : Peaceful data' := by
  obtain ⟨⟨mid, hloop, hcat, hslots, -⟩, -⟩ := hswap
  have hsame := sameSlots_closeWindow s.data b
  have hrec := hloop.reconcile
  rw [hsame.catalog_eq] at hrec
  -- The pairs of the window are the condition; the other pairs are already listed.
  have hstart : Apart Registration.key Coexist s.data.catalog
      (s.data.catalog.Upcoming (pendingSlots s.data b old) old) := by
    have hcase : ∀ i j r r', i ∈ pendingSlots s.data b old → i ≠ j →
        s.data.catalog.Upcoming (pendingSlots s.data b old) old j →
        s.data.catalog.content i = some r → s.data.catalog.content j = some r' →
        r.key = r'.key → Coexist r r' := by
      intro i j r r' hi hne hj hr hr' hkey
      refine hpending i hi j (lt_length_of_content (by simp [hr'])) hne r hr r' hr' ?_ hkey
      rcases hj with ⟨hlisted, hout⟩ | hnew
      · exact Or.inr ⟨h.listed_key hlisted hr', hout⟩
      · exact Or.inl hnew
    intro i j r r' hne hi hj hr hr' hkey
    rcases hi with ⟨hlisted, hout⟩ | hnew
    · rcases hj with ⟨hlisted', -⟩ | hnew'
      · exact h.apart i j r r' hne hlisted hlisted' hr hr' hkey
      · exact (hcase j i r' r hnew' hne.symm (Or.inl ⟨hlisted, hout⟩) hr' hr hkey.symm).symm
    · exact hcase i j r r' hnew hne hj hr hr' hkey
  refine ⟨?_, ?_, ?_⟩
  · intro slot hslot
    rw [hslots] at hslot
    exact hloop.present slot hslot
  · rw [RuntimeStoreData.Indexed, hcat]
    exact indexed_publish (hrec.indexed _ h.indexed) _
  · rw [hcat]
    exact apart_publish (hrec.apart hstart)

/-- Every call keeps the listed slots apart. -/
theorem peaceful_exec (h : Peaceful s.data) {op : StoreOp} (hop : CoexistStep s op) :
    Peaceful (s.exec op).data := by
  obtain ⟨hswap, hlen⟩ := hop
  cases op with
  | registerGuestContract descriptor interface ptr contractName b =>
    simp only [RuntimeStore.exec] at hlen ⊢
    rcases registerGuestContract_cases s descriptor interface ptr contractName b with
      ⟨e, heq⟩ | ⟨contract, handle, data', hprep, hval, hins, heq⟩
    · rw [heq]
      exact h
    · rw [heq] at hlen ⊢
      have hsame := sameSlots_ensureDefaultBundleData s.data b
      -- Outside of a window the slot is listed, and the check has compared it with all others.
      have hone := insertPreparedGuestContract_inserts hins hlen
      refine (h.of_sameSlots hsame).of_inserts (.cons hone .nil)
        (fun _ => List.pairwise_singleton _ _) ?_
      intro hp r hr i r' hi hr' hkey
      rw [List.mem_singleton.mp hr, registration_key] at *
      rw [hsame.catalog_eq] at hi hr'
      rw [show decide (b ∈ s.data.reloadingBundles) = false by simpa using hp] at hval
      exact coexist_of_validated hval (hkey ▸ h.listed_key hi hr') hr'
  | registerPreparedBundle descriptor dependencies contracts =>
    simp only [RuntimeStore.exec] at hlen ⊢
    rcases registerPreparedBundle_cases s descriptor dependencies contracts with
      ⟨e, heq⟩ | ⟨hs, data', hstaged, hall, hnew, hins, heq⟩
    · rw [heq]
      exact h
    · rw [heq] at hlen ⊢
      have hsame := sameSlots_insertBundle s.data descriptor dependencies hnew
      refine (h.of_sameSlots hsame).of_inserts (insertAll_inserts hins hlen) (fun _ => ?_) ?_
      · rw [List.pairwise_map]
        simpa using (validateStagedFrom_ok descriptor.id hstaged).2
      · intro hp r hr i r' hi hr' hkey
        obtain ⟨contract, hmem, rfl⟩ := List.mem_map.mp hr
        rw [registration_key] at hkey
        rw [hsame.catalog_eq] at hi hr'
        rw [show decide (descriptor.id ∈ s.data.reloadingBundles) = false by simpa using hp]
          at hall
        exact coexist_of_validated (validateAll_ok hall contract hmem)
          (hkey ▸ h.listed_key hi hr') hr'
  | declareBundleDependencies b contractIds =>
    exact h.of_sameSlots ⟨rfl, rfl, fun _ => rfl⟩
  | registerBundleMetadata b bundleName version runtime origin dependencies =>
    exact h.of_sameSlots (sameSlots_registerBundleMetadata s b bundleName version runtime origin
      dependencies)
  | beginReload b => exact h.of_sameSlots ⟨rfl, rfl, fun _ => rfl⟩
  | abortReload b old =>
    obtain ⟨data', heq, hpurge⟩ := abortReload_purge s b old h.present h.indexed
    have hcat := hpurge.catalog_eq
    rw [(sameSlots_closeWindow s.data b).catalog_eq] at hcat
    simp only [RuntimeStore.exec, heq]
    refine ⟨hpurge.present, ?_, ?_⟩
    · show data'.Indexed
      rw [RuntimeStoreData.Indexed, hcat]
      exact indexed_withdraw h.indexed b _
    · show Apart _ _ data'.catalog data'.catalog.Listed
      rw [hcat]
      exact apart_withdraw h.apart _
  | applyReloadSwap b old descriptor dependencies =>
    -- The condition is about the slots that the swap lists.
    obtain ⟨hok, hpending⟩ := hswap
    simp only [RuntimeStore.exec]
    cases hres : s.applyReloadSwap b old descriptor dependencies with
    | mk result s' =>
      rw [hres] at hok
      cases result with
      | error e => cases hok
      | ok u =>
        obtain ⟨data', rfl, hswaps⟩ := swaps_of_applyReloadSwap h.present h.indexed hres
        exact h.of_swap hpending hswaps
  | invalidateBundle b =>
    simp only [RuntimeStore.exec]
    rcases invalidateBundle_cases s b h.present h.indexed with ⟨-, heq⟩ | ⟨data', heq, hinv⟩
    · rw [heq]
      exact h
    · rw [heq]
      refine ⟨hinv.present, ?_, ?_⟩
      · show data'.Indexed
        rw [RuntimeStoreData.Indexed, hinv.catalog_eq]
        exact indexed_withdraw h.indexed b _
      · show Apart _ _ data'.catalog data'.catalog.Listed
        rw [hinv.catalog_eq]
        exact apart_withdraw h.apart _

end

/-! ### Whole runs -/

theorem peaceful_new : Peaceful RuntimeStoreData.new := by
  refine ⟨present_new, consistent_new.indexed, ?_⟩
  rintro i j g g' - ⟨k, hk⟩
  simp [RuntimeStoreData.new, catalog, indexOf] at hk

/-- In every state of a run whose successful swaps publish pending registrations
that coexist, no two slots listed under one contract id conflict. -/
theorem noConflict_run (ops : List StoreOp)
    (hops : Steps RuntimeStore.exec CoexistStep RuntimeStore.new ops) :
    NoConflict (run RuntimeStore.exec RuntimeStore.new ops).data := by
  have hend : Peaceful (run RuntimeStore.exec RuntimeStore.new ops).data :=
    hops.invariant (I := fun s => Peaceful s.data) peaceful_new fun _ _ h hop =>
      peaceful_exec h hop
  intro cid i j entry entry' hne hi hj hentry hentry'
  obtain ⟨r, hr, hkey⟩ : ∃ r, (run RuntimeStore.exec RuntimeStore.new ops).data.catalog.content i
      = some r ∧ r.key = cid := by
    simpa [keyAt] using hend.indexed.listed_key cid i hi
  obtain ⟨r', hr', hkey'⟩ : ∃ r', (run RuntimeStore.exec RuntimeStore.new
      ops).data.catalog.content j = some r' ∧ r'.key = cid := by
    simpa [keyAt] using hend.indexed.listed_key cid j hj
  rw [entryAt_eq hend.present, hr] at hentry
  rw [entryAt_eq hend.present, hr'] at hentry'
  cases hentry
  cases hentry'
  exact hend.apart i j r r' hne ⟨cid, hi⟩ ⟨cid, hj⟩ hr hr' (hkey.trans hkey'.symm)

/-- A reload that replaces one contract and adds another. -/
theorem noConflict_run_reload :
    let ops : List StoreOp :=
      [.register ⟨1⟩ ⟨10⟩ "log" 100, .register ⟨2⟩ ⟨10⟩ "log@1" 101, .beginReload ⟨1⟩,
        .register ⟨1⟩ ⟨10⟩ "log" 102, .register ⟨1⟩ ⟨11⟩ "kv" 103, .swap ⟨1⟩ [0]]
    Steps RuntimeStore.exec CoexistStep RuntimeStore.new ops ∧
      NoConflict (run RuntimeStore.exec RuntimeStore.new ops).data :=
  ⟨by decide +kernel, noConflict_run _ (by decide +kernel)⟩

/-- A reload window that registers one contract twice: the swap succeeds and
lists both slots. -/
theorem conflict_in_window :
    let ops : List StoreOp :=
      [.beginReload ⟨1⟩, .register ⟨1⟩ ⟨10⟩ "log" 100, .register ⟨1⟩ ⟨10⟩ "log" 101,
        .swap ⟨1⟩ []]
    Except.isOk ((run RuntimeStore.exec RuntimeStore.new
        [.beginReload ⟨1⟩, .register ⟨1⟩ ⟨10⟩ "log" 100,
          .register ⟨1⟩ ⟨10⟩ "log" 101]).applyReloadSwap ⟨1⟩ [] (defaultDescriptor ⟨1⟩) ∅).1
        = true ∧
      ¬ NoConflict (run RuntimeStore.exec RuntimeStore.new ops).data := by
  refine ⟨by decide +kernel, fun h => ?_⟩
  have hpair := h ⟨10⟩ 0 1 ⟨⟨"", "log", ⟨1, 0, 0⟩⟩, "log", ⟨1⟩⟩ ⟨⟨"", "log", ⟨1, 0, 0⟩⟩, "log", ⟨1⟩⟩
    (by decide) (by decide +kernel) (by decide +kernel) (by decide +kernel) (by decide +kernel)
  exact hpair.2 ⟨rfl, rfl, rfl, rfl⟩

end PolyPlug.Registry
