import PolyPlug.Proofs.Registry.Frame

/-!
# `PolyPlug.Proofs.Registry.Bundles`: records, names and declared dependencies

Beside its slots a call changes the record, the name entry and the declared
dependencies of one bundle. `exec_bundles` splits each call into its slot part,
which leaves these alone, and its bundle part (`bundleWrites`).

`NamesLinked` ties the name index to the records: a bundle is listed under the
name its record has. It needs the calls that rewrite a record to give the name
the bundle is listed under (`NameKept`), which the bundle id, a hash of the name,
stands for in the callers.
-/

set_option autoImplicit false

namespace PolyPlug.Registry

open PolyPlug.Abi
open PolyPlug.Lib
open PolyPlug.Lib.Catalog
open RuntimeStoreData RuntimeStore

namespace RuntimeStoreData

/-- The descriptor in the record of a bundle. -/
def descriptorOf (data : RuntimeStoreData) (x : BundleId) : Option BundleDescriptor :=
  (data.bundleData.lookup x).map BundleData.descriptor

/-- The contracts a bundle declared a dependency on. -/
def declaredOf (data : RuntimeStoreData) (x : BundleId) : Finset GuestContractId :=
  (data.bundleDeclaredDeps.lookup x).getD ∅

/-- The bundles listed under a name. -/
def namedAs (data : RuntimeStoreData) (name : String) : List BundleId :=
  (data.bundleNameIndex.lookup name).getD []

/-- A bundle is listed under the name of its record only. -/
def NamesLinked (data : RuntimeStoreData) : Prop :=
  ∀ name x, x ∈ data.namedAs name → ∃ d, data.descriptorOf x = some d ∧ d.name = name

end RuntimeStoreData

theorem namesLinked_new : RuntimeStoreData.new.NamesLinked := by
  intro name x hx
  simp [namedAs, RuntimeStoreData.new] at hx

/-! ### The bundle part of a call -/

/-- The writes of a successful call to the tables of bundles. -/
def bundleWrites (data : RuntimeStoreData) : StoreOp → RuntimeStoreData
  | .registerGuestContract _ _ _ _ b => ensureDefaultBundleData data b
  | .registerPreparedBundle d deps _ => insertBundle data d deps
  | .declareBundleDependencies b cids =>
    { data with
        bundleDeclaredDeps := data.bundleDeclaredDeps.insert b (data.declaredOf b ∪ cids.toFinset) }
  | .registerBundleMetadata b name version runtime origin dependencies =>
    { data with
        bundleData := data.bundleData.insert b
          ⟨data.pluginSlots b, ⟨((data.descriptorOf b).map BundleDescriptor.id).getD b, name,
            version, runtime, origin, dependencies⟩⟩
        bundleNameIndex := data.bundleNameIndex.insert name
          (if b ∈ data.namedAs name then data.namedAs name else data.namedAs name ++ [b]) }
  | .applyReloadSwap b _ d deps =>
    { data with
        bundleData := data.bundleData.insert b ⟨data.pluginSlots b, d⟩
        bundleDeclaredDeps := data.bundleDeclaredDeps.insert b deps }
  | .invalidateBundle b =>
    { data with
        bundleData := data.bundleData.erase b
        bundleNameIndex := match data.descriptorOf b with
          | none   => data.bundleNameIndex
          | some d => retainName data d.name b
        bundleDeclaredDeps := data.bundleDeclaredDeps.erase b }
  | _ => data

section
variable {data data' : RuntimeStoreData} {b : BundleId}

theorem SameBundles.descriptorOf_eq (h : SameBundles data data') (x : BundleId) :
    data'.descriptorOf x = data.descriptorOf x := h.descriptor x

theorem SameBundles.declaredOf_eq (h : SameBundles data data') (x : BundleId) :
    data'.declaredOf x = data.declaredOf x := by
  simp only [declaredOf, h.declaredDeps]

theorem SameBundles.namedAs_eq (h : SameBundles data data') (name : String) :
    data'.namedAs name = data.namedAs name := by
  simp only [namedAs, h.nameIndex]

theorem sameBundles_insertAll {publishContract : Bool} {contracts : List PreparedGuestContract}
    {hs : List GuestContractHandle}
    (hins : insertAll b publishContract contracts [] data = (.ok hs, data')) :
    SameBundles data data' := by
  induction contracts generalizing data hs with
  | nil =>
    cases hins
    exact .refl _
  | cons contract rest ih =>
    obtain ⟨h, mid, hs', hone, hrest, -⟩ := insertAll_cons_ok hins
    exact (sameBundles_insertPreparedGuestContract hone).trans (ih hrest)

theorem sameBundles_foldl_vacateSlot (cells : List Nat) :
    SameBundles data (cells.foldl vacateSlot data) := by
  induction cells generalizing data with
  | nil => exact .refl _
  | cons i rest ih => exact (sameBundles_vacateSlot i).trans ih

theorem foldl_vacateSlot_bundleData (cells : List Nat) :
    (cells.foldl vacateSlot data).bundleData = data.bundleData := by
  induction cells generalizing data with
  | nil => rfl
  | cons i rest ih => rw [List.foldl_cons, ih, vacateSlot_bundleData]

theorem sameBundles_foldl_purgeSlot (cells : List Nat) :
    SameBundles data (cells.foldl (purgeSlot b) data) := by
  induction cells generalizing data with
  | nil => exact .refl _
  | cons i rest ih => exact (sameBundles_purgeSlot b i).trans ih

end

theorem sameBundles_registerBundleMetadata (s : RuntimeStore) (b : BundleId) (name : String)
    (version : Version) (runtime : SupportedLanguage) (origin : BundleOrigin)
    (dependencies : List BundleDependency) :
    SameBundles
      (bundleWrites s.data (.registerBundleMetadata b name version runtime origin dependencies))
      (s.registerBundleMetadata b name version runtime origin dependencies).data := by
  refine ⟨fun x => ?_, rfl, rfl⟩
  simp only [registerBundleMetadata, RuntimeStore.publish, bundleWrites, lookup_insert_eq]
  split
  · cases hbd : s.data.bundleData.lookup b <;> simp [descriptorOf, hbd]
  · rfl

/-- A swap writes the record and the dependencies of its bundle, which had a record, or
it fails and leaves the tables of bundles alone. -/
theorem applyReloadSwap_bundles {s : RuntimeStore} (hp : s.data.Present) (b : BundleId)
    (old : List Nat) (descriptor : BundleDescriptor) (dependencies : Finset GuestContractId) :
    ((∃ e, (s.applyReloadSwap b old descriptor dependencies).1 = .error e) ∧
      SameBundles s.data (s.applyReloadSwap b old descriptor dependencies).2.data) ∨
    ((s.applyReloadSwap b old descriptor dependencies).1 = .ok () ∧
      (s.data.descriptorOf b).isSome ∧
      SameBundles (bundleWrites s.data (.applyReloadSwap b old descriptor dependencies))
        (s.applyReloadSwap b old descriptor dependencies).2.data) := by
  have hp' := (sameSlots_closeWindow s.data b).present.mpr hp
  have hclose : SameBundles s.data (closeWindow s.data b) := ⟨fun _ => rfl, rfl, rfl⟩
  rcases applyReloadSwap_cases s b old descriptor dependencies with
    ⟨e, mid, hloop, heq⟩ | ⟨mid, hloop, hend⟩
  · rw [heq]
    exact Or.inl ⟨⟨e, rfl⟩, hclose.trans (swapOldSlots_effect hp' hloop).bundles⟩
  · have hmid := hclose.trans (swapOldSlots_effect hp' hloop).bundles
    have hpub := foldl_publishSlot (pendingSlots s.data b old) mid
    rcases hend with ⟨-, heq⟩ | ⟨bd, hbd, heq⟩
    · rw [heq]
      refine Or.inl ⟨⟨_, rfl⟩, hmid.trans ⟨fun x => ?_, hpub.declaredDeps, hpub.nameIndex⟩⟩
      show (((pendingSlots s.data b old).foldl publishSlot mid).bundleData.lookup x).map _ = _
      rw [hpub.bundleData]
    · rw [heq]
      refine Or.inr ⟨rfl, ?_, fun x => ?_, ?_, hpub.nameIndex.trans hmid.nameIndex⟩
      · rw [hpub.bundleData] at hbd
        rw [← hmid.descriptorOf_eq]
        simp [descriptorOf, hbd]
      · simp only [RuntimeStore.publish, bundleWrites, lookup_insert_eq, hpub.bundleData]
        split
        · rfl
        · exact hmid.descriptor x
      · simp only [RuntimeStore.publish, bundleWrites, hpub.declaredDeps, hmid.declaredDeps]

/-- A call leaves the tables of bundles alone, or makes its bundle writes. A bundle
that is committed had no record, and a bundle that is swapped had one. -/
theorem exec_bundles {s : RuntimeStore} (hp : s.data.Present) (op : StoreOp) :
    SameBundles s.data (s.exec op).data ∨
    SameBundles (bundleWrites s.data op) (s.exec op).data ∧
      (∀ d deps contracts, op = .registerPreparedBundle d deps contracts →
        s.data.descriptorOf d.id = none) ∧
      (∀ b old d deps, op = .applyReloadSwap b old d deps →
        (s.data.descriptorOf b).isSome) := by
  cases op with
  | registerGuestContract descriptor interface ptr contractName b =>
    simp only [RuntimeStore.exec]
    rcases registerGuestContract_cases s descriptor interface ptr contractName b with
      ⟨e, heq⟩ | ⟨contract, handle, data', -, -, hins, heq⟩
    · rw [heq]
      exact Or.inl (.refl _)
    · rw [heq]
      refine Or.inr ⟨sameBundles_insertPreparedGuestContract hins, fun _ _ _ heq => ?_,
        fun _ _ _ _ heq => ?_⟩ <;> cases heq
  | registerPreparedBundle descriptor dependencies contracts =>
    simp only [RuntimeStore.exec]
    rcases registerPreparedBundle_cases s descriptor dependencies contracts with
      ⟨e, heq⟩ | ⟨hs, data', -, -, hnew, hins, heq⟩
    · rw [heq]
      exact Or.inl (.refl _)
    · rw [heq]
      refine Or.inr ⟨sameBundles_insertAll hins, fun _ _ _ heq => ?_, fun _ _ _ _ heq => ?_⟩
      · cases heq
        simp [descriptorOf, hnew]
      · cases heq
  | declareBundleDependencies b contractIds =>
    refine Or.inr ⟨.refl _, fun _ _ _ heq => ?_, fun _ _ _ _ heq => ?_⟩ <;> cases heq
  | registerBundleMetadata b bundleName version runtime origin dependencies =>
    refine Or.inr ⟨sameBundles_registerBundleMetadata s b bundleName version runtime origin
      dependencies, fun _ _ _ heq => ?_, fun _ _ _ _ heq => ?_⟩ <;> cases heq
  | beginReload b => exact Or.inl ⟨fun _ => rfl, rfl, rfl⟩
  | abortReload b old =>
    have hclose : SameBundles s.data (closeWindow s.data b) := ⟨fun _ => rfl, rfl, rfl⟩
    exact Or.inl (hclose.trans (sameBundles_foldl_purgeSlot _))
  | applyReloadSwap b old descriptor dependencies =>
    rcases applyReloadSwap_bundles hp b old descriptor dependencies with
      ⟨-, hsame⟩ | ⟨-, hrecord, hwrites⟩
    · exact Or.inl hsame
    · refine Or.inr ⟨hwrites, fun _ _ _ heq => ?_, fun _ _ _ _ heq => ?_⟩
      · cases heq
      · cases heq
        exact hrecord
  | invalidateBundle b =>
    simp only [RuntimeStore.exec, invalidateBundle]
    cases hbd : s.data.bundleData.lookup b with
    | none => exact Or.inl (.refl _)
    | some bd =>
      have hloop := @sameBundles_foldl_vacateSlot s.data bd.pluginSlots
      refine Or.inr ⟨⟨fun x => ?_, ?_, ?_⟩, fun _ _ _ heq => ?_, fun _ _ _ _ heq => ?_⟩
      · simp only [RuntimeStore.publish, bundleWrites, foldl_vacateSlot_bundleData]
      · simp only [RuntimeStore.publish, bundleWrites, hloop.declaredDeps]
      · simp only [RuntimeStore.publish, bundleWrites, descriptorOf, hbd, Option.map_some,
          retainName, hloop.nameIndex]
      · cases heq
      · cases heq

/-! ### Declared dependencies -/

/-- The dependencies of a registered bundle that a call brings in: those it
declares, or those that were declared before the bundle had a record. -/
def broughtDeps (data : RuntimeStoreData) : StoreOp → Finset GuestContractId
  | .registerPreparedBundle _ deps _      => deps
  | .applyReloadSwap _ _ _ deps           => deps
  | .declareBundleDependencies b cids     => data.declaredOf b ∪ cids.toFinset
  | .registerGuestContract _ _ _ _ b      =>
    if (data.descriptorOf b).isSome then ∅ else data.declaredOf b
  | .registerBundleMetadata b _ _ _ _ _   =>
    if (data.descriptorOf b).isSome then ∅ else data.declaredOf b
  | _                                     => ∅

/-- A registered bundle declares a dependency on one of the contracts. -/
def Declares (data : RuntimeStoreData) (x : BundleId) (contracts : Finset GuestContractId) :
    Prop :=
  (data.descriptorOf x).isSome ∧ ¬ Disjoint (data.declaredOf x) contracts

instance (data : RuntimeStoreData) (x : BundleId) (contracts : Finset GuestContractId) :
    Decidable (Declares data x contracts) := inferInstanceAs (Decidable (_ ∧ _))

theorem SameBundles.declares_iff {data data' : RuntimeStoreData} (h : SameBundles data data')
    (x : BundleId) (contracts : Finset GuestContractId) :
    Declares data' x contracts ↔ Declares data x contracts := by
  rw [Declares, Declares, h.descriptorOf_eq, h.declaredOf_eq]

/-- A dependency that a call leaves was there before, or the call brought it in. -/
theorem declares_of_bundleWrites {data : RuntimeStoreData} {op : StoreOp} {x : BundleId}
    {contracts : Finset GuestContractId} (h : Declares (bundleWrites data op) x contracts) :
    Declares data x contracts ∨
      x = op.bundleId ∧ ¬ Disjoint (broughtDeps data op) contracts := by
  obtain ⟨hrecord, hdeps⟩ := h
  cases op with
  | registerGuestContract descriptor interface ptr contractName b =>
    -- A registration may add a record for its bundle, and then old dependencies count.
    have hdeclared : (bundleWrites data (.registerGuestContract descriptor interface ptr
        contractName b)).declaredOf x = data.declaredOf x := by
      simp only [bundleWrites, ensureDefaultBundleData, declaredOf]
      split <;> rfl
    rw [hdeclared] at hdeps
    by_cases hx : (data.descriptorOf x).isSome
    · exact Or.inl ⟨hx, hdeps⟩
    · have hxb : x = b := by
        by_contra hne
        refine hx ?_
        simp only [bundleWrites, ensureDefaultBundleData, descriptorOf] at hrecord
        split at hrecord
        · exact hrecord
        · simpa [lookup_insert_eq, hne, descriptorOf] using hrecord
      subst hxb
      exact Or.inr ⟨rfl, by simpa [broughtDeps, hx] using hdeps⟩
  | registerPreparedBundle d deps cs =>
    by_cases hx : x = d.id
    · refine Or.inr ⟨hx, ?_⟩
      simpa [bundleWrites, insertBundle, declaredOf, lookup_insert_eq, hx, broughtDeps] using hdeps
    · refine Or.inl ⟨?_, ?_⟩
      · simpa [bundleWrites, insertBundle, descriptorOf, lookup_insert_eq, hx] using hrecord
      · simpa [bundleWrites, insertBundle, declaredOf, lookup_insert_eq, hx] using hdeps
  | declareBundleDependencies b cids =>
    by_cases hx : x = b
    · subst hx
      refine Or.inr ⟨rfl, ?_⟩
      rw [broughtDeps]
      rwa [show (bundleWrites data (.declareBundleDependencies x cids)).declaredOf x
        = data.declaredOf x ∪ cids.toFinset by simp [bundleWrites, declaredOf]] at hdeps
    · refine Or.inl ⟨hrecord, ?_⟩
      simpa [bundleWrites, declaredOf, lookup_insert_eq, hx] using hdeps
  | registerBundleMetadata b name version runtime origin dependencies =>
    by_cases hx : (data.descriptorOf x).isSome
    · exact Or.inl ⟨hx, hdeps⟩
    · have hxb : x = b := by
        by_contra hne
        refine hx ?_
        simpa [bundleWrites, descriptorOf, lookup_insert_eq, hne] using hrecord
      subst hxb
      have hdeclared : ¬ Disjoint (data.declaredOf x) contracts := hdeps
      exact Or.inr ⟨rfl, by simpa [broughtDeps, hx] using hdeclared⟩
  | beginReload b => exact Or.inl ⟨hrecord, hdeps⟩
  | abortReload b old => exact Or.inl ⟨hrecord, hdeps⟩
  | applyReloadSwap b old d deps =>
    by_cases hx : x = b
    · refine Or.inr ⟨hx, ?_⟩
      simpa [bundleWrites, declaredOf, lookup_insert_eq, hx, broughtDeps] using hdeps
    · refine Or.inl ⟨?_, ?_⟩
      · simpa [bundleWrites, descriptorOf, lookup_insert_eq, hx] using hrecord
      · simpa [bundleWrites, declaredOf, lookup_insert_eq, hx] using hdeps
  | invalidateBundle b =>
    by_cases hx : x = b
    · simp [bundleWrites, descriptorOf, lookup_erase_eq, hx] at hrecord
    · refine Or.inl ⟨?_, ?_⟩
      · simpa [bundleWrites, descriptorOf, lookup_erase_eq, hx] using hrecord
      · simpa [bundleWrites, declaredOf, lookup_erase_eq, hx] using hdeps

theorem declares_of_exec {s : RuntimeStore} (hp : s.data.Present)
    {op : StoreOp} {x : BundleId} {contracts : Finset GuestContractId}
    (h : Declares (s.exec op).data x contracts) :
    Declares s.data x contracts ∨
      x = op.bundleId ∧ ¬ Disjoint (broughtDeps s.data op) contracts := by
  rcases exec_bundles hp op with hsame | ⟨hsame, -, -⟩
  · exact Or.inl ((hsame.declares_iff x contracts).mp h)
  · exact declares_of_bundleWrites ((hsame.declares_iff x contracts).mp h)

/-! ### Exports and dependents -/

/-- A contract is exported when one of its listed slots is a slot of the bundle. -/
theorem mem_bundleExportedContracts {s : RuntimeStore} {b : BundleId} {cid : GuestContractId} :
    cid ∈ s.bundleExportedContracts b ↔
      ∃ i ∈ s.data.indexOf cid, i ∈ s.data.pluginSlots b := by
  unfold bundleExportedContracts
  cases hbd : s.data.bundleData.lookup b with
  | none => simp [pluginSlots, hbd]
  | some bd =>
    have hslots : s.data.pluginSlots b = bd.pluginSlots := by simp [pluginSlots, hbd]
    simp only [Finset.mem_filter, Finmap.mem_keys, List.any_eq_true, decide_eq_true_eq, hslots]
    refine ⟨fun h => h.2, fun h => ⟨?_, h⟩⟩
    -- A contract with a listed slot is a key of the index.
    obtain ⟨i, hi, -⟩ := h
    rw [← Finmap.lookup_isSome]
    cases hl : s.data.guestContractIndex.lookup cid with
    | none => simp [indexOf, hl] at hi
    | some indices => rfl

theorem mem_bundlesDependingOnAny {s : RuntimeStore} {contracts : Finset GuestContractId}
    {x : BundleId} :
    x ∈ s.bundlesDependingOnAny contracts ↔ ¬ Disjoint (s.data.declaredOf x) contracts := by
  simp only [bundlesDependingOnAny, Finset.mem_filter, Finmap.mem_keys, declaredOf]
  refine ⟨fun h => h.2, fun h => ⟨?_, h⟩⟩
  rw [← Finmap.lookup_isSome]
  cases hl : s.data.bundleDeclaredDeps.lookup x with
  | none => simp [hl] at h
  | some deps => rfl

/-! ### Names -/

/-- A call that rewrites the record of a bundle gives the name the bundle is
listed under. -/
def NameKept (data : RuntimeStoreData) : StoreOp → Prop
  | .registerBundleMetadata b name _ _ _ _ =>
    ∀ d ∈ data.descriptorOf b, b ∈ data.namedAs d.name → d.name = name
  | .applyReloadSwap b _ d' _ =>
    ∀ d ∈ data.descriptorOf b, b ∈ data.namedAs d.name → d.name = d'.name
  | _ => True

instance (data : RuntimeStoreData) : (op : StoreOp) → Decidable (NameKept data op)
  | .registerBundleMetadata b name _ _ _ _ => inferInstanceAs (Decidable
      (∀ d ∈ data.descriptorOf b, b ∈ data.namedAs d.name → d.name = name))
  | .applyReloadSwap b _ d' _ => inferInstanceAs (Decidable
      (∀ d ∈ data.descriptorOf b, b ∈ data.namedAs d.name → d.name = d'.name))
  | .registerGuestContract .. | .registerPreparedBundle .. | .declareBundleDependencies ..
  | .beginReload _ | .abortReload .. | .invalidateBundle _ => inferInstanceAs (Decidable True)

theorem SameBundles.namesLinked {data data' : RuntimeStoreData} (h : SameBundles data data')
    (hn : data.NamesLinked) : data'.NamesLinked := by
  intro name x hx
  rw [h.namedAs_eq] at hx
  rw [h.descriptorOf_eq]
  exact hn name x hx

/-- The name index after an invalidation. -/
theorem namedAs_retainName (data : RuntimeStoreData) (name name' : String) (b : BundleId) :
    ((retainName data name b).lookup name').getD []
      = if name' = name then (data.namedAs name').filter (· ≠ b) else data.namedAs name' := by
  unfold retainName namedAs
  by_cases hn : name' = name
  · subst hn
    rw [if_pos rfl]
    cases hl : data.bundleNameIndex.lookup name' with
    | none => simp [hl]
    | some ids =>
      dsimp only
      split
      · rename_i hempty
        simp only [List.isEmpty_iff] at hempty
        rw [lookup_erase_eq, if_pos rfl, Option.getD_some, hempty, Option.getD_none]
      · simp
  · rw [if_neg hn]
    cases hl : data.bundleNameIndex.lookup name with
    | none => rfl
    | some ids =>
      dsimp only
      split
      · rw [lookup_erase_eq, if_neg hn]
      · rw [lookup_insert_eq, if_neg hn]

/-- The bundle part of a call keeps the names linked. -/
theorem namesLinked_bundleWrites {data : RuntimeStoreData} (h : data.NamesLinked) {op : StoreOp}
    (hop : NameKept data op)
    (hnew : ∀ d deps cs, op = .registerPreparedBundle d deps cs → data.descriptorOf d.id = none) :
    (bundleWrites data op).NamesLinked := by
  intro name x hx
  cases op with
  | registerGuestContract descriptor interface ptr contractName b =>
    have hnamed : x ∈ data.namedAs name := by
      simp only [bundleWrites, ensureDefaultBundleData, namedAs] at hx
      split at hx <;> exact hx
    obtain ⟨d, hd, hname⟩ := h name x hnamed
    refine ⟨d, ?_, hname⟩
    simp only [bundleWrites, ensureDefaultBundleData]
    split
    · exact hd
    · rename_i hnone
      -- A listed bundle has a record, so the default record is not its own.
      have hne : x ≠ b := by
        rintro rfl
        simp [descriptorOf, hnone] at hd
      simpa [descriptorOf, lookup_insert_eq, hne] using hd
  | registerPreparedBundle d deps cs =>
    have hrecord := hnew d deps cs rfl
    simp only [bundleWrites, insertBundle, namedAs, descriptorOf, lookup_insert_eq] at hx ⊢
    by_cases hxd : x = d.id
    · refine ⟨d, by simp [hxd], ?_⟩
      by_contra hne
      rw [if_neg (fun he => hne he.symm)] at hx
      obtain ⟨d', hd', -⟩ := h name x hx
      rw [hxd, hrecord] at hd'
      cases hd'
    · have hold : x ∈ data.namedAs name := by
        split at hx
        · rename_i hname
          rw [hname]
          simpa [namedAs, hxd] using hx
        · exact hx
      obtain ⟨d', hd', hname⟩ := h name x hold
      exact ⟨d', by rw [if_neg hxd]; exact hd', hname⟩
  | declareBundleDependencies b cids => exact h name x hx
  | registerBundleMetadata b name' version runtime origin dependencies =>
    simp only [bundleWrites, namedAs, descriptorOf, lookup_insert_eq] at hx ⊢
    by_cases hxb : x = b
    · subst hxb
      refine ⟨_, by rw [if_pos rfl]; rfl, ?_⟩
      by_contra hne
      rw [if_neg (fun he => hne he.symm)] at hx
      obtain ⟨d, hd, rfl⟩ := h name x hx
      exact hne (hop d hd hx).symm
    · have hold : x ∈ data.namedAs name := by
        split at hx
        · rename_i hname
          rw [hname]
          by_cases hmem : b ∈ (data.bundleNameIndex.lookup name').getD []
          · simpa [namedAs, hmem] using hx
          · simpa [namedAs, hmem, hxb] using hx
        · exact hx
      obtain ⟨d, hd, hname⟩ := h name x hold
      exact ⟨d, by rw [if_neg hxb]; exact hd, hname⟩
  | beginReload b => exact h name x hx
  | abortReload b old => exact h name x hx
  | applyReloadSwap b old d' deps =>
    simp only [bundleWrites, descriptorOf, lookup_insert_eq]
    obtain ⟨d, hd, rfl⟩ := h name x hx
    by_cases hxb : x = b
    · subst hxb
      exact ⟨d', by rw [if_pos rfl]; rfl, (hop d hd hx).symm⟩
    · exact ⟨d, by rw [if_neg hxb]; exact hd, rfl⟩
  | invalidateBundle b =>
    have hold : x ∈ data.namedAs name ∧ x ≠ b := by
      simp only [bundleWrites, namedAs] at hx
      cases hd : data.descriptorOf b with
      | none =>
        rw [hd] at hx
        refine ⟨hx, ?_⟩
        rintro rfl
        obtain ⟨d, hd', -⟩ := h name x hx
        rw [hd] at hd'
        cases hd'
      | some d =>
        rw [hd] at hx
        dsimp only at hx
        rw [namedAs_retainName] at hx
        split at hx
        · simpa using hx
        · rename_i hne
          refine ⟨hx, ?_⟩
          rintro rfl
          obtain ⟨d', hd', hname⟩ := h name x hx
          rw [hd] at hd'
          cases hd'
          exact hne hname.symm
    obtain ⟨d, hd, hname⟩ := h name x hold.1
    refine ⟨d, ?_, hname⟩
    simpa [bundleWrites, descriptorOf, lookup_erase_eq, hold.2] using hd

theorem namesLinked_exec {s : RuntimeStore} (hp : s.data.Present)
    (h : s.data.NamesLinked) (op : StoreOp) (hop : NameKept s.data op) :
    (s.exec op).data.NamesLinked := by
  rcases exec_bundles hp op with hsame | ⟨hsame, hnew, -⟩
  · exact hsame.namesLinked h
  · exact hsame.namesLinked (namesLinked_bundleWrites h hop hnew)

end PolyPlug.Registry
