import PolyPlug.Lib.Run
import PolyPlug.Proofs.Registry.Bundles
import PolyPlug.Proofs.Registry.Mirror

/-!
# `PolyPlug.Proofs.Registry.Names`: the name index and the descriptors

`NamesAgree` says that `get_bundles_by_name` lists a bundle once, under the name in
its descriptor and under no other. A commit and an unload write the index and the
record together. Three calls write a record and leave an entry of the index as it
was: a registration for a bundle without a record, a change of metadata, and a swap.
They keep the agreement exactly if the name does not change (`KeepsNames`).
`namesAgree_run_iff` says so of whole runs.
-/

set_option autoImplicit false

namespace PolyPlug.Registry

open PolyPlug.Abi
open PolyPlug.Lib
open RuntimeStoreData RuntimeStore

/-- Every name lists the bundles whose descriptor has it, each once. -/
def RuntimeStore.NamesAgree (s : RuntimeStore) : Prop :=
  ∀ name, (s.getBundlesByName name).Nodup ∧
    ∀ x, x ∈ s.getBundlesByName name ↔
      ∃ d, s.getBundleDescriptor x = some d ∧ d.name = name

/-- The registration passes the checks of `register_guest_contract`. -/
def Registrable (s : RuntimeStore) (descriptor : PluginDescriptor)
    (interface : RawGuestContractInterface) (ptr : Nat) (contractName : String) (b : BundleId) :
    Prop :=
  ∃ contract,
    prepareGuestContract descriptor interface contractName interface.adapterContext ptr
      = .ok contract ∧
    validateGuestContractRegistration s.data contract b (decide (b ∈ s.data.reloadingBundles))
      = .ok ()

/-- A call that writes the record of a bundle outside a commit keeps its name. A
registration makes no record, unless it is refused, and neither does a swap whose
reconciliation fails. -/
def KeepsNames (s : RuntimeStore) : StoreOp → Prop
  | .registerGuestContract descriptor interface ptr contractName b =>
    (s.data.descriptorOf b).isSome ∨ ¬Registrable s descriptor interface ptr contractName b
  | .registerBundleMetadata b name _ _ _ _ => ∀ d ∈ s.data.descriptorOf b, d.name = name
  | .applyReloadSwap b old d' _ =>
    (∀ d ∈ s.data.descriptorOf b, d.name = d'.name) ∨
      ¬Completes s.data.contractAt (pendingSlots s.data b old) old
  | _ => True

/-! ### The tables of bundles -/

namespace RuntimeStoreData

/-- `NamesAgree`, on the locked data. -/
def Agrees (data : RuntimeStoreData) : Prop :=
  ∀ name, (data.namedAs name).Nodup ∧
    ∀ x, x ∈ data.namedAs name ↔ ∃ d, data.descriptorOf x = some d ∧ d.name = name

end RuntimeStoreData

theorem agrees_new : RuntimeStoreData.new.Agrees := by
  intro name
  simp [namedAs, descriptorOf, RuntimeStoreData.new]

section
variable {data data' : RuntimeStoreData} {b : BundleId}

theorem SameBundles.agrees_iff (h : SameBundles data data') : data'.Agrees ↔ data.Agrees := by
  simp only [Agrees, h.namedAs_eq, h.descriptorOf_eq]

/-- A bundle without a record is listed nowhere. -/
theorem RuntimeStoreData.Agrees.unlisted (h : data.Agrees) (hnone : data.descriptorOf b = none)
    (name : String) :
    b ∉ data.namedAs name := by
  rw [(h name).2]
  rintro ⟨d, hd, -⟩
  rw [hnone] at hd
  cases hd

/-- The default record has no entry in the index. -/
theorem agrees_ensureDefault_iff (h : data.Agrees) :
    (ensureDefaultBundleData data b).Agrees ↔ (data.descriptorOf b).isSome := by
  unfold ensureDefaultBundleData
  cases hrecord : data.bundleData.lookup b with
  | some bd =>
    refine iff_of_true h ?_
    rw [descriptorOf, hrecord]
    rfl
  | none =>
    have hnone : data.descriptorOf b = none := by
      rw [descriptorOf, hrecord]
      rfl
    refine iff_of_false (fun hagrees => ?_) (by simp [hnone])
    have hlisted := ((hagrees "").2 b).mpr
      ⟨defaultDescriptor b, by simp [descriptorOf], rfl⟩
    exact h.unlisted hnone "" hlisted

/-- A commit lists its bundle. -/
theorem agrees_insertBundle (h : data.Agrees) {d : BundleDescriptor}
    (deps : Finset GuestContractId) (hnone : data.descriptorOf d.id = none) :
    (insertBundle data d deps).Agrees := by
  have hrecord (x : BundleId) : (insertBundle data d deps).descriptorOf x
      = if x = d.id then some d else data.descriptorOf x := by
    simp only [descriptorOf, insertBundle, lookup_insert_eq]
    split <;> rfl
  have hnamed (name : String) : (insertBundle data d deps).namedAs name
      = if name = d.name then data.namedAs d.name ++ [d.id] else data.namedAs name := by
    simp only [namedAs, insertBundle, lookup_insert_eq]
    split <;> rfl
  have hnew := h.unlisted hnone
  intro name
  rw [hnamed]
  refine ⟨?_, fun x => ?_⟩
  · split
    · exact List.nodup_append.mpr ⟨(h _).1, List.nodup_singleton _, fun x hx y hy => by
        rintro rfl
        exact hnew _ (List.mem_singleton.mp hy ▸ hx)⟩
    · exact (h name).1
  · rw [hrecord]
    by_cases hx : x = d.id
    · subst hx
      rw [if_pos rfl]
      split
      · rename_i hname
        exact iff_of_true (by simp) ⟨d, rfl, hname.symm⟩
      · rename_i hname
        refine iff_of_false (hnew name) ?_
        rintro ⟨d', hd', hname'⟩
        cases hd'
        exact hname hname'.symm
    · rw [if_neg hx, ← (h name).2 x]
      split
      · rename_i hname
        rw [hname]
        simp [hx]
      · exact Iff.rfl

/-- A change of metadata adds an entry under the new name and leaves the old one. -/
theorem agrees_metadata_iff (h : data.Agrees) (name : String) (version : Version)
    (runtime : SupportedLanguage) (origin : BundleOrigin) (dependencies : List BundleDependency) :
    (bundleWrites data
        (.registerBundleMetadata b name version runtime origin dependencies)).Agrees ↔
      ∀ d ∈ data.descriptorOf b, d.name = name := by
  generalize hwritten : bundleWrites data
    (.registerBundleMetadata b name version runtime origin dependencies) = written
  have hrecord (x : BundleId) : written.descriptorOf x
      = if x = b then some ⟨((data.descriptorOf b).map BundleDescriptor.id).getD b, name, version,
          runtime, origin, dependencies⟩ else data.descriptorOf x := by
    rw [← hwritten]
    simp only [bundleWrites, descriptorOf, lookup_insert_eq]
    split <;> rfl
  have hnamed (n : String) : written.namedAs n
      = if n = name then
          (if b ∈ data.namedAs name then data.namedAs name else data.namedAs name ++ [b])
        else data.namedAs n := by
    rw [← hwritten]
    simp only [bundleWrites, namedAs, lookup_insert_eq]
    split <;> rfl
  have hlisted : ∀ x n, x ≠ b → (x ∈ written.namedAs n ↔ x ∈ data.namedAs n) := by
    intro x n hx
    rw [hnamed]
    split
    · rename_i hn
      rw [hn]
      split
      · exact Iff.rfl
      · simp [hx]
    · exact Iff.rfl
  constructor
  · intro hagrees d hd
    by_contra hne
    -- The entry under the old name is still there.
    have hold : b ∈ written.namedAs d.name := by
      rw [hnamed, if_neg hne]
      exact ((h d.name).2 b).mpr ⟨d, hd, rfl⟩
    obtain ⟨d', hd', hname⟩ := ((hagrees d.name).2 b).mp hold
    rw [hrecord, if_pos rfl] at hd'
    cases hd'
    exact hne hname.symm
  · intro hkept n
    refine ⟨?_, fun x => ?_⟩
    · rw [hnamed]
      split
      · split
        · exact (h name).1
        · rename_i hnot
          exact List.nodup_append.mpr ⟨(h name).1, List.nodup_singleton _, fun x hx y hy => by
            rintro rfl
            exact hnot (List.mem_singleton.mp hy ▸ hx)⟩
      · exact (h n).1
    · by_cases hx : x = b
      · subst hx
        rw [hrecord, if_pos rfl, hnamed]
        by_cases hn : n = name
        · rw [if_pos hn]
          refine iff_of_true ?_ ⟨_, rfl, hn.symm⟩
          split
          · assumption
          · simp
        · rw [if_neg hn]
          refine iff_of_false (fun hmem => ?_) ?_
          · obtain ⟨d, hd, hname⟩ := ((h n).2 x).mp hmem
            exact hn (hname.symm.trans (hkept d hd))
          · rintro ⟨d, hd, hname⟩
            cases hd
            exact hn hname.symm
      · rw [hlisted x n hx, hrecord, if_neg hx]
        exact (h n).2 x

/-- A swap leaves the index alone. -/
theorem agrees_swap_iff (h : data.Agrees) (old : List Nat) (d' : BundleDescriptor)
    (deps : Finset GuestContractId) (hsome : (data.descriptorOf b).isSome) :
    (bundleWrites data (.applyReloadSwap b old d' deps)).Agrees ↔
      ∀ d ∈ data.descriptorOf b, d.name = d'.name := by
  have hrecord (x : BundleId) :
      (bundleWrites data (.applyReloadSwap b old d' deps)).descriptorOf x
      = if x = b then some d' else data.descriptorOf x := by
    simp only [bundleWrites, descriptorOf, lookup_insert_eq]
    split <;> rfl
  obtain ⟨d, hd⟩ := Option.isSome_iff_exists.mp hsome
  constructor
  · intro hagrees d₁ hd₁
    rw [Option.mem_def, hd] at hd₁
    cases hd₁
    obtain ⟨d₂, hd₂, hname⟩ := ((hagrees d.name).2 b).mp (((h d.name).2 b).mpr ⟨d, hd, rfl⟩)
    rw [hrecord, if_pos rfl] at hd₂
    cases hd₂
    exact hname.symm
  · intro hkept name
    refine ⟨(h name).1, fun x => ?_⟩
    rw [hrecord]
    show x ∈ data.namedAs name ↔ _
    rw [(h name).2 x]
    by_cases hx : x = b
    · subst hx
      rw [if_pos rfl, hd]
      simp [hkept d hd]
    · rw [if_neg hx]

/-- An unload takes its bundle off the index. -/
theorem agrees_invalidate (h : data.Agrees) :
    (bundleWrites data (.invalidateBundle b)).Agrees := by
  have hrecord (x : BundleId) : (bundleWrites data (.invalidateBundle b)).descriptorOf x
      = if x = b then none else data.descriptorOf x := by
    simp only [bundleWrites, descriptorOf, lookup_erase_eq]
    split <;> rfl
  have hnamed (name : String) : (bundleWrites data (.invalidateBundle b)).namedAs name
      = (data.namedAs name).filter (· ≠ b) := by
    have hkeep (hb : b ∉ data.namedAs name) :
        data.namedAs name = (data.namedAs name).filter (· ≠ b) :=
      (List.filter_eq_self.mpr fun x hx => by
        simpa using fun he : x = b => hb (he ▸ hx)).symm
    simp only [bundleWrites]
    cases hd : data.descriptorOf b with
    | none => exact hkeep (h.unlisted hd name)
    | some d =>
      show ((retainName data d.name b).lookup name).getD [] = _
      rw [namedAs_retainName]
      split
      · rfl
      · rename_i hne
        refine hkeep fun hb => ?_
        obtain ⟨d', hd', hname⟩ := ((h name).2 b).mp hb
        rw [hd] at hd'
        cases hd'
        exact hne hname.symm
  intro name
  rw [hnamed]
  refine ⟨(h name).1.filter _, fun x => ?_⟩
  rw [hrecord, List.mem_filter, (h name).2 x]
  by_cases hx : x = b
  · simp [hx]
  · simp [hx]

end

/-! ### The calls -/

section
variable {s : RuntimeStore} {b : BundleId}

/-- The checks decide the result of a registration. -/
theorem registrable_iff (s : RuntimeStore) (descriptor : PluginDescriptor)
    (interface : RawGuestContractInterface) (ptr : Nat) (contractName : String) (b : BundleId) :
    Registrable s descriptor interface ptr contractName b ↔
      ∃ h, (s.registerGuestContract descriptor interface ptr contractName b).1 = .ok h := by
  constructor
  · rintro ⟨contract, hprep, hvalid⟩
    obtain ⟨h, data', hins⟩ := insertPreparedGuestContract_ok contract
      (!decide (b ∈ s.data.reloadingBundles)) (ensureDefaultBundleData_isSome s.data b)
    refine ⟨h, ?_⟩
    simp only [registerGuestContract, hprep, hvalid, hins]
  · rintro ⟨h, hok⟩
    rcases registerGuestContract_cases s descriptor interface ptr contractName b with
      ⟨e, heq⟩ | ⟨contract, -, -, hprep, hvalid, -, -⟩
    · rw [heq] at hok
      cases hok
    · exact ⟨contract, hprep, hvalid⟩

/-- A registration. -/
theorem agrees_registerGuestContract_iff (h : s.data.Agrees) (descriptor : PluginDescriptor)
    (interface : RawGuestContractInterface) (ptr : Nat) (contractName : String) (b : BundleId) :
    (s.registerGuestContract descriptor interface ptr contractName b).2.data.Agrees ↔
      (s.data.descriptorOf b).isSome ∨
        ¬Registrable s descriptor interface ptr contractName b := by
  rcases registerGuestContract_cases s descriptor interface ptr contractName b with
    ⟨e, heq⟩ | ⟨contract, handle, data', hprep, hvalid, hins, heq⟩
  · have hrefused : ¬Registrable s descriptor interface ptr contractName b := by
      rw [registrable_iff, heq]
      rintro ⟨handle, hok⟩
      cases hok
    rw [heq]
    exact iff_of_true h (Or.inr hrefused)
  · rw [heq]
    show data'.Agrees ↔ _
    rw [(sameBundles_insertPreparedGuestContract hins).agrees_iff, agrees_ensureDefault_iff h]
    exact ⟨Or.inl, fun hor => hor.resolve_right fun hnot => hnot ⟨contract, hprep, hvalid⟩⟩

/-- A swap, from its three ends. -/
theorem agrees_applyReloadSwap_iff (hp : s.data.Present) (h : s.data.Agrees) (old : List Nat)
    (d' : BundleDescriptor) (deps : Finset GuestContractId) :
    (s.applyReloadSwap b old d' deps).2.data.Agrees ↔
      (∀ d ∈ s.data.descriptorOf b, d.name = d'.name) ∨
        ¬Completes s.data.contractAt (pendingSlots s.data b old) old := by
  have hp' := (sameSlots_closeWindow s.data b).present.mpr hp
  have hdisj : ∀ n ∈ pendingSlots s.data b old, n ∉ old := by
    simp [pendingSlots]
  rcases applyReloadSwap_bundles hp b old d' deps with ⟨⟨e, herror⟩, hsame⟩ | ⟨hok, hsome, hwrites⟩
  · refine iff_of_true (hsame.agrees_iff.mpr h) ?_
    rcases applyReloadSwap_cases s b old d' deps with
      ⟨e', mid, hloop, -⟩ | ⟨mid, hloop, ⟨hnone, -⟩ | ⟨bd, -, heq⟩⟩
    · refine Or.inr fun hall => ?_
      obtain ⟨mid', hok⟩ := (@swapOldSlots_ok_iff _ b _ old hp' hdisj).mpr hall
      rw [hloop] at hok
      cases hok
    · -- No record, so no name to keep.
      have hclose : SameBundles s.data (closeWindow s.data b) := ⟨fun _ => rfl, rfl, rfl⟩
      have hmid := hclose.trans (swapOldSlots_effect hp' hloop).bundles
      rw [(foldl_publishSlot _ mid).bundleData] at hnone
      have hrecord : s.data.descriptorOf b = none := by
        rw [← hmid.descriptorOf_eq, descriptorOf, hnone]
        rfl
      exact Or.inl (by simp [hrecord])
    · rw [heq] at herror
      cases herror
  · rw [hwrites.agrees_iff, agrees_swap_iff h old d' deps hsome]
    refine ⟨Or.inl, fun hor => hor.resolve_right fun hnot => hnot ?_⟩
    rcases applyReloadSwap_cases s b old d' deps with
      ⟨e', mid, -, heq⟩ | ⟨mid, hloop, -⟩
    · rw [heq] at hok
      cases hok
    · exact (@swapOldSlots_ok_iff _ b _ old hp' hdisj).mp ⟨mid, hloop⟩

/-- A call keeps the agreement exactly under its condition. -/
theorem agrees_exec_iff (hp : s.data.Present) (h : s.data.Agrees) (op : StoreOp) :
    (s.exec op).data.Agrees ↔ KeepsNames s op := by
  cases op with
  | registerGuestContract descriptor interface ptr contractName b =>
    exact agrees_registerGuestContract_iff h descriptor interface ptr contractName b
  | registerPreparedBundle descriptor dependencies contracts =>
    refine iff_of_true ?_ trivial
    rcases exec_bundles hp (.registerPreparedBundle descriptor dependencies contracts) with
      hsame | ⟨hsame, hnew, -⟩
    · exact hsame.agrees_iff.mpr h
    · exact hsame.agrees_iff.mpr (agrees_insertBundle h dependencies (hnew _ _ _ rfl))
  | declareBundleDependencies b contractIds => exact iff_of_true h trivial
  | registerBundleMetadata b name version runtime origin dependencies =>
    have hsame := sameBundles_registerBundleMetadata s b name version runtime origin dependencies
    exact hsame.agrees_iff.trans
      (agrees_metadata_iff h name version runtime origin dependencies)
  | beginReload b => exact iff_of_true h trivial
  | abortReload b old =>
    refine iff_of_true ?_ trivial
    have hclose : SameBundles s.data (closeWindow s.data b) := ⟨fun _ => rfl, rfl, rfl⟩
    exact (hclose.trans (sameBundles_foldl_purgeSlot _)).agrees_iff.mpr h
  | applyReloadSwap b old d' deps => exact agrees_applyReloadSwap_iff hp h old d' deps
  | invalidateBundle b =>
    refine iff_of_true ?_ trivial
    rcases exec_bundles hp (.invalidateBundle b) with hsame | ⟨hsame, -, -⟩
    · exact hsame.agrees_iff.mpr h
    · exact hsame.agrees_iff.mpr (agrees_invalidate h)

end

/-! ### Runs -/

/-- In a run, the index agrees with the descriptors after every call exactly if
every call keeps the names. -/
theorem namesAgree_run_iff (ops : List StoreOp) :
    Steps RuntimeStore.exec (fun s op => (s.exec op).NamesAgree) RuntimeStore.new ops ↔
      Steps RuntimeStore.exec KeepsNames RuntimeStore.new ops := by
  suffices hrun : ∀ s : RuntimeStore, s.data.Present → s.data.Agrees →
      (Steps RuntimeStore.exec (fun s op => (s.exec op).NamesAgree) s ops ↔
        Steps RuntimeStore.exec KeepsNames s ops) from
    hrun RuntimeStore.new present_new agrees_new
  induction ops with
  | nil => exact fun _ _ _ => Iff.rfl
  | cons op rest ih =>
    intro s hp h
    have hstep : (s.exec op).NamesAgree ↔ KeepsNames s op := agrees_exec_iff hp h op
    have hp' : (s.exec op).data.Present := present_call hp (.op op)
    constructor
    · rintro ⟨hagree, hrest⟩
      exact ⟨hstep.mp hagree, (ih _ hp' hagree).mp hrest⟩
    · rintro ⟨hkeeps, hrest⟩
      have hagree := hstep.mpr hkeeps
      exact ⟨hagree, (ih _ hp' hagree).mpr hrest⟩

/-- A bundle that a reload brings in is listed under no name: its window opens, its
init registers a contract, the swap gives it the name of its manifest. -/
theorem swap_of_unloaded_is_unlisted :
    let b : BundleId := ⟨1⟩
    let descriptor : BundleDescriptor := ⟨b, "a", ⟨1, 0, 0⟩, .rust, .path "/p", []⟩
    let s := run RuntimeStore.exec RuntimeStore.new
      [.beginReload b, .register b ⟨7⟩ "c" 0, .applyReloadSwap b [] descriptor ∅]
    (s.getBundleDescriptor b).map BundleDescriptor.name = some "a" ∧
      s.getBundlesByName "a" = [] ∧ ¬s.NamesAgree := by
  intro b descriptor s
  have hrecord : s.getBundleDescriptor b = some descriptor := by decide +kernel
  have hlisted : s.getBundlesByName "a" = [] := by decide +kernel
  refine ⟨by rw [hrecord]; rfl, hlisted, fun hagree => ?_⟩
  have hmem := ((hagree "a").2 b).mpr ⟨descriptor, hrecord, rfl⟩
  rw [hlisted] at hmem
  cases hmem

end PolyPlug.Registry
