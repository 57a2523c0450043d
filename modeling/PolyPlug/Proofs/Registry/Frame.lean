import PolyPlug.Proofs.Registry.Tidy

/-!
# `PolyPlug.Proofs.Registry.Frame`: what a call leaves alone

Every mutator works for one bundle (`StoreOp.bundleId`). `exec_leaves` is the
frame rule of the registry: in a tidy run a call leaves the slots of all other
bundles as they are, and so their slot lists and their places in the contract
index.
-/

set_option autoImplicit false

namespace PolyPlug.Registry

open PolyPlug.Abi
open PolyPlug.Lib
open PolyPlug.Lib.Catalog
open RuntimeStoreData RuntimeStore

/-- The bundle a call works for. -/
def StoreOp.bundleId : StoreOp → BundleId
  | .registerGuestContract _ _ _ _ b    => b
  | .registerPreparedBundle d _ _       => d.id
  | .declareBundleDependencies b _      => b
  | .registerBundleMetadata b _ _ _ _ _ => b
  | .beginReload b                      => b
  | .abortReload b _                    => b
  | .applyReloadSwap b _ _ _            => b
  | .invalidateBundle b                 => b

/-- The slots of every bundle but `b` are as before, and so is their place in the
index. -/
def ForeignKept (data : RuntimeStoreData) (b : BundleId) (data' : RuntimeStoreData) : Prop :=
  ∀ i slot entry, data.slots[i]? = some slot → slot.entry = some entry → entry.bundleId ≠ b →
    data'.slots[i]? = some slot ∧ ∀ cid, i ∈ data'.indexOf cid ↔ i ∈ data.indexOf cid

/-- The slots of every bundle but `b`, and their slot lists, are as before. -/
structure Leaves (b : BundleId) (data data' : RuntimeStoreData) : Prop where
  pluginSlots : ∀ x, x ≠ b → data'.pluginSlots x = data.pluginSlots x
  foreign : ForeignKept data b data'

section
variable {data data' : RuntimeStoreData} {b : BundleId}

/-- A slot with the same registration and the same generation is the same slot. -/
theorem slot_eq_of_content {i : Nat} {g : Registration} (hg : data.catalog.content i = some g)
    (hg' : data'.catalog.content i = some g) (hgen : data'.generationAt i = data.generationAt i) :
    data'.slots[i]? = data.slots[i]? := by
  obtain ⟨slot, hslot, hentry, harc⟩ := content_eq_some.mp hg
  obtain ⟨slot', hslot', hentry', harc'⟩ := content_eq_some.mp hg'
  rw [hslot, hslot']
  simp only [generationAt, hslot, hslot', Option.map_some, Option.getD_some] at hgen
  cases slot
  cases slot'
  simp_all

theorem foreignKept_of_content (hp : data.Present)
    (h : ∀ i g, data.catalog.content i = some g → g.owner ≠ b →
      data'.catalog.content i = some g ∧ data'.generationAt i = data.generationAt i ∧
        ∀ cid, i ∈ data'.indexOf cid ↔ i ∈ data.indexOf cid) : ForeignKept data b data' := by
  intro i slot entry hslot hentry hb
  have harc : slot.interface.isSome := by
    rw [← hp slot (List.mem_of_getElem? hslot), hentry]
    rfl
  obtain ⟨arc, harc⟩ := Option.isSome_iff_exists.mp harc
  have hg : data.catalog.content i = some ⟨entry, arc⟩ :=
    content_eq_some.mpr ⟨slot, hslot, hentry, harc⟩
  obtain ⟨hg', hgen, hindex⟩ := h i _ hg hb
  exact ⟨(slot_eq_of_content hg hg' hgen).trans hslot, hindex⟩

/-- The bundle of a foreign slot. -/
theorem ForeignKept.bundle_eq (h : ForeignKept data b data') {i : Nat} {x : BundleId}
    (hx : (data.entryAt i).map PluginEntry.bundleId = some x) (hb : x ≠ b) :
    (data'.entryAt i).map PluginEntry.bundleId = some x := by
  obtain ⟨entry, hentry, rfl⟩ := Option.map_eq_some_iff.mp hx
  obtain ⟨slot, hslot, hsome⟩ := Option.bind_eq_some_iff.mp hentry
  obtain ⟨hslot', -⟩ := h i slot entry hslot hsome hb
  simp [entryAt, hslot', hsome]

/-- A swap over own slots keeps the slots of the other bundles. -/
theorem OwnSwap.foreignKept {s : RuntimeStore} {old : List Nat} (hp : s.data.Present)
    (hc : s.data.Consistent) (h : OwnSwap s b old data') : ForeignKept s.data b data' := by
  refine foreignKept_of_content hp fun i g hg hb => ?_
  obtain ⟨c, hrec, hcat⟩ := h.reconciled
  have hforeign : c.content i = some g := by
    rw [hrec.foreign i (by simpa [ownerAt, hg] using hb), hg]
  have hg' : data'.catalog.content i = some g := by
    rw [hcat, publish_content, hforeign]
  refine ⟨hg', ?_, fun cid => ?_⟩
  · rw [h.vacates.generation i, if_neg]
    rintro ⟨-, hdead⟩
    rw [hg'] at hdead
    cases hdead
  · -- The pending slots are slots of `b`, so publishing them does not touch `i`.
    have hnot : i ∉ pendingSlots s.data b old := fun hmem =>
      hb (hc.holder_unique (hc.held_of_content hg) (List.mem_filter.mp hmem).1)
    have hnodup : (pendingSlots s.data b old).Nodup := (hc.held_nodup b).filter _
    show i ∈ data'.catalog.listed cid ↔ i ∈ s.data.catalog.listed cid
    rw [hcat, mem_publish _ _ _ hnodup, hrec.listed_eq]
    simp [hnot, hforeign]

/-- So does the purge of an abort. -/
theorem PurgeLoop.foreignKept {data₀ : RuntimeStoreData} {old : List Nat} (hp : data.Present)
    (hc : data.Consistent) (hsame : SameSlots data data₀)
    (h : PurgeLoop b (pendingSlots data b old) data₀ data') : ForeignKept data b data' := by
  refine foreignKept_of_content hp fun i g hg hb => ?_
  have hcat := h.catalog_eq
  rw [hsame.catalog_eq] at hcat
  have hnot : i ∉ pendingSlots data b old := fun hmem =>
    hb (hc.holder_unique (hc.held_of_content hg) (List.mem_filter.mp hmem).1)
  refine ⟨?_, (h.generations i).trans (hsame.generationAt_eq i), fun cid => ?_⟩
  · rw [hcat]
    simp [withdraw, hnot, hg]
  · show i ∈ data'.catalog.listed cid ↔ i ∈ data.catalog.listed cid
    rw [hcat]
    simp [withdraw, hnot]

theorem SameSlots.foreignKept (hp : data.Present) (hsame : SameSlots data data') :
    ForeignKept data b data' := by
  refine foreignKept_of_content hp fun i g hg _ => ⟨?_, hsame.generationAt_eq i, fun cid => ?_⟩
  · rw [hsame.catalog_eq, hg]
  · simp only [indexOf, hsame.index]

theorem SameSlots.leaves (hp : data.Present) (hsame : SameSlots data data') :
    Leaves b data data' :=
  ⟨fun x _ => hsame.pluginSlots x, hsame.foreignKept hp⟩

/-- A registration call fills vacant slots and lists nothing else. -/
theorem Registers.leaves {rs : List Registration} {hs : List GuestContractHandle}
    (hp : data.Present) (h : Registers data b rs hs data') : Leaves b data data' := by
  refine ⟨fun x hx => ?_, foreignKept_of_content hp fun i g hg _ =>
    ⟨h.content_kept hg, h.generationAt_eq i, fun cid => ?_⟩⟩
  · refine h.rule (I := fun d => d.pluginSlots x = data.pluginSlots x) rfl ?_ ?_
    · intro d d' hsame _ hd
      rw [hsame.pluginSlots, hd]
    · intro d r handle d' _ howner _ hins hd
      have hheld : d'.catalog.held x = d.catalog.held x := by
        rw [hins.catalog_eq]
        simp [add, howner, hx]
      exact hheld.trans hd
  · have hinv : data'.catalog.content i = some g ∧
        (i ∈ data'.catalog.listed cid ↔ i ∈ data.catalog.listed cid) := by
      refine h.rule (I := fun d => d.catalog.content i = some g ∧
        (i ∈ d.catalog.listed cid ↔ i ∈ data.catalog.listed cid)) ⟨hg, Iff.rfl⟩ ?_ ?_
      · rintro d d' hsame - hd
        rw [hsame.catalog_eq]
        exact hd
      · rintro d r handle d' - - - hins ⟨hcontent, hlisted⟩
        have hne : i ≠ handle.index := by
          rintro rfl
          rw [hins.vacant] at hcontent
          cases hcontent
        rw [hins.catalog_eq]
        refine ⟨by simpa [add, hne] using hcontent, ?_⟩
        rw [← hlisted]
        simp only [add]
        split <;> simp [hne]
    exact hinv.2

/-- The slots an invalidation empties are those of its bundle. -/
theorem Invalidates.leaves {s : RuntimeStore} (ht : s.Tidy) (h : Invalidates s b data') :
    Leaves b s.data data' := by
  have hcat := h.catalog_eq
  refine ⟨fun x hx => ?_, foreignKept_of_content ht.present fun i g hg hb => ?_⟩
  · show data'.catalog.held x = s.data.catalog.held x
    rw [hcat]
    simp [withdraw, hx]
  · have hnot : i ∉ s.data.pluginSlots b := fun hmem =>
      hb (ht.consistent.holder_unique (ht.consistent.held_of_content hg) hmem)
    have hg' : data'.catalog.content i = some g := by
      rw [hcat]
      simp [withdraw, hnot, hg]
    refine ⟨hg', ?_, fun cid => ?_⟩
    · have hvacates := h.vacates (ht.consistent.held_nodup b) fun j hj => by
        obtain ⟨r, hr, -⟩ := ht.consistent.content_of_held hj
        simp [hr]
      rw [hvacates.generation i, if_neg]
      rintro ⟨-, hdead⟩
      rw [hg'] at hdead
      cases hdead
    · show i ∈ data'.catalog.listed cid ↔ i ∈ s.data.catalog.listed cid
      rw [hcat]
      simp [withdraw, hnot]

/-- The frame rule: a call of a tidy run leaves the other bundles alone. -/
theorem exec_leaves {s : RuntimeStore} {o : StoreOp} (h : s.Tidy) (hop : TidyStep s o) :
    Leaves o.bundleId s.data (s.exec o).data := by
  obtain ⟨hown, hlen⟩ := hop
  cases o with
  | registerGuestContract descriptor interface ptr contractName b =>
    simp only [RuntimeStore.exec] at hlen ⊢
    rcases registerGuestContract_cases s descriptor interface ptr contractName b with
      ⟨e, heq⟩ | ⟨contract, handle, data', -, -, hins, heq⟩
    · rw [heq]
      exact SameSlots.leaves h.present ⟨rfl, rfl, fun _ => rfl⟩
    · rw [heq] at hlen ⊢
      exact (registers_of_registerGuestContract hins hlen).leaves h.present
  | registerPreparedBundle descriptor dependencies contracts =>
    simp only [RuntimeStore.exec] at hlen ⊢
    rcases registerPreparedBundle_cases s descriptor dependencies contracts with
      ⟨e, heq⟩ | ⟨hs, data', -, -, hnew, hins, heq⟩
    · rw [heq]
      exact SameSlots.leaves h.present ⟨rfl, rfl, fun _ => rfl⟩
    · rw [heq] at hlen ⊢
      exact (registers_of_registerPreparedBundle hnew hins hlen).leaves h.present
  | declareBundleDependencies b contractIds =>
    exact SameSlots.leaves h.present ⟨rfl, rfl, fun _ => rfl⟩
  | registerBundleMetadata b bundleName version runtime origin dependencies =>
    exact (sameSlots_registerBundleMetadata s b bundleName version runtime origin
      dependencies).leaves h.present
  | beginReload b => exact SameSlots.leaves h.present ⟨rfl, rfl, fun _ => rfl⟩
  | abortReload b old =>
    obtain ⟨data', heq, hpurge⟩ := abortReload_purge s b old h.present h.consistent.indexed
    have hsame := sameSlots_closeWindow s.data b
    simp only [RuntimeStore.exec, heq]
    refine ⟨fun x hx => ?_, hpurge.foreignKept h.present h.consistent hsame⟩
    show data'.catalog.held x = s.data.catalog.held x
    rw [hpurge.catalog_eq, hsame.catalog_eq]
    simp [withdraw, show x ≠ b from hx]
  | applyReloadSwap b old descriptor dependencies =>
    simp only [RuntimeStore.exec]
    rcases applyReloadSwap_own h.present h.consistent hown descriptor dependencies with
      ⟨data', heq, hswap⟩ | ⟨-, -, -, heq⟩
    · rw [heq]
      refine ⟨fun x hx => ?_, hswap.foreignKept h.present h.consistent⟩
      obtain ⟨c, hrec, hcat⟩ := hswap.reconciled
      show data'.catalog.held x = s.data.catalog.held x
      rw [hcat, publish_held, hrec.held_foreign x hx]
    · rw [heq]
      exact (sameSlots_closeWindow s.data b).leaves h.present
  | invalidateBundle b =>
    simp only [RuntimeStore.exec]
    rcases invalidateBundle_cases s b h.present h.consistent.indexed with
      ⟨-, heq⟩ | ⟨data', heq, hinv⟩
    · rw [heq]
      exact SameSlots.leaves h.present ⟨rfl, rfl, fun _ => rfl⟩
    · rw [heq]
      exact hinv.leaves h

end

end PolyPlug.Registry
