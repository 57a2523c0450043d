import PolyPlug.Proofs.Registry.Commit
import PolyPlug.Proofs.Registry.Keep

/-!
# `PolyPlug.Proofs.Registry.Providers`: the contracts of a bundle

A live slot has the contract that was staged for it (`Registration.contract`).
`publishedContracts` lists the contracts of a bundle that are offered in the contract
index; `Has` leaves the index out. When every live slot of the bundle is listed the two
are the same, and `Has` is the one that each mutator changes in a simple way.
-/

set_option autoImplicit false

namespace PolyPlug.Registry

open PolyPlug.Abi
open PolyPlug.Lib
open PolyPlug.Lib.Catalog
open RuntimeStoreData RuntimeStore

/-! ### Contracts of slots -/

/-- The staged contract a registration comes from. -/
def Registration.contract (g : Registration) : PreparedGuestContract where
  contractId := g.arc.val.contractId
  descriptor := ⟨g.entry.descriptor.name, g.entry.contractName, g.entry.descriptor.version⟩
  contractName := g.entry.contractName
  interface := g.arc
  contractId_eq := rfl
  contractName_eq := rfl

@[simp] theorem registration_contract (contract : PreparedGuestContract) (b : BundleId) :
    (contract.registration b).contract = contract := by
  obtain ⟨cid, ⟨name, contractName, version⟩, contractName', interface, hcid, hname⟩ := contract
  cases hcid
  cases hname
  rfl

/-- The contract of a live slot. -/
def contractOfSlot (data : RuntimeStoreData) (i : Nat) : Option PreparedGuestContract :=
  (data.catalog.content i).map Registration.contract

/-- The published contracts of a bundle, in the order of its slots. -/
def publishedContracts (data : RuntimeStoreData) (b : BundleId) : List PreparedGuestContract :=
  (data.pluginSlots b).filterMap fun i =>
    (contractOfSlot data i).filter fun contract => i ∈ data.indexOf contract.contractId

/-- The contracts a bundle has registered since `old` were its slots. -/
def pendingContracts (data : RuntimeStoreData) (b : BundleId) (old : List Nat) :
    List PreparedGuestContract :=
  (pendingSlots data b old).filterMap (contractOfSlot data)

/-- A live slot of the bundle has the contract. -/
def Has (data : RuntimeStoreData) (b : BundleId) (contract : PreparedGuestContract) : Prop :=
  ∃ i g, data.catalog.content i = some g ∧ g.owner = b ∧ g.contract = contract

section
variable {data data' : RuntimeStoreData} {b c : BundleId} {contract : PreparedGuestContract}

/-- When all live slots of the bundle are listed, its published contracts are those it
has. -/
theorem mem_publishedContracts (hc : data.Consistent)
    (hlisted : ∀ i g, data.catalog.content i = some g → g.owner = b → i ∈ data.indexOf g.key) :
    contract ∈ publishedContracts data b ↔ Has data b contract := by
  simp only [publishedContracts, List.mem_filterMap, contractOfSlot, Option.filter_eq_some_iff,
    Option.map_eq_some_iff]
  constructor
  · rintro ⟨i, hi, ⟨g, hg, rfl⟩, -⟩
    obtain ⟨g', hg', howner⟩ := hc.content_of_held hi
    rw [hg] at hg'
    cases hg'
    exact ⟨i, g, hg, howner, rfl⟩
  · rintro ⟨i, g, hg, howner, rfl⟩
    exact ⟨i, howner ▸ hc.held_of_content hg, ⟨g, hg, rfl⟩,
      decide_eq_true (hlisted i g hg howner)⟩

/-- The contracts in the slots of the bundle outside `old`. -/
theorem mem_pendingContracts {old : List Nat} :
    contract ∈ pendingContracts data b old ↔
      ∃ i ∈ data.pluginSlots b, i ∉ old ∧ ∃ g, data.catalog.content i = some g ∧
        g.contract = contract := by
  simp only [pendingContracts, pendingSlots, List.mem_filterMap, List.mem_filter,
    contractOfSlot, Option.map_eq_some_iff, decide_eq_true_eq, and_assoc]

/-! ### What the mutators do -/

/-- The slots of the bundle and their registrations are the same. -/
theorem has_congr (hc : data.Consistent) (hc' : data'.Consistent)
    (hheld : data'.pluginSlots b = data.pluginSlots b)
    (hslots : ∀ i ∈ data.pluginSlots b, data'.slots[i]? = data.slots[i]?) :
    Has data' b contract ↔ Has data b contract := by
  have hcontent : ∀ i ∈ data.pluginSlots b,
      data'.catalog.content i = data.catalog.content i := by
    intro i hi
    simp only [catalog, hslots i hi]
  constructor
  · rintro ⟨i, g, hg, howner, hcontract⟩
    have hi : i ∈ data'.pluginSlots b := howner ▸ hc'.held_of_content hg
    rw [hheld] at hi
    exact ⟨i, g, (hcontent i hi).symm.trans hg, howner, hcontract⟩
  · rintro ⟨i, g, hg, howner, hcontract⟩
    have hi : i ∈ data.pluginSlots b := howner ▸ hc.held_of_content hg
    exact ⟨i, g, (hcontent i hi).trans hg, howner, hcontract⟩

/-- A call for another bundle. -/
theorem Leaves.has_iff (h : Leaves c data data') (hc : data.Consistent) (hc' : data'.Consistent)
    (hb : b ≠ c) : Has data' b contract ↔ Has data b contract := by
  refine has_congr hc hc' (h.pluginSlots b hb) fun i hi => ?_
  obtain ⟨g, hg, howner⟩ := hc.content_of_held hi
  obtain ⟨slot, hslot, hentry, -⟩ := content_eq_some.mp hg
  rw [(h.foreign i slot g.entry hslot hentry (by rw [← howner] at hb; exact hb)).1, hslot]

/-- A registration call adds the contracts it registers. -/
theorem Registers.has_iff {rs : List Registration} {hs : List GuestContractHandle}
    (h : Registers data c rs hs data') :
    Has data' b contract ↔
      Has data b contract ∨ ∃ r ∈ rs, r.owner = b ∧ r.contract = contract := by
  constructor
  · rintro ⟨i, g, hg, howner, hcontract⟩
    have hback : ∀ i g, data'.catalog.content i = some g →
        data.catalog.content i = some g ∨ g ∈ rs := by
      refine h.rule (I := fun d => ∀ i g, d.catalog.content i = some g →
        data.catalog.content i = some g ∨ g ∈ rs) (fun _ _ h => Or.inl h) ?_ ?_
      · intro d d' hsame _ hd
        rw [hsame.catalog_eq]
        exact hd
      · intro d r handle d' hr _ _ hins hd i g hg
        rw [hins.catalog_eq] at hg
        by_cases hi : i = handle.index
        · simp only [add, hi, if_true, Option.some.injEq] at hg
          exact Or.inr (hg ▸ hr)
        · exact hd i g (by simpa [add, hi] using hg)
    rcases hback i g hg with hold | hnew
    · exact Or.inl ⟨i, g, hold, howner, hcontract⟩
    · exact Or.inr ⟨g, hnew, howner, hcontract⟩
  · rintro (⟨i, g, hg, howner, hcontract⟩ | ⟨r, hr, howner, hcontract⟩)
    · exact ⟨i, g, h.content_kept hg, howner, hcontract⟩
    · obtain ⟨i, -, hi⟩ := h.placed hr
      exact ⟨i, r, hi, howner, hcontract⟩

/-- A bundle that holds no slot has no contract. -/
theorem not_has (hc : data.Consistent) (hnone : data.pluginSlots b = []) :
    ¬Has data b contract := by
  rintro ⟨i, g, hg, howner, -⟩
  have hi : i ∈ data.pluginSlots b := howner ▸ hc.held_of_content hg
  rw [hnone] at hi
  cases hi

/-- A swap leaves the bundle with the contracts of its window. -/
theorem OwnSwap.has_iff {s : RuntimeStore} {old : List Nat} (hc : s.data.Consistent)
    (h : OwnSwap s b old data') (hc' : data'.Consistent) :
    Has data' b contract ↔ contract ∈ pendingContracts s.data b old := by
  obtain ⟨mid, hrec, hcat⟩ := h.reconciled
  have hcontent : data'.catalog.content = mid.content := by rw [hcat, publish_content]
  rw [mem_pendingContracts]
  constructor
  · rintro ⟨i, g, hg, howner, hcontract⟩
    rw [hcontent] at hg
    have hi : i ∈ s.data.catalog.held b := by
      have hheld : i ∈ data'.catalog.held b :=
        howner ▸ hc'.held_of_content (by rw [hcontent]; exact hg)
      rw [hcat, publish_held, hrec.held_eq] at hheld
      exact (List.mem_filter.mp hheld).1
    obtain ⟨n, hn, hnew, hgn⟩ := hrec.moved i hi List.not_mem_nil g hg
    exact ⟨n, hn, hnew, g, hgn, hcontract⟩
  · rintro ⟨n, hn, hnew, g, hg, hcontract⟩
    obtain ⟨i, hi, hmid, -⟩ := hrec.survives n hn hnew g hg
    obtain ⟨g', hg', howner⟩ := hc.content_of_held hn
    rw [hg] at hg'
    cases hg'
    exact ⟨i, g, by rw [hcontent, hmid], howner, hcontract⟩

end

end PolyPlug.Registry
