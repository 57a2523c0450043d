import PolyPlug.Lifecycle.Load

/-!
# `PolyPlug.Proofs.Lifecycle.Validate`: what the checks of a commit accept

The provider check walks over the registered contracts and marks, for each, the first
declaration that covers it (`providerIndex`). It accepts exactly if there is one for
every contract and every declaration is marked
(`validatePreparedProviderSet_ok_iff`), so neither the order of the contracts nor how
often one is registered matters. The same holds for the function counts. The staged
contracts are compared in pairs.
-/

set_option autoImplicit false

namespace PolyPlug.Lifecycle

open PolyPlug.Rust
open PolyPlug.Abi
open PolyPlug.Common
open PolyPlug.Registry

/-! ### Providers -/

/-- The position of the declaration that a provider is checked against. -/
def specIndex (m : ManifestData) (spec : String × Version) : Option Nat :=
  let (providerName, declaredVersion) : String × Option String :=
    match splitOnce spec.1 '@' with
    | some (name, version) => (name, some version)
    | none                 => (spec.1, none)
  if declaredVersion.any (fun declared => !versionMatches declared spec.2) then none
  else expectedIndex m providerName spec.2

/-- The position of the declaration that covers a contract. -/
def providerIndex (m : ManifestData) (c : PreparedGuestContract) : Option Nat :=
  specIndex m (c.contractName, c.descriptor.version)

/-- One round of the loop. -/
theorem matchProviders_cons (m : ManifestData) (spec : String × Version)
    (rest : List (String × Version)) (matched : List Bool) :
    (∃ e, specIndex m spec = none ∧ matchProviders m (spec :: rest) matched = .error e) ∨
    ∃ index, specIndex m spec = some index ∧
      matchProviders m (spec :: rest) matched
        = matchProviders m rest (matched.set index true) := by
  obtain ⟨name, version⟩ := spec
  unfold specIndex
  rw [matchProviders]
  cases splitOnce name '@' with
  | none =>
    simp only [Option.any_none, Bool.false_eq_true, if_false]
    cases expectedIndex m name version with
    | none => exact Or.inl ⟨_, rfl, rfl⟩
    | some index => exact Or.inr ⟨index, rfl, rfl⟩
  | some parts =>
    simp only [Option.any_some]
    by_cases hversion : versionMatches parts.2 version
    · simp only [hversion, Bool.not_true, Bool.false_eq_true, if_false]
      cases expectedIndex m parts.1 version with
      | none => exact Or.inl ⟨_, rfl, rfl⟩
      | some index => exact Or.inr ⟨index, rfl, rfl⟩
    · simp only [hversion, Bool.not_false, if_true]
      exact Or.inl ⟨_, trivial, rfl⟩

/-- The loop ends with every declaration marked. -/
theorem matchProviders_all (m : ManifestData) (specs : List (String × Version))
    (matched : List Bool) :
    (∃ matched', matchProviders m specs matched = .ok matched' ∧ matched'.all id = true) ↔
      (∀ spec ∈ specs, (specIndex m spec).isSome) ∧
        ∀ k < matched.length, matched[k]? = some true ∨
          ∃ spec ∈ specs, specIndex m spec = some k := by
  induction specs generalizing matched with
  | nil =>
    simp only [matchProviders, Except.ok.injEq, exists_eq_left', List.all_eq_true,
      List.not_mem_nil, false_implies, implies_true, false_and, exists_false, or_false, true_and]
    constructor
    · intro h k hk
      exact (List.getElem?_eq_getElem hk).trans (congrArg some (h _ (List.getElem_mem hk)))
    · intro h marked hmem
      obtain ⟨k, hk, rfl⟩ := List.getElem_of_mem hmem
      have hmarked := h k hk
      rw [List.getElem?_eq_getElem hk] at hmarked
      simpa using hmarked
  | cons spec rest ih =>
    rcases matchProviders_cons m spec rest matched with ⟨e, hnone, heq⟩ | ⟨index, hsome, heq⟩
    · rw [heq]
      refine iff_of_false (by simp) fun h => ?_
      have hcovered := h.1 spec (List.mem_cons_self ..)
      rw [hnone] at hcovered
      cases hcovered
    · rw [heq, ih, List.length_set]
      simp only [List.forall_mem_cons, List.exists_mem_cons_iff, hsome, Option.isSome_some,
        true_and, Option.some.injEq]
      refine and_congr_right fun _ => forall_congr' fun k => forall_congr' fun hk => ?_
      by_cases hki : index = k
      · subst hki
        simp [List.getElem?_set_self hk]
      · simp [List.getElem?_set_ne hki, hki]

/-- The provider check. -/
theorem validatePreparedProviderSet_ok_iff {m : ManifestData}
    {contracts : List PreparedGuestContract} :
    validatePreparedProviderSet m contracts = .ok () ↔
      (∀ c ∈ contracts, (providerIndex m c).isSome) ∧
        ∀ k < m.provides.length, ∃ c ∈ contracts, providerIndex m c = some k := by
  have hread : validatePreparedProviderSet m contracts = .ok () ↔
      ∃ matched', matchProviders m (contracts.map fun c => (c.contractName, c.descriptor.version))
        ((expectedProviders m).map fun _ => false) = .ok matched' ∧ matched'.all id = true := by
    unfold validatePreparedProviderSet
    cases matchProviders m (contracts.map fun c => (c.contractName, c.descriptor.version))
      ((expectedProviders m).map fun _ => false) with
    | error e => simp
    | ok matched =>
      dsimp only
      split
      · rename_i hall
        exact iff_of_true rfl ⟨matched, rfl, hall⟩
      · rename_i hall
        refine iff_of_false nofun ?_
        rintro ⟨_, heq, hall'⟩
        cases heq
        exact hall hall'
  -- No declaration is marked at the start.
  have hfalse : ∀ k : Nat, ((expectedProviders m).map fun _ => false)[k]? ≠ some true := by
    intro k h
    rw [List.getElem?_map] at h
    obtain ⟨_, -, hx⟩ := Option.map_eq_some_iff.mp h
    cases hx
  have hlength : (expectedProviders m).length = m.provides.length := List.length_map _
  rw [hread, matchProviders_all, List.length_map, hlength]
  simp only [hfalse, false_or, List.mem_map, forall_exists_index, and_imp,
    forall_apply_eq_imp_iff₂, exists_exists_and_eq_and]
  rfl

/-! ### Function counts -/

/-- The key of a contract in `function_count`. -/
def functionCountKey (c : PreparedGuestContract) : String :=
  bareName c.contractName ++ "@" ++ decimal c.interface.val.contractVersion.major

/-- A native contract has as many functions as the manifest declares. -/
def CountMatches (m : ManifestData) (c : PreparedGuestContract) : Prop :=
  ∀ count ∈ nativeFunctionCount c, m.functionCount.lookup (functionCountKey c) = some count

instance (m : ManifestData) (c : PreparedGuestContract) : Decidable (CountMatches m c) :=
  inferInstanceAs (Decidable (∀ count ∈ nativeFunctionCount c, _))

theorem validatePreparedFunctionCounts_ok_iff {m : ManifestData}
    {contracts : List PreparedGuestContract} :
    validatePreparedFunctionCounts m .strict contracts = .ok () ↔
      ∀ c ∈ contracts, CountMatches m c := by
  induction contracts with
  | nil => simp [validatePreparedFunctionCounts]
  | cons c rest ih =>
    rw [validatePreparedFunctionCounts, List.forall_mem_cons, ← ih]
    cases hcount : nativeFunctionCount c with
    | none => simp [CountMatches, hcount]
    | some actual =>
      have hmatches : CountMatches m c ↔
          m.functionCount.lookup (functionCountKey c) = some actual := by
        simp [CountMatches, hcount]
      rw [hmatches, functionCountKey]
      dsimp only
      cases hdeclared : m.functionCount.lookup (bareName c.contractName ++ "@"
          ++ decimal c.interface.val.contractVersion.major) with
      | none => simp
      | some declared =>
        by_cases heq : declared = actual
        · simp [heq]
        · simp [heq]

/-! ### Staged contracts -/

/-- The registration of one contract id is one of the same name, and not the same one. -/
def Compatible (existing contract : PreparedGuestContract) : Prop :=
  existing.contractId = contract.contractId →
    nameCollision existing.contractName contract.contractName = false ∧
    ¬ (existing.descriptor.name = contract.descriptor.name ∧
      existing.descriptor.contractName = contract.descriptor.contractName ∧
      existing.descriptor.version = contract.descriptor.version)

theorem validateAgainstStaged_ok_iff {contract : PreparedGuestContract}
    {staged : List PreparedGuestContract} :
    validateAgainstStaged contract staged = .ok () ↔
      ∀ existing ∈ staged, Compatible existing contract := by
  induction staged with
  | nil => exact iff_of_true rfl nofun
  | cons existing rest ih =>
    rw [validateAgainstStaged, List.forall_mem_cons, ← ih]
    by_cases hid : existing.contractId = contract.contractId
    · rw [if_neg (not_not.2 hid)]
      cases hname : nameCollision existing.contractName contract.contractName with
      | true => simp [Compatible, hid, hname]
      | false =>
        simp only [Bool.false_eq_true, if_false]
        split
        · next hsame => exact iff_of_false nofun fun h => (h.1 hid).2 hsame
        · next hother => exact (and_iff_right fun _ => ⟨hname, hother⟩).symm
    · rw [if_pos hid]
      exact (and_iff_right fun h => absurd h hid).symm

theorem validateStagedFrom_ok_iff {staged contracts : List PreparedGuestContract} :
    validateStagedFrom staged contracts = .ok () ↔
      (∀ c ∈ contracts, ∀ existing ∈ staged, Compatible existing c) ∧
        contracts.Pairwise Compatible := by
  induction contracts generalizing staged with
  | nil => exact iff_of_true rfl ⟨nofun, .nil⟩
  | cons contract rest ih =>
    have hone := @validateAgainstStaged_ok_iff contract staged
    rw [validateStagedFrom, List.forall_mem_cons, List.pairwise_cons, ← hone]
    cases hcheck : validateAgainstStaged contract staged with
    | error e => exact iff_of_false nofun fun h => nomatch h.1.1
    | ok _ =>
      dsimp only
      rw [ih]
      simp only [List.forall_mem_append, List.forall_mem_singleton, forall_and, true_and]
      tauto

/-- **The staged contracts pass if every two of one id are compatible.** -/
theorem validatePreparedBundleContracts_ok_iff {contracts : List PreparedGuestContract} :
    validatePreparedBundleContracts contracts = .ok () ↔ contracts.Pairwise Compatible := by
  rw [validatePreparedBundleContracts, validateStagedFrom_ok_iff]
  exact and_iff_right fun _ _ => nofun

end PolyPlug.Lifecycle
