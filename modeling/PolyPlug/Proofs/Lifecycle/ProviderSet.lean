import PolyPlug.Lib.FirstMatch
import PolyPlug.Proofs.Lifecycle.Validate
import PolyPlug.Proofs.Compatibility.Specs

/-!
# `PolyPlug.Proofs.Lifecycle.ProviderSet`: the provider check and the declared set

A staged contract and an entry of `provides` match if the names before the `@` are equal and the
version of the entry, if it has one, is the contract's major or its full version (`ProvidedBy`). The
declared set is met if every contract has an entry and every entry a contract
(`Lib.Matched`).

`validate_prepared_provider_set` looks for the first entry of each contract, so it is the
greedy check of `Lib.FirstMatch`. Entries of different precision overlap, and an entry whose
contracts all match an earlier one is reported as not registered.
`validatePreparedProviderSet_decides` says when the check is the declared set.
-/

set_option autoImplicit false

namespace PolyPlug.Lifecycle

open PolyPlug.Rust
open PolyPlug.Abi
open PolyPlug.Common
open PolyPlug.Registry
open PolyPlug.Lib

/-! ### Matching -/

/-- The version of a spec, the text after the first `@`. -/
def specVersion (spec : String) : Option String := (splitOnce spec '@').map Prod.snd

/-- A declared version is equal to the version's major or to the version. -/
def Denotes (declared : String) (version : Version) : Prop :=
  parseU32 declared = some version.major ∨ Version.fromStr declared = .ok version

/-- An entry of `provides` declares a contract. -/
def ProvidedBy (spec : String) (c : PreparedGuestContract) : Prop :=
  bareName spec = bareName c.contractName ∧
    ∀ declared ∈ specVersion spec, Denotes declared c.descriptor.version

/-- The version in the name of a contract is the contract's. -/
def SuffixAgrees (c : PreparedGuestContract) : Prop :=
  ∀ declared ∈ specVersion c.contractName, Denotes declared c.descriptor.version

instance (declared : String) (version : Version) : Decidable (Denotes declared version) :=
  inferInstanceAs (Decidable (_ ∨ _))

instance (spec : String) (c : PreparedGuestContract) : Decidable (ProvidedBy spec c) :=
  inferInstanceAs (Decidable (_ ∧ ∀ declared ∈ specVersion spec, _))

instance (c : PreparedGuestContract) : Decidable (SuffixAgrees c) :=
  inferInstanceAs (Decidable (∀ declared ∈ specVersion c.contractName, _))

/-- A bare major is not a full version, so the order in which the check reads them is free. -/
theorem versionMatches_iff {declared : String} {version : Version} :
    versionMatches declared version = true ↔ Denotes declared version := by
  rw [versionMatches, Denotes]
  cases hbare : parseU32 declared with
  | some major =>
    have hfull : Version.fromStr declared ≠ .ok version := by
      intro hok
      refine Compatibility.not_isFull_of_parseU32 hbare ?_
      rw [Compatibility.IsFull, hok]
      rfl
    simp [hfull]
  | none =>
    cases hfull : Version.fromStr declared with
    | ok parsed => simp
    | error e => simp

/-- The entry that the lookup tests. -/
theorem provides_iff {spec : String} {c : PreparedGuestContract} :
    (let p := match splitOnce spec '@' with
      | some (name, version) => (name, some version)
      | none                 => (spec, none)
    (p.1 = bareName c.contractName && p.2.all fun declared =>
      versionMatches declared c.descriptor.version : Bool)) = true ↔ ProvidedBy spec c := by
  unfold ProvidedBy specVersion bareName
  cases splitOnce spec '@' with
  | none => simp
  | some parts => simp [versionMatches_iff]

/-! ### The check -/

/-- The contract of which the name agrees with the version is checked against the first entry that
declares it. -/
theorem providerIndex_eq (m : ManifestData) {c : PreparedGuestContract} (h : SuffixAgrees c) :
    providerIndex m c = m.provides.findIdx? fun spec => decide (ProvidedBy spec c) := by
  have hindex : expectedIndex m (bareName c.contractName) c.descriptor.version
      = m.provides.findIdx? fun spec => decide (ProvidedBy spec c) := by
    rw [expectedIndex, expectedProviders, List.findIdx?_map]
    congr 1
    funext spec
    exact Bool.eq_iff_iff.mpr (provides_iff.trans decide_eq_true_iff.symm)
  rw [← hindex, providerIndex, specIndex]
  unfold SuffixAgrees specVersion at h
  unfold bareName
  cases hname : splitOnce c.contractName '@' with
  | none => rfl
  | some parts =>
    rw [hname] at h
    simp [versionMatches_iff.mpr (h _ rfl)]

/-- Every contract has an entry of `provides`, and every entry a contract. -/
def DeclaredSet (provides : List String) (contracts : List PreparedGuestContract) : Prop :=
  Matched (fun spec c => decide (ProvidedBy spec c)) provides contracts

/-- Every entry of `provides` is the first one of some contract. -/
def NoneHidden (provides : List String) (contracts : List PreparedGuestContract) : Prop :=
  FirstOfSome (fun spec c => decide (ProvidedBy spec c)) provides contracts

/-- Every entry of `provides` is the only one of some contract. -/
def NoneShared (provides : List String) (contracts : List PreparedGuestContract) : Prop :=
  OnlyOfSome (fun spec c => decide (ProvidedBy spec c)) provides contracts

instance (provides : List String) (contracts : List PreparedGuestContract) :
    Decidable (DeclaredSet provides contracts) :=
  inferInstanceAs (Decidable (Matched _ _ _))

/-- The check is the greedy one. -/
theorem validatePreparedProviderSet_iff_firstMatched {m : ManifestData}
    {contracts : List PreparedGuestContract} (h : ∀ c ∈ contracts, SuffixAgrees c) :
    validatePreparedProviderSet m contracts = .ok () ↔
      FirstMatched (fun spec c => decide (ProvidedBy spec c)) m.provides contracts := by
  rw [validatePreparedProviderSet_ok_iff, FirstMatched, FirstOfSome]
  refine and_congr (forall₂_congr fun c hc => ?_) (forall₂_congr fun k hk => ?_)
  · rw [providerIndex_eq m (h c hc)]
  · refine exists_congr fun c => and_congr_right fun hc => ?_
    rw [providerIndex_eq m (h c hc)]

/-- **The provider check and the declared set.** The check decides the set for a manifest and
staged contracts exactly if the set fails or every entry of `provides` is the first one of some
contract. It decides it in every order of the two lists exactly if the set fails or every
entry is the only one of some contract. -/
theorem validatePreparedProviderSet_decides (m : ManifestData)
    (contracts : List PreparedGuestContract) (h : ∀ c ∈ contracts, SuffixAgrees c) :
    ((validatePreparedProviderSet m contracts = .ok () ↔ DeclaredSet m.provides contracts) ↔
      (DeclaredSet m.provides contracts → NoneHidden m.provides contracts)) ∧
    (((validatePreparedProviderSet m contracts = .ok () ↔ DeclaredSet m.provides contracts) ∧
        ∀ provides' contracts', provides'.Perm m.provides → contracts'.Perm contracts →
          (validatePreparedProviderSet { m with provides := provides' } contracts' = .ok () ↔
            validatePreparedProviderSet m contracts = .ok ())) ↔
      (DeclaredSet m.provides contracts → NoneShared m.provides contracts)) := by
  obtain ⟨hone, hall⟩ := @firstMatched_perm_iff _ _ (fun spec c => decide (ProvidedBy spec c)) _
    m.provides contracts
  have hself := validatePreparedProviderSet_iff_firstMatched (m := m) h
  refine ⟨?_, ?_⟩
  · rw [hself]
    exact hone
  · refine Iff.trans (and_congr ?_ ?_) hall
    · rw [hself]
      rfl
    · refine forall₄_congr fun provides' contracts' _ hcontracts => ?_
      have hother : ∀ c ∈ contracts', SuffixAgrees c := fun c hc => h c (hcontracts.mem_iff.mp hc)
      rw [hself, @validatePreparedProviderSet_iff_firstMatched { m with provides := provides' } _
        hother]

/-! ### Overlapping entries -/

/-- A bundle that declares its logger by name and by major. -/
def loggingManifest (provides : List String) : ManifestData where
  loader := "native"
  name := "logging"
  dependencies := []
  id := (BundleId.new "logging").id
  version := "1.0.0"
  file := "liblogging.so"
  provides := provides
  functionCount := ∅
  needsReinitOnDepReload := false
  bundleDependencies := []
  path := ""

/-- A staged logger, with the name it was registered under. -/
def stagedLogger (contractName : String) (version : Version) : PreparedGuestContract where
  contractId := GuestContractId.new "logger" version.major
  descriptor := ⟨contractName, contractName, version⟩
  contractName := contractName
  interface := ⟨0, {
    contractId := GuestContractId.new "logger" version.major
    contractVersion := version
    dispatchType := .native
    adapterContext := 0
    createInstance := .statelessCreateInstance
    destroyInstance := .statelessDestroyInstance
    dispatch := ⟨2, 0⟩ }⟩
  contractId_eq := rfl
  contractName_eq := rfl

/-- `logger` hides `logger@1`: the one contract matches both, and the check reports the second as
not registered. -/
theorem hidden_entry_is_refused :
    ¬ ∀ (m : ManifestData) (contracts : List PreparedGuestContract),
      m.validateMetadata = .ok () → (∀ c ∈ contracts, SuffixAgrees c) →
      (validatePreparedProviderSet m contracts = .ok () ↔ DeclaredSet m.provides contracts) := by
  intro hall
  have hmetadata : (loggingManifest ["logger", "logger@1"]).validateMetadata = .ok () := by
    decide +kernel
  have hset : DeclaredSet ["logger", "logger@1"] [stagedLogger "logger" ⟨1, 0, 0⟩] := by
    decide +kernel
  have hok := (hall _ _ hmetadata (by decide +kernel)).mpr hset
  revert hok
  decide +kernel

/-- The contracts of a bundle with an old logger and a new one. -/
def twoLoggers : List PreparedGuestContract :=
  [stagedLogger "logger@1" ⟨1, 0, 0⟩, stagedLogger "logger" ⟨2, 0, 0⟩]

/-- The new logger matches `logger` only, so the entry that names the old one is read first. -/
theorem validatePreparedProviderSet_decides_instance :
    validatePreparedProviderSet (loggingManifest ["logger@1", "logger"]) twoLoggers = .ok () ↔
      DeclaredSet ["logger@1", "logger"] twoLoggers :=
  (validatePreparedProviderSet_decides (loggingManifest ["logger@1", "logger"]) twoLoggers
    (by decide +kernel)).1.mpr fun _ => by
      unfold NoneHidden
      decide +kernel

example : DeclaredSet ["logger@1", "logger"] twoLoggers := by decide +kernel

end PolyPlug.Lifecycle
