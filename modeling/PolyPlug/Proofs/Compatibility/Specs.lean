import PolyPlug.Lifecycle.Load
import PolyPlug.Proofs.Rust.Str
import PolyPlug.Proofs.Compatibility.LoadOrder

/-!
# `PolyPlug.Proofs.Compatibility.Specs`: the readers of a `name@version` spec

An accepted spec with a version means a name and a major: the version is a bare major,
or a full version (`specMajor`). Three readers interpret it. The provider check reads
both forms. The graph and the bundle dependencies read the version with
`Version::from_str`, which has no bare major, and fall back: the graph to the version
of the bundle, the dependency to no minimum at all. `readers_of_spec` says for which
specs and bundles each reader still has the name and the major.
-/

set_option autoImplicit false

namespace PolyPlug.Compatibility

open PolyPlug.Rust
open PolyPlug.Abi
open PolyPlug.Common
open PolyPlug.Registry
open PolyPlug.Lifecycle

/-- The version is written in full. -/
def IsFull (v : String) : Prop := (Version.fromStr v).toOption.isSome

instance (v : String) : Decidable (IsFull v) :=
  inferInstanceAs (Decidable ((Version.fromStr v).toOption.isSome = true))

/-- The major of a spec's version, a bare major or a full version. -/
def specMajor (v : String) : Option Nat :=
  match parseU32 v with
  | some major => some major
  | none       => (Version.fromStr v).toOption.map (·.major)

/-- An accepted version has a major. -/
theorem specMajor_of_validate {spec field path name v : String}
    (h : validateNameVersionSpec spec field path = .ok ())
    (hspec : splitOnce spec '@' = some (name, v)) : ∃ major, specMajor v = some major := by
  rw [validateNameVersionSpec, hspec] at h
  dsimp only at h
  split at h
  · cases h
  · split at h
    · cases h
    · next hv =>
      rw [specMajor]
      cases hbare : parseU32 v with
      | some major => exact ⟨major, rfl⟩
      | none =>
          cases hfull : (Version.fromStr v).toOption with
          | some version => exact ⟨version.major, rfl⟩
          | none => exact absurd hv (by simp [hbare, hfull])

/-! ### A bare major is not a full version -/

/-- **`Version::from_str` refuses a bare major.** -/
theorem not_isFull_of_parseU32 {v : String} {n : Nat} (h : parseU32 v = some n) : ¬ IsFull v := by
  have hsplit : split v '.' = [v] :=
    split_of_notMem (notMem_of_parseU32 (by decide) (by decide) h)
  simp [IsFull, Version.fromStr, hsplit, h, Except.toOption]

/-- The major of a full version is the version's. -/
theorem specMajor_of_fromStr {v : String} {version : Version}
    (h : Version.fromStr v = .ok version) : specMajor v = some version.major := by
  rw [specMajor]
  cases hbare : parseU32 v with
  | some n => exact absurd (by rw [IsFull, h]; rfl) (not_isFull_of_parseU32 hbare)
  | none => rw [h]; rfl

/-- A version that is not full has no parse. -/
theorem fromStr_of_not_isFull {v : String} (h : ¬ IsFull v) :
    ∃ e, Version.fromStr v = .error e := by
  cases hv : Version.fromStr v with
  | ok version => exact absurd (by rw [IsFull, hv]; rfl) h
  | error e => exact ⟨e, rfl⟩

/-! ### The three readers -/

/-- **The graph** gives the entry the id of the name at its major, or at the bundle's own. -/
theorem providedCapability_contractId_iff {m : ManifestData} {spec name v : String} {major : Nat}
    (hspec : splitOnce spec '@' = some (name, v)) (hv : specMajor v = some major) :
    (providedCapability (bundleVersion m) spec).contractId = GuestContractId.new name major ↔
      IsFull v ∨
        GuestContractId.new name (bundleVersion m).major = GuestContractId.new name major := by
  rw [providedCapability, hspec]
  dsimp only
  by_cases hfull : IsFull v
  · obtain ⟨version, hversion⟩ : ∃ version, Version.fromStr v = .ok version := by
      cases h : Version.fromStr v with
      | ok version => exact ⟨version, rfl⟩
      | error e => rw [IsFull, h] at hfull; cases hfull
    have hmajor : version.major = major :=
      Option.some.inj ((specMajor_of_fromStr hversion).symm.trans hv)
    rw [hversion]
    exact iff_of_true (by rw [← hmajor]; rfl) (.inl hfull)
  · obtain ⟨e, he⟩ := fromStr_of_not_isFull hfull
    rw [he]
    exact ⟨.inr, fun h => h.resolve_left hfull⟩

/-- A version that the declaration covers has its major. -/
theorem major_of_versionMatches {v : String} {version : Version} {major : Nat}
    (hv : specMajor v = some major) (h : versionMatches v version = true) :
    version.major = major := by
  rw [versionMatches] at h
  split at h
  · next n hn =>
    rw [specMajor, hn] at hv
    rw [← Option.some.inj hv]
    exact (of_decide_eq_true h).symm
  · next hn =>
    split at h
    · next declared hdeclared =>
      rw [specMajor_of_fromStr hdeclared] at hv
      rw [← Option.some.inj hv, of_decide_eq_true h]
    · cases h

/-- **The provider check** matches the entry only with providers of the name at the major. -/
theorem expectedIndex_spec {m : ManifestData} {name v providerName : String} {version : Version}
    {major i : Nat} (hv : specMajor v = some major)
    (hi : (expectedProviders m)[i]? = some (name, some v))
    (h : expectedIndex m providerName version = some i) :
    providerName = name ∧ version.major = major := by
  rw [expectedIndex, List.findIdx?_eq_some_iff_getElem] at h
  obtain ⟨hlt, hp, _⟩ := h
  have hentry : (expectedProviders m)[i] = (name, some v) := by
    rw [List.getElem?_eq_getElem hlt] at hi
    exact Option.some.inj hi
  simp only [hentry, Bool.and_eq_true, decide_eq_true_eq, Option.all_some] at hp
  exact ⟨hp.1.symm, major_of_versionMatches hv hp.2⟩

/-- **A bundle dependency** has a minimum version of the major only where the version is full. -/
theorem parsedBundleDependencies_iff {m : ManifestData} {spec name v : String} {major i : Nat}
    (hspec : splitOnce spec '@' = some (name, v)) (hv : specMajor v = some major)
    (hi : m.bundleDependencies[i]? = some spec) :
    (∃ version, (parsedBundleDependencies m)[i]? = some ⟨name, some version⟩ ∧
      version.major = major) ↔ IsFull v := by
  rw [parsedBundleDependencies, List.getElem?_map, hi]
  dsimp only [Option.map_some]
  rw [hspec]
  dsimp only
  constructor
  · rintro ⟨version, heq, _⟩
    simp only [Option.some.injEq, BundleDependency.mk.injEq, true_and] at heq
    rw [IsFull, heq]
    rfl
  · intro hfull
    cases hversion : Version.fromStr v with
    | ok version =>
        exact ⟨version, rfl, Option.some.inj ((specMajor_of_fromStr hversion).symm.trans hv)⟩
    | error e => rw [IsFull, hversion] at hfull; cases hfull

/-- A contract that a listed bundle provides has a recorded provider. -/
theorem recordedProvider_isSome {manifests : List ManifestData} {contractId : GuestContractId}
    {m : ManifestData} (hm : m ∈ manifests) (h : ProvidesContract m contractId) :
    (recordedProvider manifests contractId).isSome := by
  rw [recordedProvider, List.getLast?_isSome]
  exact List.ne_nil_of_mem (List.mem_filter.2 ⟨hm, decide_eq_true h⟩)

/-- The entry makes its bundle a provider of the contract. -/
theorem providesContract_of_spec {m : ManifestData} {spec : String} {contractId : GuestContractId}
    (hspec : spec ∈ m.provides)
    (h : (providedCapability (bundleVersion m) spec).contractId = contractId) :
    ProvidesContract m contractId :=
  ⟨_, List.mem_map.2 ⟨spec, hspec, rfl⟩, h⟩

/-- **What each reader makes of an accepted spec with a version.** The provider check always has
the name and the major. The graph has them, and a requirement of the contract a provider, exactly
where the version is full or the bundle's own version has that major, and the bundle dependency
exactly where the version is full. -/
theorem readers_of_spec {spec field path name v : String}
    (hok : validateNameVersionSpec spec field path = .ok ())
    (hspec : splitOnce spec '@' = some (name, v)) :
    ∃ major, specMajor v = some major ∧
      (∀ m : ManifestData, spec ∈ m.provides →
        ((providedCapability (bundleVersion m) spec).contractId = GuestContractId.new name major ↔
          IsFull v ∨
            GuestContractId.new name (bundleVersion m).major = GuestContractId.new name major) ∧
        (IsFull v ∨
            GuestContractId.new name (bundleVersion m).major = GuestContractId.new name major →
          ∀ manifests : List ManifestData, m ∈ manifests →
            (recordedProvider manifests (GuestContractId.new name major)).isSome) ∧
        (m.provides = [spec] →
          ((recordedProvider [m] (GuestContractId.new name major)).isSome ↔
            IsFull v ∨
              GuestContractId.new name (bundleVersion m).major = GuestContractId.new name major))) ∧
      (∀ (m : ManifestData) (providerName : String) (version : Version) (i : Nat),
        (expectedProviders m)[i]? = some (name, some v) →
          expectedIndex m providerName version = some i →
            providerName = name ∧ version.major = major) ∧
      ∀ (m : ManifestData) (i : Nat), m.bundleDependencies[i]? = some spec →
        ((∃ version, (parsedBundleDependencies m)[i]? = some ⟨name, some version⟩ ∧
          version.major = major) ↔ IsFull v) := by
  obtain ⟨major, hv⟩ := specMajor_of_validate hok hspec
  refine ⟨major, hv, fun m hm => ?_, fun m providerName version i hi h =>
    expectedIndex_spec hv hi h,
    fun m i hi => parsedBundleDependencies_iff hspec hv hi⟩
  have hid := @providedCapability_contractId_iff m spec name v major hspec hv
  refine ⟨hid, fun hcond manifests hmem => ?_, fun honly => ?_⟩
  · exact recordedProvider_isSome hmem (providesContract_of_spec hm (hid.2 hcond))
  · rw [← hid]
    constructor
    · intro hsome
      obtain ⟨p, hp⟩ := Option.isSome_iff_exists.1 hsome
      obtain ⟨hpm, cap, hcap, heq⟩ := recordedProvider_spec hp
      rw [List.mem_singleton.1 hpm] at hcap
      obtain ⟨spec', hspec', rfl⟩ := List.mem_map.1 hcap
      rw [honly, List.mem_singleton] at hspec'
      rw [← heq, hspec']
    · intro heq
      exact recordedProvider_isSome (by simp) (providesContract_of_spec hm heq)

/-- A bundle of version 1.0.0 that provides `codec` at the bare major 2. -/
def bareProvider : ManifestData := nativeManifest "second" ["codec@2"] []

/-- **A bare major is accepted and then read as another version.** The bundle declares `codec@2`,
the graph records it for major 1, a dependency on `codec` at major 2 is unsatisfied, and a bundle
dependency on `codec@2` has no minimum version. -/
theorem bare_major_is_lost :
    validateNameVersionSpec "codec@2" "provides" "" = .ok () ∧ specMajor "2" = some 2 ∧
      (providedCapability (bundleVersion bareProvider) "codec@2").contractId =
        GuestContractId.new "codec" 1 ∧
      GuestContractId.new "codec" 1 ≠ GuestContractId.new "codec" 2 ∧
      recordedProvider [bareProvider] (GuestContractId.new "codec" 2) = none ∧
      parsedBundleDependencies { bareProvider with bundleDependencies := ["codec@2"] } =
        [⟨"codec", none⟩] := by
  decide +kernel

theorem readers_of_spec_instance :
    ∃ major, specMajor "2.1" = some major ∧
      (providedCapability (bundleVersion bareProvider) "codec@2.1").contractId =
        GuestContractId.new "codec" major := by
  obtain ⟨major, hv, hprovides, _, _⟩ := @readers_of_spec "codec@2.1" "provides" "" "codec" "2.1"
    (by decide +kernel) (by decide +kernel)
  refine ⟨major, hv, ?_⟩
  exact ((hprovides (nativeManifest "second" ["codec@2.1"] []) (by decide +kernel)).1).2
    (.inl (by decide +kernel))

end PolyPlug.Compatibility
