import PolyPlug.Proofs.Lifecycle.Restore
import PolyPlug.Proofs.Lifecycle.Unload
import PolyPlug.Proofs.Lifecycle.Validate
import PolyPlug.Proofs.Registry.Providers

/-!
# `PolyPlug.Proofs.Lifecycle.Covered`: bundles and their manifests

A bundle that came from a directory matches the manifest that is cached for it if both
checks of a commit accept its published contracts (`MatchesManifest`).

`Fits` is this property without the contract index, for the bundles outside an open
reload window. A load keeps it, because its commit runs the checks. A guest that is not
staged registers without any check, so `CoversRegistration` has to hold of its
contract.
-/

set_option autoImplicit false

namespace PolyPlug.Lifecycle

open PolyPlug.Abi
open PolyPlug.Lib
open PolyPlug.Common
open PolyPlug.Registry
open RuntimeStoreData RuntimeStore

/-! ### The property -/

/-- The cached manifest of a bundle that came from a directory. -/
def Runtime.diskManifest (rt : Runtime) (b : BundleId) : Option ManifestData :=
  match rt.registry.getBundleDescriptor b with
  | none            => none
  | some descriptor =>
    match descriptor.origin with
    | .path _                    => rt.bundleManifests.lookup descriptor.name
    | .internal | .code | .bytes => none

/-- The checks of a commit accept the contracts. -/
structure Accepted (opts : LoadOptions) (m : ManifestData)
    (contracts : List PreparedGuestContract) : Prop where
  providers : validatePreparedProviderSet m contracts = .ok ()
  counts : opts.compatibility = .strict → opts.ignoreFunctionCountMismatch = false →
    ∀ c ∈ contracts, CountMatches m c

instance (opts : LoadOptions) (m : ManifestData) (contracts : List PreparedGuestContract) :
    Decidable (Accepted opts m contracts) :=
  decidable_of_iff (validatePreparedProviderSet m contracts = .ok () ∧
      (opts.compatibility = .strict → opts.ignoreFunctionCountMismatch = false →
        ∀ c ∈ contracts, CountMatches m c))
    ⟨fun h => ⟨h.1, h.2⟩, fun h => ⟨h.providers, h.counts⟩⟩

/-- Every bundle from a directory matches its cached manifest. -/
def MatchesManifest (opts : LoadOptions) (rt : Runtime) : Prop :=
  ∀ b m, rt.diskManifest b = some m → Accepted opts m (publishedContracts rt.registry.data b)

/-! ### Contracts and a manifest -/

/-- The manifest covers the contract. -/
structure Covers (opts : LoadOptions) (m : ManifestData) (c : PreparedGuestContract) :
    Prop where
  provider : (providerIndex m c).isSome
  count : opts.compatibility = .strict → opts.ignoreFunctionCountMismatch = false →
    CountMatches m c

instance (opts : LoadOptions) (m : ManifestData) (c : PreparedGuestContract) :
    Decidable (Covers opts m c) :=
  decidable_of_iff ((providerIndex m c).isSome ∧
      (opts.compatibility = .strict → opts.ignoreFunctionCountMismatch = false →
        CountMatches m c))
    ⟨fun h => ⟨h.1, h.2⟩, fun h => ⟨h.provider, h.count⟩⟩

/-- The manifest covers these contracts, and each declaration has a contract. -/
structure Matches (opts : LoadOptions) (m : ManifestData) (P : PreparedGuestContract → Prop) :
    Prop where
  covered : ∀ c, P c → Covers opts m c
  provided : ∀ k < m.provides.length, ∃ c, P c ∧ providerIndex m c = some k

section
variable {opts : LoadOptions} {m : ManifestData} {P Q : PreparedGuestContract → Prop}

theorem accepted_iff {contracts : List PreparedGuestContract} :
    Accepted opts m contracts ↔ Matches opts m fun c => c ∈ contracts := by
  constructor
  · rintro ⟨hproviders, hcounts⟩
    obtain ⟨hcovered, hprovided⟩ := validatePreparedProviderSet_ok_iff.mp hproviders
    exact ⟨fun c hc => ⟨hcovered c hc, fun hstrict hchecked => hcounts hstrict hchecked c hc⟩,
      hprovided⟩
  · rintro ⟨hcovered, hprovided⟩
    exact ⟨validatePreparedProviderSet_ok_iff.mpr
        ⟨fun c hc => (hcovered c hc).provider, hprovided⟩,
      fun hstrict hchecked c hc => (hcovered c hc).count hstrict hchecked⟩

theorem Matches.congr (h : Matches opts m P) (hiff : ∀ c, Q c ↔ P c) : Matches opts m Q := by
  have heq : Q = P := funext fun c => propext (hiff c)
  exact heq ▸ h

/-- More contracts that the manifest covers. -/
theorem Matches.add (h : Matches opts m P) (hadd : ∀ c, Q c → Covers opts m c) :
    Matches opts m fun c => P c ∨ Q c where
  covered c hc := hc.elim (h.covered c) (hadd c)
  provided k hk := by
    obtain ⟨c, hc, hindex⟩ := h.provided k hk
    exact ⟨c, Or.inl hc, hindex⟩

/-- No contract, for a manifest that provides nothing. -/
theorem matches_empty (hnone : m.provides = []) (hempty : ∀ c, ¬P c) : Matches opts m P where
  covered c hc := absurd hc (hempty c)
  provided k hk := by simp [hnone] at hk

end

/-! ### The invariant -/

/-- The bundles outside the window match their manifests, and their records have the
names that their ids come from. -/
structure Fits (opts : LoadOptions) (window : Option BundleId) (rt : Runtime) : Prop where
  tidy : rt.registry.Tidy
  named : ∀ b d dir, rt.registry.data.descriptorOf b = some d → d.origin = .path dir →
    BundleId.new d.name = b
  matched : ∀ b m, window ≠ some b → rt.diskManifest b = some m →
    Matches opts m (Has rt.registry.data b)

/-- The manifest of the bundle covers the contract of a registration, unless the
bundle is the one in the window. -/
def CoversRegistration (opts : LoadOptions) (window : Option BundleId) : RegistrationCond :=
  fun rt c descriptor interface ptr name => window ≠ some c → ∀ m ∈ rt.diskManifest c,
    ∀ contract ∈ (prepareGuestContract descriptor interface name interface.adapterContext
      ptr).toOption, Covers opts m contract

instance (opts : LoadOptions) (window : Option BundleId) (rt : Runtime) (c : BundleId)
    (descriptor : PluginDescriptor) (interface : RawGuestContractInterface) (ptr : Nat)
    (name : String) :
    Decidable (CoversRegistration opts window rt c descriptor interface ptr name) :=
  inferInstanceAs (Decidable (_ → ∀ m ∈ rt.diskManifest c, ∀ contract ∈ _, _))

/-- The name of a staged bundle is the one its id comes from. -/
def StagedNamed (r : PreparedBundleRegistration) : Prop :=
  r.manifest.id = (BundleId.new r.manifest.name).id

section
variable {opts : LoadOptions} {window : Option BundleId} {rt rt' : Runtime} {b : BundleId}

theorem diskManifest_eq_some {m : ManifestData} :
    rt.diskManifest b = some m ↔ ∃ d dir, rt.registry.data.descriptorOf b = some d ∧
      d.origin = .path dir ∧ rt.bundleManifests.lookup d.name = some m := by
  unfold Runtime.diskManifest
  rw [getBundleDescriptor_eq]
  cases rt.registry.data.descriptorOf b with
  | none => simp
  | some d => cases horigin : d.origin <;> simp [horigin]

/-- The same record, and the same manifest under its name. -/
theorem diskManifest_congr
    (hrecord : rt'.registry.data.descriptorOf b = rt.registry.data.descriptorOf b)
    (hcached : ∀ d dir, rt.registry.data.descriptorOf b = some d → d.origin = .path dir →
      rt'.bundleManifests.lookup d.name = rt.bundleManifests.lookup d.name) :
    rt'.diskManifest b = rt.diskManifest b := by
  refine Option.ext fun m => ?_
  rw [diskManifest_eq_some, diskManifest_eq_some, hrecord]
  refine exists_congr fun d => exists_congr fun dir => and_congr_right fun hd =>
    and_congr_right fun horigin => ?_
  rw [hcached d dir hd horigin]

/-- When every live slot is listed and no window is open, all bundles match. -/
theorem Fits.matchesManifest (h : Fits opts none rt) (hg : Guarded ⟨rt.registry, none⟩) :
    MatchesManifest opts rt := by
  intro b m hm
  rw [accepted_iff]
  refine (h.matched b m nofun hm).congr fun c => ?_
  refine mem_publishedContracts h.tidy.consistent fun i g hcontent _ => ?_
  exact (hg.all_listed rfl i g hcontent).resolve_right id

theorem Fits.of_core (h : Fits opts window rt) (hcore : rt'.core = rt.core) :
    Fits opts window rt' := by
  have hcore' : rt'.core.registry.data = rt.core.registry.data := by rw [hcore]
  have hdata : rt'.registry.data = rt.registry.data := hcore'
  have hpub : rt'.core.registry.published = rt.core.registry.published := by rw [hcore]
  have hcached : rt'.core.bundleManifests = rt.core.bundleManifests := by rw [hcore]
  refine ⟨RuntimeStore.Tidy.congr h.tidy hdata hpub, fun b d dir => ?_, fun b m hb hm => ?_⟩
  · rw [hdata]
    exact h.named b d dir
  · have hsame : rt'.diskManifest b = rt.diskManifest b :=
      diskManifest_congr (by rw [hdata]) fun d _ _ _ =>
        congrArg (fun t => t.lookup d.name) hcached
    rw [hdata]
    exact h.matched b m hb (hsame ▸ hm)

/-! ### Registrations -/

/-- The default record is no record of a directory. -/
theorem descriptorOf_ensureDefault {data : RuntimeStoreData} {c : BundleId}
    {d : BundleDescriptor} (hd : (ensureDefaultBundleData data c).descriptorOf b = some d) :
    data.descriptorOf b = some d ∨ d.origin = .internal := by
  unfold ensureDefaultBundleData at hd
  cases hrecord : data.bundleData.lookup c with
  | some bd =>
    rw [hrecord] at hd
    exact Or.inl hd
  | none =>
    rw [hrecord] at hd
    by_cases hb : b = c
    · subst hb
      simp only [descriptorOf, Finmap.lookup_insert, Option.map_some, Option.some.injEq] at hd
      exact Or.inr (hd ▸ rfl)
    · exact Or.inl (by simpa [descriptorOf, hb] using hd)

/-- A registration that its manifest covers. -/
theorem Fits.register (h : Fits opts window rt) {c : BundleId} {descriptor : PluginDescriptor}
    {interface : RawGuestContractInterface} {ptr : Nat} {name : String}
    (hcovers : CoversRegistration opts window rt c descriptor interface ptr name)
    (hlen : (rt.registry.registerGuestContract descriptor interface ptr name c).2.data.slots.length
      ≤ 2 ^ 32) :
    Fits opts window { rt with registry :=
      (rt.registry.registerGuestContract descriptor interface ptr name c).2 } := by
  rcases registerGuestContract_cases rt.registry descriptor interface ptr name c with
    ⟨e, heq⟩ | ⟨contract, handle, data', hprep, -, hins, heq⟩
  · rw [heq]
    exact h
  · rw [heq] at hlen ⊢
    have hreg := registers_of_registerGuestContract hins hlen
    have hrecords : ∀ x d, data'.descriptorOf x = some d →
        rt.registry.data.descriptorOf x = some d ∨ d.origin = .internal := by
      intro x d hd
      rw [(sameBundles_insertPreparedGuestContract hins).descriptorOf_eq] at hd
      exact descriptorOf_ensureDefault hd
    refine ⟨h.tidy.of_registers hreg, fun x d dir hd horigin => ?_, fun x m hx hm => ?_⟩
    · rcases hrecords x d hd with hold | hdefault
      · exact h.named x d dir hold horigin
      · rw [hdefault] at horigin
        cases horigin
    · have hold : rt.diskManifest x = some m := by
        obtain ⟨d, dir, hd, horigin, hcached⟩ := diskManifest_eq_some.mp hm
        rcases hrecords x d hd with hold | hdefault
        · exact diskManifest_eq_some.mpr ⟨d, dir, hold, horigin, hcached⟩
        · rw [hdefault] at horigin
          cases horigin
      refine Matches.congr ((h.matched x m hx hold).add
        (Q := fun c' => c = x ∧ contract = c') ?_) fun c' => ?_
      · rintro c' ⟨rfl, rfl⟩
        exact hcovers hx m hold contract (by rw [hprep]; rfl)
      · show Has data' x c' ↔ _
        rw [hreg.has_iff]
        simp

/-! ### Commits -/

/-- A commit that succeeds has run the checks. -/
theorem publishPrepared_accepted {prepared : PreparedBundleRegistration}
    {handles : List GuestContractHandle}
    (hok : (rt.publishPrepared prepared b opts).1 = .ok handles) :
    Accepted opts prepared.manifest prepared.contracts := by
  unfold Runtime.publishPrepared at hok
  dsimp only at hok
  cases hproviders : validatePreparedProviderSet prepared.manifest prepared.contracts with
  | error e =>
    rw [hproviders] at hok
    cases hok
  | ok u =>
    refine ⟨hproviders, fun hstrict hchecked => ?_⟩
    rw [hproviders] at hok
    have hrun : opts.ignoreFunctionCountMismatch = false ∧ opts.compatibility ≠ .yolo :=
      ⟨hchecked, by simp [hstrict]⟩
    dsimp only at hok
    rw [if_pos hrun, hstrict] at hok
    cases hcounts : validatePreparedFunctionCounts prepared.manifest .strict prepared.contracts with
    | error e =>
      rw [hcounts] at hok
      cases hok
    | ok u => exact validatePreparedFunctionCounts_ok_iff.mp hcounts

/-- A commit of a bundle that is staged under its own name. -/
theorem Fits.publish (h : Fits opts window rt) {prepared : PreparedBundleRegistration}
    {c : BundleId} (hnamed : StagedNamed prepared) (hfor : prepared.isFor c = true)
    (hlen : (rt.publishPrepared prepared c opts).2.registry.data.slots.length ≤ 2 ^ 32) :
    Fits opts window (rt.publishPrepared prepared c opts).2 := by
  rcases publishPrepared_ends rt c prepared opts with
    ⟨e, heq⟩ | ⟨version, handles, registry, hok, heq⟩
  · rw [heq]
    exact h
  · have haccepted : Accepted opts prepared.manifest prepared.contracts :=
      publishPrepared_accepted (by rw [heq])
    have hc : BundleId.new prepared.manifest.name = c := by
      refine bundleId_injective (hnamed.symm.trans ?_)
      simpa [PreparedBundleRegistration.isFor] using hfor
    rw [heq] at hlen ⊢
    rcases registerPreparedBundle_cases rt.registry (Runtime.preparedDescriptor prepared c version)
        (Runtime.preparedDependencies prepared.manifest) prepared.contracts with
      ⟨e, heq'⟩ | ⟨hs, data', -, -, hnew, hins, heq'⟩
    · rw [heq'] at hok
      cases hok
    · rw [heq'] at hok
      cases hok
      have hreg := registers_of_registerPreparedBundle hnew hins hlen
      have hrecord : ∀ x, data'.descriptorOf x = if x = c
          then some (Runtime.preparedDescriptor prepared c version)
          else rt.registry.data.descriptorOf x :=
        (registerPreparedBundle_adds hnew hins hlen).2.descriptors
      refine ⟨RuntimeStore.Tidy.congr (h.tidy.of_registers hreg) rfl rfl,
        fun x d dir hd horigin => ?_, fun x m hx hm => ?_⟩
      · have hd' := (hrecord x).symm.trans hd
        by_cases hxc : x = c
        · rw [if_pos hxc] at hd'
          cases hd'
          rw [hxc]
          exact hc
        · rw [if_neg hxc] at hd'
          exact h.named x d dir hd' horigin
      · obtain ⟨d, dir, hd, horigin, hcached⟩ := diskManifest_eq_some.mp hm
        have hd' := (hrecord x).symm.trans hd
        by_cases hxc : x = c
        · subst hxc
          rw [if_pos rfl] at hd'
          cases hd'
          have hm' : prepared.manifest = m := by
            simpa [Runtime.preparedDescriptor] using hcached
          subst hm'
          -- The bundle had no record, so it has exactly the staged contracts.
          refine (accepted_iff.mp haccepted).congr fun c' => ?_
          have hnone : rt.registry.data.pluginSlots x = [] := by
            have hlookup : rt.registry.data.bundleData.lookup x = none := hnew
            simp [pluginSlots, hlookup]
          show Has data' x c' ↔ _
          rw [hreg.has_iff]
          simp [not_has h.tidy.consistent hnone, Runtime.preparedDescriptor]
        · rw [if_neg hxc] at hd'
          have hname : d.name ≠ prepared.manifest.name := by
            intro he
            refine hxc ?_
            rw [← hc, ← he]
            exact (h.named x d dir hd' horigin).symm
          have hold : rt.diskManifest x = some m := by
            refine diskManifest_eq_some.mpr ⟨d, dir, hd', horigin, ?_⟩
            simpa [hname] using hcached
          refine (h.matched x m hx hold).congr fun c' => ?_
          show Has data' x c' ↔ _
          rw [hreg.has_iff]
          simp [Runtime.preparedDescriptor, Ne.symm hxc]

end

end PolyPlug.Lifecycle
