import PolyPlug.Lifecycle.Host
import PolyPlug.Proofs.Lifecycle.Covered
import PolyPlug.Proofs.Lifecycle.Cascade

/-!
# `PolyPlug.Proofs.Lifecycle.Manifests`: live bundles and their manifests

A load checks what it stages against its manifest. A reload does not: its loader
registers directly, and `apply_reload_swap` publishes whatever was registered, next to
the new manifest. So the published contracts match the manifests after every run whose
calls meet `HostCall.Meets` (`matchesManifest_run`). Its main part is that what a reload
registers passes the checks that a commit runs.

The other parts are about a loader that starts loads in its init. A load that fails
inside an init of the same bundle also drops the outer staged bundle, and the
registrations that follow are direct. A reload of a bundle without a record may get it
from such a load, and its abort then leaves the record without its contracts.
-/

set_option autoImplicit false

namespace PolyPlug.Lifecycle

open PolyPlug.Abi
open PolyPlug.Lib
open PolyPlug.Common
open PolyPlug.Registry
open RuntimeStoreData RuntimeStore

/-! ### The condition -/

/-- What the loader does in a reload of the bundle in this directory. -/
structure WindowMeets (opts : LoadOptions) (env : ReloadEnv) (body : LoaderRun) (b : BundleId)
    (dir : String) (before : Runtime) : Prop where
  inits : body.Meets env.load (CoversRegistration opts (some b)) (fun _ => (· = opts))
    ({ before with registry := before.registry.beginReload b }.pushInitBundleId
      env.load.thread b.id)
  /-- The new manifest accepts the contracts that are swapped in. -/
  accepted : (before.runReload env body b).1.isOk = true →
    ∀ m ∈ (env.parseManifest dir).toOption,
      Accepted opts m (pendingContracts (before.runReload env body b).2.registry.data b
        (before.registry.getBundlePluginSlots b))
  /-- A bundle that gets its record inside the window provides nothing, if the loader fails. -/
  aborted : (before.runReload env body b).1.isOk = false →
    (before.registry.getBundleDescriptor b).isSome = false →
      ∀ m ∈ (before.runReload env body b).2.diskManifest b, m.provides = []

instance (opts : LoadOptions) (env : ReloadEnv) (body : LoaderRun) (b : BundleId) (dir : String)
    (before : Runtime) : Decidable (WindowMeets opts env body b dir before) :=
  decidable_of_iff (_ ∧ (_ → ∀ m ∈ (env.parseManifest dir).toOption, _) ∧
      (_ → _ → ∀ m ∈ (before.runReload env body b).2.diskManifest b, m.provides = []))
    ⟨fun h => ⟨h.1, h.2.1, h.2.2⟩, fun h => ⟨h.inits, h.accepted, h.aborted⟩⟩

/-- The calls of `loader.reload` meet the condition. -/
def TraceMeets (opts : LoadOptions) (env : ReloadEnv) (trace : List ReloadMark) : Prop :=
  ∀ p ∈ (inits trace).zipIdx, WindowMeets opts env (env.reload p.2) p.1.1 p.1.2.1 p.1.2.2

instance (opts : LoadOptions) (env : ReloadEnv) (trace : List ReloadMark) :
    Decidable (TraceMeets opts env trace) :=
  inferInstanceAs (Decidable (∀ p ∈ (inits trace).zipIdx, _))

namespace HostCall

/-- The condition on a load. All loads have the options of the runtime. -/
def LoadMeets (opts : LoadOptions) (rt : Runtime) (env : LoadEnv) (manifest : ManifestData)
    (source : BundleSource) (opts' : LoadOptions) (body : LoaderRun) : Prop :=
  opts' = opts ∧
  match rt.admitLoad env manifest source with
  | (.error _, _)          => True
  | (.ok bundleId, staged) =>
    body.Meets env (CoversRegistration opts none) (fun _ => (· = opts))
      (staged.pushInitBundleId env.thread bundleId.id)

/-- The condition on a call. -/
def Meets (opts : LoadOptions) (rt : Runtime) (call : HostCall) : Prop :=
  (match call with
    | .load env manifest source opts' body => LoadMeets opts rt env manifest source opts' body
    | .reload env levels path              =>
      TraceMeets opts env (rt.reloadBundle env (levels + 1) path).2.trace
    | .unload ..                           => True) ∧
  (call.exec rt).registry.data.slots.length ≤ 2 ^ 32

instance (opts : LoadOptions) (rt : Runtime) (env : LoadEnv) (manifest : ManifestData)
    (source : BundleSource) (opts' : LoadOptions) (body : LoaderRun) :
    Decidable (LoadMeets opts rt env manifest source opts' body) := by
  unfold LoadMeets
  cases rt.admitLoad env manifest source with
  | mk result staged => cases result <;> infer_instance

instance (opts : LoadOptions) (rt : Runtime) (call : HostCall) :
    Decidable (call.Meets opts rt) := by
  unfold Meets
  cases call <;> infer_instance

end HostCall

/-! ### Loaders -/

section
variable {opts : LoadOptions} {rt rt' : Runtime} {b : BundleId}

/-- Between the calls. -/
structure Live (opts : LoadOptions) (rt : Runtime) : Prop where
  guarded : Guarded ⟨rt.registry, none⟩
  fits : Fits opts none rt
  staged : Staged StagedNamed rt

theorem live_new (opts : LoadOptions) : Live opts Runtime.new where
  guarded := guarded_new
  fits := by
    refine ⟨tidy_new, fun b d dir hd => ?_, fun b m _ hm => ?_⟩
    · simp [Runtime.new, RuntimeStore.new, RuntimeStoreData.new, descriptorOf] at hd
    · obtain ⟨d, dir, hd, -⟩ := diskManifest_eq_some.mp hm
      simp [Runtime.new, RuntimeStore.new, RuntimeStoreData.new, descriptorOf] at hd
  staged := by
    intro thread r hr
    simp [Runtime.new, RuntimeStore.new, preparedOn] at hr

theorem stagedNamed_staging {manifest : ManifestData} (source : BundleSource)
    (hid : manifest.id = (BundleId.new manifest.name).id) :
    StagedNamed (staging manifest source []) := hid

/-- Outside a window. -/
theorem loaderRule_live (opts : LoadOptions) :
    LoaderRule (CoversRegistration opts none) (fun _ => (· = opts)) StagedNamed fun rt =>
      rt.registry.data.slots.length ≤ 2 ^ 32 → Guarded ⟨rt.registry, none⟩ ∧ Fits opts none rt where
  core rt rt' hcore h hlen := by
    have hdata : rt'.core.registry.data = rt.core.registry.data := by rw [hcore]
    have hdata' : rt'.registry.data = rt.registry.data := hdata
    refine ⟨keptByLoader_guarded.core rt rt' hcore (fun hlen => (h hlen).1) hlen, ?_⟩
    exact (h (hdata' ▸ hlen)).2.of_core hcore
  stage manifest source _ hid _ := stagedNamed_staging source hid
  append r contract h := h
  register rt c descriptor interface ptr name hcovers h hlen := by
    refine ⟨keptByLoader_guarded.register rt descriptor interface ptr name c
      (fun hlen => (h hlen).1) hlen, ?_⟩
    have hgrows := registerGuestContract_length_le rt.registry descriptor interface ptr name c
    exact (h (le_trans hgrows hlen)).2.register hcovers hlen
  publish rt prepared c _ opts' hnamed hfor hopts h hlen := by
    subst hopts
    refine ⟨keptByLoader_guarded.publish rt prepared c opts' (fun hlen => (h hlen).1) hlen, ?_⟩
    have hgrows := (keptByLoader_length rt.registry.data.slots.length).publish rt prepared c opts'
      (le_refl _)
    exact (h (le_trans hgrows hlen)).2.publish hnamed hfor hlen

/-- Inside the window of `b` that was opened in the runtime `before`. -/
structure WindowFits (opts : LoadOptions) (before : Runtime) (b : BundleId) (rt : Runtime) :
    Prop where
  inWindow : InWindow before.registry b rt.registry
  fits : Fits opts (some b) rt
  cached : (before.registry.data.descriptorOf b).isSome → ∀ n, BundleId.new n = b →
    rt.bundleManifests.lookup n = before.bundleManifests.lookup n

/-- A commit caches the manifest under a name of its bundle, which had no record. -/
theorem publishPrepared_cached {prepared : PreparedBundleRegistration} {c : BundleId}
    (hnamed : StagedNamed prepared) (hfor : prepared.isFor c = true) (opts : LoadOptions)
    {n : String} (hn : BundleId.new n = c → (rt.registry.data.descriptorOf c).isSome) :
    (rt.publishPrepared prepared c opts).2.bundleManifests.lookup n
      = rt.bundleManifests.lookup n := by
  rcases publishPrepared_ends rt c prepared opts with
    ⟨e, heq⟩ | ⟨version, handles, registry, hok, heq⟩
  · rw [heq]
  · have hc : BundleId.new prepared.manifest.name = c := by
      refine bundleId_injective (hnamed.symm.trans ?_)
      simpa [PreparedBundleRegistration.isFor] using hfor
    have hname : n ≠ prepared.manifest.name := by
      rintro rfl
      have hrecord := hn hc
      rcases registerPreparedBundle_cases rt.registry
          (Runtime.preparedDescriptor prepared c version)
          (Runtime.preparedDependencies prepared.manifest) prepared.contracts with
        ⟨e, heq'⟩ | ⟨hs, data', -, -, hnew, -, -⟩
      · rw [heq'] at hok
        cases hok
      · have hnone : rt.registry.data.bundleData.lookup c = none := hnew
        simp [descriptorOf, hnone] at hrecord
    rw [heq]
    simp [hname]

/-- Inside a window. -/
theorem loaderRule_window (opts : LoadOptions) (before : Runtime) (b : BundleId) :
    LoaderRule (CoversRegistration opts (some b)) (fun _ => (· = opts)) StagedNamed fun rt =>
      rt.registry.data.slots.length ≤ 2 ^ 32 → WindowFits opts before b rt where
  core rt rt' hcore h hlen := by
    have hdata : rt'.core.registry.data = rt.core.registry.data := by rw [hcore]
    have hdata' : rt'.registry.data = rt.registry.data := hdata
    have hcached : rt'.core.bundleManifests = rt.core.bundleManifests := by rw [hcore]
    have hcached' : rt'.bundleManifests = rt.bundleManifests := hcached
    have hin := h (hdata' ▸ hlen)
    refine ⟨(keptByLoader_inWindow before.registry b).core rt rt' hcore
      (fun hlen => (h hlen).inWindow) hlen, hin.fits.of_core hcore, fun hrecord n hn => ?_⟩
    rw [hcached']
    exact hin.cached hrecord n hn
  stage manifest source _ hid _ := stagedNamed_staging source hid
  append r contract h := h
  register rt c descriptor interface ptr name hcovers h hlen := by
    have hgrows := registerGuestContract_length_le rt.registry descriptor interface ptr name c
    have hin := h (le_trans hgrows hlen)
    exact ⟨(keptByLoader_inWindow before.registry b).register rt descriptor interface ptr name c
      (fun hlen => (h hlen).inWindow) hlen, hin.fits.register hcovers hlen, hin.cached⟩
  publish rt prepared c _ opts' hnamed hfor hopts h hlen := by
    subst hopts
    have hgrows := (keptByLoader_length rt.registry.data.slots.length).publish rt prepared c opts'
      (le_refl _)
    have hin := h (le_trans hgrows hlen)
    refine ⟨(keptByLoader_inWindow before.registry b).publish rt prepared c opts'
      (fun hlen => (h hlen).inWindow) hlen, hin.fits.publish hnamed hfor hlen,
      fun hrecord n hn => ?_⟩
    rw [← hin.cached hrecord n hn]
    refine publishPrepared_cached hnamed hfor opts' fun hc => ?_
    -- The bundle of the window has the record it had.
    rw [← hc, hn]
    rcases hin.inWindow.recorded with hsame | ⟨hnone, -⟩
    · rw [hsame.descriptor]
      exact hrecord
    · rw [hnone] at hrecord
      cases hrecord

/-! ### The end of a window -/

/-- What a step for the bundle `b` changes elsewhere does not matter to the match. -/
theorem Fits.close (h : Fits opts (some b) rt) (ht : rt'.registry.Tidy)
    (hleaves : Registry.Leaves b rt.registry.data rt'.registry.data)
    (hrecord : ∀ x, x ≠ b → ∀ d, rt'.registry.data.descriptorOf x = some d →
      rt.registry.data.descriptorOf x = some d)
    (hcached : ∀ n m, BundleId.new n ≠ b → rt'.bundleManifests.lookup n = some m →
      rt.bundleManifests.lookup n = some m)
    (hnamed : ∀ d dir, rt'.registry.data.descriptorOf b = some d → d.origin = .path dir →
      BundleId.new d.name = b)
    (hb : ∀ m, rt'.diskManifest b = some m → Matches opts m (Has rt'.registry.data b)) :
    Fits opts none rt' := by
  refine ⟨ht, fun x d dir hd horigin => ?_, fun x m _ hm => ?_⟩
  · by_cases hx : x = b
    · subst hx
      exact hnamed d dir hd horigin
    · exact h.named x d dir (hrecord x hx d hd) horigin
  · by_cases hx : x = b
    · subst hx
      exact hb m hm
    · obtain ⟨d, dir, hd, horigin, hlookup⟩ := diskManifest_eq_some.mp hm
      have hd' := hrecord x hx d hd
      have hname : BundleId.new d.name ≠ b := by
        rw [h.named x d dir hd' horigin]
        exact hx
      have hold : rt.diskManifest x = some m :=
        diskManifest_eq_some.mpr ⟨d, dir, hd', horigin, hcached _ _ hname hlookup⟩
      refine (h.matched x m (fun he => hx (Option.some.inj he).symm) hold).congr fun c => ?_
      exact hleaves.has_iff h.tidy.consistent ht.consistent hx

/-- No window is a window of no bundle. -/
theorem Fits.weaken (h : Fits opts none rt) (b : BundleId) : Fits opts (some b) rt :=
  ⟨h.tidy, h.named, fun x m _ hm => h.matched x m nofun hm⟩

/-- A bundle without a record holds nothing. -/
theorem not_has_of_unrecorded {data : RuntimeStoreData} (hc : data.Consistent)
    (hnone : data.descriptorOf b = none) (c : PreparedGuestContract) : ¬Has data b c := by
  refine not_has hc ?_
  have hlookup : data.bundleData.lookup b = none := by
    simpa [descriptorOf] using hnone
  simp [pluginSlots, hlookup]

/-- The loader fails. -/
theorem WindowFits.abort {before : Runtime} (hlive : Live opts before)
    (h : WindowFits opts before b rt) (hlen : rt.registry.data.slots.length ≤ 2 ^ 32)
    (haborted : before.registry.getBundleDescriptor b = none →
      ∀ m, rt.diskManifest b = some m → m.provides = []) :
    Fits opts none
      { rt with registry := rt.registry.abortReload b (before.registry.data.pluginSlots b) } := by
  have htidy := (abortReload_effect h.fits.tidy (b := b) (before.registry.data.pluginSlots b)).1
  obtain ⟨hbundles, -⟩ := h.inWindow.abort_bundles (before.registry.data.pluginSlots b)
  obtain ⟨hheld, hkept⟩ := h.inWindow.abort_slots
  have hrecord := hbundles.descriptorOf_eq
  refine h.fits.close htidy ?_ (fun x _ d hd => ?_) (fun _ _ _ hm => hm) (fun d dir hd => ?_)
    fun m hm => ?_
  · exact exec_leaves h.fits.tidy (o := .abortReload b (before.registry.data.pluginSlots b))
      ⟨trivial, le_trans (le_of_eq (abortReload_length rt.registry b _)) hlen⟩
  · rwa [hrecord] at hd
  · rw [hrecord] at hd
    exact h.fits.named b d dir hd
  · -- The slots of the snapshot are as they were.
    have hhas : ∀ c, Has (rt.registry.abortReload b
        (before.registry.data.pluginSlots b)).data b c ↔ Has before.registry.data b c := fun c =>
      has_congr hlive.fits.tidy.consistent htidy.consistent hheld hkept.slots
    have hdisk : rt.diskManifest b = some m := by
      rw [← hm]
      exact diskManifest_congr (hrecord b).symm fun _ _ _ _ => rfl
    cases hbefore : before.registry.data.descriptorOf b with
    | none =>
      refine matches_empty (haborted ?_ m hdisk) fun c hc => ?_
      · rw [getBundleDescriptor_eq]
        exact hbefore
      · exact not_has_of_unrecorded hlive.fits.tidy.consistent hbefore c ((hhas c).mp hc)
    | some d =>
      have hsame : rt.registry.data.descriptorOf b = before.registry.data.descriptorOf b := by
        rcases h.inWindow.recorded with hsame | ⟨hnone, -⟩
        · exact hsame.descriptor
        · rw [hbefore] at hnone
          cases hnone
      have hold : before.diskManifest b = some m := by
        rw [← hdisk]
        refine (diskManifest_congr hsame fun d' dir hd' horigin => ?_).symm
        refine h.cached (by rw [hbefore]; rfl) d'.name ?_
        exact hlive.fits.named b d' dir hd' horigin
      exact (hlive.fits.matched b m nofun hold).congr hhas

/-- The loader returns `Ok`. -/
theorem WindowFits.swap {before : Runtime} (h : WindowFits opts before b rt)
    (hlen : rt.registry.data.slots.length ≤ 2 ^ 32) {r : Replacement}
    (hid : r.descriptor.id = b) (hname : r.descriptor.name = r.manifest.name)
    (hb : BundleId.new r.manifest.name = b)
    (haccepted : Accepted opts r.manifest
      (pendingContracts rt.registry.data b (before.registry.data.pluginSlots b))) :
    Fits opts none
      (rt.closeReload r (before.registry.data.pluginSlots b) (.ok ())).2 := by
  subst hid
  have hp := h.fits.tidy.present
  have htidy := (applyReloadSwap_effect h.fits.tidy h.inWindow.own r.descriptor r.dependencies).1
  have hleaves := exec_leaves h.fits.tidy
    (o := .applyReloadSwap r.descriptor.id (before.registry.data.pluginSlots r.descriptor.id)
      r.descriptor r.dependencies)
    ⟨h.inWindow.own, le_trans (le_of_eq (applyReloadSwap_length rt.registry _ _ _ _)) hlen⟩
  simp only [RuntimeStore.exec, StoreOp.bundleId] at hleaves
  have hends := applyReloadSwap_bundles hp r.descriptor.id
    (before.registry.data.pluginSlots r.descriptor.id) r.descriptor r.dependencies
  have hown := applyReloadSwap_own hp h.fits.tidy.consistent h.inWindow.own r.descriptor
    r.dependencies
  simp only [Runtime.closeReload]
  generalize rt.registry.applyReloadSwap r.descriptor.id
    (before.registry.data.pluginSlots r.descriptor.id) r.descriptor r.dependencies = result
    at hends hown htidy hleaves
  obtain ⟨_ | u, registry⟩ := result
  · -- A swap that fails has found no record.
    rename_i e
    rcases hends with ⟨-, hsame⟩ | ⟨hok, -⟩
    · have hrecord := hsame.descriptorOf_eq
      have hnone : registry.data.descriptorOf r.descriptor.id = none := by
        rw [hrecord]
        rcases hown with ⟨data', heq, -⟩ | ⟨hnone, -⟩
        · cases heq
        · simp [descriptorOf, hnone]
      refine h.fits.close htidy hleaves (fun x _ d hd => ?_) (fun _ _ _ hm => hm)
        (fun d dir hd => ?_) fun m hm => ?_
      · exact (hrecord x).symm.trans hd
      · rw [show registry.data.descriptorOf r.descriptor.id = some d from hd] at hnone
        cases hnone
      · obtain ⟨d, -, hd, -⟩ := diskManifest_eq_some.mp hm
        rw [show registry.data.descriptorOf r.descriptor.id = some d from hd] at hnone
        cases hnone
    · cases hok
  · rcases hends with ⟨⟨e, herror⟩, -⟩ | ⟨-, -, hwrites⟩
    · cases herror
    -- An accepted swap writes the record of the bundle, and no other.
    have hrecord : ∀ x, registry.data.descriptorOf x = if x = r.descriptor.id
        then some r.descriptor else rt.registry.data.descriptorOf x := by
      intro x
      rw [hwrites.descriptorOf_eq]
      simp only [bundleWrites, descriptorOf, lookup_insert_eq]
      split <;> rfl
    refine h.fits.close htidy hleaves (fun x hx d hd => ?_) (fun n m hn hm => ?_)
      (fun d dir hd _ => ?_) fun m hm => ?_
    · have hd' := (hrecord x).symm.trans hd
      rwa [if_neg hx] at hd'
    · -- The manifest under the name of another bundle was there before.
      have hne : n ≠ r.manifest.name := by
        rintro rfl
        exact hn hb
      simpa [hne] using hm
    · have hd' := (hrecord _).symm.trans hd
      rw [if_pos rfl] at hd'
      cases hd'
      rw [hname]
      exact hb
    · obtain ⟨d, dir, hd, -, hcached⟩ := diskManifest_eq_some.mp hm
      have hd' := (hrecord _).symm.trans hd
      rw [if_pos rfl] at hd'
      cases hd'
      have hm' : r.manifest = m := by
        rw [hname] at hcached
        simpa using hcached
      subst hm'
      refine (accepted_iff.mp haccepted).congr fun c => ?_
      rcases hown with ⟨data', heq, hswap⟩ | ⟨-, -, -, heq⟩
      · cases heq
        exact hswap.has_iff h.fits.tidy.consistent htidy.consistent
      · cases heq

/-! ### The calls -/

/-- The replacement has the id and the name of its manifest, which is the one in its
directory. -/
theorem ReloadEnv.Accepts.named {env : ReloadEnv} {r : Replacement} (h : env.Accepts r) :
    r.descriptor.id = BundleId.new r.manifest.name ∧ r.descriptor.name = r.manifest.name ∧
      env.parseManifest r.manifest.path = .ok r.manifest := by
  obtain ⟨path, hcheck⟩ := h
  obtain ⟨hid, hname, hpath, hparse⟩ := checkReload_named hcheck
  exact ⟨hid, hname, hpath ▸ hparse⟩

/-- The reload of one bundle. -/
theorem Live.replaceBundle (h : Live opts rt) {env : ReloadEnv} {r : Replacement}
    (hr : env.Accepts r) {body : LoaderRun}
    (hmeets : WindowMeets opts env body r.descriptor.id r.manifest.path rt)
    (hlen : (rt.replaceBundle env r body).2.registry.data.slots.length ≤ 2 ^ 32) :
    Live opts (rt.replaceBundle env r body).2 := by
  obtain ⟨hid, hname, hparse⟩ := hr.named
  have hguarded := (replaceBundle_restores h.guarded r body hlen).1
  have hlen' : (rt.runReload env body r.descriptor.id).2.registry.data.slots.length ≤ 2 ^ 32 := by
    unfold Runtime.replaceBundle at hlen
    rwa [closeReload_length] at hlen
  -- The window opens with the bundles as they are.
  have hstart : WindowFits opts rt r.descriptor.id
      { rt with registry := rt.registry.beginReload r.descriptor.id } :=
    ⟨.start h.guarded _, ⟨(InWindow.start h.guarded _).tidy, h.fits.named,
      (h.fits.weaken _).matched⟩, fun _ _ _ => rfl⟩
  obtain ⟨hwindow, hstaged⟩ := @LoaderRule.inInitWindow _ _ _ _
    (loaderRule_window opts rt r.descriptor.id) env.load
    { rt with registry := rt.registry.beginReload r.descriptor.id } _ (body.exec env.load)
    r.descriptor.id
    (fun hpush => (loaderRule_window opts rt r.descriptor.id).exec env.load body hpush hmeets.inits)
    ⟨fun _ => hstart, h.staged.of_stacks rfl⟩
  have hin : WindowFits opts rt r.descriptor.id (rt.runReload env body r.descriptor.id).2 :=
    hwindow hlen'
  refine ⟨hguarded, ?_, hstaged.of_stacks ?_⟩
  · unfold Runtime.replaceBundle
    rw [getBundlePluginSlots_eq]
    cases hloaded : (rt.runReload env body r.descriptor.id).1 with
    | error e =>
      refine hin.abort h hlen' fun hnone => hmeets.aborted ?_ ?_
      · rw [hloaded]
        rfl
      · rw [hnone]
        rfl
    | ok u =>
      have haccepted := hmeets.accepted (by rw [hloaded]; rfl) r.manifest (by rw [hparse]; rfl)
      rw [getBundlePluginSlots_eq] at haccepted
      exact hin.swap hlen' rfl hname hid.symm haccepted
  · exact closeReload_preparedBundles _ r _ _

/-- A load. -/
theorem Live.loadBundle (h : Live opts rt) {env : LoadEnv} {manifest : ManifestData}
    {source : BundleSource} {body : LoaderRun}
    (hmeets : HostCall.LoadMeets opts rt env manifest source opts body)
    (hlen : (rt.loadBundle env manifest source opts body).2.registry.data.slots.length ≤ 2 ^ 32) :
    Live opts (rt.loadBundle env manifest source opts body).2 := by
  obtain ⟨hkept, hstaged⟩ := (loaderRule_live opts).loadBundle env manifest source rfl body
    ⟨fun _ => ⟨h.guarded, h.fits⟩, h.staged⟩ hmeets.2
  obtain ⟨hguarded, hfits⟩ := hkept hlen
  exact ⟨hguarded, hfits, hstaged⟩

/-- What an invalidation does beside the tables of the registry. -/
theorem invalidateRegistered_beside {d : BundleDescriptor}
    (hok : (rt.invalidateRegistered b d).1 = .ok ()) :
    (rt.invalidateRegistered b d).2.bundleManifests = rt.bundleManifests.erase d.name ∧
      (rt.invalidateRegistered b d).2.registry.preparedBundles
        = rt.registry.preparedBundles := by
  unfold Runtime.invalidateRegistered at hok ⊢
  dsimp only at hok ⊢
  split at hok
  · cases hok
  · rename_i hfree
    rw [if_neg hfree]
    refine ⟨rfl, ?_⟩
    simp only [invalidateBundle]
    cases rt.registry.data.bundleData.lookup b <;> rfl

/-- The records after an invalidation. -/
theorem descriptorOf_invalidateBundle (s : RuntimeStore) (b x : BundleId) :
    (s.invalidateBundle b).2.data.descriptorOf x
      = if x = b then none else s.data.descriptorOf x := by
  unfold invalidateBundle
  cases hrecord : s.data.bundleData.lookup b with
  | none =>
    dsimp only
    by_cases hx : x = b
    · subst hx
      simp [descriptorOf, hrecord]
    · rw [if_neg hx]
  | some bd =>
    simp only [RuntimeStore.publish, descriptorOf, foldl_vacateSlot_bundleData, lookup_erase_eq]
    split <;> rfl

/-- An unload. -/
theorem Live.unloadBundle (h : Live opts rt) (hooks : Hooks) (thread : ThreadId) (b : BundleId) :
    Live opts (rt.unloadBundle hooks thread b).2 := by
  rcases unloadBundle_cases hooks thread rt b with ⟨e, heq, -⟩ | ⟨d, hd, -, hok, heq⟩
  · rw [heq]
    exact h
  · rw [heq]
    rw [getBundleDescriptor_eq] at hd
    rcases invalidateRegistered_cases rt b d with ⟨live, herror⟩ | ⟨-, hdata, hpub⟩
    · rw [herror] at hok
      cases hok
    obtain ⟨hmanifests, hstacks⟩ := invalidateRegistered_beside hok
    have htidy := (invalidateBundle_effect h.fits.tidy (b := b)).1
    have hleaves : Registry.Leaves b rt.registry.data (rt.registry.invalidateBundle b).2.data := by
      obtain ⟨data', heq', hinv⟩ := invalidates_of_registered h.fits.tidy (by rw [hd]; rfl)
      rw [heq']
      exact hinv.leaves h.fits.tidy
    have hrecord := descriptorOf_invalidateBundle rt.registry b
    rw [← hdata] at hrecord
    refine ⟨(h.guarded.of_unload fun r hr => nomatch hr).of_core hdata hpub, ?_,
      h.staged.of_stacks hstacks⟩
    refine (h.fits.weaken b).close (RuntimeStore.Tidy.congr htidy hdata hpub) (hdata ▸ hleaves)
      (fun x hx d' hd' => ?_) (fun n m _ hm => ?_) (fun d' dir hd' => ?_) fun m hm => ?_
    · rwa [hrecord, if_neg hx] at hd'
    · rw [hmanifests, lookup_erase_eq] at hm
      split at hm
      · cases hm
      · exact hm
    · rw [hrecord, if_pos rfl] at hd'
      cases hd'
    · obtain ⟨d', -, hd', -⟩ := diskManifest_eq_some.mp hm
      rw [hrecord, if_pos rfl] at hd'
      cases hd'

/-- The calls of loaders are counted, and the runtime is live as long as they meet the
condition. -/
structure Counted (opts : LoadOptions) (env : ReloadEnv) (s : ReloadState) : Prop where
  calls : s.calls = (inits s.trace).length
  live : s.runtime.registry.data.slots.length ≤ 2 ^ 32 → TraceMeets opts env s.trace →
    Live opts s.runtime

theorem inits_append (trace marks : List ReloadMark) :
    inits (trace ++ marks) = inits trace ++ inits marks := List.filterMap_append

/-- A window calls the loader once. -/
theorem inits_opening (env : ReloadEnv) (s : ReloadState) (r : Replacement)
    (marks : List ReloadMark) : inits (s.trace ++ (s.opening env r ++ marks))
      = inits s.trace ++ (r.descriptor.id, r.manifest.path, s.runtime) :: inits marks := by
  rw [inits_append, inits_append]
  rfl

theorem TraceMeets.of_append {env : ReloadEnv} {trace marks : List ReloadMark}
    (h : TraceMeets opts env (trace ++ marks)) : TraceMeets opts env trace := by
  intro p hp
  refine h p ?_
  rw [inits_append, List.zipIdx_append]
  exact List.mem_append_left _ hp

/-- The call in a window meets its condition. -/
theorem TraceMeets.opening {env : ReloadEnv} {s : ReloadState} {r : Replacement}
    {marks : List ReloadMark} (hcalls : s.calls = (inits s.trace).length)
    (h : TraceMeets opts env (s.trace ++ (s.opening env r ++ marks))) :
    WindowMeets opts env (env.reload s.calls) r.descriptor.id r.manifest.path s.runtime := by
  refine h ((r.descriptor.id, r.manifest.path, s.runtime), s.calls) ?_
  rw [inits_opening, hcalls, List.zipIdx_append, List.zipIdx_cons, Nat.zero_add]
  exact List.mem_append_right _ (List.mem_cons_self ..)

/-- A window, whatever its end. -/
theorem Counted.replaceBundle {env : ReloadEnv} {s : ReloadState} (h : Counted opts env s)
    {r : Replacement} (hr : env.Accepts r) {result : Except RuntimeError Unit} {runtime : Runtime}
    (heq : s.runtime.replaceBundle env r (env.reload s.calls) = (result, runtime))
    (hlen : runtime.registry.data.slots.length ≤ 2 ^ 32) {marks : List ReloadMark}
    (hmeets : TraceMeets opts env (s.trace ++ (s.opening env r ++ marks))) :
    Live opts runtime := by
  have hgrows := @replaceBundle_length_le env s.runtime r (env.reload s.calls)
  rw [heq] at hgrows
  have hlive := (h.live (le_trans hgrows hlen) hmeets.of_append).replaceBundle hr
    (hmeets.opening h.calls)
  rw [heq] at hlive
  exact hlive hlen

/-- One level of a reload. -/
theorem keptByReload_counted (opts : LoadOptions) (env : ReloadEnv) :
    KeptByReload env (Counted opts env) where
  refused s phase h := by
    refine ⟨?_, fun hlen hmeets => h.live hlen hmeets.of_append⟩
    show s.calls = (inits (s.trace ++ s.refusal phase)).length
    have hnone : inits (s.refusal phase) = [] := by
      cases phase <;> rfl
    rw [inits_append, hnone, List.append_nil, h.calls]
  failed s r runtime e hr heq h := by
    refine ⟨?_, fun hlen hmeets => ?_⟩
    · rw [s.failed_trace, inits_opening, List.length_append, ← h.calls]
      rfl
    · rw [s.failed_trace] at hmeets
      exact h.replaceBundle hr heq hlen hmeets
  swapped s dependent r runtime hr heq _ h := by
    refine ⟨?_, fun hlen hmeets => ?_⟩
    · rw [s.swapped_trace, inits_opening, List.length_append, ← h.calls]
      rfl
    · rw [s.swapped_trace] at hmeets
      exact h.replaceBundle hr heq hlen hmeets
  reloaded s r before h := by
    refine ⟨?_, fun hlen hmeets => h.live hlen hmeets.of_append⟩
    show s.calls = (inits (s.trace ++ [_])).length
    rw [inits_append, h.calls]
    exact (congrArg List.length (List.append_nil _)).symm

/-- A reload with its cascade. -/
theorem Live.reloadBundle (h : Live opts rt) {env : ReloadEnv} {fuel : Nat} {path : String}
    (hmeets : TraceMeets opts env (rt.reloadBundle env fuel path).2.trace)
    (hlen : (rt.reloadBundle env fuel path).2.runtime.registry.data.slots.length ≤ 2 ^ 32) :
    Live opts (rt.reloadBundle env fuel path).2.runtime := by
  have hstart : Counted opts env ⟨rt, ∅, 0, []⟩ := ⟨rfl, fun _ _ => h⟩
  exact (@reload_invariant _ _ (keptByReload_counted opts env) fuel none path _ hstart
    rfl).live hlen hmeets

end

/-! ### The run -/

/-- After every run whose calls meet the condition, every bundle from a directory matches
its manifest. -/
theorem matchesManifest_run (opts : LoadOptions) (calls : List HostCall)
    (hsteps : Steps HostCall.exec (HostCall.Meets opts) Runtime.new calls) :
    MatchesManifest opts (run HostCall.exec Runtime.new calls) := by
  have hlive : Live opts (run HostCall.exec Runtime.new calls) := by
    refine hsteps.invariant (live_new opts) fun rt call h hmeets => ?_
    obtain ⟨hcall, hlen⟩ := hmeets
    cases call with
    | load env manifest source opts' body =>
      obtain rfl : opts' = opts := hcall.1
      exact h.loadBundle hcall hlen
    | reload env levels path => exact h.reloadBundle hcall hlen
    | unload hooks thread b => exact h.unloadBundle hooks thread b
  exact hlive.fits.matchesManifest hlive.guarded

/-! ### A guest that forgets its provider -/

/-- The manifest in `/a`: it provides `x`, without functions. -/
def countingX : ManifestData :=
  { providing "a" ["x@1"] with functionCount := Finmap.singleton "x@1" 0, path := "/a" }

/-- The bundle in `/a` is loaded and reloaded, under `Strict`, and then unloaded. Its
guest registers `x` in the load and does `body` in the reload. -/
def loadReloadUnload (body : LoaderRun) : List HostCall :=
  [.load unsignedEnv countingX (.path "/a") ⟨.strict, false⟩ registersX,
    .reload { strayEnv with manifestFile := fun _ => .ok countingX, reload := fun _ => body } 0
      "/a",
    .unload (fun _ => none) 1 (BundleId.new "b")]

/-- The guest registers `x` in both. -/
theorem matchesManifest_run_again :
    Steps HostCall.exec (HostCall.Meets ⟨.strict, false⟩) Runtime.new
        (loadReloadUnload registersX) ∧
      (publishedContracts (run HostCall.exec Runtime.new
        (loadReloadUnload registersX)).registry.data
        (BundleId.new "a")).map PreparedGuestContract.contractName = ["x"] ∧
      MatchesManifest ⟨.strict, false⟩
        (run HostCall.exec Runtime.new (loadReloadUnload registersX)) :=
  have hsteps : Steps HostCall.exec (HostCall.Meets ⟨.strict, false⟩) Runtime.new
      (loadReloadUnload registersX) := by
    decide +kernel
  ⟨hsteps, by decide +kernel, matchesManifest_run _ _ hsteps⟩

/-- The guest registers nothing in the reload, which still replaces the bundle. -/
theorem reload_drops_provider :
    ¬MatchesManifest ⟨.strict, false⟩
      (run HostCall.exec Runtime.new (loadReloadUnload (.done (.ok ())))) := by
  intro h
  have hcached : ((run HostCall.exec Runtime.new
      (loadReloadUnload (.done (.ok ())))).diskManifest (BundleId.new "a")) = some countingX := by
    decide +kernel
  have hproviders := (h _ _ hcached).providers
  revert hproviders
  decide +kernel

end PolyPlug.Lifecycle
