import PolyPlug.Lifecycle.Host
import PolyPlug.Proofs.Lifecycle.Cascade

/-!
# `PolyPlug.Proofs.Lifecycle.Signature`: which code is verified before it runs

Under `Required` a load verifies the bundle directory before it calls the loader, at any
depth of nesting. A reload checks the manifest again, and not the signature: its first
call of a loader has nothing before it. So a run executes verified bundles only exactly
if each of its reloads is refused before the loader (`verified_run_iff`).
-/

set_option autoImplicit false

namespace PolyPlug.Lifecycle

open PolyPlug.Abi
open PolyPlug.Common
open PolyPlug.Registry

/-! ### The property and the condition -/

/-- Each call of a loader comes after a verification of its directory. -/
def Verified (op : Operation) : Prop :=
  ∀ before dir after, op = before ++ .loader dir :: after → CodeEvent.verified dir ∈ before

/-- The call does not get a reload to its loader. -/
def HostCall.RefusesReload : HostCall → Prop
  | .reload env _ path    => (env.checkReload path).isOk = false
  | .load .. | .unload .. => True

/-! ### Loads -/

theorem verified_nil : Verified [] := by
  intro before dir after heq
  simp at heq

theorem verified_check (dir : String) : Verified [.verified dir] := by
  intro before dir' after heq
  rcases before with _ | ⟨event, rest⟩
  · cases heq
  · simp at heq

theorem verified_load (dir : String) : Verified [.verified dir, .loader dir] := by
  intro before dir' after heq
  rcases before with _ | ⟨event, _ | ⟨event', rest⟩⟩
  · cases heq
  · cases heq
    exact List.mem_singleton_self _
  · simp at heq

section
variable {env : LoadEnv} (hpolicy : env.signaturePolicy = .required)
include hpolicy

/-- A load does nothing, or the check alone, or the check and then the loader. -/
theorem loadEvents_verified (rt : Runtime) (manifest : ManifestData) (source : BundleSource) :
    Verified (rt.loadEvents env manifest source) := by
  unfold Runtime.loadEvents
  cases hvalid : manifest.validate with
  | error e => exact verified_nil
  | ok u =>
    have hoff : env.signaturePolicy ≠ .off := by simp [hpolicy]
    dsimp only [signatureEvents]
    rw [if_neg hoff]
    cases hverify : env.verifyBundleSignature manifest.path manifest.name with
    | error e =>
      have hrefused : (rt.admitLoad env manifest source).1 = .error e := by
        simp [Runtime.admitLoad, hvalid, Runtime.checkSignature, hpolicy, hverify]
      rw [hrefused]
      exact verified_nil
    | ok u =>
      cases (rt.admitLoad env manifest source).1 with
      | error e => exact verified_check manifest.path
      | ok bundleId => exact verified_load manifest.path

theorem loadOperations_verified (rt : Runtime) (manifest : ManifestData) (source : BundleSource)
    {inner : Runtime → List Operation} (hinner : ∀ rt, ∀ op ∈ inner rt, Verified op) :
    ∀ op ∈ rt.loadOperations env manifest source inner, Verified op := by
  intro op hop
  rcases List.mem_cons.mp hop with rfl | hop
  · exact loadEvents_verified hpolicy rt manifest source
  · rcases hload : rt.admitLoad env manifest source with ⟨_ | bundleId, staged⟩
    · rw [hload] at hop
      cases hop
    · rw [hload] at hop
      exact hinner _ op hop

/-- The loads inside an init. -/
theorem operations_verified (body : LoaderRun) (rt : Runtime) :
    ∀ op ∈ body.operations env rt, Verified op := by
  induction body generalizing rt with
  | done result => exact fun op h => (List.not_mem_nil h).elim
  | register descriptor interface functions ptr rest ih => exact ih _
  | load manifest source opts inner rest ihInner ihRest =>
    intro op hop
    rw [LoaderRun.operations, List.mem_append] at hop
    rcases hop with hload | hrest
    · exact loadOperations_verified hpolicy rt manifest source ihInner op hload
    · exact ihRest _ op hrest

end

/-! ### Reloads -/

section
variable {env : ReloadEnv}

/-- A refused reload calls no loader. -/
theorem operations_of_refused {rt : Runtime} {levels : Nat} {path : String}
    (h : (env.checkReload path).isOk = false) :
    env.operations (rt.reloadBundle env (levels + 1) path).2.trace = [[]] := by
  unfold Runtime.reloadBundle
  rw [reloadBundleWithVisited]
  cases hcheck : env.checkReload path with
  | ok r =>
    rw [hcheck] at h
    cases h
  | error p =>
    obtain ⟨e, phase⟩ := p
    cases phase <;> rfl

/-- The marks of a call are in its trace. -/
theorem keptByReload_prefix (env : ReloadEnv) (marks : List ReloadMark) :
    KeptByReload env fun s => marks <+: s.trace where
  refused s phase h := h.trans (List.prefix_append _ _)
  failed s r runtime e _ _ h := by
    rw [s.failed_trace]
    exact h.trans (List.prefix_append _ _)
  swapped s dependent r runtime _ _ _ h := by
    rw [s.swapped_trace]
    exact h.trans (List.prefix_append _ _)
  reloaded s r before h := h.trans (List.prefix_append _ _)

/-- A reload that is not refused calls a loader first. -/
theorem reload_not_verified {rt : Runtime} {levels : Nat} {path : String} {r : Replacement}
    (h : env.checkReload path = .ok r) :
    ¬Verified ((rt.reloadBundle env (levels + 1) path).2.trace.filterMap ReloadMark.event?) := by
  have hopening : ReloadState.opening env ⟨rt, ∅, 0, []⟩ r
      <+: (rt.reloadBundle env (levels + 1) path).2.trace := by
    show _ <+: (reloadBundleWithVisited env (levels + 1) none path ⟨rt, ∅, 0, []⟩).2.trace
    generalize hres : reloadBundleWithVisited env (levels + 1) none path ⟨rt, ∅, 0, []⟩ = result
    have hlevel := reload_level env levels none path ⟨rt, ∅, 0, []⟩
    rw [hres] at hlevel
    have hkept := keptByReload_prefix env (ReloadState.opening env ⟨rt, ∅, 0, []⟩ r)
    have hswapped : ∀ runtime, ReloadState.opening env ⟨rt, ∅, 0, []⟩ r
        <+: (ReloadState.swapped env ⟨rt, ∅, 0, []⟩ none r runtime).trace := by
      intro runtime
      rw [ReloadState.swapped_trace]
      exact List.prefix_append _ _
    cases hlevel with
    | refused hcheck =>
      rw [h] at hcheck
      cases hcheck
    | failed hcheck _ =>
      rw [h] at hcheck
      cases hcheck
      rw [ReloadState.failed_trace]
      exact List.prefix_append _ _
    | @exhausted _ runtime s' hcheck _ heq =>
      rw [h] at hcheck
      cases hcheck
      have hend := cascade_invariant hkept levels r.descriptor.id (hswapped runtime)
      rwa [heq] at hend
    | @reloaded _ runtime s' hcheck _ heq =>
      rw [h] at hcheck
      cases hcheck
      have hend := cascade_invariant hkept levels r.descriptor.id (hswapped runtime)
      rw [heq] at hend
      exact hkept.reloaded _ _ _ hend
  obtain ⟨rest, htrace⟩ := hopening
  intro hverified
  rw [← htrace, List.filterMap_append] at hverified
  exact List.not_mem_nil (hverified [] r.manifest.path (rest.filterMap ReloadMark.event?) rfl)

end

/-! ### The run -/

/-- One call. -/
theorem verified_call_iff {call : HostCall} (hpolicy : call.Under .required) (rt : Runtime) :
    (∀ op ∈ call.operations rt, Verified op) ↔ call.RefusesReload := by
  cases call with
  | load env manifest source opts body =>
    exact iff_of_true
      (loadOperations_verified hpolicy rt manifest source
        (operations_verified hpolicy body)) trivial
  | unload hooks thread b => exact iff_of_true (fun op h => (List.not_mem_nil h).elim) trivial
  | reload env levels path =>
    show (∀ op ∈ env.operations _, Verified op) ↔ (env.checkReload path).isOk = false
    constructor
    · intro hall
      cases hcheck : env.checkReload path with
      | error p => rfl
      | ok r => exact absurd (hall _ (List.mem_cons_self ..)) (reload_not_verified hcheck)
    · intro hrefused
      rw [operations_of_refused hrefused]
      intro op hop
      rw [List.mem_singleton.mp hop]
      exact verified_nil

/-- A run under `Required` calls loaders on verified bundles only exactly if no reload
of it gets to its loader. -/
theorem verified_run_iff (rt : Runtime) (calls : List HostCall)
    (hpolicy : ∀ call ∈ calls, call.Under .required) :
    (∀ op ∈ HostCall.runOperations rt calls, Verified op) ↔
      ∀ call ∈ calls, call.RefusesReload := by
  induction calls generalizing rt with
  | nil => simp [HostCall.runOperations]
  | cons call calls ih =>
    rw [HostCall.runOperations, List.forall_mem_append,
      verified_call_iff (hpolicy call (List.mem_cons_self ..)),
      ih _ fun c hc => hpolicy c (List.mem_cons_of_mem _ hc), List.forall_mem_cons]

/-! ### A directory that is changed -/

/-- Signatures are required, and only the bundle in `/a` has one. -/
def requiredEnv : LoadEnv where
  thread := 1
  signaturePolicy := .required
  verifyBundleSignature := fun dir name =>
    if dir = "/a" then .ok () else .error (.loader (.unsignedBundle name))
  hasLoader := fun _ => true

/-- The bundle in `/a` is loaded and then reloaded. -/
def loadThenReload (env : ReloadEnv) : List HostCall :=
  [.load requiredEnv { providing "a" ["x@1"] with path := "/a" } (.path "/a") ⟨.strict, true⟩
    registersX, .reload env 0 "/a"]

/-- A reload that is refused, after a load. -/
theorem verified_run_iff_refused :
    HostCall.runOperations Runtime.new
        (loadThenReload { strayEnv with load := requiredEnv, hotReloadEnabled := false })
      = [[.verified "/a", .loader "/a"], []] ∧
    ((∀ op ∈ HostCall.runOperations Runtime.new
        (loadThenReload { strayEnv with load := requiredEnv, hotReloadEnabled := false }),
        Verified op) ↔
      ∀ call ∈ loadThenReload { strayEnv with load := requiredEnv, hotReloadEnabled := false },
        call.RefusesReload) :=
  ⟨by decide +kernel, verified_run_iff Runtime.new _
    (by simp [loadThenReload, HostCall.Under, requiredEnv])⟩

/-- The files in `/a` have changed. -/
def tamperedEnv : ReloadEnv :=
  { strayEnv with
      load := { requiredEnv with
        verifyBundleSignature := fun _ name =>
          .error (.loader (.signatureVerificationFailed name "signature mismatch")) } }

/-- The reload runs them, though their signature does not verify any more. -/
theorem reload_runs_tampered :
    ¬∀ op ∈ HostCall.runOperations Runtime.new (loadThenReload tamperedEnv), Verified op := by
  intro hall
  have hops : HostCall.runOperations Runtime.new (loadThenReload tamperedEnv)
      = [[.verified "/a", .loader "/a"], [.loader "/a"]] := by
    decide +kernel
  rw [hops] at hall
  have hreload := hall [.loader "/a"] (by simp)
  exact List.not_mem_nil (hreload [] "/a" [] rfl)

end PolyPlug.Lifecycle
