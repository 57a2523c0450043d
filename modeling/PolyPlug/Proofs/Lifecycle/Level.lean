import PolyPlug.Lifecycle.Reload

/-!
# `PolyPlug.Proofs.Lifecycle.Level`: one level of a reload

`reloadBundleWithVisited` calls itself through the loop over the dependents.
`reload_level` lists the ends of one level, and `reload_invariant` is the rule for
what a call keeps: a property that survives a refusal, a failed window, a swap and
the last mark holds after the call, and where the fuel ran out. `reload_invariant_of_calls`
is the rule that also follows the dependents and the paths the function is called with.
-/

set_option autoImplicit false

namespace PolyPlug.Lifecycle

open PolyPlug.Abi
open PolyPlug.Common
open PolyPlug.Registry

/-! ### The states of one level -/

namespace ReloadState

/-- The mark of a refusal, when it is reported. -/
def refusal (s : ReloadState) (phase : Option ReloadPhase) : List ReloadMark :=
  (phase.map fun phase => .phase phase s.runtime s.runtime).toList

/-- The two marks of a window that opens. -/
def opening (env : ReloadEnv) (s : ReloadState) (r : Replacement) : List ReloadMark :=
  [.phase (.preparing r.descriptor.id r.manifest.name) s.runtime s.runtime,
    .init r.descriptor.id r.manifest.path s.runtime
      (s.runtime.runReload env (env.reload s.calls) r.descriptor.id)]

/-- After a reload that ended with an error in its window. -/
def failed (env : ReloadEnv) (s : ReloadState) (r : Replacement) (runtime : Runtime)
    (e : RuntimeError) : ReloadState :=
  { s.mark (s.opening env r) with runtime := runtime, calls := s.calls + 1 }.mark
    [.phase (.failed r.descriptor.id r.manifest.name e) s.runtime runtime]

/-- After a swap, before the cascade. -/
def swapped (env : ReloadEnv) (s : ReloadState) (dependent : Option BundleId)
    (r : Replacement) (runtime : Runtime) : ReloadState :=
  { s.mark (s.opening env r) with
      runtime := runtime
      visited := insert r.descriptor.id s.visited
      calls := s.calls + 1 }.mark [.swapped dependent r.descriptor.id]

/-- After the cascade. `before` is the runtime at the start of the reload. -/
def reloaded (s : ReloadState) (r : Replacement) (before : Runtime) : ReloadState :=
  s.mark [.phase (.reloaded r.descriptor.id r.manifest.name) before s.runtime]

section
variable (env : ReloadEnv) (s : ReloadState) (dependent : Option BundleId) (r : Replacement)
  (runtime : Runtime) (e : RuntimeError)

theorem failed_trace : (s.failed env r runtime e).trace = s.trace ++ (s.opening env r ++
    [.phase (.failed r.descriptor.id r.manifest.name e) s.runtime runtime]) := by
  rw [← List.append_assoc]
  rfl

theorem swapped_trace : (s.swapped env dependent r runtime).trace
    = s.trace ++ (s.opening env r ++ [.swapped dependent r.descriptor.id]) := by
  rw [← List.append_assoc]
  rfl

end

end ReloadState

/-! ### The replacement -/

/-- A manifest that is read records its directory. -/
theorem parseManifest_ok {env : ReloadEnv} {dir : String} {manifest : ManifestData}
    (h : env.parseManifest dir = .ok manifest) :
    ∃ file, env.manifestFile dir = .ok file ∧ manifest = { file with path := dir } := by
  unfold ReloadEnv.parseManifest at h
  cases hfile : env.manifestFile dir with
  | error e =>
    rw [hfile] at h
    cases h
  | ok file =>
    rw [hfile] at h
    cases h
    exact ⟨file, rfl, rfl⟩

/-- A replacement has the id and the name of its manifest, which was read in the directory of
the path. -/
theorem checkReload_named {env : ReloadEnv} {path : String} {r : Replacement}
    (h : env.checkReload path = .ok r) :
    r.descriptor.id = BundleId.new r.manifest.name ∧ r.descriptor.name = r.manifest.name ∧
      r.manifest.path = env.bundleDir path ∧
      env.parseManifest (env.bundleDir path) = .ok r.manifest := by
  unfold ReloadEnv.checkReload at h
  split at h
  · cases h
  · cases hparse : env.parseManifest (env.bundleDir path) with
    | error e =>
      rw [hparse] at h
      cases h
    | ok manifest =>
      rw [hparse] at h
      dsimp only at h
      obtain ⟨file, -, hfile⟩ := parseManifest_ok hparse
      have hpath : manifest.path = env.bundleDir path := by rw [hfile]
      split at h
      · cases h
      · split at h
        · cases h
        · cases h
        · split at h
          · cases h
          · split at h
            · cases h
            · cases h
              exact ⟨rfl, rfl, hpath, rfl⟩

/-! ### The ends of one level -/

/-- The reload of a dependent, one level down. -/
def reloadDependent (env : ReloadEnv) (fuel : Nat) (dep : BundleId) (path : String)
    (s : ReloadState) : Option (Except RuntimeError Unit) × ReloadState :=
  reloadBundleWithVisited env fuel (some dep) path s

/-- The cascade of a bundle that has been swapped. -/
def cascadeAfter (env : ReloadEnv) (fuel : Nat) (b : BundleId) (s : ReloadState) :
    Option Unit × ReloadState :=
  reloadCandidates (reloadDependent env fuel) (s.runtime.cascadeCandidates b) s

/-- The ends of one level. -/
inductive ReloadLevel (env : ReloadEnv) (fuel : Nat) (dependent : Option BundleId)
    (path : String) (s : ReloadState) :
    Option (Except RuntimeError Unit) × ReloadState → Prop
  | refused {e : RuntimeError} {phase : Option ReloadPhase}
      (hcheck : env.checkReload path = .error (e, phase)) :
      ReloadLevel env fuel dependent path s (some (.error e), s.mark (s.refusal phase))
  | failed {r : Replacement} {e : RuntimeError} {runtime : Runtime}
      (hcheck : env.checkReload path = .ok r)
      (hreplace : s.runtime.replaceBundle env r (env.reload s.calls) = (.error e, runtime)) :
      ReloadLevel env fuel dependent path s (some (.error e), s.failed env r runtime e)
  | exhausted {r : Replacement} {runtime : Runtime} {s' : ReloadState}
      (hcheck : env.checkReload path = .ok r)
      (hreplace : s.runtime.replaceBundle env r (env.reload s.calls) = (.ok (), runtime))
      (hcascade : cascadeAfter env fuel r.descriptor.id (s.swapped env dependent r runtime)
        = (none, s')) :
      ReloadLevel env fuel dependent path s (none, s')
  | reloaded {r : Replacement} {runtime : Runtime} {s' : ReloadState}
      (hcheck : env.checkReload path = .ok r)
      (hreplace : s.runtime.replaceBundle env r (env.reload s.calls) = (.ok (), runtime))
      (hcascade : cascadeAfter env fuel r.descriptor.id (s.swapped env dependent r runtime)
        = (some (), s')) :
      ReloadLevel env fuel dependent path s (some (.ok ()), s'.reloaded r s.runtime)

theorem reload_level (env : ReloadEnv) (fuel : Nat) (dependent : Option BundleId)
    (path : String) (s : ReloadState) :
    ReloadLevel env fuel dependent path s
      (reloadBundleWithVisited env (fuel + 1) dependent path s) := by
  rw [reloadBundleWithVisited]
  cases hcheck : env.checkReload path with
  | error p => exact .refused hcheck
  | ok r =>
    dsimp only
    cases hreplace : s.runtime.replaceBundle env r (env.reload s.calls) with
    | mk result runtime =>
      cases result with
      | error e => exact .failed hcheck hreplace
      | ok u =>
        dsimp only
        split
        · next s' hcascade => exact .exhausted hcheck hreplace hcascade
        · next s' hcascade => exact .reloaded hcheck hreplace hcascade

/-! ### The rule -/

/-- The rule of the loop over the candidates. -/
theorem reloadCandidates_invariant {I : ReloadState → Prop}
    {reload : BundleId → String → ReloadState → Option (Except RuntimeError Unit) × ReloadState}
    (candidates : List (String × String))
    (hreload : ∀ c ∈ candidates, ∀ s, I s → BundleId.new c.1 ∉ s.visited →
      I (reload (BundleId.new c.1) c.2 s).2) {s : ReloadState} (h : I s) :
    I (reloadCandidates reload candidates s).2 := by
  induction candidates generalizing s with
  | nil => exact h
  | cons c rest ih =>
    have ih' {s' : ReloadState} (h' : I s') : I (reloadCandidates reload rest s').2 :=
      ih (fun c' hc' => hreload c' (List.mem_cons_of_mem c hc')) h'
    rw [reloadCandidates]
    split
    · exact ih' h
    · rename_i hvisited
      have hone := hreload c List.mem_cons_self s h hvisited
      cases hres : reload (BundleId.new c.1) c.2 s with
      | mk out s' =>
        rw [hres] at hone
        cases out with
        | none => exact hone
        | some result => exact ih' hone

/-- A reload gets past its checks with this replacement. -/
def ReloadEnv.Accepts (env : ReloadEnv) (r : Replacement) : Prop :=
  ∃ path, env.checkReload path = .ok r

/-- How the function is called: first with nothing visited, then for a dependent that
is not visited. -/
def Asks (s : ReloadState) : Option BundleId → Prop
  | none     => s.visited = ∅
  | some dep => dep ∉ s.visited

/-- What the steps of a call keep, when `C` holds of the dependents and the paths the
function is called with. -/
structure KeptByCalls (env : ReloadEnv) (C : Option BundleId → String → Prop)
    (I : ReloadState → Prop) : Prop where
  refused : ∀ s phase, I s → I (s.mark (s.refusal phase))
  failed : ∀ s r runtime e, env.Accepts r →
    s.runtime.replaceBundle env r (env.reload s.calls) = (.error e, runtime) → I s →
      I (s.failed env r runtime e)
  swapped : ∀ s dependent path r runtime, env.checkReload path = .ok r → C dependent path →
    s.runtime.replaceBundle env r (env.reload s.calls) = (.ok (), runtime) → Asks s dependent →
      I s → I (s.swapped env dependent r runtime)
  reloaded : ∀ s r before, I s → I (s.reloaded r before)
  candidates : ∀ s b, I s → ∀ c ∈ s.runtime.cascadeCandidates b, C (some (BundleId.new c.1)) c.2

/-- What the steps keep, the call keeps. -/
theorem reload_invariant_of_calls {env : ReloadEnv} {C : Option BundleId → String → Prop}
    {I : ReloadState → Prop} (hI : KeptByCalls env C I) (fuel : Nat)
    {dependent : Option BundleId} {path : String} (hcall : C dependent path) {s : ReloadState}
    (h : I s) (hasks : Asks s dependent) :
    I (reloadBundleWithVisited env fuel dependent path s).2 := by
  induction fuel generalizing s dependent path with
  | zero => exact h
  | succ fuel ih =>
    have hcascade : ∀ b (s' : ReloadState), I s' → I (cascadeAfter env fuel b s').2 :=
      fun b s' h' => reloadCandidates_invariant _
        (fun c hc s h hdep => @ih (some (BundleId.new c.1)) c.2 (hI.candidates s' b h' c hc) s h
          hdep) h'
    generalize hres : reloadBundleWithVisited env (fuel + 1) dependent path s = result
    have hlevel := reload_level env fuel dependent path s
    rw [hres] at hlevel
    cases hlevel with
    | refused hcheck => exact hI.refused s _ h
    | failed hcheck hreplace => exact hI.failed s _ _ _ ⟨_, hcheck⟩ hreplace h
    | @exhausted r runtime s' hcheck hreplace heq =>
      have hend := hcascade r.descriptor.id _
        (hI.swapped s _ _ _ _ hcheck hcall hreplace hasks h)
      rwa [heq] at hend
    | @reloaded r runtime s' hcheck hreplace heq =>
      have hend := hcascade r.descriptor.id _
        (hI.swapped s _ _ _ _ hcheck hcall hreplace hasks h)
      rw [heq] at hend
      exact hI.reloaded _ _ _ hend

/-- What the steps of a call keep. -/
structure KeptByReload (env : ReloadEnv) (I : ReloadState → Prop) : Prop where
  refused : ∀ s phase, I s → I (s.mark (s.refusal phase))
  failed : ∀ s r runtime e, env.Accepts r →
    s.runtime.replaceBundle env r (env.reload s.calls) = (.error e, runtime) → I s →
      I (s.failed env r runtime e)
  swapped : ∀ s dependent r runtime, env.Accepts r →
    s.runtime.replaceBundle env r (env.reload s.calls) = (.ok (), runtime) → Asks s dependent →
      I s → I (s.swapped env dependent r runtime)
  reloaded : ∀ s r before, I s → I (s.reloaded r before)

theorem KeptByReload.calls {env : ReloadEnv} {I : ReloadState → Prop} (hI : KeptByReload env I) :
    KeptByCalls env (fun _ _ => True) I where
  refused := hI.refused
  failed := hI.failed
  swapped s dependent path r runtime hcheck _ := hI.swapped s dependent r runtime ⟨path, hcheck⟩
  reloaded := hI.reloaded
  candidates _ _ _ _ _ := trivial

/-- The rule without a condition on the calls. -/
theorem reload_invariant {env : ReloadEnv} {I : ReloadState → Prop} (hI : KeptByReload env I)
    (fuel : Nat) {dependent : Option BundleId} (path : String) {s : ReloadState} (h : I s)
    (hasks : Asks s dependent) : I (reloadBundleWithVisited env fuel dependent path s).2 :=
  reload_invariant_of_calls hI.calls fuel trivial h hasks

/-- The cascade keeps it too. -/
theorem cascade_invariant {env : ReloadEnv} {I : ReloadState → Prop} (hI : KeptByReload env I)
    (fuel : Nat) (b : BundleId) {s : ReloadState} (h : I s) :
    I (cascadeAfter env fuel b s).2 :=
  reloadCandidates_invariant _
    (fun c _ _ h hdep => @reload_invariant _ _ hI fuel (some (BundleId.new c.1)) c.2 _ h hdep) h

/-! ### The fuel -/

section
variable {env : ReloadEnv}

/-- A loop that ends is the same for every reload that does what this one does. -/
theorem reloadCandidates_congr
    {reload reload' :
      BundleId → String → ReloadState → Option (Except RuntimeError Unit) × ReloadState}
    (hsame : ∀ dep path s, (reload dep path s).1.isSome → reload' dep path s = reload dep path s)
    (candidates : List (String × String)) {s : ReloadState}
    (hsome : (reloadCandidates reload candidates s).1.isSome) :
    reloadCandidates reload' candidates s = reloadCandidates reload candidates s := by
  induction candidates generalizing s with
  | nil => rfl
  | cons c rest ih =>
    rw [reloadCandidates] at hsome ⊢
    rw [reloadCandidates]
    split
    · rename_i hvisited
      rw [if_pos hvisited] at hsome
      exact ih hsome
    · rename_i hvisited
      rw [if_neg hvisited] at hsome
      have hone := hsame (BundleId.new c.1) c.2 s
      rcases hres : reload (BundleId.new c.1) c.2 s with ⟨_ | result, s'⟩
      · rw [hres] at hsome
        cases hsome
      · rw [hres] at hone hsome
        rw [hone rfl]
        exact ih hsome

/-- A call that returns does the same with more fuel. -/
theorem reload_fuel_succ (fuel : Nat) (dependent : Option BundleId) (path : String)
    (s : ReloadState) (hsome : (reloadBundleWithVisited env fuel dependent path s).1.isSome) :
    reloadBundleWithVisited env (fuel + 1) dependent path s
      = reloadBundleWithVisited env fuel dependent path s := by
  induction fuel generalizing s dependent path with
  | zero => cases hsome
  | succ fuel ih =>
    generalize hres : reloadBundleWithVisited env (fuel + 1) dependent path s = result at hsome ⊢
    have hlevel := reload_level env fuel dependent path s
    rw [hres] at hlevel
    cases hlevel with
    | refused hcheck => rw [reloadBundleWithVisited, hcheck]; rfl
    | failed hcheck hreplace =>
      rw [reloadBundleWithVisited, hcheck]
      dsimp only
      rw [hreplace]
      rfl
    | exhausted _ _ _ => cases hsome
    | @reloaded r runtime s' hcheck hreplace hcascade =>
      have hloop : cascadeAfter env (fuel + 1) r.descriptor.id
          (s.swapped env dependent r runtime) = (some (), s') := by
        rw [← hcascade]
        refine reloadCandidates_congr (fun dep path s h => ih (some dep) path s h) _ ?_
        show (cascadeAfter env fuel r.descriptor.id
          (s.swapped env dependent r runtime)).1.isSome
        rw [hcascade]
        rfl
      rw [reloadBundleWithVisited, hcheck]
      dsimp only
      rw [hreplace]
      dsimp only
      split
      · next s'' heq => cases hloop.symm.trans heq
      · next s'' heq =>
        cases hloop.symm.trans heq
        rfl

theorem reload_fuel_le {fuel fuel' : Nat} (hle : fuel ≤ fuel') (dependent : Option BundleId)
    (path : String) (s : ReloadState)
    (hsome : (reloadBundleWithVisited env fuel dependent path s).1.isSome) :
    reloadBundleWithVisited env fuel' dependent path s
      = reloadBundleWithVisited env fuel dependent path s := by
  induction fuel', hle using Nat.le_induction with
  | base => rfl
  | succ fuel' _ ih => rw [reload_fuel_succ fuel' dependent path s (ih ▸ hsome), ih]

end

end PolyPlug.Lifecycle
