import PolyPlug.Codegen.HostCaller
import PolyPlug.Lib.Run

/-!
# `PolyPlug.Proofs.Codegen.Staleness`: when a caller's stamp is right

A caller whose cached revision is the current one skips revalidation. Every
emitted operation resolves first and reads the revision it stores last, so a
publish that runs between the two leaves a superseded interface under the new
revision (`stale_after_new`).

`current_run` proves that the stamp is right in every run in which such a
publish leaves what the handle resolves to (`Untouched`). The invariant is
`Stamped`: between the resolve and the stamp the operation holds what the handle
resolves to, outside of a publish in progress.
-/

set_option autoImplicit false

namespace PolyPlug.Codegen

open PolyPlug.Abi
open PolyPlug.Lib
open PolyPlug.Registry

/-! ### The registry side -/

namespace CallerSystem

/-! ### The property -/

/-- Outside of a publish, a caller that is between operations, or about to check
its revision for a dispatch, and whose revision is the current one, has the
interface its handle resolves to. -/
def Current (s : CallerSystem) : Prop :=
  (s.pc = .idle ∨ s.pc = .dispatchRevision) → s.publishing = false → ∀ c ∈ s.caller,
    c.cachedRevision = s.revision → c.interface = resolveIn s.view c.handle

instance (s : CallerSystem) : Decidable s.Current := by
  unfold Current
  infer_instance

/-! ### The condition -/

/-- The interface the operation in progress has settled on and not yet stamped,
with the handle it belongs to. -/
def settled (s : CallerSystem) : Option (GuestContractHandle × Option Nat) :=
  match s.pc, s.caller with
  | .newCreate handle interface, _     => some (handle, interface)
  | .newRevision handle interface _, _ => some (handle, interface)
  | .resetDestroy interface, some c    => some (c.handle, interface)
  | .resetCreate interface, some c     => some (c.handle, interface)
  | .resetLive interface _, some c     => some (c.handle, interface)
  | .revalidateGone, some c            => some (c.handle, c.interface)
  | .revalidateSame, some c            => some (c.handle, c.interface)
  | .revalidateCreate interface, some c => some (c.handle, interface)
  | .revalidateLive interface _, some c => some (c.handle, interface)
  | _, _                               => none

/-- A publish that counts while an operation has settled on an interface leaves
what the handle resolves to, and the revision does not wrap. -/
def Untouched (s : CallerSystem) : CallerStep → Prop
  | .publishIncrement =>
    s.revision + 1 < 2 ^ 64 ∧ ∀ p ∈ s.settled, p.2 = resolveIn s.view p.1
  | _                 => True

instance (s : CallerSystem) (step : CallerStep) : Decidable (s.Untouched step) := by
  cases step <;> unfold Untouched <;> infer_instance

/-! ### The invariant -/

/-- The invariant of a run whose publishes leave settled operations untouched. -/
structure Stamped (s : CallerSystem) : Prop where
  /-- A settled interface is the one its handle resolves to. -/
  fresh : s.publishing = false → ∀ p ∈ s.settled, p.2 = resolveIn s.view p.1
  /-- So is the cached one under a current stamp, while nothing is settled. -/
  current : s.publishing = false → s.settled = none → ∀ c ∈ s.caller,
    c.cachedRevision = s.revision → c.interface = resolveIn s.view c.handle
  /-- No stamp is ahead of the registry. -/
  stamp_le : ∀ c ∈ s.caller, c.cachedRevision ≤ s.revision
  read_le : ∀ revision, s.pc = .resetResolve revision → revision ≤ s.revision

section
variable {s : CallerSystem}

theorem Stamped.isCurrent (h : s.Stamped) : s.Current := by
  intro hpc hpub c hc hstamp
  refine h.current hpub ?_ c hc hstamp
  rcases hpc with hpc | hpc <;> simp [settled, hpc]

/-- An operation that settles on what the handle resolves to, or moves on with
what it settled on. -/
theorem Stamped.goto {pc : Pc} (h : s.Stamped)
    (hfresh : s.publishing = false → ∀ p ∈ (s.goto pc).settled, p.2 = resolveIn s.view p.1)
    (hcurrent : (s.goto pc).settled = none → s.settled = none)
    (hread : ∀ revision, pc = .resetResolve revision → revision ≤ s.revision) :
    (s.goto pc).Stamped where
  fresh := hfresh
  current hpub hnone := h.current hpub (hcurrent hnone)
  stamp_le := h.stamp_le
  read_le := hread

/-- The end of an operation, with a stamp that is not ahead and an interface that
is the one the handle resolves to. -/
theorem Stamped.finish {c : HostCaller} (hstamp : c.cachedRevision ≤ s.revision)
    (hfresh : s.publishing = false → c.interface = resolveIn s.view c.handle) :
    (s.finish c).Stamped where
  fresh _ p hp := by simp [CallerSystem.finish, settled] at hp
  current hpub _ c' hc' _ := by
    cases Option.mem_some_iff.mp hc'
    exact hfresh hpub
  stamp_le c' hc' := by
    cases Option.mem_some_iff.mp hc'
    exact hstamp
  read_le revision hpc := by cases hpc

/-- Every host call keeps the invariant. -/
theorem stamped_hostCall (h : s.Stamped) (created : Nat) : (s.hostCall created).Stamped := by
  obtain ⟨view, revision, publishing, caller, pc⟩ := s
  cases pc with
  | idle => exact h
  | newResolve handle =>
    simp only [hostCall]
    cases hres : resolveIn view handle with
    | none => exact h.goto (by simp [CallerSystem.goto, settled]) (by simp [settled]) (by simp)
    | some interface =>
      exact h.goto (by simp [CallerSystem.goto, settled, hres]) (by simp [settled]) (by simp)
  | newCreate handle interface =>
    exact h.goto h.fresh id (by simp)
  | newRevision handle interface instance' =>
    exact .finish (Nat.le_refl _) fun hpub => h.fresh hpub _ rfl
  | resetRevision =>
    cases caller with
    | none => exact h
    | some c =>
      simp only [hostCall]
      split
      · exact h.goto (by simp [CallerSystem.goto, settled]) (by simp [settled]) (by simp)
      · -- The stamp is current, so the cached interface is what the handle
        -- resolves to.
        rename_i hkeep
        have hstamp : c.cachedRevision = revision := by
          by_contra hne
          exact hkeep (Or.inl (Ne.symm hne))
        have hcached := fun hpub => h.current hpub rfl c rfl hstamp
        split
        · refine h.goto (fun hpub p hp => ?_) (by simp [settled]) (by simp)
          cases Option.mem_some_iff.mp hp
          exact hcached hpub
        · refine h.goto (fun hpub p hp => ?_) (by simp [settled]) (by simp)
          cases Option.mem_some_iff.mp hp
          exact hcached hpub
  | resetResolve read =>
    cases caller with
    | none => exact h
    | some c =>
      simp only [hostCall]
      cases hres : resolveIn view c.handle with
      | none => exact .finish (h.read_le read rfl) fun _ => hres.symm
      | some interface =>
        dsimp only
        split
        · exact h.goto (by simp [CallerSystem.goto, settled, hres]) (by simp [settled]) (by simp)
        · exact h.goto (by simp [CallerSystem.goto, settled, hres]) (by simp [settled]) (by simp)
  | resetDestroy interface =>
    cases caller with
    | none => exact h
    | some c => exact h.goto h.fresh id (by simp)
  | resetCreate interface =>
    cases caller with
    | none => exact h
    | some c => exact h.goto h.fresh id (by simp)
  | resetLive interface instance' =>
    cases caller with
    | none => exact h
    | some c => exact .finish (Nat.le_refl _) fun hpub => h.fresh hpub _ rfl
  | dispatchRevision =>
    cases caller with
    | none => exact h
    | some c =>
      simp only [hostCall]
      split
      · exact h.goto (by simp [CallerSystem.goto, settled]) (by simp [settled]) (by simp)
      · exact h.goto (by simp [CallerSystem.goto, settled]) (by simp [settled]) (by simp)
  | revalidateResolve =>
    cases caller with
    | none => exact h
    | some c =>
      simp only [hostCall]
      cases hres : resolveIn view c.handle with
      | none =>
        refine ⟨fun _ p hp => ?_, fun _ hnone => (by cases hnone), fun c' hc' => ?_, by simp⟩
        · cases Option.mem_some_iff.mp hp
          exact hres.symm
        · cases Option.mem_some_iff.mp hc'
          exact h.stamp_le c rfl
      | some interface =>
        dsimp only
        split
        · rename_i hsame
          exact h.goto (by simp [CallerSystem.goto, settled, hres, ← hsame]) (by simp [settled])
            (by simp)
        · exact h.goto (by simp [CallerSystem.goto, settled, hres]) (by simp [settled]) (by simp)
  | revalidateGone =>
    cases caller with
    | none => exact h
    | some c => exact .finish (Nat.le_refl _) fun hpub => h.fresh hpub _ rfl
  | revalidateSame =>
    cases caller with
    | none => exact h
    | some c => exact .finish (Nat.le_refl _) fun hpub => h.fresh hpub _ rfl
  | revalidateCreate interface =>
    cases caller with
    | none => exact h
    | some c => exact h.goto h.fresh id (by simp)
  | revalidateLive interface instance' =>
    cases caller with
    | none => exact h
    | some c => exact .finish (Nat.le_refl _) fun hpub => h.fresh hpub _ rfl

/-- Every step of an untouched run keeps the invariant. -/
theorem stamped_exec (h : s.Stamped) {step : CallerStep} (hstep : s.Untouched step) :
    (s.exec step).Stamped := by
  cases step with
  | publishSwap view =>
    simp only [exec]
    split
    · exact h
    · -- A publish is in progress: nothing is asked of the interfaces.
      exact ⟨fun hpub => (by cases hpub), fun hpub => (by cases hpub), h.stamp_le, h.read_le⟩
  | publishIncrement =>
    obtain ⟨hwrap, hsettled⟩ := hstep
    simp only [exec]
    split
    · rw [Nat.mod_eq_of_lt hwrap]
      -- No stamp is the new revision, and what is settled is untouched.
      refine ⟨fun _ => hsettled, fun _ _ c hc hstamp => ?_, fun c hc => ?_, fun revision hpc => ?_⟩
      · have hle := h.stamp_le c hc
        dsimp only at hstamp
        omega
      · exact Nat.le_succ_of_le (h.stamp_le c hc)
      · exact Nat.le_succ_of_le (h.read_le revision hpc)
    · exact h
  | callNew handle =>
    obtain ⟨view, revision, publishing, caller, pc⟩ := s
    cases pc <;> cases caller <;> try exact h
    exact h.goto (by simp [CallerSystem.goto, settled]) (by simp [settled]) (by simp)
  | callReset =>
    obtain ⟨view, revision, publishing, caller, pc⟩ := s
    cases pc <;> cases caller <;> try exact h
    exact h.goto (by simp [CallerSystem.goto, settled]) (by simp [settled]) (by simp)
  | callRevalidate =>
    obtain ⟨view, revision, publishing, caller, pc⟩ := s
    cases pc <;> cases caller <;> try exact h
    exact h.goto (by simp [CallerSystem.goto, settled]) (by simp [settled]) (by simp)
  | callDispatch =>
    obtain ⟨view, revision, publishing, caller, pc⟩ := s
    cases pc <;> cases caller <;> try exact h
    simp only [exec]
    split
    · exact h
    · exact h.goto (by simp [CallerSystem.goto, settled]) (by simp [settled]) (by simp)
  | hostCall created => exact stamped_hostCall h created

theorem stamped_new : CallerSystem.new.Stamped where
  fresh _ p hp := by simp [CallerSystem.new, settled] at hp
  current _ _ c hc := by cases hc
  stamp_le c hc := by cases hc
  read_le _ hpc := by cases hpc

end

/-! ### Whole runs -/

/-- In every run whose publishes leave settled operations untouched, a caller
with the current revision has the live interface. -/
theorem current_run (steps : List CallerStep)
    (hsteps : Steps CallerSystem.exec Untouched CallerSystem.new steps) :
    (run CallerSystem.exec CallerSystem.new steps).Current :=
  (hsteps.invariant stamped_new fun _ _ h hstep => stamped_exec h hstep).isCurrent

/-- A caller is made, the bundle is reloaded, and the next dispatch revalidates
while an unrelated bundle is registered. -/
theorem current_run_reload :
    let registered : List StoreOp := [.register ⟨1⟩ ⟨10⟩ "log" 100]
    let reloaded := registered ++
      [.beginReload ⟨1⟩, .register ⟨1⟩ ⟨10⟩ "log" 101, .swap ⟨1⟩ [0]]
    let unrelated := reloaded ++ [.register ⟨2⟩ ⟨11⟩ "kv" 102]
    let view := fun ops => (run RuntimeStore.exec RuntimeStore.new ops).published
    let steps : List CallerStep :=
      [.publishSwap (view registered), .publishIncrement, .callNew ⟨0, 0⟩, .hostCall 0,
        .hostCall 7, .hostCall 0, .publishSwap (view reloaded), .publishIncrement, .callDispatch,
        .hostCall 0, .hostCall 0, .publishSwap (view unrelated), .publishIncrement, .hostCall 8,
        .hostCall 0]
    Steps CallerSystem.exec Untouched CallerSystem.new steps ∧
      (run CallerSystem.exec CallerSystem.new steps).Current :=
  ⟨by decide +kernel, current_run _ (by decide +kernel)⟩

/-- The bundle is unloaded between the resolve and the revision read of `new`. -/
theorem stale_after_new :
    let registered : List StoreOp := [.register ⟨1⟩ ⟨10⟩ "log" 100]
    let unloaded := registered ++ [.invalidateBundle ⟨1⟩]
    let view := fun ops => (run RuntimeStore.exec RuntimeStore.new ops).published
    ¬ (run CallerSystem.exec CallerSystem.new
      [.publishSwap (view registered), .publishIncrement, .callNew ⟨0, 0⟩, .hostCall 0,
        .publishSwap (view unloaded), .publishIncrement, .hostCall 0, .hostCall 0]).Current := by
  decide +kernel

end CallerSystem

end PolyPlug.Codegen
