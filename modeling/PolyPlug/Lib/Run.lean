import Mathlib.Data.List.Basic

/-!
# `PolyPlug.Lib.Run`: runs of a deterministic step function

A system is a step function `exec : σ → α → σ` over states `σ` and actions `α`.
`run` folds it over an action list. `Steps P s acts` says that every step of the
run from `s` meets the condition `P` at the state it is taken in. A safety
property is then two facts, its initial case and its step case, and
`Steps.invariant` turns them into a fact about every run.

`stateAt` is the state before a step of the run. Facts about what happened earlier in
a run are found with `exists_rise`: what holds now and did not hold once rose at a step.
-/

set_option autoImplicit false

namespace PolyPlug.Lib

section
variable {σ α : Type*} (exec : σ → α → σ)

/-- The state after the actions. -/
def run (s : σ) (acts : List α) : σ := acts.foldl exec s

/-- Every step of the run from `s` meets `P` in the state it is taken in. -/
def Steps (P : σ → α → Prop) : σ → List α → Prop
  | _, []          => True
  | s, act :: acts => P s act ∧ Steps P (exec s act) acts

/-- A decidable step condition can be evaluated over a run. -/
instance decidableSteps (P : σ → α → Prop) [∀ s act, Decidable (P s act)] :
    ∀ s acts, Decidable (Steps exec P s acts)
  | _, []          => inferInstanceAs (Decidable True)
  | s, act :: acts =>
    have := decidableSteps P (exec s act) acts
    inferInstanceAs (Decidable (P s act ∧ Steps exec P (exec s act) acts))

@[simp] theorem run_nil (s : σ) : run exec s [] = s := rfl

@[simp] theorem run_cons (s : σ) (act : α) (acts : List α) :
    run exec s (act :: acts) = run exec (exec s act) acts := rfl

theorem run_append (s : σ) (before after : List α) :
    run exec s (before ++ after) = run exec (run exec s before) after :=
  List.foldl_append ..

variable {exec} {P Q : σ → α → Prop}

/-- The steps of a concatenation are the steps of its parts, the second part
taken from the state the first one ends in. -/
theorem steps_append {s : σ} {before after : List α} :
    Steps exec P s (before ++ after) ↔
      Steps exec P s before ∧ Steps exec P (run exec s before) after := by
  induction before generalizing s with
  | nil => simp [Steps]
  | cons act rest ih => simp [Steps, ih, and_assoc]

/-- The condition that says nothing. -/
theorem steps_true (s : σ) (acts : List α) : Steps exec (fun _ _ => True) s acts := by
  induction acts generalizing s with
  | nil => trivial
  | cons act rest ih => exact ⟨trivial, ih (exec s act)⟩

/-- A property that every `P` step keeps holds after every run of `P` steps. -/
theorem Steps.invariant {I : σ → Prop} {s : σ} {acts : List α}
    (hsteps : Steps exec P s acts) (hinit : I s)
    (hstep : ∀ s act, I s → P s act → I (exec s act)) : I (run exec s acts) := by
  induction acts generalizing s with
  | nil => exact hinit
  | cons act rest ih => exact ih hsteps.2 (hstep s act hinit hsteps.1)

/-- A step condition can be weakened under an invariant of the run. -/
theorem Steps.mono {I : σ → Prop} {s : σ} {acts : List α} (hsteps : Steps exec P s acts)
    (hinit : I s) (hstep : ∀ s act, I s → P s act → I (exec s act))
    (himp : ∀ s act, I s → P s act → Q s act) : Steps exec Q s acts := by
  induction acts generalizing s with
  | nil => trivial
  | cons act rest ih =>
    exact ⟨himp s act hinit hsteps.1, ih hsteps.2 (hstep s act hinit hsteps.1)⟩

end

/-! ### The states of a run -/

section
variable {σ α : Type*} (exec : σ → α → σ) (s : σ) (acts : List α)

/-- The state before step `k`. After the last step it does not change. -/
def stateAt (k : Nat) : σ := run exec s (acts.take k)

variable {exec s acts}

theorem stateAt_succ {k : Nat} {act : α} (h : acts[k]? = some act) :
    stateAt exec s acts (k + 1) = exec (stateAt exec s acts k) act := by
  rw [stateAt, List.take_add_one, h, Option.toList_some, run_append]
  rfl

theorem stateAt_succ_of_none {k : Nat} (h : acts[k]? = none) :
    stateAt exec s acts (k + 1) = stateAt exec s acts k := by
  rw [stateAt, List.take_add_one, h, Option.toList_none, List.append_nil]
  rfl

variable {P : σ → α → Prop} {I Q : σ → Prop}

/-- The condition of the steps holds at each step. -/
theorem Steps.step_at (hsteps : Steps exec P s acts) {k : Nat} {act : α}
    (h : acts[k]? = some act) : P (stateAt exec s acts k) act := by
  induction acts generalizing s k with
  | nil => cases h
  | cons first rest ih =>
    cases k with
    | zero => exact Option.some.inj h ▸ hsteps.1
    | succ k => exact ih hsteps.2 h

/-- An invariant holds in each state of the run. -/
theorem Steps.invariant_at (hsteps : Steps exec P s acts) (hinit : I s)
    (hstep : ∀ s act, I s → P s act → I (exec s act)) (k : Nat) : I (stateAt exec s acts k) := by
  induction k with
  | zero => exact hinit
  | succ k ih =>
    cases h : acts[k]? with
    | none => exact stateAt_succ_of_none h ▸ ih
    | some act => exact stateAt_succ h ▸ hstep _ act ih (hsteps.step_at h)

/-- What every step keeps in the states of an invariant stays. -/
theorem stateAt_mono (hinv : ∀ k, I (stateAt exec s acts k))
    (hkeep : ∀ s act, I s → Q s → Q (exec s act)) {j k : Nat} (hjk : j ≤ k)
    (h : Q (stateAt exec s acts j)) : Q (stateAt exec s acts k) := by
  induction hjk with
  | refl => exact h
  | @step k _ ih =>
    cases hact : acts[k]? with
    | none => exact stateAt_succ_of_none hact ▸ ih
    | some act => exact stateAt_succ hact ▸ hkeep _ act (hinv k) ih

/-- What fails in one state and holds in a later one rose at a step in between, and stayed
from there. -/
theorem exists_rise {i k : Nat} (hik : i ≤ k) (hi : ¬ Q (stateAt exec s acts i))
    (hk : Q (stateAt exec s acts k)) :
    ∃ j act, i ≤ j ∧ j < k ∧ acts[j]? = some act ∧ ¬ Q (stateAt exec s acts j) ∧
      ∀ l, j < l → l ≤ k → Q (stateAt exec s acts l) := by
  induction hik with
  | refl => exact absurd hk hi
  | @step k hik ih =>
    by_cases hlast : Q (stateAt exec s acts k)
    · obtain ⟨j, act, hij, hjk, hact, hj, hafter⟩ := ih hlast
      refine ⟨j, act, hij, by omega, hact, hj, fun l hjl hlk => ?_⟩
      rcases Nat.lt_or_eq_of_le hlk with hlt | rfl
      · exact hafter l hjl (by omega)
      · exact hk
    · cases hact : acts[k]? with
      | none => exact absurd (stateAt_succ_of_none hact ▸ hk) hlast
      | some act =>
        refine ⟨k, act, hik, by omega, hact, hlast, fun l hkl hlk => ?_⟩
        obtain rfl : l = k + 1 := by omega
        exact hk

end

end PolyPlug.Lib
