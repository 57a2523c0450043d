import Mathlib.Data.List.Induction
import PolyPlug.Lib.Run

/-!
# `PolyPlug.Lib.Owners`: operations of several owners on one system

A system answers an operation and moves on, and each operation has an owner. `answersTo` lists
the answers of one owner in a run. A run is `Isolated` when each owner gets the answers of
the run with its own operations only.

`isolated_iff_answer` looks at one operation at a time. `Unwinding` is the simulation that
shows a run isolated: what the others do is not seen in the related state.
-/

set_option autoImplicit false

namespace PolyPlug.Lib

section
variable {σ ι ο κ : Type*} [DecidableEq κ] (step : σ → ι → ο × σ) (owner : ι → κ)

/-- The state after an operation. -/
def moved (s : σ) (op : ι) : σ := (step s op).2

/-- The operations of one owner. -/
def ownOps (k : κ) (ops : List ι) : List ι := ops.filter fun op => owner op = k

/-- The answers an owner gets. -/
def answersTo (k : κ) : σ → List ι → List ο
  | _, []        => []
  | s, op :: ops =>
    if owner op = k then (step s op).1 :: answersTo k (moved step s op) ops
    else answersTo k (moved step s op) ops

/-- Each owner gets what it gets alone. -/
def Isolated (s : σ) (ops : List ι) : Prop :=
  ∀ k, answersTo step owner k s ops = answersTo step owner k s (ownOps owner k ops)

variable {step owner} {k : κ}

theorem ownOps_append (before after : List ι) :
    ownOps owner k (before ++ after) = ownOps owner k before ++ ownOps owner k after :=
  List.filter_append ..

theorem ownOps_cons_own {op : ι} (h : owner op = k) (ops : List ι) :
    ownOps owner k (op :: ops) = op :: ownOps owner k ops :=
  List.filter_cons_of_pos (by simpa using h)

theorem ownOps_cons_other {op : ι} (h : owner op ≠ k) (ops : List ι) :
    ownOps owner k (op :: ops) = ownOps owner k ops :=
  List.filter_cons_of_neg (by simpa using h)

@[simp] theorem ownOps_ownOps (ops : List ι) :
    ownOps owner k (ownOps owner k ops) = ownOps owner k ops := by
  simp [ownOps]

theorem answersTo_append (s : σ) (before after : List ι) :
    answersTo step owner k s (before ++ after) =
      answersTo step owner k s before ++
        answersTo step owner k (run (moved step) s before) after := by
  induction before generalizing s with
  | nil => rfl
  | cons op rest ih =>
    rw [List.cons_append, answersTo, answersTo, ih, run_cons]
    split
    · rfl
    · rfl

/-- An owner gets one answer for each operation. -/
theorem length_answersTo (s : σ) (ops : List ι) :
    (answersTo step owner k s ops).length = (ownOps owner k ops).length := by
  induction ops generalizing s with
  | nil => rfl
  | cons op rest ih =>
    by_cases h : owner op = k
    · rw [ownOps_cons_own h, answersTo, if_pos h, List.length_cons, List.length_cons, ih]
    · rw [ownOps_cons_other h, answersTo, if_neg h, ih]

/-- The answer to an own operation stands behind the earlier ones. -/
theorem answersTo_middle {op : ι} (h : owner op = k) (s : σ) (before after : List ι) :
    answersTo step owner k s (before ++ op :: after) =
      answersTo step owner k s before ++ (step (run (moved step) s before) op).1 ::
        answersTo step owner k (moved step (run (moved step) s before) op) after := by
  rw [answersTo_append, answersTo, if_pos h]

/-- In an isolated run the answer to an operation is the one its owner gets alone. -/
theorem Isolated.answer_eq {s : σ} {before after : List ι} {op : ι}
    (h : Isolated step owner s (before ++ op :: after)) :
    (step (run (moved step) s before) op).1 =
      (step (run (moved step) s (ownOps owner (owner op) before)) op).1 := by
  have heq := h (owner op)
  rw [answersTo_middle rfl, ownOps_append, ownOps_cons_own rfl, answersTo_middle rfl] at heq
  have hlength : (answersTo step owner (owner op) s before).length =
      (answersTo step owner (owner op) s (ownOps owner (owner op) before)).length := by
    rw [length_answersTo, length_answersTo, ownOps_ownOps]
  exact (List.cons.inj (List.append_inj heq hlength).2).1

/-- A run is isolated when each answer is the one its owner gets alone. -/
theorem isolated_iff_answer {s : σ} {ops : List ι} :
    Isolated step owner s ops ↔ ∀ before op after, ops = before ++ op :: after →
      (step (run (moved step) s before) op).1 =
        (step (run (moved step) s (ownOps owner (owner op) before)) op).1 := by
  constructor
  · rintro h before op after rfl
    exact h.answer_eq
  · intro h k
    -- from the last operation on, an answer is the one after the earlier own operations
    induction ops using List.reverseRecOn with
    | nil => rfl
    | append_singleton before op ih =>
      have hbefore := ih fun before' op' after' heq =>
        h before' op' (after' ++ [op]) (by rw [heq, List.append_assoc, List.cons_append])
      rw [answersTo_append, ownOps_append, answersTo_append, hbefore]
      by_cases hown : owner op = k
      · subst hown
        rw [ownOps_cons_own rfl]
        simp only [answersTo, if_true, h before op [] rfl, ownOps, List.filter_nil]
      · rw [ownOps_cons_other hown]
        simp only [answersTo, if_neg hown, ownOps, List.filter_nil]

variable (step owner k)

/-- A simulation of a run by the run of one owner alone. -/
structure Unwinding (R : σ → σ → Prop) : Prop where
  /-- An own operation has the same answer on both sides. -/
  own : ∀ s t op, R s t → owner op = k →
    (step s op).1 = (step t op).1 ∧ R (moved step s op) (moved step t op)
  /-- The operation of another owner is not seen. -/
  other : ∀ s t op, R s t → owner op ≠ k → R (moved step s op) t

variable {step owner k}

/-- Related states give an owner the same answers. -/
theorem Unwinding.answersTo_eq {R : σ → σ → Prop} (h : Unwinding step owner k R) {s t : σ}
    (hst : R s t) (ops : List ι) :
    answersTo step owner k s ops = answersTo step owner k t (ownOps owner k ops) := by
  induction ops generalizing s t with
  | nil => rfl
  | cons op rest ih =>
    by_cases hown : owner op = k
    · have hstep := h.own s t op hst hown
      rw [ownOps_cons_own hown, answersTo, answersTo, if_pos hown, if_pos hown, hstep.1,
        ih hstep.2]
    · rw [ownOps_cons_other hown, answersTo, if_neg hown]
      exact ih (h.other s t op hst hown)

/-- A run is isolated when each owner has a simulation that relates the state to itself. -/
theorem isolated_of_unwinding {R : κ → σ → σ → Prop} {s : σ}
    (hunwind : ∀ k, Unwinding step owner k (R k)) (hrefl : ∀ k, R k s s) (ops : List ι) :
    Isolated step owner s ops :=
  fun k => (hunwind k).answersTo_eq (hrefl k) ops

end

end PolyPlug.Lib
