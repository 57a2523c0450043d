import Mathlib.Data.List.Basic
import Mathlib.Logic.Function.Basic

/-!
# `PolyPlug.Lib.Mixing`: a fold whose step loses nothing

A running hash takes one symbol after the other into a state. When no symbol makes two states
one, the symbols that two inputs end with cancel. When, besides, no state makes two symbols one,
inputs that differ in a single symbol end in different states.
-/

set_option autoImplicit false

namespace PolyPlug.Lib

variable {σ β : Type} {step : σ → β → σ}

/-- Each symbol is taken in without making two states one. -/
def KeepsStates (step : σ → β → σ) : Prop := ∀ b s t, step s b = step t b → s = t

/-- Each state takes in different symbols differently. -/
def KeepsSymbols (step : σ → β → σ) : Prop := ∀ s b c, step s b = step s c → b = c

/-- A whole input keeps the states apart that it starts from. -/
theorem KeepsStates.foldl_inj (hstep : KeepsStates step) :
    ∀ (xs : List β) {s t : σ}, xs.foldl step s = xs.foldl step t → s = t := by
  intro xs
  induction xs with
  | nil => exact fun h => h
  | cons b xs ih => exact fun h => hstep b _ _ (ih h)

/-- What two inputs both end with cancels. -/
theorem KeepsStates.foldl_append_right (hstep : KeepsStates step) (xs ys zs : List β) (s t : σ) :
    (xs ++ zs).foldl step s = (ys ++ zs).foldl step t ↔ xs.foldl step s = ys.foldl step t := by
  rw [List.foldl_append, List.foldl_append]
  exact ⟨hstep.foldl_inj zs, fun h => by rw [h]⟩

/-- Inputs that differ in one symbol end in different states. -/
theorem KeepsStates.foldl_one_symbol (hstep : KeepsStates step) (hsymbol : KeepsSymbols step)
    (xs zs : List β) {b c : β} (s : σ) :
    (xs ++ b :: zs).foldl step s = (xs ++ c :: zs).foldl step s ↔ b = c := by
  constructor
  · intro h
    rw [List.foldl_append, List.foldl_append] at h
    exact hsymbol _ b c (hstep.foldl_inj zs h)
  · intro h
    rw [h]

end PolyPlug.Lib
