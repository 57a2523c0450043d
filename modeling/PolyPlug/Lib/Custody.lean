import Mathlib.Algebra.Group.Pi.Basic
import Mathlib.Algebra.Order.Group.Nat
import Mathlib.Tactic.Common

/-!
# `PolyPlug.Lib.Custody`: things that are in one place each

A program makes things, numbered in the order they are made, and hands them on from place to
place. `amount p x` is how often the thing `x` is found at the place `p`. `InCustody` says
that each thing made so far is at one place, once, and that no other thing is anywhere.

A step that makes a thing adds a `token` (`InCustody.make`). One that hands a thing on takes
a token away and adds another one (`InCustody.move`).
-/

set_option autoImplicit false

namespace PolyPlug.Lib

open scoped Classical in
/-- One thing at one place. -/
noncomputable def token {π : Type*} (p : π) (x : Nat) : π → Nat → Nat :=
  fun q y => if q = p ∧ y = x then 1 else 0

/-- Each of the first `made` things is at one place, once. -/
structure InCustody {π : Type*} (made : Nat) (amount : π → Nat → Nat) : Prop where
  placed : ∀ x, x < made → ∃ p, amount p x = 1 ∧ ∀ q, q ≠ p → amount q x = 0
  unmade : ∀ x, made ≤ x → ∀ p, amount p x = 0

section
variable {π : Type*} {made x y : Nat} {amount amount' : π → Nat → Nat} {p q : π}

@[simp] theorem token_self : token p x p x = 1 := if_pos ⟨rfl, rfl⟩

theorem token_thing (h : y ≠ x) : token p x q y = 0 := if_neg fun heq => h heq.2

theorem token_place (h : q ≠ p) : token p x q y = 0 := if_neg fun heq => h heq.1

namespace InCustody

theorem empty : InCustody 0 fun (_ : π) _ => 0 :=
  ⟨fun x hx => absurd hx (Nat.not_lt_zero x), fun _ _ _ => rfl⟩

/-- A thing that is found somewhere is made. -/
theorem lt_made (h : InCustody made amount) (hp : 0 < amount p x) : x < made := by
  by_contra hx
  have hzero := h.unmade x (by omega) p
  omega

/-- A thing that is found somewhere is there once, and nowhere else. -/
theorem only (h : InCustody made amount) (hp : 0 < amount p x) :
    amount p x = 1 ∧ ∀ q, q ≠ p → amount q x = 0 := by
  obtain ⟨r, hone, helse⟩ := h.placed x (h.lt_made hp)
  by_cases hr : p = r
  · subst hr
    exact ⟨hone, helse⟩
  · have hzero := helse p hr
    omega

theorem elsewhere (h : InCustody made amount) (hp : 0 < amount p x) (hq : q ≠ p) :
    amount q x = 0 := (h.only hp).2 q hq

/-- A thing is made at a place. -/
theorem make (h : InCustody made amount)
    (hmake : ∀ r y, amount' r y = amount r y + token q made r y) :
    InCustody (made + 1) amount' where
  placed := by
    intro y hy
    by_cases hnew : y = made
    · subst hnew
      refine ⟨q, ?_, fun r hr => ?_⟩
      · rw [hmake, h.unmade y le_rfl, token_self]
      · rw [hmake, h.unmade y le_rfl, token_place hr]
    · obtain ⟨r, hone, helse⟩ := h.placed y (by omega)
      refine ⟨r, ?_, fun r' hr' => ?_⟩
      · rw [hmake, token_thing hnew, hone]
      · rw [hmake, token_thing hnew, helse r' hr']
  unmade := by
    intro y hy r
    rw [hmake, token_thing (by omega), h.unmade y (by omega)]

/-- A thing is handed on from one place to another one. -/
theorem move (h : InCustody made amount)
    (hmove : ∀ r y, amount' r y + token p x r y = amount r y + token q x r y) :
    InCustody made amount' := by
  have hother : ∀ y, y ≠ x → ∀ r, amount' r y = amount r y := by
    intro y hy r
    have heq := hmove r y
    rw [token_thing hy, token_thing hy] at heq
    exact heq
  by_cases hpq : p = q
  · subst hpq
    have hsame : amount' = amount := by
      funext r y
      exact Nat.add_right_cancel (hmove r y)
    exact hsame ▸ h
  · -- The thing was at `p`, and there only.
    have hat := hmove p x
    rw [token_self, token_place hpq] at hat
    obtain ⟨hone, helse⟩ := h.only (p := p) (x := x) (by omega)
    refine ⟨fun y hy => ?_, fun y hy r => ?_⟩
    · by_cases hyx : y = x
      · subst hyx
        refine ⟨q, ?_, fun r hr => ?_⟩
        · have heq := hmove q y
          rw [token_self, token_place (Ne.symm hpq), helse q (Ne.symm hpq)] at heq
          omega
        · by_cases hrp : r = p
          · subst hrp
            omega
          · have heq := hmove r y
            rw [token_place hrp, token_place hr, helse r hrp] at heq
            omega
      · obtain ⟨r, hone', helse'⟩ := h.placed y hy
        refine ⟨r, ?_, fun r' hr' => ?_⟩
        · rw [hother y hyx, hone']
        · rw [hother y hyx, helse' r' hr']
    · have hyx : y ≠ x := by
        rintro rfl
        have := h.lt_made (p := p) (x := y) (by omega)
        omega
      rw [hother y hyx, h.unmade y hy]

end InCustody

end

end PolyPlug.Lib
