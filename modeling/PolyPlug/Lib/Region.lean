import Mathlib.Data.Nat.Bitwise
import Mathlib.Data.Set.Lattice
import Mathlib.Order.CompletePartialOrder
import Mathlib.Order.Interval.Set.Disjoint

/-!
# `PolyPlug.Lib.Region`: aligned regions of a flat address space

A region is a start address and a size; its span is the half-open interval of its
addresses. Two regions do not overlap when their spans are disjoint, and a part of
one then does not overlap a part of the other (`Disjoint.mono`).

`alignUp` is the usual mask: add `align - 1`, clear the low bits. In `w`-bit
arithmetic it gives the first multiple of `align` from an address on
(`alignUp_spec`), and when the addition overflows there is none below `2 ^ w`
(`no_multiple_of_overflow`).
-/

set_option autoImplicit false

namespace PolyPlug.Lib

/-! ### Alignment -/

/-- The mask `!(2 ^ k - 1)` of `w`-bit words clears the low `k` bits. -/
theorem and_mask {x w k : Nat} (hx : x < 2 ^ w) (hk : k ≤ w) :
    x &&& (2 ^ w - 1 - (2 ^ k - 1)) = 2 ^ k * (x / 2 ^ k) := by
  have hle : 2 ^ k ≤ 2 ^ w := Nat.pow_le_pow_right (by omega) hk
  have hpos : 0 < 2 ^ k := Nat.two_pow_pos k
  have hmask : 2 ^ w - 1 - (2 ^ k - 1) = 2 ^ w - (2 ^ k - 1 + 1) := by omega
  refine Nat.eq_of_testBit_eq fun i => ?_
  rw [Nat.testBit_and, hmask, Nat.testBit_two_pow_sub_succ (by omega), Nat.testBit_two_pow_sub_one,
    Nat.testBit_two_pow_mul, Nat.testBit_div_two_pow]
  by_cases hi : k ≤ i
  · rw [Nat.sub_add_cancel hi]
    by_cases hw : i < w
    · simp [hi, hw]
    · -- The word has no bit there.
      have hbit : x.testBit i = false :=
        Nat.testBit_lt_two_pow (lt_of_lt_of_le hx (Nat.pow_le_pow_right (by omega) (by omega)))
      simp [hbit]
  · simp [hi, Nat.lt_of_not_le hi]

/-- The first multiple of `align` from `addr` on, as `w`-bit code computes it. -/
def alignUp (w addr align : Nat) : Nat := (addr + (align - 1)) &&& (2 ^ w - 1 - (align - 1))

theorem alignUp_spec {w addr align : Nat} (halign : align.isPowerOfTwo) (hw : align < 2 ^ w)
    (hfit : addr + (align - 1) < 2 ^ w) :
    align ∣ alignUp w addr align ∧ addr ≤ alignUp w addr align ∧
      alignUp w addr align < addr + align ∧
      ∀ p, addr ≤ p → align ∣ p → alignUp w addr align ≤ p := by
  obtain ⟨k, rfl⟩ := halign
  have hk : k ≤ w := Nat.le_of_lt ((Nat.pow_lt_pow_iff_right (by omega)).mp hw)
  have hpos : 0 < 2 ^ k := Nat.two_pow_pos k
  rw [alignUp, and_mask hfit hk]
  have hdiv := Nat.div_add_mod (addr + (2 ^ k - 1)) (2 ^ k)
  have hmod := Nat.mod_lt (addr + (2 ^ k - 1)) hpos
  refine ⟨⟨_, rfl⟩, by omega, by omega, fun p hp ⟨q, hq⟩ => ?_⟩
  rw [hq]
  refine Nat.mul_le_mul_left _ ?_
  rw [Nat.div_le_iff_le_mul_add_pred hpos]
  omega

/-- When the addition overflows, no word from `addr` on is a multiple. -/
theorem no_multiple_of_overflow {w addr align p : Nat} (halign : align.isPowerOfTwo)
    (hw : align < 2 ^ w) (hover : 2 ^ w ≤ addr + (align - 1)) (hp : addr ≤ p) (hdvd : align ∣ p) :
    2 ^ w ≤ p := by
  obtain ⟨k, rfl⟩ := halign
  have hk : k ≤ w := Nat.le_of_lt ((Nat.pow_lt_pow_iff_right (by omega)).mp hw)
  obtain ⟨n, hn⟩ : 2 ^ k ∣ 2 ^ w := Nat.pow_dvd_pow 2 hk
  obtain ⟨q, hq⟩ := hdvd
  by_contra hlt
  -- A multiple below `2 ^ w` is one `align` away from it at least.
  have hqn : q + 1 ≤ n := by
    by_contra hge
    have := Nat.mul_le_mul_left (2 ^ k) (show n ≤ q by omega)
    omega
  have hstep := Nat.mul_le_mul_left (2 ^ k) hqn
  rw [Nat.mul_add, Nat.mul_one] at hstep
  have hpos : 0 < 2 ^ k := Nat.two_pow_pos k
  omega

/-! ### Regions -/

/-- `size` bytes from `start` on. -/
structure Region where
  start : Nat
  size : Nat
deriving DecidableEq

namespace Region

/-- The addresses of a region. -/
def span (r : Region) : Set Nat := Set.Ico r.start (r.start + r.size)

theorem mem_span {start size i : Nat} :
    i ∈ span ⟨start, size⟩ ↔ start ≤ i ∧ i < start + size := Iff.rfl

/-- Nothing lies in a region of no size. -/
theorem disjoint_empty {r : Region} {start : Nat} : Disjoint r.span (span ⟨start, 0⟩) := by
  refine Set.disjoint_left.mpr fun i _ hi => ?_
  have hrange := mem_span.mp hi
  omega

theorem span_subset {r s : Region} (hstart : s.start ≤ r.start)
    (hstop : r.start + r.size ≤ s.start + s.size) : r.span ⊆ s.span :=
  Set.Ico_subset_Ico hstart hstop

theorem disjoint_of_le {r s : Region} (h : r.start + r.size ≤ s.start) :
    Disjoint r.span s.span := by
  rw [span, span, Set.Ico_disjoint_Ico]
  exact le_trans (min_le_left _ _) (le_trans h (le_max_right _ _))

end Region

end PolyPlug.Lib
