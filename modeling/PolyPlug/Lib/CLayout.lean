import Mathlib.Algebra.Group.Nat.Defs
import Mathlib.Data.List.Basic
import Mathlib.Order.Lattice

/-!
# `PolyPlug.Lib.CLayout`: where C puts the fields of a struct

The rules of C for a struct: each field at the next multiple of its alignment (`place`), and the
size rounded up to the largest alignment (`structLayout`). A `Layout` carries its invariant: the
alignment is a power of two and divides the size.

`place_spec` says where a field stands. The fields of a struct without bytes have none.
-/

set_option autoImplicit false

namespace PolyPlug.Lib

/-! ### Rounding -/

/-- The first multiple of `a` from `n` on. -/
def roundUp (n a : Nat) : Nat := (n + (a - 1)) / a * a

section
variable {n k a : Nat}

theorem le_roundUp (ha : 0 < a) : n ≤ roundUp n a := by
  have hdiv := Nat.div_add_mod (n + (a - 1)) a
  have hmod := Nat.mod_lt (n + (a - 1)) ha
  rw [Nat.mul_comm] at hdiv
  rw [roundUp]
  omega

theorem roundUp_lt (ha : 0 < a) : roundUp n a < n + a := by
  have hle := Nat.div_mul_le_self (n + (a - 1)) a
  rw [roundUp]
  omega

theorem dvd_roundUp (n a : Nat) : a ∣ roundUp n a := Nat.dvd_mul_left a _

@[simp] theorem roundUp_one (n : Nat) : roundUp n 1 = n := by
  rw [roundUp, Nat.sub_self, Nat.add_zero, Nat.div_one, Nat.mul_one]

theorem roundUp_add (h : a ∣ k) : roundUp (k + n) a = k + roundUp n a := by
  obtain ⟨q, rfl⟩ := h
  rcases Nat.eq_zero_or_pos a with rfl | ha
  · simp [roundUp]
  · rw [roundUp, roundUp, Nat.add_assoc, Nat.mul_add_div ha, Nat.add_mul, Nat.mul_comm q]

end

/-! ### Layouts -/

/-- A size and an alignment. -/
structure Layout where
  size : Nat
  align : Nat
  pow : ∃ k, align = 2 ^ k
  dvd : align ∣ size

namespace Layout

theorem align_pos (l : Layout) : 0 < l.align := by
  obtain ⟨k, hk⟩ := l.pow
  rw [hk]
  exact Nat.two_pow_pos k

@[ext] theorem ext {l l' : Layout} (hsize : l.size = l'.size) (halign : l.align = l'.align) :
    l = l' := by
  cases l
  cases l'
  congr

end Layout

/-- A value of `2 ^ k` bytes at its natural alignment. -/
def natural (k : Nat) : Layout := ⟨2 ^ k, 2 ^ k, ⟨k, rfl⟩, Nat.dvd_refl _⟩

/-! ### Structs -/

/-- The largest alignment, at least 1. -/
def maxAlign : List Layout → Nat
  | []      => 1
  | l :: ls => max l.align (maxAlign ls)

/-- The offsets of fields that follow `start`. -/
def place : Nat → List Layout → List Nat
  | _, []          => []
  | start, l :: ls => roundUp start l.align :: place (roundUp start l.align + l.size) ls

/-- The end of the last of them. -/
def stop : Nat → List Layout → Nat
  | start, []      => start
  | start, l :: ls => stop (roundUp start l.align + l.size) ls

section
variable {l : Layout} {ls : List Layout} {start i j o o' : Nat}

theorem maxAlign_pow (ls : List Layout) : ∃ k, maxAlign ls = 2 ^ k := by
  induction ls with
  | nil => exact ⟨0, rfl⟩
  | cons l ls ih =>
    rw [maxAlign]
    rcases le_total l.align (maxAlign ls) with hle | hle
    · rw [max_eq_right hle]
      exact ih
    · rw [max_eq_left hle]
      exact l.pow

theorem le_maxAlign (h : l ∈ ls) : l.align ≤ maxAlign ls := by
  induction ls with
  | nil => exact absurd h List.not_mem_nil
  | cons l' ls ih =>
    rw [maxAlign]
    rcases List.mem_cons.mp h with rfl | h
    · exact le_max_left _ _
    · exact (ih h).trans (le_max_right _ _)

theorem dvd_maxAlign (h : l ∈ ls) : l.align ∣ maxAlign ls := by
  obtain ⟨k, hk⟩ := maxAlign_pow ls
  have hle := le_maxAlign h
  obtain ⟨k', hk'⟩ := l.pow
  rw [hk, hk'] at hle ⊢
  exact Nat.pow_dvd_pow 2 ((Nat.pow_le_pow_iff_right (by omega)).mp hle)

/-- The layout of a struct. -/
def structLayout (ls : List Layout) : Layout :=
  ⟨roundUp (stop 0 ls) (maxAlign ls), maxAlign ls, maxAlign_pow ls, dvd_roundUp _ _⟩

theorem length_place (start : Nat) (ls : List Layout) : (place start ls).length = ls.length := by
  induction ls generalizing start with
  | nil => rfl
  | cons l ls ih => rw [place, List.length_cons, ih, List.length_cons]

theorem le_stop (start : Nat) (ls : List Layout) : start ≤ stop start ls := by
  induction ls generalizing start with
  | nil => exact le_refl _
  | cons l ls ih =>
    exact ((le_roundUp l.align_pos).trans (Nat.le_add_right _ _)).trans (ih _)

/-- A field stands at a multiple of its alignment, between the start and the end. -/
theorem place_spec (ho : (place start ls)[i]? = some o) (hl : ls[i]? = some l) :
    l.align ∣ o ∧ start ≤ o ∧ o + l.size ≤ stop start ls := by
  induction ls generalizing start i with
  | nil => cases hl
  | cons l' ls ih =>
    cases i with
    | zero =>
      obtain rfl := Option.some.inj hl
      obtain rfl := Option.some.inj ho
      exact ⟨dvd_roundUp _ _, le_roundUp l'.align_pos, le_stop _ ls⟩
    | succ i =>
      obtain ⟨hdvd, hle, hstop⟩ := ih ho hl
      have hfirst : start ≤ roundUp start l'.align := le_roundUp l'.align_pos
      exact ⟨hdvd, by omega, hstop⟩

theorem stop_le_size (ls : List Layout) : stop 0 ls ≤ (structLayout ls).size := by
  obtain ⟨k, hk⟩ := maxAlign_pow ls
  exact le_roundUp (by rw [hk]; exact Nat.two_pow_pos k)

/-- A field has its place between the start and the end. -/
theorem size_le_stop (h : l ∈ ls) : l.size ≤ stop start ls := by
  induction ls generalizing start with
  | nil => exact absurd h List.not_mem_nil
  | cons l' ls ih =>
    rcases List.mem_cons.mp h with rfl | h
    · exact (Nat.le_add_left _ _).trans (le_stop _ ls)
    · exact ih h

/-- The fields of a struct without bytes have none. -/
theorem size_eq_zero_of_structLayout (hsize : (structLayout ls).size = 0) (h : l ∈ ls) :
    l.size = 0 := by
  have hfield : l.size ≤ stop 0 ls := size_le_stop h
  have hstop := stop_le_size ls
  omega

/-- If fields without bytes have no alignment, neither has a struct of them. -/
theorem align_structLayout (hsize : (structLayout ls).size = 0)
    (h : ∀ l ∈ ls, l.size = 0 → l.align = 1) : (structLayout ls).align = 1 := by
  show maxAlign ls = 1
  have hone : ∀ l ∈ ls, l.align = 1 := fun l hl => h l hl (size_eq_zero_of_structLayout hsize hl)
  clear hsize h
  induction ls with
  | nil => rfl
  | cons l ls ih =>
    rw [maxAlign, hone l List.mem_cons_self, ih fun l' hl' => hone l' (List.mem_cons_of_mem l hl')]
    rfl

end

end PolyPlug.Lib
