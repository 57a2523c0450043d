import Mathlib.Data.List.Basic
import Mathlib.Algebra.Group.Nat.Defs

/-!
# `PolyPlug.Lib.Utf16`: code units and scalar values

A text as a list of 16-bit code units, in which a surrogate may stand alone. `scalars` reads
the scalar values of such a list, a surrogate without its partner as U+FFFD. `units` spells
scalar values in code units. `units_scalars` is the round trip of the lists in which every
surrogate has its partner (`Paired`), and `codeUnit_induction` the induction over the units
that are read together.
-/

set_option autoImplicit false

namespace PolyPlug.Lib

/-! ### Surrogates -/

/-- The first half of a pair. -/
def isHigh (u : UInt16) : Bool := 0xD800 ≤ u.toNat && u.toNat ≤ 0xDBFF

/-- The second half of a pair. -/
def isLow (u : UInt16) : Bool := 0xDC00 ≤ u.toNat && u.toNat ≤ 0xDFFF

/-- The scalar value of a pair. -/
def pairValue (high low : UInt16) : Nat :=
  0x10000 + (high.toNat - 0xD800) * 0x400 + (low.toNat - 0xDC00)

/-- U+FFFD. -/
def replacement : Char := Char.ofNat 0xFFFD

theorem isHigh_iff {u : UInt16} : isHigh u = true ↔ 0xD800 ≤ u.toNat ∧ u.toNat ≤ 0xDBFF := by
  simp [isHigh]

theorem isHigh_eq_false_iff {u : UInt16} :
    isHigh u = false ↔ u.toNat < 0xD800 ∨ 0xDBFF < u.toNat := by
  rw [← Bool.not_eq_true, isHigh_iff]
  omega

theorem isLow_iff {u : UInt16} : isLow u = true ↔ 0xDC00 ≤ u.toNat ∧ u.toNat ≤ 0xDFFF := by
  simp [isLow]

theorem isLow_eq_false_iff {u : UInt16} :
    isLow u = false ↔ u.toNat < 0xDC00 ∨ 0xDFFF < u.toNat := by
  rw [← Bool.not_eq_true, isLow_iff]
  omega

/-! ### Scalar values -/

/-- The scalar values of a list of code units. -/
def scalars : List UInt16 → List Char
  | []      => []
  | u :: us =>
    if isHigh u then
      match us with
      | []       => [replacement]
      | v :: us' =>
        if isLow v then Char.ofNat (pairValue u v) :: scalars us'
        else replacement :: scalars (v :: us')
    else if isLow u then replacement :: scalars us
    else Char.ofNat u.toNat :: scalars us

/-- Every surrogate has its partner. -/
def Paired : List UInt16 → Bool
  | []      => true
  | u :: us =>
    if isHigh u then
      match us with
      | []       => false
      | v :: us' => isLow v && Paired us'
    else !isLow u && Paired us

/-- The code units of a scalar value. -/
def charUnits (c : Char) : List UInt16 :=
  if c.toNat < 0x10000 then [UInt16.ofNat c.toNat]
  else
    [UInt16.ofNat (0xD800 + (c.toNat - 0x10000) / 0x400),
      UInt16.ofNat (0xDC00 + (c.toNat - 0x10000) % 0x400)]

/-- The code units of scalar values. -/
def units (cs : List Char) : List UInt16 := cs.flatMap charUnits

/-- The unit after a first half is no second half. -/
def Unpartnered (us : List UInt16) : Prop := ∀ v ∈ us.head?, isLow v = false

/-! ### Units read together -/

section
variable {u v : UInt16} {us : List UInt16}

/-- A list is empty, or it begins with a unit that is no first half, with a pair, or with a first
half alone. -/
theorem codeUnit_induction {P : List UInt16 → Prop} (nil : P [])
    (unit : ∀ u us, isHigh u = false → P us → P (u :: us))
    (pair : ∀ u v us, isHigh u = true → isLow v = true → P us → P (u :: v :: us))
    (high : ∀ u us, isHigh u = true → Unpartnered us → P us → P us.tail → P (u :: us)) :
    ∀ us, P us := by
  intro us
  induction hn : us.length using Nat.strongRecOn generalizing us with
  | ind n ih =>
    subst hn
    cases us with
    | nil => exact nil
    | cons u us =>
      have hrest : P us := ih us.length (by simp) us rfl
      cases hu : isHigh u with
      | false => exact unit u us hu hrest
      | true =>
        cases us with
        | nil => exact high u [] hu (fun v hv => by cases hv) hrest nil
        | cons v us =>
          have htail : P us := ih us.length (by grind) us rfl
          cases hv : isLow v with
          | true => exact pair u v us hu hv htail
          | false =>
            refine high u (v :: us) hu (fun w hw => ?_) hrest htail
            cases hw
            exact hv

theorem scalars_unit (hu : isHigh u = false) (hl : isLow u = false) :
    scalars (u :: us) = Char.ofNat u.toNat :: scalars us := by
  rw [scalars.eq_def]
  dsimp only
  rw [if_neg (by simp [hu]), if_neg (by simp [hl])]

theorem scalars_low (hl : isLow u = true) : scalars (u :: us) = replacement :: scalars us := by
  have hu : isHigh u = false := by
    rw [isLow_iff] at hl
    rw [isHigh_eq_false_iff]
    omega
  rw [scalars.eq_def]
  dsimp only
  rw [if_neg (by simp [hu]), if_pos hl]

theorem scalars_pair (hu : isHigh u = true) (hv : isLow v = true) :
    scalars (u :: v :: us) = Char.ofNat (pairValue u v) :: scalars us := by
  rw [scalars.eq_def]
  dsimp only
  rw [if_pos hu]
  exact if_pos hv

theorem scalars_high (hu : isHigh u = true) (hus : Unpartnered us) :
    scalars (u :: us) = replacement :: scalars us := by
  rw [scalars.eq_def]
  dsimp only
  rw [if_pos hu]
  cases us with
  | nil => rfl
  | cons v us => exact if_neg (by simp [hus v rfl])

theorem paired_unit (hu : isHigh u = false) (hl : isLow u = false) :
    Paired (u :: us) = Paired us := by
  rw [Paired.eq_def]
  dsimp only
  rw [if_neg (by simp [hu]), hl]
  rfl

theorem paired_low (hl : isLow u = true) : Paired (u :: us) = false := by
  have hu : isHigh u = false := by
    rw [isLow_iff] at hl
    rw [isHigh_eq_false_iff]
    omega
  rw [Paired.eq_def]
  dsimp only
  rw [if_neg (by simp [hu]), hl]
  rfl

theorem paired_pair (hu : isHigh u = true) (hv : isLow v = true) :
    Paired (u :: v :: us) = Paired us := by
  rw [Paired.eq_def]
  dsimp only
  rw [if_pos hu]
  show (isLow v && Paired us) = Paired us
  rw [hv, Bool.true_and]

theorem paired_high (hu : isHigh u = true) (hus : Unpartnered us) : Paired (u :: us) = false := by
  rw [Paired.eq_def]
  dsimp only
  rw [if_pos hu]
  cases us with
  | nil => rfl
  | cons v us =>
    show (isLow v && Paired us) = false
    rw [hus v rfl, Bool.false_and]

end

/-! ### Round trip -/

/-- A unit that is no surrogate is a scalar value. -/
theorem toNat_ofNat_unit {u : UInt16} (hu : isHigh u = false) (hl : isLow u = false) :
    (Char.ofNat u.toNat).toNat = u.toNat := by
  have hlt : u.toNat < 65536 := u.toNat_lt
  rw [isHigh_eq_false_iff] at hu
  rw [isLow_eq_false_iff] at hl
  have hvalid : Nat.isValidChar u.toNat := by
    unfold Nat.isValidChar
    omega
  rw [Char.ofNat, dif_pos hvalid]
  rfl

theorem pairValue_bounds {u v : UInt16} (hu : isHigh u = true) (hv : isLow v = true) :
    0x10000 ≤ pairValue u v ∧ pairValue u v ≤ 0x10FFFF := by
  rw [isHigh_iff] at hu
  rw [isLow_iff] at hv
  unfold pairValue
  omega

/-- A pair is a scalar value. -/
theorem toNat_ofNat_pair {u v : UInt16} (hu : isHigh u = true) (hv : isLow v = true) :
    (Char.ofNat (pairValue u v)).toNat = pairValue u v := by
  have hbounds := pairValue_bounds hu hv
  have hvalid : Nat.isValidChar (pairValue u v) := by
    unfold Nat.isValidChar
    omega
  rw [Char.ofNat, dif_pos hvalid]
  rfl

theorem charUnits_unit {u : UInt16} (hu : isHigh u = false) (hl : isLow u = false) :
    charUnits (Char.ofNat u.toNat) = [u] := by
  have hlt : u.toNat < 65536 := u.toNat_lt
  rw [charUnits, toNat_ofNat_unit hu hl, if_pos hlt, UInt16.ofNat_toNat]

theorem charUnits_pair {u v : UInt16} (hu : isHigh u = true) (hv : isLow v = true) :
    charUnits (Char.ofNat (pairValue u v)) = [u, v] := by
  have hbounds := pairValue_bounds hu hv
  rw [charUnits, toNat_ofNat_pair hu hv, if_neg (by omega)]
  rw [isHigh_iff] at hu
  rw [isLow_iff] at hv
  have hhigh : 0xD800 + (pairValue u v - 0x10000) / 0x400 = u.toNat := by
    unfold pairValue
    omega
  have hlow : 0xDC00 + (pairValue u v - 0x10000) % 0x400 = v.toNat := by
    unfold pairValue
    omega
  rw [hhigh, hlow, UInt16.ofNat_toNat, UInt16.ofNat_toNat]

/-- **The scalar values spell the list again if every surrogate has its partner.** -/
theorem units_scalars : ∀ {us : List UInt16}, Paired us = true → units (scalars us) = us := by
  intro us
  induction us using codeUnit_induction with
  | nil => intro _; rfl
  | unit u us hu ih =>
    intro hpaired
    cases hl : isLow u with
    | true =>
      rw [paired_low hl] at hpaired
      cases hpaired
    | false =>
      rw [paired_unit hu hl] at hpaired
      rw [scalars_unit hu hl, units, List.flatMap_cons, charUnits_unit hu hl]
      show u :: units (scalars us) = _
      rw [ih hpaired]
  | pair u v us hu hv ih =>
    intro hpaired
    rw [paired_pair hu hv] at hpaired
    rw [scalars_pair hu hv, units, List.flatMap_cons, charUnits_pair hu hv]
    show u :: v :: units (scalars us) = _
    rw [ih hpaired]
  | high u us hu hus _ _ =>
    intro hpaired
    rw [paired_high hu hus] at hpaired
    cases hpaired

end PolyPlug.Lib
