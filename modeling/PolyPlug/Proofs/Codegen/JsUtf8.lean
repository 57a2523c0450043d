import PolyPlug.Codegen.JsUtf8
import PolyPlug.Registry.Data

/-!
# `PolyPlug.Proofs.Codegen.JsUtf8`: the two paths of the UTF-8 encoder

`_ppEncodeUtf8` encodes with `TextEncoder` where there is one, and with a loop of its own in
QuickJS. The loop encodes a scalar value as UTF-8 does (`pushCode_toNat`). It spells a second
half alone as a code point, and combines a first half with whatever unit is next.

`ppEncodeUtf8_agrees_iff`: the two agree exactly on the strings in which every surrogate has its
partner. On a string with another one they differ from the first such surrogate on, and
`length_encodeUnits_le` is what tells them apart if the loop happens to push U+FFFD there.
-/

set_option autoImplicit false

namespace PolyPlug.Codegen

open PolyPlug.Lib
open PolyPlug.Abi
open PolyPlug.Registry

/-! ### Bits -/

/-- The bits of a continuation byte. -/
theorem continuationByte_eq (n : Nat) : continuationByte n = UInt8.ofNat (n % 64 + 0x80) := by
  have hmask : n &&& 0x3F = n % 64 := Nat.and_two_pow_sub_one_eq_mod n 6
  have hmark : 0x80 ||| n % 64 = 0x80 + n % 64 :=
    (Nat.two_pow_add_eq_or_of_lt (i := 6) (Nat.mod_lt n (by decide)) 2).symm
  rw [continuationByte, toUint8, hmask, hmark, Nat.add_comm]

/-- A first byte is its mark and the bits above the continuation bytes. -/
theorem firstByte_eq {mark bits i a : Nat} (hmark : mark = 2 ^ i * a) (hlt : bits < 2 ^ i) :
    toUint8 (mark ||| bits) = UInt8.ofNat (mark + bits) := by
  rw [toUint8, hmark, Nat.two_pow_add_eq_or_of_lt hlt]

/-! ### One code -/

theorem pushCode_one {n : Nat} (h : n < 0x80) : pushCode (some n) = [UInt8.ofNat n] := by
  simp [pushCode, lessThan, toInt32, toUint8, h]

theorem pushCode_two {n : Nat} (hlow : 0x80 ≤ n) (h : n < 0x800) :
    pushCode (some n) = [UInt8.ofNat (0xC0 + n / 64), UInt8.ofNat (n % 64 + 0x80)] := by
  have hfirst : toUint8 (0xC0 ||| n >>> 6) = UInt8.ofNat (0xC0 + n / 64) := by
    rw [Nat.shiftRight_eq_div_pow]
    exact firstByte_eq (i := 5) (a := 6) rfl (by omega)
  rw [← continuationByte_eq, ← hfirst]
  simp [pushCode, lessThan, toInt32, h, Nat.not_lt.mpr hlow]

theorem pushCode_three {n : Nat} (hlow : 0x800 ≤ n) (h : n < 0x10000) :
    pushCode (some n) = [UInt8.ofNat (0xE0 + n / 4096), UInt8.ofNat (n / 64 % 64 + 0x80),
      UInt8.ofNat (n % 64 + 0x80)] := by
  have hfirst : toUint8 (0xE0 ||| n >>> 12) = UInt8.ofNat (0xE0 + n / 4096) := by
    rw [Nat.shiftRight_eq_div_pow]
    exact firstByte_eq (i := 4) (a := 14) rfl (by omega)
  have hsecond : n / 64 = n >>> 6 := by rw [Nat.shiftRight_eq_div_pow]
  rw [hsecond, ← continuationByte_eq, ← continuationByte_eq, ← hfirst]
  have hone : ¬ n < 0x80 := by omega
  have htwo : ¬ n < 0x800 := by omega
  simp [pushCode, lessThan, toInt32, h, hone, htwo]

theorem pushCode_four {n : Nat} (hlow : 0x10000 ≤ n) (h : n < 0x200000) :
    pushCode (some n) = [UInt8.ofNat (0xF0 + n / 262144), UInt8.ofNat (n / 4096 % 64 + 0x80),
      UInt8.ofNat (n / 64 % 64 + 0x80), UInt8.ofNat (n % 64 + 0x80)] := by
  have hfirst : toUint8 (0xF0 ||| n >>> 18) = UInt8.ofNat (0xF0 + n / 262144) := by
    rw [Nat.shiftRight_eq_div_pow]
    exact firstByte_eq (i := 3) (a := 30) rfl (by omega)
  have hsecond : n / 4096 = n >>> 12 := by rw [Nat.shiftRight_eq_div_pow]
  have hthird : n / 64 = n >>> 6 := by rw [Nat.shiftRight_eq_div_pow]
  rw [hsecond, hthird, ← continuationByte_eq, ← continuationByte_eq, ← continuationByte_eq,
    ← hfirst]
  have hone : ¬ n < 0x80 := by omega
  have htwo : ¬ n < 0x800 := by omega
  have hthree : ¬ n < 0x10000 := by omega
  simp [pushCode, lessThan, toInt32, hone, htwo, hthree]

/-- **A scalar value is pushed as UTF-8.** -/
theorem pushCode_toNat (c : Char) : pushCode (some c.toNat) = String.utf8EncodeChar c := by
  have hle : c.toNat ≤ 0x10FFFF := by
    have hvalid : Nat.isValidChar c.toNat := c.valid
    unfold Nat.isValidChar at hvalid
    omega
  have hval : c.val.toNat = c.toNat := rfl
  rw [String.utf8EncodeChar, hval]
  split
  · exact pushCode_one (by omega)
  · split
    · rw [pushCode_two (by omega) (by omega), Nat.add_comm 0xC0,
        Nat.mod_eq_of_lt (show c.toNat / 64 < 0x20 by omega)]
    · split
      · rw [pushCode_three (by omega) (by omega), Nat.add_comm 0xE0,
          Nat.mod_eq_of_lt (show c.toNat / 4096 < 0x10 by omega)]
      · rw [pushCode_four (by omega) (by omega), Nat.add_comm 0xF0,
          Nat.mod_eq_of_lt (show c.toNat / 262144 < 0x08 by omega)]

/-! ### The loop -/

section
variable {u v : UInt16} {us : List UInt16}

theorem encodeUnits_unit (hu : isHigh u = false) :
    encodeUnits (u :: us) = pushCode (some u.toNat) ++ encodeUnits us := by
  rw [encodeUnits.eq_def]
  exact if_neg (by rw [Bool.not_eq_true]; exact hu)

theorem encodeUnits_high_nil (hu : isHigh u = true) : encodeUnits [u] = pushCode none := by
  rw [encodeUnits.eq_def]
  exact if_pos hu

theorem encodeUnits_high (hu : isHigh u = true) :
    encodeUnits (u :: v :: us) =
      pushCode (some (0x10000 + (u.toNat - 0xD800) * 0x400 + v.toNat - 0xDC00)) ++
        encodeUnits us := by
  rw [encodeUnits.eq_def]
  refine (if_pos hu).trans ?_
  show pushCode (combineUnits u.toNat (some v.toNat)) ++ encodeUnits us = _
  rw [combineUnits, Option.map_some, Nat.shiftLeft_eq]

theorem textEncode_unit (hu : isHigh u = false) (hl : isLow u = false) :
    textEncode (u :: us) = pushCode (some u.toNat) ++ textEncode us := by
  rw [textEncode, scalars_unit hu hl, List.flatMap_cons, ← pushCode_toNat, toNat_ofNat_unit hu hl,
    textEncode]

theorem textEncode_pair (hu : isHigh u = true) (hv : isLow v = true) :
    textEncode (u :: v :: us) = pushCode (some (pairValue u v)) ++ textEncode us := by
  rw [textEncode, scalars_pair hu hv, List.flatMap_cons, ← pushCode_toNat, toNat_ofNat_pair hu hv,
    textEncode]

theorem textEncode_low (hl : isLow u = true) :
    textEncode (u :: us) = [0xEF, 0xBF, 0xBD] ++ textEncode us := by
  rw [textEncode, scalars_low hl, List.flatMap_cons, textEncode]
  rfl

theorem textEncode_high (hu : isHigh u = true) (hus : Unpartnered us) :
    textEncode (u :: us) = [0xEF, 0xBF, 0xBD] ++ textEncode us := by
  rw [textEncode, scalars_high hu hus, List.flatMap_cons, textEncode]
  rfl

end

/-- The two paths agree if every surrogate has its partner. -/
theorem encodeUnits_eq_textEncode :
    ∀ {us : List UInt16}, Paired us = true → encodeUnits us = textEncode us := by
  intro us
  induction us using codeUnit_induction with
  | nil => intro _; rfl
  | unit u us hu ih =>
    intro hpaired
    cases hl : isLow u with
    | true =>
      rw [paired_low hl] at hpaired
      cases hpaired
    | false =>
      rw [paired_unit hu hl] at hpaired
      rw [encodeUnits_unit hu, textEncode_unit hu hl, ih hpaired]
  | pair u v us hu hv ih =>
    intro hpaired
    rw [paired_pair hu hv] at hpaired
    have hcode : 0x10000 + (u.toNat - 0xD800) * 0x400 + v.toNat - 0xDC00 = pairValue u v := by
      have hlow := (isLow_iff.mp hv).1
      unfold pairValue
      omega
    rw [encodeUnits_high hu, textEncode_pair hu hv, hcode, ih hpaired]
  | high u us hu hus _ _ =>
    intro hpaired
    rw [paired_high hu hus] at hpaired
    cases hpaired

/-! ### Lengths -/

theorem length_pushCode_le (code : Option Nat) : (pushCode code).length ≤ 4 := by
  unfold pushCode
  split
  · exact Nat.le_add_left 1 3
  · split
    · exact Nat.le_add_left 2 2
    · split
      · exact Nat.le_add_left 3 1
      · exact Nat.le_refl 4

theorem length_pushCode_pos (code : Option Nat) : 1 ≤ (pushCode code).length := by
  unfold pushCode
  split
  · exact Nat.le_refl 1
  · split
    · exact Nat.le_add_left 1 1
    · split
      · exact Nat.le_add_left 1 2
      · exact Nat.le_add_left 1 3

theorem length_pushCode_unit {u : UInt16} (h : 0x80 ≤ u.toNat) :
    2 ≤ (pushCode (some u.toNat)).length ∧ (pushCode (some u.toNat)).length ≤ 3 := by
  have hlt : u.toNat < 65536 := u.toNat_lt
  by_cases htwo : u.toNat < 0x800
  · rw [pushCode_two h htwo]
    exact ⟨Nat.le_refl 2, Nat.le_add_right 2 1⟩
  · rw [pushCode_three (by omega) hlt]
    exact ⟨Nat.le_add_right 2 1, Nat.le_refl 3⟩

/-- A unit before a string adds a byte. -/
theorem length_textEncode_lt (u : UInt16) (us : List UInt16) :
    (textEncode us).length + 1 ≤ (textEncode (u :: us)).length := by
  cases hl : isLow u with
  | true =>
    rw [textEncode_low hl, List.length_append]
    show _ ≤ 3 + _
    omega
  | false =>
    cases hu : isHigh u with
    | false =>
      rw [textEncode_unit hu hl, List.length_append]
      have hpos := length_pushCode_pos (some u.toNat)
      omega
    | true =>
      by_cases hus : Unpartnered us
      · rw [textEncode_high hu hus, List.length_append]
        show _ ≤ 3 + _
        omega
      · cases us with
        | nil => exact absurd (fun v hv => by cases hv) hus
        | cons v us =>
          cases hv : isLow v with
          | false => exact absurd (fun w hw => by cases hw; exact hv) hus
          | true =>
            have hbounds := pairValue_bounds hu hv
            rw [textEncode_pair hu hv, textEncode_low hv,
              pushCode_four (by omega) (by omega)]
            simp only [List.length_append, List.length_cons, List.length_nil]
            omega

/-- A unit from U+0080 on that is no pair with the next adds two. -/
theorem length_textEncode_lt_two {u : UInt16} {us : List UInt16} (h : 0x80 ≤ u.toNat)
    (hus : isHigh u = true → Unpartnered us) :
    (textEncode us).length + 2 ≤ (textEncode (u :: us)).length := by
  cases hl : isLow u with
  | true =>
    rw [textEncode_low hl, List.length_append]
    show _ ≤ 3 + _
    omega
  | false =>
    cases hu : isHigh u with
    | false =>
      rw [textEncode_unit hu hl, List.length_append]
      have hlen := (length_pushCode_unit h).1
      omega
    | true =>
      rw [textEncode_high hu (hus hu), List.length_append]
      show _ ≤ 3 + _
      omega

/-- The loop pushes at most one byte more, for a first half at the end. -/
theorem length_encodeUnits_le (us : List UInt16) :
    (encodeUnits us).length ≤ (textEncode us).length + 1 := by
  induction us using codeUnit_induction with
  | nil => exact Nat.zero_le _
  | unit u us hu ih =>
    rw [encodeUnits_unit hu, List.length_append]
    cases hl : isLow u with
    | true =>
      rw [textEncode_low hl, List.length_append]
      have hlen := (length_pushCode_unit (by rw [isLow_iff] at hl; omega : 0x80 ≤ u.toNat)).2
      show _ ≤ 3 + _ + 1
      omega
    | false =>
      rw [textEncode_unit hu hl, List.length_append]
      omega
  | pair u v us hu hv ih =>
    have hbounds := pairValue_bounds hu hv
    have hfour := length_pushCode_le
      (some (0x10000 + (u.toNat - 0xD800) * 0x400 + v.toNat - 0xDC00))
    rw [encodeUnits_high hu, textEncode_pair hu hv, pushCode_four (n := pairValue u v) (by omega)
      (by omega), List.length_append, List.length_append]
    show _ ≤ 4 + _ + 1
    omega
  | high u us hu hus ih ihtail =>
    rw [textEncode_high hu hus, List.length_append]
    cases us with
    | nil =>
      rw [encodeUnits_high_nil hu]
      exact length_pushCode_le none
    | cons v us =>
      rw [encodeUnits_high hu, List.length_append]
      have hfour := length_pushCode_le
        (some (0x10000 + (u.toNat - 0xD800) * 0x400 + v.toNat - 0xDC00))
      have hgrows := length_textEncode_lt v us
      have htail : (encodeUnits us).length ≤ (textEncode us).length + 1 := ihtail
      show _ ≤ 3 + _ + 1
      omega

/-- A unit is not dropped. -/
theorem length_encodeUnits_pos (u : UInt16) (us : List UInt16) :
    1 ≤ (encodeUnits (u :: us)).length := by
  cases hu : isHigh u with
  | false =>
    rw [encodeUnits_unit hu, List.length_append]
    exact (length_pushCode_pos _).trans (Nat.le_add_right _ _)
  | true =>
    cases us with
    | nil =>
      rw [encodeUnits_high_nil hu]
      exact length_pushCode_pos none
    | cons v us =>
      rw [encodeUnits_high hu, List.length_append]
      exact (length_pushCode_pos _).trans (Nat.le_add_right _ _)

/-! ### A surrogate alone -/

/-- The first byte of a second half alone. -/
theorem encodeUnits_low {u : UInt16} {us : List UInt16} (hl : isLow u = true) :
    (encodeUnits (u :: us)).head? = some 0xED := by
  rw [isLow_iff] at hl
  have hu : isHigh u = false := by
    rw [isHigh_eq_false_iff]
    omega
  have hfirst : 0xE0 + u.toNat / 4096 = 0xED := by omega
  rw [encodeUnits_unit hu, pushCode_three (by omega) (by omega), hfirst]
  rfl

/-- The number of a byte. -/
theorem eq_toNat_of_ofNat_eq {n : Nat} {byte : UInt8} (hn : n < 256)
    (h : UInt8.ofNat n = byte) : n = byte.toNat := by
  rw [← h, UInt8.toNat_ofNat_of_lt' hn]

/-- What is combined with a first half that has no partner is not spelled U+FFFD and the unit. -/
theorem encodeUnits_high_ne {u : UInt16} {us : List UInt16} (hu : isHigh u = true)
    (hus : Unpartnered us) : encodeUnits (u :: us) ≠ textEncode (u :: us) := by
  intro heq
  rw [textEncode_high hu hus] at heq
  cases us with
  | nil =>
    rw [encodeUnits_high_nil hu] at heq
    exact absurd heq (by decide)
  | cons v us =>
    have hv := isLow_eq_false_iff.mp (hus v rfl)
    have hvlt : v.toNat < 65536 := v.toNat_lt
    rw [isHigh_iff] at hu
    rw [encodeUnits_high (isHigh_iff.mpr hu)] at heq
    generalize hcode : 0x10000 + (u.toNat - 0xD800) * 0x400 + v.toNat - 0xDC00 = code at heq
    by_cases hfour : 0x10000 ≤ code
    · rw [pushCode_four hfour (by omega)] at heq
      have hhead : 0xF0 + code / 262144 = 0xEF :=
        eq_toNat_of_ofNat_eq (by omega) (List.cons.inj heq).1
      omega
    · rw [pushCode_three (by omega) (by omega)] at heq
      -- The three bytes are those of U+FFFD, so the unit is 0x3FD above a multiple of 0x400.
      have hsecond : code / 64 % 64 + 0x80 = 0xBF :=
        eq_toNat_of_ofNat_eq (by omega) (List.cons.inj (List.cons.inj heq).2).1
      have hthird : code % 64 + 0x80 = 0xBD :=
        eq_toNat_of_ofNat_eq (by omega) (List.cons.inj (List.cons.inj (List.cons.inj heq).2).2).1
      have hrest : encodeUnits us = textEncode (v :: us) :=
        (List.cons.inj (List.cons.inj (List.cons.inj heq).2).2).2
      have hunit : 0x80 ≤ v.toNat := by omega
      by_cases hpair : isHigh v = true → Unpartnered us
      · have hlong := length_textEncode_lt_two hunit hpair
        have hshort := length_encodeUnits_le us
        rw [hrest] at hshort
        omega
      · -- The unit begins a pair, which the loop cuts.
        rw [Classical.not_imp] at hpair
        obtain ⟨hvhigh, hpartner⟩ := hpair
        cases us with
        | nil => exact hpartner (fun w hw => by cases hw)
        | cons w us =>
          cases hw : isLow w with
          | false => exact hpartner (fun x hx => by cases hx; exact hw)
          | true =>
            have hbounds := pairValue_bounds hvhigh hw
            have hhead := congrArg List.head? hrest
            rw [encodeUnits_low hw, textEncode_pair hvhigh hw,
              pushCode_four (by omega) (by omega)] at hhead
            have hfirst : 0xF0 + pairValue v w / 262144 = 0xED :=
              eq_toNat_of_ofNat_eq (by omega) (Option.some.inj hhead).symm
            omega

/-- **The two paths differ if a surrogate has no partner.** -/
theorem encodeUnits_ne_textEncode :
    ∀ {us : List UInt16}, Paired us = false → encodeUnits us ≠ textEncode us := by
  intro us
  induction us using codeUnit_induction with
  | nil => intro hpaired; cases hpaired
  | unit u us hu ih =>
    intro hpaired heq
    cases hl : isLow u with
    | true =>
      have hhead := congrArg List.head? heq
      rw [encodeUnits_low hl, textEncode_low hl] at hhead
      exact absurd (Option.some.inj hhead) (by decide)
    | false =>
      rw [paired_unit hu hl] at hpaired
      rw [encodeUnits_unit hu, textEncode_unit hu hl] at heq
      exact ih hpaired (List.append_cancel_left heq)
  | pair u v us hu hv ih =>
    intro hpaired heq
    rw [paired_pair hu hv] at hpaired
    have hcode : 0x10000 + (u.toNat - 0xD800) * 0x400 + v.toNat - 0xDC00 = pairValue u v := by
      have hlow := (isLow_iff.mp hv).1
      unfold pairValue
      omega
    rw [encodeUnits_high hu, textEncode_pair hu hv, hcode] at heq
    exact ih hpaired (List.append_cancel_left heq)
  | high u us hu hus _ _ =>
    intro _
    exact encodeUnits_high_ne hu hus

/-! ### What a host reads -/

/-- The bytes of a text. -/
theorem flatMap_utf8EncodeChar (cs : List Char) :
    ByteArray.mk (cs.flatMap String.utf8EncodeChar).toArray = (String.ofList cs).toByteArray := by
  show _ = cs.utf8Encode
  exact ByteArray.ext List.data_toByteArray.symm

/-- What `TextEncoder` gives is read as the scalar values of the string. -/
theorem stringViewToOwnedString_textEncode (us : List UInt16) (context : String) :
    stringViewToOwnedString ⟨some (textEncode us)⟩ context =
      .ok (String.ofList (scalars us)) := by
  have hread : String.fromUTF8? (ByteArray.mk (textEncode us).toArray) =
      some (String.ofList (scalars us)) := by
    rw [textEncode, flatMap_utf8EncodeChar, String.fromUTF8?, dif_pos (String.isValidUTF8 _)]
    rfl
  rw [stringViewToOwnedString]
  dsimp only
  split
  · next hempty =>
    rw [List.isEmpty_iff] at hempty
    cases hscalars : scalars us with
    | nil => rfl
    | cons c cs =>
      rw [textEncode, hscalars, List.flatMap_cons, List.append_eq_nil_iff] at hempty
      exact absurd hempty.1 String.utf8EncodeChar_ne_nil
  · rw [hread]

/-- The manual path and the `TextEncoder` path of the encoder agree on a string: the bytes are
the same, a host reads them as a text, and the text is the string if every surrogate of it has
its partner. -/
structure EncodersAgree (str : List UInt16) : Prop where
  same : ppEncodeUtf8 false str = ppEncodeUtf8 true str
  valid : ∀ context, ∃ text,
    stringViewToOwnedString ⟨some (ppEncodeUtf8 false str)⟩ context = .ok text
  decodes : Paired str = true → ∀ context, ∃ text,
    stringViewToOwnedString ⟨some (ppEncodeUtf8 false str)⟩ context = .ok text ∧
      units text.toList = str

/-- **The two encoders agree exactly on the strings in which every surrogate has its partner.** -/
theorem ppEncodeUtf8_agrees_iff (str : List UInt16) : EncodersAgree str ↔ Paired str = true := by
  constructor
  · intro h
    rw [← Bool.not_eq_false]
    intro hpaired
    exact encodeUnits_ne_textEncode hpaired h.same
  · intro hpaired
    have hsame : ppEncodeUtf8 false str = textEncode str := encodeUnits_eq_textEncode hpaired
    have hread : ∀ context, stringViewToOwnedString ⟨some (ppEncodeUtf8 false str)⟩ context =
        .ok (String.ofList (scalars str)) := by
      intro context
      rw [hsame]
      exact stringViewToOwnedString_textEncode str context
    refine ⟨hsame, fun context => ⟨_, hread context⟩, fun _ context => ⟨_, hread context, ?_⟩⟩
    rw [String.toList_ofList]
    exact units_scalars hpaired

/-- A first half at the end is pushed as `F0 80 80 80`, which is no UTF-8. -/
theorem high_surrogate_at_end :
    ppEncodeUtf8 false [0xD800] = [0xF0, 0x80, 0x80, 0x80] ∧
      ppEncodeUtf8 true [0xD800] = [0xEF, 0xBF, 0xBD] ∧
      stringViewToOwnedString ⟨some (ppEncodeUtf8 false [0xD800])⟩ "" =
        .error (.invalidUtf8 "") := by
  refine ⟨by decide, by decide, ?_⟩
  decide +kernel

/-- Before another unit it is combined with it: `D800 0061` is pushed as U+2461. -/
example : ppEncodeUtf8 false [0xD800, 0x61] = String.utf8EncodeChar '②' := by decide

end PolyPlug.Codegen
