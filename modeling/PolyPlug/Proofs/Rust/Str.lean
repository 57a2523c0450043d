import PolyPlug.Rust.Str
import Mathlib.Data.List.Basic

/-!
# `PolyPlug.Proofs.Rust.Str`: numbers and pieces of a text

The decimal spelling of a number below `2 ^ 32` parses back to it (`parseU32_decimal`),
a number has no separator in it, and a text splits where its pieces were joined.
-/

set_option autoImplicit false

namespace PolyPlug.Rust

/-! ### Characters -/

/-- A letter or a digit of ASCII is in one of the three ranges. -/
theorem isAlphanum_iff {c : Char} : c.isAlphanum = true ↔
    (65 ≤ c.toNat ∧ c.toNat ≤ 90) ∨ (97 ≤ c.toNat ∧ c.toNat ≤ 122) ∨
      (48 ≤ c.toNat ∧ c.toNat ≤ 57) := by
  have hunfold : c.isAlphanum = ((decide ('A'.val ≤ c.val ∧ c.val ≤ 'Z'.val) ||
      decide ('a'.val ≤ c.val) && decide (c.val ≤ 'z'.val)) ||
        decide ('0'.val ≤ c.val) && decide (c.val ≤ '9'.val)) := rfl
  rw [hunfold]
  simp only [Bool.or_eq_true, Bool.and_eq_true, decide_eq_true_eq, UInt32.le_iff_toNat_le, or_assoc]
  rfl

/-! ### Pieces -/

theorem splitChars_of_notMem {sep : Char} :
    ∀ {cs : List Char}, sep ∉ cs → splitChars sep cs = [cs] := by
  intro cs
  induction cs with
  | nil => intro _; rfl
  | cons c cs ih =>
      intro h
      simp only [List.mem_cons, not_or] at h
      rw [splitChars, if_neg (Ne.symm h.1), ih h.2]

theorem splitChars_append {sep : Char} :
    ∀ {cs ds : List Char}, sep ∉ cs →
      splitChars sep (cs ++ sep :: ds) = cs :: splitChars sep ds := by
  intro cs
  induction cs with
  | nil => intro ds _; simp [splitChars]
  | cons c cs ih =>
      intro ds h
      simp only [List.mem_cons, not_or] at h
      rw [List.cons_append, splitChars, if_neg (Ne.symm h.1), ih h.2]

theorem splitOnceChars_append {sep : Char} :
    ∀ {cs ds : List Char}, sep ∉ cs → splitOnceChars sep (cs ++ sep :: ds) = some (cs, ds) := by
  intro cs
  induction cs with
  | nil => intro ds _; simp [splitOnceChars]
  | cons c cs ih =>
      intro ds h
      simp only [List.mem_cons, not_or] at h
      rw [List.cons_append, splitOnceChars, if_neg (Ne.symm h.1), ih h.2]
      rfl

theorem splitOnceChars_of_notMem {sep : Char} :
    ∀ {cs : List Char}, sep ∉ cs → splitOnceChars sep cs = none := by
  intro cs
  induction cs with
  | nil => intro _; rfl
  | cons c cs ih =>
      intro h
      simp only [List.mem_cons, not_or] at h
      rw [splitOnceChars, if_neg (Ne.symm h.1), ih h.2]
      rfl

/-- A character is the separator, or in a piece. -/
theorem mem_splitChars {sep c : Char} :
    ∀ {cs : List Char}, c ∈ cs → c = sep ∨ ∃ piece ∈ splitChars sep cs, c ∈ piece := by
  intro cs
  induction cs with
  | nil => intro h; cases h
  | cons d cs ih =>
    intro h
    by_cases hd : d = sep
    · rw [splitChars, if_pos hd]
      rcases List.mem_cons.1 h with rfl | h
      · exact .inl hd
      · rcases ih h with hsep | ⟨piece, hpiece, hmem⟩
        · exact .inl hsep
        · exact .inr ⟨piece, List.mem_cons_of_mem _ hpiece, hmem⟩
    · rw [splitChars, if_neg hd]
      split
      · next hnil =>
        rcases List.mem_cons.1 h with rfl | h
        · exact .inr ⟨[c], List.mem_singleton.2 rfl, List.mem_singleton.2 rfl⟩
        · rw [hnil] at ih
          rcases ih h with hsep | ⟨piece, hpiece, -⟩
          · exact .inl hsep
          · cases hpiece
      · next p ps hcons =>
        rcases List.mem_cons.1 h with rfl | h
        · exact .inr ⟨c :: p, List.mem_cons_self .., List.mem_cons_self ..⟩
        · rw [hcons] at ih
          rcases ih h with hsep | ⟨piece, hpiece, hmem⟩
          · exact .inl hsep
          · rcases List.mem_cons.1 hpiece with rfl | hpiece
            · exact .inr ⟨d :: piece, List.mem_cons_self .., List.mem_cons_of_mem _ hmem⟩
            · exact .inr ⟨piece, List.mem_cons_of_mem _ hpiece, hmem⟩

/-- A piece is of the text. -/
theorem mem_of_mem_splitChars {sep c : Char} :
    ∀ {cs piece : List Char}, piece ∈ splitChars sep cs → c ∈ piece → c ∈ cs := by
  intro cs
  induction cs with
  | nil =>
    intro piece hpiece hmem
    simp only [splitChars, List.mem_singleton] at hpiece
    subst hpiece
    cases hmem
  | cons d cs ih =>
    intro piece hpiece hmem
    rw [splitChars] at hpiece
    split at hpiece
    · rcases List.mem_cons.1 hpiece with rfl | hpiece
      · cases hmem
      · exact List.mem_cons_of_mem _ (ih hpiece hmem)
    · split at hpiece
      · rw [List.mem_singleton.1 hpiece] at hmem
        exact List.mem_cons.2 (.inl (List.mem_singleton.1 hmem))
      · next p ps hcons =>
        rcases List.mem_cons.1 hpiece with rfl | hpiece
        · rcases List.mem_cons.1 hmem with rfl | hmem
          · exact List.mem_cons_self ..
          · exact List.mem_cons_of_mem _ (ih (hcons ▸ List.mem_cons_self ..) hmem)
        · exact List.mem_cons_of_mem _ (ih (hcons ▸ List.mem_cons_of_mem _ hpiece) hmem)

/-- A text without the separator is one piece. -/
theorem split_of_notMem {s : String} {sep : Char} (h : sep ∉ s.toList) : split s sep = [s] := by
  rw [split, splitChars_of_notMem h]
  simp

/-- The first piece ends at the first separator. -/
theorem split_append {s t : String} {sep : Char} (h : sep ∉ s.toList) :
    split (s ++ String.singleton sep ++ t) sep = s :: split t sep := by
  rw [split, split]
  simp only [String.toList_append, String.toList_singleton, List.append_assoc,
    List.singleton_append]
  rw [splitChars_append h]
  simp

theorem splitOnce_of_notMem {s : String} {sep : Char} (h : sep ∉ s.toList) :
    splitOnce s sep = none := by
  rw [splitOnce, splitOnceChars_of_notMem h]
  rfl

theorem splitOnce_append {s t : String} {sep : Char} (h : sep ∉ s.toList) :
    splitOnce (s ++ String.singleton sep ++ t) sep = some (s, t) := by
  rw [splitOnce]
  simp only [String.toList_append, String.toList_singleton, List.append_assoc,
    List.singleton_append]
  rw [splitOnceChars_append h]
  simp

theorem splitOnceChars_eq_some {sep : Char} :
    ∀ {cs before after : List Char}, splitOnceChars sep cs = some (before, after) →
      sep ∉ before ∧ cs = before ++ sep :: after := by
  intro cs
  induction cs with
  | nil => intro before after h; cases h
  | cons c cs ih =>
    intro before after h
    rw [splitOnceChars] at h
    split at h
    · next hc =>
      cases h
      exact ⟨List.not_mem_nil, by rw [hc]; rfl⟩
    · next hc =>
      rw [Option.map_eq_some_iff] at h
      obtain ⟨parts, hparts, heq⟩ := h
      obtain ⟨hbefore, hcut⟩ := ih hparts
      cases heq
      refine ⟨?_, by rw [hcut]; rfl⟩
      rw [List.mem_cons, not_or]
      exact ⟨Ne.symm hc, hbefore⟩

/-- What a cut gives: the text is joined from the two pieces, and the separator is not in the
first. -/
theorem splitOnce_eq_some {s before after : String} {sep : Char}
    (h : splitOnce s sep = some (before, after)) :
    sep ∉ before.toList ∧ s = before ++ String.singleton sep ++ after := by
  rw [splitOnce, Option.map_eq_some_iff] at h
  obtain ⟨parts, hparts, heq⟩ := h
  obtain ⟨hbefore, hcut⟩ := splitOnceChars_eq_some hparts
  cases heq
  refine ⟨by simpa using hbefore, String.toList_injective ?_⟩
  simp [String.toList_append, hcut]

/-- Without a cut there is no separator. -/
theorem notMem_of_splitOnce_eq_none {s : String} {sep : Char} (h : splitOnce s sep = none) :
    sep ∉ s.toList := by
  intro hmem
  obtain ⟨before, after, heq, hbefore⟩ := List.eq_append_cons_of_mem hmem
  simp [splitOnce, heq, splitOnceChars_append hbefore] at h

/-- The cut at the last separator. -/
theorem rsplitOnce_append {s t : String} {sep : Char} (h : sep ∉ t.toList) :
    rsplitOnce (s ++ String.singleton sep ++ t) sep = some (s, t) := by
  have hreverse : (s ++ String.singleton sep ++ t).toList.reverse =
      t.toList.reverse ++ sep :: s.toList.reverse := by
    simp [String.toList_append]
  rw [rsplitOnce, hreverse, splitOnceChars_append (by simpa using h)]
  simp

theorem rsplitOnce_of_notMem {s : String} {sep : Char} (h : sep ∉ s.toList) :
    rsplitOnce s sep = none := by
  rw [rsplitOnce, splitOnceChars_of_notMem (by simpa using h)]
  rfl

/-! ### Numbers -/

/-- A digit of the decimal spelling. -/
theorem isAsciiDigit_of_mem_toDigits {n : Nat} {c : Char} (h : c ∈ Nat.toDigits 10 n) :
    isAsciiDigit c = true := by
  have hdigit := Nat.isDigit_of_mem_toDigits (by decide) (by decide) h
  simp only [Char.isDigit, isAsciiDigit, Bool.and_eq_true, decide_eq_true_eq] at hdigit ⊢
  exact hdigit

theorem toDigits_ne_nil (n : Nat) : Nat.toDigits 10 n ≠ [] := by
  intro h
  have hvalue := @Nat.ofDigitChars_ten_toDigits n
  rw [h] at hvalue
  obtain rfl : 0 = n := by simpa using hvalue
  simp at h

theorem decimalValue_toDigits (n : Nat) : decimalValue (Nat.toDigits 10 n) = n := by
  rw [decimalValue, ← Nat.ofDigitChars_eq_foldl, Nat.ofDigitChars_ten_toDigits]

/-- The characters of a decimal spelling are digits. -/
theorem notMem_decimal {sep : Char} (h : isAsciiDigit sep = false) (n : Nat) :
    sep ∉ (decimal n).toList := by
  rw [decimal, String.toList_ofList]
  intro hmem
  rw [isAsciiDigit_of_mem_toDigits hmem] at h
  cases h

/-- **The decimal spelling parses back.** -/
theorem parseU32_decimal {n : Nat} (h : n < 2 ^ 32) : parseU32 (decimal n) = some n := by
  rw [parseU32, decimal, String.toList_ofList]
  have hdigits : ∀ cs : List Char, cs ≠ [] → cs.all isAsciiDigit = true → decimalValue cs = n →
      parseU32Chars cs = some n := by
    intro cs hne hall hvalue
    have hplus : ∀ rest, cs ≠ '+' :: rest := by
      rintro rest rfl
      simp [isAsciiDigit] at hall
    cases cs with
    | nil => exact absurd rfl hne
    | cons c cs =>
        have hc : c ≠ '+' := fun heq => hplus cs (by rw [heq])
        unfold parseU32Chars
        split
        · next rest heq => exact absurd heq (hplus rest)
        · simp only [List.isEmpty_cons, Bool.false_eq_true, if_false]
          rw [if_pos hall, hvalue, if_pos h]
  exact hdigits _ (toDigits_ne_nil n)
    (List.all_eq_true.2 fun _ => isAsciiDigit_of_mem_toDigits) (decimalValue_toDigits n)

/-- What a parsed run of digits is. -/
theorem digits_of_parse {digits : List Char} {n : Nat}
    (h : (if digits.isEmpty then none
      else if digits.all isAsciiDigit then
        if decimalValue digits < 2 ^ 32 then some (decimalValue digits) else none
      else none) = some n) : digits.all isAsciiDigit = true ∧ n < 2 ^ 32 := by
  split at h
  · cases h
  · split at h
    · next hall =>
      split at h
      · next hlt => exact ⟨hall, Option.some.inj h ▸ hlt⟩
      · cases h
    · cases h

/-- **A text that parses as a number has no other character than digits and a sign.** -/
theorem notMem_of_parseU32 {sep : Char} (hsep : isAsciiDigit sep = false) (hplus : sep ≠ '+')
    {v : String} {n : Nat} (h : parseU32 v = some n) : sep ∉ v.toList := by
  rw [parseU32] at h
  generalize v.toList = cs at h ⊢
  have hnot : ∀ digits : List Char, digits.all isAsciiDigit = true → sep ∉ digits := by
    intro digits hall hmem
    rw [List.all_eq_true.1 hall _ hmem] at hsep
    cases hsep
  have hdigits := hnot _ (digits_of_parse h).1
  split at hdigits
  · next rest =>
    rw [List.mem_cons, not_or]
    exact ⟨hplus, hdigits⟩
  · exact hdigits

/-- A text with another character is no number. -/
theorem parseU32_eq_none_of_mem {sep : Char} (hsep : isAsciiDigit sep = false) (hplus : sep ≠ '+')
    {v : String} (h : sep ∈ v.toList) : parseU32 v = none := by
  cases hv : parseU32 v with
  | none => rfl
  | some n => exact absurd h (notMem_of_parseU32 hsep hplus hv)

/-- A parsed number has 32 bits. -/
theorem lt_of_parseU32 {v : String} {n : Nat} (h : parseU32 v = some n) : n < 2 ^ 32 := by
  rw [parseU32] at h
  exact (digits_of_parse h).2

/-! ### Blanks -/

/-- A text with a character that is no blank keeps it. -/
theorem trim_nonempty {s : String} {c : Char} (hc : c ∈ s.toList) (hw : isWhitespace c = false) :
    (trim s).isEmpty = false := by
  have hkept : ∀ cs : List Char, c ∈ cs → c ∈ cs.dropWhile isWhitespace := by
    intro cs h
    induction cs with
    | nil => cases h
    | cons d cs ih =>
      rw [List.dropWhile_cons]
      split
      · next hd =>
        rcases List.mem_cons.1 h with rfl | h
        · rw [hw] at hd
          cases hd
        · exact ih h
      · exact h
  have hmem : c ∈ (trim s).toList := by
    rw [trim, String.toList_ofList, List.mem_reverse]
    exact hkept _ (List.mem_reverse.2 (hkept _ hc))
  rw [Bool.eq_false_iff]
  intro hempty
  rw [String.isEmpty_iff.1 hempty] at hmem
  cases hmem

end PolyPlug.Rust
