import PolyPlug.Codegen.EnumExpr
import PolyPlug.Proofs.Codegen.Providers

/-!
# `PolyPlug.Proofs.Codegen.EnumScan`: the scans over a variant's value

The checks and the substitution of an enum go through a value character by character. On a
value that has tokens they work run by run:

* `substituteVariantRefs_pieces`: each run of word characters is replaced on its own, and
  everything between the runs is copied.
* `declared_of_validate`: a variant named in an accepted value was declared before.
-/

set_option autoImplicit false

namespace PolyPlug.Codegen

open PolyPlug.Lib
open PolyPlug.Rust

/-! ### Characters -/

theorem ascii_forall {P : Char → Prop} (h : ∀ n < 128, P (Char.ofNat n)) {c : Char}
    (hc : c.toNat < 128) : P c := by
  have hn := h c.toNat hc
  rwa [Char.ofNat_toNat] at hn

/-- A fact about listed characters, evaluated one by one. -/
theorem chars_forall {P : Char → Prop} [DecidablePred P] {cs : List Char}
    (h : (cs.all fun c => decide (P c)) = true) : ∀ c ∈ cs, P c :=
  fun c hc => of_decide_eq_true (List.all_eq_true.mp h c hc)

theorem toNat_lt_of_le {c d : Char} (h : c ≤ d) (hd : d.toNat < 128) : c.toNat < 128 :=
  Nat.lt_of_le_of_lt (UInt32.le_iff_toNat_le.mp h) hd

theorem toNat_lt_of_isWordChar {c : Char} (h : isWordChar c = true) : c.toNat < 128 := by
  rw [isWordChar, Bool.or_eq_true, isAlphanum_iff, decide_eq_true_eq] at h
  rcases h with (⟨-, h⟩ | ⟨-, h⟩ | ⟨-, h⟩) | rfl
  · omega
  · omega
  · omega
  · decide

/-- The digits of every base are word characters. -/
theorem isWordChar_of_isAsciiHexdigit {c : Char} (h : isAsciiHexdigit c = true) :
    isWordChar c = true := by
  have hlt : c.toNat < 128 := by
    simp only [isAsciiHexdigit, isAsciiDigit, Bool.or_eq_true, Bool.and_eq_true,
      decide_eq_true_eq] at h
    rcases h with (⟨-, h⟩ | ⟨-, h⟩) | ⟨-, h⟩
    · exact toNat_lt_of_le h (by decide)
    · exact toNat_lt_of_le h (by decide)
    · exact toNat_lt_of_le h (by decide)
  exact @ascii_forall (fun c => isAsciiHexdigit c = true → isWordChar c = true)
    (by decide +kernel) c hlt h

theorem isAsciiHexdigit_of_isAsciiDigit {c : Char} (h : isAsciiDigit c = true) :
    isAsciiHexdigit c = true := by
  rw [isAsciiHexdigit, h]
  rfl

theorem isAsciiHexdigit_of_isBinaryDigit {c : Char} (h : isBinaryDigit c = true) :
    isAsciiHexdigit c = true := by
  simp only [isBinaryDigit, Bool.or_eq_true, decide_eq_true_eq] at h
  rcases h with rfl | rfl
  · decide
  · decide

section
variable {classes : CharClasses}

theorem isIdentContinue_ascii {c : Char} (hlt : c.toNat < 128) :
    isIdentContinue classes c = isWordChar c := by
  rw [isIdentContinue, classes.alphabetic_ascii c hlt, classes.numeric_ascii c hlt]
  rfl

theorem isIdentContinue_of_isWordChar {c : Char} (h : isWordChar c = true) :
    isIdentContinue classes c = true :=
  (isIdentContinue_ascii (toNat_lt_of_isWordChar h)).trans h

/-- A run of word characters goes on as an identifier after its leading digits. -/
theorem isIdentStart_of_isWordChar {c : Char} (h : isWordChar c = true) :
    isIdentStart classes c = !isAsciiDigit c := by
  have hlt := toNat_lt_of_isWordChar h
  rw [isIdentStart, classes.alphabetic_ascii c hlt]
  exact @ascii_forall (fun c => isWordChar c = true → (c.isAlpha || c = '_') = !isAsciiDigit c)
    (by decide +kernel) c hlt h

theorem isIdentContinue_of_isWhitespace {c : Char} (h : isWhitespace c = true) :
    isIdentContinue classes c = false := by
  have hunderscore : c ≠ '_' := fun heq => absurd (heq ▸ h) (by decide)
  simp only [isIdentContinue, classes.alphabetic_whitespace c h, classes.numeric_whitespace c h,
    hunderscore, decide_false, Bool.or_false]

theorem isIdentStart_of_continue_false {c : Char} (h : isIdentContinue classes c = false) :
    isIdentStart classes c = false := by
  simp only [isIdentContinue, Bool.or_eq_false_iff] at h
  simp only [isIdentStart, h.1.1, h.2, Bool.or_false]

end

/-- The symbols of a value. -/
def sourceSymbols : List Char := ['(', ')', '|', '~', '<']

/-- The characters between the words of a value. -/
theorem one_cases {ps : List (Piece Char)} {ts : List SourceToken}
    (h : Lexes sourceLexicon ps ts) {c : Char} (hc : Piece.one c ∈ ps) :
    isWhitespace c = true ∨ c ∈ sourceSymbols := by
  rcases h.one_of_mem hc with hblank | ⟨t, -, hsingle | hdouble⟩
  · exact Or.inl hblank
  · refine Or.inr (Decidable.byContradiction fun hc => ?_)
    simp only [sourceSymbols, List.mem_cons, List.not_mem_nil, or_false, not_or] at hc
    simp [sourceLexicon, hc] at hsingle
  · refine Or.inr (Decidable.byContradiction fun hc => ?_)
    simp only [sourceSymbols, List.mem_cons, List.not_mem_nil, or_false, not_or] at hc
    simp [sourceLexicon, hc] at hdouble

/-- What stands between the words of a value is no part of an identifier. -/
theorem isIdentContinue_of_one {classes : CharClasses} {ps : List (Piece Char)}
    {ts : List SourceToken} (h : Lexes sourceLexicon ps ts) {c : Char} (hc : Piece.one c ∈ ps) :
    isIdentContinue classes c = false := by
  rcases one_cases h hc with hblank | hsymbol
  · exact isIdentContinue_of_isWhitespace hblank
  · have hsymbols : ∀ d ∈ sourceSymbols, d.toNat < 128 ∧ isWordChar d = false :=
      chars_forall (by decide)
    exact (isIdentContinue_ascii (hsymbols c hsymbol).1).trans (hsymbols c hsymbol).2

/-! ### The runs of a text -/

/-- A scan that takes the characters of a run stops at its end. -/
theorem span_run {p : Char → Bool} {xs rest : List Char} (hxs : ∀ x ∈ xs, p x = true)
    (hrest : ∀ y ys, rest = y :: ys → p y = false) :
    (xs ++ rest).takeWhile p = xs ∧ (xs ++ rest).dropWhile p = rest := by
  have hstop : rest.takeWhile p = [] ∧ rest.dropWhile p = rest := by
    cases rest with
    | nil => exact ⟨rfl, rfl⟩
    | cons y ys =>
      have hy : ¬ p y = true := Bool.eq_false_iff.mp (hrest y ys rfl)
      exact ⟨List.takeWhile_cons_of_neg hy, List.dropWhile_cons_of_neg hy⟩
  rw [List.takeWhile_append_of_pos hxs, List.dropWhile_append_of_pos hxs, hstop.1, hstop.2,
    List.append_nil]
  exact ⟨rfl, rfl⟩

/-- After a run comes a single character, or nothing. -/
theorem one_after_run {ps : List (Piece Char)} {p : Char → Bool} (h : MaximalRuns p ps)
    (hnext : ∀ ys rest, ps ≠ Piece.run ys :: rest) {y : Char} {ys : List Char}
    (heq : ps.flatMap Piece.text = y :: ys) : ∃ qs, ps = .one y :: qs := by
  cases h with
  | nil => cases heq
  | one hx h => exact ⟨_, by rw [(List.cons.inj heq).1]⟩
  | run hne hxs hn h => exact absurd rfl (hnext _ _)

/-! ### The substitution -/

section
variable {classes : CharClasses} {declaredNames : List String} {image : String → String}

/-- What a run is replaced by. The digits it starts with are copied. -/
def substituteRun (declaredNames : List String) (image : String → String) (xs : List Char) :
    List Char :=
  let ident := String.ofList (xs.dropWhile isAsciiDigit)
  xs.takeWhile isAsciiDigit ++
    if ident ∈ declaredNames then (image ident).toList else ident.toList

theorem substituteChars_run (hempty : "" ∉ declaredNames) {xs rest out : List Char}
    (hxs : ∀ x ∈ xs, isWordChar x = true)
    (hrest : ∀ y ys, rest = y :: ys → isIdentContinue classes y = false)
    (hout : ∀ fuel, rest.length ≤ fuel →
      substituteChars classes declaredNames image fuel rest = out) {fuel : Nat}
    (hfuel : (xs ++ rest).length ≤ fuel) :
    substituteChars classes declaredNames image fuel (xs ++ rest) =
      substituteRun declaredNames image xs ++ out := by
  induction xs generalizing fuel with
  | nil =>
    rw [List.nil_append, hout fuel hfuel]
    simp [substituteRun, hempty]
  | cons x xs ih =>
    cases fuel with
    | zero => exact absurd hfuel (by simp)
    | succ fuel =>
      have hx := hxs x List.mem_cons_self
      rw [List.cons_append, substituteChars, isIdentStart_of_isWordChar hx]
      cases hdigit : isAsciiDigit x with
      | true =>
        -- a leading digit is copied
        have hrun : substituteRun declaredNames image (x :: xs) =
            x :: substituteRun declaredNames image xs := by
          simp only [substituteRun, List.takeWhile_cons_of_pos hdigit,
            List.dropWhile_cons_of_pos hdigit, List.cons_append]
        rw [hrun, ih (fun y hy => hxs y (List.mem_cons_of_mem _ hy)) (by simpa using hfuel)]
        rfl
      | false =>
        -- the rest of the run is one identifier
        obtain ⟨htake, hdrop⟩ := @span_run (isIdentContinue classes) (x :: xs) rest
          (fun y hy => isIdentContinue_of_isWordChar (hxs y hy)) hrest
        rw [List.cons_append] at htake hdrop
        have hlength : rest.length ≤ fuel := by
          simp only [List.cons_append, List.length_cons, List.length_append] at hfuel
          omega
        have hneg : ¬ isAsciiDigit x = true := Bool.eq_false_iff.mp hdigit
        simp only [Bool.not_false, if_true, htake, hdrop, hout fuel hlength, substituteRun,
          List.takeWhile_cons_of_neg hneg, List.dropWhile_cons_of_neg hneg, List.nil_append]

/-- The substitution replaces each run on its own. -/
theorem substituteChars_pieces (hempty : "" ∉ declaredNames) {ps : List (Piece Char)}
    (hps : MaximalRuns isWordChar ps)
    (hone : ∀ c, Piece.one c ∈ ps → isIdentContinue classes c = false) {fuel : Nat}
    (hfuel : (ps.flatMap Piece.text).length ≤ fuel) :
    substituteChars classes declaredNames image fuel (ps.flatMap Piece.text) =
      (ps.flatMap (Piece.replace fun xs =>
        pieces isWordChar (substituteRun declaredNames image xs))).flatMap Piece.text := by
  induction hps generalizing fuel with
  | nil => cases fuel <;> rfl
  | @one x ps hx h ih =>
    have hlater := fun fuel => @ih (fun c hc => hone c (List.mem_cons_of_mem _ hc)) fuel
    cases fuel with
    | zero => exact absurd hfuel (by simp [Piece.text])
    | succ fuel =>
      have hstart := isIdentStart_of_continue_false (hone x List.mem_cons_self)
      show substituteChars classes declaredNames image (fuel + 1)
        (x :: ps.flatMap Piece.text) = x :: _
      rw [substituteChars, hstart, if_neg Bool.false_ne_true,
        hlater _ (by simpa [Piece.text] using hfuel)]
      rfl
  | @run xs ps hne hxs hnext h ih =>
    have hlater := fun fuel => @ih (fun c hc => hone c (List.mem_cons_of_mem _ hc)) fuel
    have hrest : ∀ y ys, ps.flatMap Piece.text = y :: ys → isIdentContinue classes y = false := by
      intro y ys heq
      obtain ⟨qs, rfl⟩ := one_after_run h hnext heq
      exact hone y (List.mem_cons_of_mem _ List.mem_cons_self)
    rw [List.flatMap_cons, Piece.text]
    rw [List.flatMap_cons, Piece.text] at hfuel
    rw [substituteChars_run hempty hxs hrest hlater hfuel, List.flatMap_cons,
      List.flatMap_append, Piece.replace, text_pieces]

end

/-! ### The check -/

/-- The shapes of a literal. -/
theorem literal_cases {xs : List Char} {value : Nat} (h : literalValue xs = some value) :
    (∃ hs, xs = '0' :: 'x' :: hs ∧ ∀ c ∈ hs, isAsciiHexdigit c = true) ∨
      (∃ bs, xs = '0' :: 'b' :: bs ∧ ∀ c ∈ bs, isBinaryDigit c = true) ∨
        ∀ c ∈ xs, isAsciiDigit c = true := by
  unfold literalValue at h
  split at h
  · split at h
    · next hs hdigits => exact .inl ⟨hs, rfl, List.all_eq_true.mp hdigits.2⟩
    · cases h
  · split at h
    · next bs hdigits => exact .inr (.inl ⟨bs, rfl, List.all_eq_true.mp hdigits.2⟩)
    · cases h
  · split at h
    · next hdigits => exact .inr (.inr (List.all_eq_true.mp hdigits.2))
    · cases h

/-- The check reads a literal to its end. -/
theorem afterLiteral_run {c : Char} {cs rest : List Char} {value : Nat}
    (h : literalValue (c :: cs) = some value)
    (hrest : ∀ y ys, rest = y :: ys → isWordChar y = false) :
    afterLiteral c (cs ++ rest) = rest := by
  have hends : ∀ (p : Char → Bool), (∀ y, p y = true → isAsciiHexdigit y = true) →
      ∀ y ys, rest = y :: ys → p y = false := by
    intro p hp y ys heq
    cases hpy : p y with
    | false => rfl
    | true =>
      exact absurd (isWordChar_of_isAsciiHexdigit (hp y hpy))
        (Bool.eq_false_iff.mp (hrest y ys heq))
  rcases literal_cases h with ⟨hs, heq, hdigits⟩ | ⟨bs, heq, hdigits⟩ | hdigits
  · obtain ⟨rfl, rfl⟩ := List.cons.inj heq
    exact (span_run hdigits (hends _ fun _ hy => hy)).2
  · obtain ⟨rfl, rfl⟩ := List.cons.inj heq
    exact (span_run hdigits (hends _ fun _ => isAsciiHexdigit_of_isBinaryDigit)).2
  · have hspan := (@span_run isAsciiDigit cs rest
      (fun y hy => hdigits y (List.mem_cons_of_mem _ hy))
      (hends _ fun _ => isAsciiHexdigit_of_isAsciiDigit)).2
    cases htext : cs ++ rest with
    | nil =>
      rw [htext] at hspan
      exact hspan
    | cons d ds =>
      -- what follows the first digit is a digit or ends the run
      have hd : d ∉ ['x', 'X', 'b', 'B'] := by
        intro hd
        have hletters : ∀ e ∈ ['x', 'X', 'b', 'B'],
            isAsciiDigit e = false ∧ isWordChar e = true := chars_forall (by decide)
        cases cs with
        | nil => exact absurd (hletters d hd).2 (Bool.eq_false_iff.mp (hrest d ds htext))
        | cons e es =>
          obtain rfl := (List.cons.inj htext).1
          exact absurd (hdigits e (by simp)) (Bool.eq_false_iff.mp (hletters e hd).1)
      simp only [List.mem_cons, List.not_mem_nil, or_false, not_or] at hd
      rw [htext] at hspan
      simp only [afterLiteral, hd, or_self, and_false, if_false]
      exact hspan

section
variable {classes : CharClasses} {expr enumName variantName : String} {declared : List String}

/-- One round of the check. -/
theorem validateChars_succ (fuel : Nat) (c : Char) (cs : List Char) :
    validateChars classes expr enumName variantName declared (fuel + 1) (c :: cs) =
      if isWhitespace c then
        validateChars classes expr enumName variantName declared fuel cs
      else if isAsciiDigit c then
        validateChars classes expr enumName variantName declared fuel (afterLiteral c cs)
      else if isIdentStart classes c then
        if String.ofList ((c :: cs).takeWhile (isIdentContinue classes)) ∈ declared then
          validateChars classes expr enumName variantName declared fuel
            ((c :: cs).dropWhile (isIdentContinue classes))
        else if classes.isUppercase c then
          .error (.enumForwardRef enumName variantName
            (String.ofList ((c :: cs).takeWhile (isIdentContinue classes))))
        else .error (.enumInvalidValueExpr enumName variantName expr)
      else if c = '<' then
        match cs with
        | d :: rest =>
          if d = '<' then validateChars classes expr enumName variantName declared fuel rest
          else .error (.enumInvalidValueExpr enumName variantName expr)
        | []        => .error (.enumInvalidValueExpr enumName variantName expr)
      else if c = '|' ∨ c = '~' ∨ c = '(' ∨ c = ')' then
        validateChars classes expr enumName variantName declared fuel cs
      else .error (.enumInvalidValueExpr enumName variantName expr) :=
  validateChars.eq_def classes expr enumName variantName declared (fuel + 1) (c :: cs)

/-- A symbol is skipped. -/
theorem validateChars_symbol {x : Char} (hx : x ∈ ['(', ')', '|', '~']) (fuel : Nat)
    (cs : List Char) :
    validateChars classes expr enumName variantName declared (fuel + 1) (x :: cs) =
      validateChars classes expr enumName variantName declared fuel cs := by
  have hsymbols : ∀ y ∈ ['(', ')', '|', '~'], y.toNat < 128 ∧ isWordChar y = false ∧
      isWhitespace y = false ∧ isAsciiDigit y = false ∧ y ≠ '<' := chars_forall (by decide)
  obtain ⟨hlt, hword, hblank, hdigit, hless⟩ := hsymbols x hx
  have hstart : isIdentStart classes x = false :=
    isIdentStart_of_continue_false ((isIdentContinue_ascii hlt).trans hword)
  have hsymbol : x = '|' ∨ x = '~' ∨ x = '(' ∨ x = ')' := by
    simp only [List.mem_cons, List.not_mem_nil, or_false] at hx
    rcases hx with h | h | h | h
    · exact .inr (.inr (.inl h))
    · exact .inr (.inr (.inr h))
    · exact .inl h
    · exact .inr (.inl h)
  rw [validateChars_succ, hblank, hdigit, hstart, if_neg Bool.false_ne_true,
    if_neg Bool.false_ne_true, if_neg Bool.false_ne_true, if_neg hless, if_pos hsymbol]

/-- A `<<` is skipped. -/
theorem validateChars_shl (fuel : Nat) (cs : List Char) :
    validateChars classes expr enumName variantName declared (fuel + 1) ('<' :: '<' :: cs) =
      validateChars classes expr enumName variantName declared fuel cs := by
  have hstart : isIdentStart classes '<' = false :=
    isIdentStart_of_continue_false ((isIdentContinue_ascii (by decide)).trans (by decide))
  rw [validateChars_succ, show isWhitespace '<' = false from by decide,
    show isAsciiDigit '<' = false from by decide, hstart, if_neg Bool.false_ne_true,
    if_neg Bool.false_ne_true, if_neg Bool.false_ne_true, if_pos rfl]
  exact if_pos rfl

/-- A variant named in an accepted value was declared. -/
theorem declared_of_validateChars {ps : List (Piece Char)} {ts : List SourceToken}
    (hts : Lexes sourceLexicon ps ts) (hps : MaximalRuns isWordChar ps) {fuel : Nat}
    (hfuel : (ps.flatMap Piece.text).length ≤ fuel)
    (h : validateChars classes expr enumName variantName declared fuel
      (ps.flatMap Piece.text) = .ok ()) {name : String} (hname : SourceToken.ref name ∈ ts) :
    name ∈ declared := by
  -- Along the tokens: the scan takes the text of one token after another.
  induction hts generalizing fuel with
  | nil => cases hname
  | @word xs t ps ts ht hlater ih =>
    cases hps with
    | run hne hxs hnext hps =>
      have hrest : ∀ y ys, ps.flatMap Piece.text = y :: ys → isWordChar y = false := by
        intro y ys heq
        obtain ⟨qs, rfl⟩ := one_after_run hps hnext heq
        cases hps with
        | one hy _ => exact hy
      cases xs with
      | nil => exact absurd rfl hne
      | cons c cs =>
        cases fuel with
        | zero => exact absurd hfuel (by simp [Piece.text])
        | succ fuel =>
          have hc := hxs c List.mem_cons_self
          have hlength : (ps.flatMap Piece.text).length ≤ fuel := by
            simp only [List.flatMap_cons, Piece.text, List.cons_append, List.length_cons,
              List.length_append] at hfuel
            omega
          rw [List.flatMap_cons, Piece.text, List.cons_append, validateChars_succ,
            if_neg (Bool.eq_false_iff.mp (isWhitespace_of_identifierChar hc))] at h
          have ht : sourceWord (c :: cs) = some t := ht
          rw [sourceWord] at ht
          -- A word is a literal or a name, by its first character.
          cases hdigit : isAsciiDigit c with
          | true =>
            rw [List.head?_cons, Option.any_some, if_pos hdigit] at ht
            obtain ⟨value, hvalue, rfl⟩ := Option.map_eq_some_iff.mp ht
            rw [if_pos hdigit, afterLiteral_run hvalue hrest] at h
            cases hname with
            | tail _ hname => exact ih hps hlength h hname
          | false =>
            rw [List.head?_cons, Option.any_some, if_neg (Bool.eq_false_iff.mp hdigit)] at ht
            obtain rfl := Option.some.inj ht
            have hcontinue : ∀ y ys, ps.flatMap Piece.text = y :: ys →
                isIdentContinue classes y = false := by
              intro y ys heq
              obtain ⟨qs, rfl⟩ := one_after_run hps hnext heq
              exact isIdentContinue_of_one hlater List.mem_cons_self
            obtain ⟨htake, hdrop⟩ := @span_run (isIdentContinue classes) (c :: cs)
              (ps.flatMap Piece.text) (fun y hy => isIdentContinue_of_isWordChar (hxs y hy))
              hcontinue
            rw [List.cons_append] at htake hdrop
            have hstart : isIdentStart classes c = true := by
              rw [isIdentStart_of_isWordChar hc, hdigit]
              rfl
            rw [if_neg (Bool.eq_false_iff.mp hdigit), if_pos hstart, htake, hdrop] at h
            split at h
            · next hdeclared =>
              cases hname with
              | head => exact hdeclared
              | tail _ hname => exact ih hps hlength h hname
            · split at h <;> cases h
  | @blank x ps ts hx hlater ih =>
    cases hps with
    | one _ hps =>
      cases fuel with
      | zero => exact absurd hfuel (by simp [Piece.text])
      | succ fuel =>
        rw [show (Piece.one x :: ps).flatMap Piece.text = x :: ps.flatMap Piece.text from rfl,
          validateChars_succ, if_pos (show isWhitespace x = true from hx)] at h
        exact ih hps (by simpa [Piece.text] using hfuel) h hname
  | @single x t ps ts hx ht hlater ih =>
    cases hps with
    | one _ hps =>
      cases fuel with
      | zero => exact absurd hfuel (by simp [Piece.text])
      | succ fuel =>
        -- The scan passes a symbol, which is no name.
        have hsymbol : x ∈ ['(', ')', '|', '~'] := by
          refine Decidable.byContradiction fun hsymbol => ?_
          simp only [List.mem_cons, List.not_mem_nil, or_false, not_or] at hsymbol
          simp [sourceLexicon, hsymbol] at ht
        have htoken : t ≠ .ref name := by
          rintro rfl
          simp only [sourceLexicon] at ht
          repeat' split at ht
          all_goals cases ht
        rw [show (Piece.one x :: ps).flatMap Piece.text = x :: ps.flatMap Piece.text from rfl,
          validateChars_symbol hsymbol] at h
        rcases List.mem_cons.mp hname with heq | hname
        · exact absurd heq.symm htoken
        · exact ih hps (by simpa [Piece.text] using hfuel) h hname
  | @double x t ps ts hx hs ht hlater ih =>
    cases hps with
    | one _ hps =>
      cases hps with
      | one _ hps =>
        cases fuel with
        | zero => exact absurd hfuel (by simp [Piece.text])
        | succ fuel =>
          simp only [sourceLexicon] at ht
          split at ht
          · next hless =>
            obtain rfl := Option.some.inj ht
            subst hless
            rw [show (Piece.one '<' :: Piece.one '<' :: ps).flatMap Piece.text =
              '<' :: '<' :: ps.flatMap Piece.text from rfl, validateChars_shl] at h
            have hlength : (ps.flatMap Piece.text).length ≤ fuel := by
              simp only [List.flatMap_cons, Piece.text, List.cons_append, List.nil_append,
                List.length_cons] at hfuel
              omega
            cases hname with
            | tail _ hname => exact ih hps hlength h hname
          · cases ht

end

end PolyPlug.Codegen
