import PolyPlug.Codegen.EnumExpr
import PolyPlug.Lib.Loop
import PolyPlug.Proofs.Codegen.Enums

/-!
# `PolyPlug.Proofs.Codegen.EnumLanguage`: the values that the parser accepts

Two scans check the values of an enum. The first reads a value from the left and knows
literals, but no grammar: it accepts a row of tokens (`Cuts`). The second looks for the names in a
value, also inside a literal. `values_accepted_iff` says what they accept together.

`judged_iff` compares that with the language of the values (`InLanguage`): the expressions over
literals and earlier variants, where no variant in a value has a variant in its own.
-/

set_option autoImplicit false

namespace PolyPlug.Codegen

open PolyPlug.Lib
open PolyPlug.Rust

/-! ### The language -/

/-- The variant of a token. -/
def SourceToken.ref? : SourceToken → Option String
  | .ref name => some name
  | _         => none

/-- The variants in a value. -/
def refsOf (text : String) : List String :=
  ((sourceTokens text).getD []).filterMap SourceToken.ref?

/-- The values of an enum are expressions over variants declared before, and no variant in a value
has a variant in its own. -/
structure InLanguage (variants : List EnumVariant) : Prop where
  reads : ∀ v ∈ variants, ∃ s, SourceReads v.value s
  declared : ∀ before v after, variants = before ++ v :: after →
    ∀ n ∈ refsOf v.value, n ∈ before.map EnumVariant.name
  unchained : ∀ v ∈ variants, ∀ n ∈ refsOf v.value, ∀ w ∈ variants, w.name = n →
    refsOf w.value = []

/-- The name that the second scan finds in a run: without the digits it starts with. -/
def tailName (xs : List Char) : List String :=
  if xs.dropWhile isAsciiDigit = [] then [] else [String.ofList (xs.dropWhile isAsciiDigit)]

/-- The name in a token. A literal with `0x` or `0b` has one too. -/
def SourceToken.names : SourceToken → List String
  | .ref name       => [name]
  | .literal text _ => tailName text.toList
  | _               => []

/-- The names in a value, also those in literals. -/
def writtenNames (text : String) : List String :=
  ((sourceTokens text).getD []).flatMap SourceToken.names

/-! ### The first scan -/

/-- A row of blanks, symbols, literals and declared names. A literal with `0x` or `0b` needs no
digit, and ends where its digits do. -/
inductive Cuts (classes : CharClasses) (declared : List String) : List Char → Prop
  | nil : Cuts classes declared []
  | blank {c : Char} {cs : List Char} (hc : isWhitespace c = true) (h : Cuts classes declared cs) :
      Cuts classes declared (c :: cs)
  | literal {c : Char} {cs : List Char} (hc : isAsciiDigit c = true)
      (h : Cuts classes declared (afterLiteral c cs)) : Cuts classes declared (c :: cs)
  | name {c : Char} {cs : List Char} (hc : isIdentStart classes c = true)
      (hname : String.ofList ((c :: cs).takeWhile (isIdentContinue classes)) ∈ declared)
      (h : Cuts classes declared ((c :: cs).dropWhile (isIdentContinue classes))) :
      Cuts classes declared (c :: cs)
  | symbol {c : Char} {cs : List Char} (hc : c ∈ ['(', ')', '|', '~'])
      (h : Cuts classes declared cs) : Cuts classes declared (c :: cs)
  | shl {cs : List Char} (h : Cuts classes declared cs) : Cuts classes declared ('<' :: '<' :: cs)

section
variable {classes : CharClasses} {declared : List String}

theorem length_afterLiteral_le (c : Char) (cs : List Char) :
    (afterLiteral c cs).length ≤ cs.length := by
  cases cs with
  | nil => exact le_refl _
  | cons d ds =>
    rw [afterLiteral]
    split
    · exact (List.length_dropWhile_le _ _).trans (Nat.le_succ _)
    · split
      · exact (List.length_dropWhile_le _ _).trans (Nat.le_succ _)
      · exact List.length_dropWhile_le _ _

/-- A letter of an identifier is no blank and no digit. -/
theorem not_blank_of_isIdentStart {c : Char} (h : isIdentStart classes c = true) :
    isWhitespace c = false ∧ isAsciiDigit c = false := by
  constructor
  · cases hblank : isWhitespace c with
    | false => rfl
    | true =>
      rw [isIdentStart_of_continue_false (isIdentContinue_of_isWhitespace hblank)] at h
      cases h
  · cases hdigit : isAsciiDigit c with
    | false => rfl
    | true =>
      have hword := isWordChar_of_isAsciiHexdigit (isAsciiHexdigit_of_isAsciiDigit hdigit)
      rw [isIdentStart_of_isWordChar hword, hdigit] at h
      cases h

theorem isWhitespace_of_isAsciiDigit {c : Char} (h : isAsciiDigit c = true) :
    isWhitespace c = false :=
  isWhitespace_of_identifierChar
    (isWordChar_of_isAsciiHexdigit (isAsciiHexdigit_of_isAsciiDigit h))

/-- An identifier takes its first character. -/
theorem length_dropWhile_ident {c : Char} (h : isIdentStart classes c = true) (cs : List Char) :
    ((c :: cs).dropWhile (isIdentContinue classes)).length ≤ cs.length := by
  have hcontinue : isIdentContinue classes c = true := by
    cases hc : isIdentContinue classes c with
    | true => rfl
    | false =>
      rw [isIdentStart_of_continue_false hc] at h
      cases h
  rw [List.dropWhile_cons_of_pos hcontinue]
  exact List.length_dropWhile_le _ _

/-- **The first scan accepts the rows of tokens.** -/
theorem validateChars_eq_ok_iff {expr enumName variantName : String} {fuel : Nat} {cs : List Char}
    (hfuel : cs.length ≤ fuel) :
    validateChars classes expr enumName variantName declared fuel cs = .ok () ↔
      Cuts classes declared cs := by
  constructor
  · intro h
    induction fuel generalizing cs with
    | zero =>
      cases cs with
      | nil => exact .nil
      | cons c cs => exact absurd hfuel (by simp)
    | succ fuel ih =>
      cases cs with
      | nil => exact .nil
      | cons c cs =>
        have hcs : cs.length ≤ fuel := by simpa using hfuel
        rw [validateChars_succ] at h
        -- One branch of the scan for each way to begin a row.
        split at h
        · next hblank => exact .blank hblank (ih hcs h)
        · split at h
          · next hdigit =>
            exact .literal hdigit (ih ((length_afterLiteral_le c cs).trans hcs) h)
          · split at h
            · next hstart =>
              split at h
              · next hname =>
                exact .name hstart hname (ih ((length_dropWhile_ident hstart cs).trans hcs) h)
              · split at h <;> cases h
            · split at h
              · next hless =>
                subst hless
                cases cs with
                | nil => cases h
                | cons d rest =>
                  dsimp only at h
                  split at h
                  · next hless =>
                    subst hless
                    refine .shl (ih ?_ h)
                    simp only [List.length_cons] at hcs
                    omega
                  · cases h
              · split at h
                · next hsymbol =>
                  refine .symbol ?_ (ih hcs h)
                  simp only [List.mem_cons, List.not_mem_nil, or_false]
                  rcases hsymbol with h | h | h | h
                  · exact .inr (.inr (.inl h))
                  · exact .inr (.inr (.inr h))
                  · exact .inl h
                  · exact .inr (.inl h)
                · cases h
  · intro h
    induction h generalizing fuel with
    | nil => cases fuel <;> rfl
    | @blank c cs hc _ ih =>
      cases fuel with
      | zero => exact absurd hfuel (by simp)
      | succ fuel =>
        rw [validateChars_succ, if_pos hc]
        exact ih (by simpa using hfuel)
    | @literal c cs hc _ ih =>
      cases fuel with
      | zero => exact absurd hfuel (by simp)
      | succ fuel =>
        rw [validateChars_succ, isWhitespace_of_isAsciiDigit hc, if_neg Bool.false_ne_true,
          if_pos hc]
        exact ih ((length_afterLiteral_le c cs).trans (by simpa using hfuel))
    | @name c cs hc hname _ ih =>
      cases fuel with
      | zero => exact absurd hfuel (by simp)
      | succ fuel =>
        obtain ⟨hblank, hdigit⟩ := not_blank_of_isIdentStart hc
        rw [validateChars_succ, hblank, hdigit, if_neg Bool.false_ne_true,
          if_neg Bool.false_ne_true, if_pos hc, if_pos hname]
        exact ih ((length_dropWhile_ident hc cs).trans (by simpa using hfuel))
    | @symbol c cs hc _ ih =>
      cases fuel with
      | zero => exact absurd hfuel (by simp)
      | succ fuel =>
        rw [validateChars_symbol hc]
        exact ih (by simpa using hfuel)
    | @shl cs _ ih =>
      cases fuel with
      | zero => exact absurd hfuel (by simp)
      | succ fuel =>
        rw [validateChars_shl]
        refine ih ?_
        simp only [List.length_cons] at hfuel
        omega

/-- The tokens of a text over declared names are a row. -/
theorem cuts_of_lexes {ps : List (Piece Char)} {ts : List SourceToken}
    (hts : Lexes sourceLexicon ps ts) (hps : MaximalRuns isWordChar ps)
    (hdeclared : ∀ n, SourceToken.ref n ∈ ts → n ∈ declared) :
    Cuts classes declared (ps.flatMap Piece.text) := by
  induction hts with
  | nil => exact .nil
  | @word xs t ps ts ht hlater ih =>
    cases hps with
    | run hne hxs hnext hps =>
      have hrow := ih hps fun n hn => hdeclared n (List.mem_cons_of_mem _ hn)
      -- What follows a word ends it for the scan too.
      have hends : ∀ y ys, ps.flatMap Piece.text = y :: ys →
          isWordChar y = false ∧ isIdentContinue classes y = false := by
        intro y ys heq
        obtain ⟨qs, rfl⟩ := one_after_run hps hnext heq
        refine ⟨?_, isIdentContinue_of_one hlater List.mem_cons_self⟩
        cases hps with
        | one hy _ => exact hy
      cases xs with
      | nil => exact absurd rfl hne
      | cons c cs =>
        have hword := hxs c List.mem_cons_self
        rw [List.flatMap_cons, Piece.text, List.cons_append]
        have ht' : sourceWord (c :: cs) = some t := ht
        rw [sourceWord] at ht'
        cases hdigit : isAsciiDigit c with
        | true =>
          rw [List.head?_cons, Option.any_some, if_pos hdigit] at ht'
          obtain ⟨value, hvalue, -⟩ := Option.map_eq_some_iff.mp ht'
          refine .literal hdigit ?_
          rw [afterLiteral_run hvalue fun y ys heq => (hends y ys heq).1]
          exact hrow
        | false =>
          rw [List.head?_cons, Option.any_some, if_neg (Bool.eq_false_iff.mp hdigit)] at ht'
          obtain rfl := Option.some.inj ht'
          obtain ⟨htake, hdrop⟩ := @span_run (isIdentContinue classes) (c :: cs)
            (ps.flatMap Piece.text) (fun y hy => isIdentContinue_of_isWordChar (hxs y hy))
            fun y ys heq => (hends y ys heq).2
          rw [List.cons_append] at htake hdrop
          refine .name ?_ ?_ ?_
          · rw [isIdentStart_of_isWordChar hword, hdigit]
            rfl
          · rw [htake]
            exact hdeclared _ List.mem_cons_self
          · rw [hdrop]
            exact hrow
  | @blank x ps ts hx hlater ih =>
    cases hps with
    | one _ hps => exact .blank hx (ih hps hdeclared)
  | @single x t ps ts hx ht hlater ih =>
    cases hps with
    | one _ hps =>
      have hsymbol : x ∈ ['(', ')', '|', '~'] := by
        rcases single_cases ht with ⟨rfl, -⟩ | ⟨rfl, -⟩ | ⟨rfl, -⟩ | ⟨rfl, -⟩ <;> decide
      exact .symbol hsymbol (ih hps fun n hn => hdeclared n (List.mem_cons_of_mem _ hn))
  | @double x t ps ts hx hs ht hlater ih =>
    cases hps with
    | one _ hps =>
      cases hps with
      | one _ hps =>
        obtain ⟨rfl, -⟩ := double_cases ht
        exact .shl (ih hps fun n hn => hdeclared n (List.mem_cons_of_mem _ hn))

end

/-! ### The second scan -/

/-- The names that the second scan finds. -/
def scannedNames (classes : CharClasses) (text : String) : List String :=
  identifiers classes text.toList.length text.toList

/-- No name in a value is that of a variant with a variant's name in its own. -/
def ScanClear (variants : List EnumVariant) (names : String → List String) : Prop :=
  ∀ v ∈ variants, ∀ n ∈ names v.value, ∀ w ∈ variants, w.name = n →
    ∀ m ∈ names w.value, m ∉ variants.map EnumVariant.name

section
variable {classes : CharClasses}

theorem identifiers_run {xs rest : List Char} {out : List String}
    (hxs : ∀ x ∈ xs, isWordChar x = true)
    (hrest : ∀ y ys, rest = y :: ys → isIdentContinue classes y = false)
    (hout : ∀ fuel, rest.length ≤ fuel → identifiers classes fuel rest = out) {fuel : Nat}
    (hfuel : (xs ++ rest).length ≤ fuel) :
    identifiers classes fuel (xs ++ rest) = tailName xs ++ out := by
  induction xs generalizing fuel with
  | nil => exact hout fuel hfuel
  | cons x xs ih =>
    cases fuel with
    | zero => exact absurd hfuel (by simp)
    | succ fuel =>
      have hx := hxs x List.mem_cons_self
      rw [List.cons_append, identifiers, isIdentStart_of_isWordChar hx]
      cases hdigit : isAsciiDigit x with
      | true =>
        -- a leading digit is passed over
        have hrun : tailName (x :: xs) = tailName xs := by
          rw [tailName, List.dropWhile_cons_of_pos hdigit, tailName]
        rw [hrun]
        exact ih (fun y hy => hxs y (List.mem_cons_of_mem _ hy)) (by simpa using hfuel)
      | false =>
        -- the rest of the run is one name
        obtain ⟨htake, hdrop⟩ := @span_run (isIdentContinue classes) (x :: xs) rest
          (fun y hy => isIdentContinue_of_isWordChar (hxs y hy)) hrest
        rw [List.cons_append] at htake hdrop
        have hlength : rest.length ≤ fuel := by
          simp only [List.cons_append, List.length_cons, List.length_append] at hfuel
          omega
        have hrun : tailName (x :: xs) = [String.ofList (x :: xs)] := by
          rw [tailName, List.dropWhile_cons_of_neg (Bool.eq_false_iff.mp hdigit),
            if_neg (List.cons_ne_nil _ _)]
        rw [hrun, Bool.not_false, if_pos rfl, htake, hdrop, hout fuel hlength]
        rfl

/-- The name in the token of a run. -/
theorem names_of_sourceWord {xs : List Char} {t : SourceToken} (hne : xs ≠ [])
    (h : sourceWord xs = some t) : t.names = tailName xs := by
  rw [sourceWord] at h
  split at h
  · obtain ⟨value, -, rfl⟩ := Option.map_eq_some_iff.mp h
    rw [SourceToken.names, String.toList_ofList]
  · next hdigit =>
    cases h
    rw [SourceToken.names, tailName]
    cases xs with
    | nil => exact absurd rfl hne
    | cons x xs =>
      rw [List.head?_cons, Option.any_some] at hdigit
      rw [List.dropWhile_cons_of_neg hdigit, if_neg (List.cons_ne_nil _ _)]

/-- **In a text of tokens the second scan finds the names in the tokens.** -/
theorem identifiers_of_lexes {ps : List (Piece Char)} {ts : List SourceToken}
    (hts : Lexes sourceLexicon ps ts) (hps : MaximalRuns isWordChar ps) {fuel : Nat}
    (hfuel : (ps.flatMap Piece.text).length ≤ fuel) :
    identifiers classes fuel (ps.flatMap Piece.text) = ts.flatMap SourceToken.names := by
  have hskip : ∀ {c : Char} {cs : List Char} {fuel : Nat} {out : List String},
      isIdentContinue classes c = false → (c :: cs).length ≤ fuel →
      (∀ fuel, cs.length ≤ fuel → identifiers classes fuel cs = out) →
      identifiers classes fuel (c :: cs) = out := by
    intro c cs fuel out hc hfuel hout
    cases fuel with
    | zero => exact absurd hfuel (by simp)
    | succ fuel =>
      rw [identifiers, if_neg (Bool.eq_false_iff.mp (isIdentStart_of_continue_false hc))]
      exact hout fuel (by simpa using hfuel)
  induction hts generalizing fuel with
  | nil => cases fuel <;> rfl
  | @word xs t ps ts ht hlater ih =>
    cases hps with
    | run hne hxs hnext hps =>
      rw [List.flatMap_cons, List.flatMap_cons, names_of_sourceWord hne ht]
      refine identifiers_run hxs (fun y ys heq => ?_) (fun fuel hlength => ih hps hlength) hfuel
      obtain ⟨qs, rfl⟩ := one_after_run hps hnext heq
      exact isIdentContinue_of_one hlater List.mem_cons_self
  | @blank x ps ts hx hlater ih =>
    cases hps with
    | one _ hps =>
      exact hskip (isIdentContinue_of_isWhitespace hx) hfuel fun fuel hlength => ih hps hlength
  | @single x t ps ts hx ht hlater ih =>
    cases hps with
    | one hword hps =>
      have hnames : t.names = [] := by
        rcases single_cases ht with ⟨-, rfl⟩ | ⟨-, rfl⟩ | ⟨-, rfl⟩ | ⟨-, rfl⟩ <;> rfl
      have hlt : x.toNat < 128 := by
        rcases single_cases ht with ⟨rfl, -⟩ | ⟨rfl, -⟩ | ⟨rfl, -⟩ | ⟨rfl, -⟩ <;> decide
      have htail : (t :: ts).flatMap SourceToken.names = ts.flatMap SourceToken.names := by
        rw [List.flatMap_cons, hnames]
        rfl
      rw [htail]
      exact hskip ((isIdentContinue_ascii hlt).trans hword) hfuel fun fuel hlength =>
        ih hps hlength
  | @double x t ps ts hx hs ht hlater ih =>
    cases hps with
    | one hword hps =>
      cases hps with
      | one _ hps =>
        obtain ⟨rfl, rfl⟩ := double_cases ht
        have hcontinue : isIdentContinue classes '<' = false :=
          (isIdentContinue_ascii (by decide)).trans hword
        exact hskip hcontinue hfuel fun fuel hlength =>
          hskip hcontinue hlength fun fuel hlength => ih hps hlength

theorem scannedNames_of_tokens {text : String} {ts : List SourceToken}
    (h : sourceTokens text = some ts) : scannedNames classes text = writtenNames text := by
  have hscan : identifiers classes text.toList.length
      ((pieces isWordChar text.toList).flatMap Piece.text) = ts.flatMap SourceToken.names :=
    identifiers_of_lexes (Lexes.of_lex h) (maximal_pieces _) (by rw [text_pieces])
  rw [text_pieces] at hscan
  rw [scannedNames, hscan, writtenNames, h]
  rfl

/-- The second scan passes if the names are clear. -/
theorem checkEnumChainedRefs_eq_ok_iff {enumName : String} {variants : List EnumVariant}
    (hnodup : (variants.map EnumVariant.name).Nodup) :
    checkEnumChainedRefs classes enumName variants = .ok () ↔
      ScanClear variants (scannedNames classes) := by
  have hfind : ∀ {w : EnumVariant}, w ∈ variants →
      (variants.find? fun v => v.name = w.name) = some w := by
    intro w hw
    cases hfound : variants.find? fun v => v.name = w.name with
    | none => exact absurd (decide_eq_true rfl) (List.find?_eq_none.mp hfound w hw)
    | some w' =>
      have hname := List.find?_some hfound
      rw [decide_eq_true_iff] at hname
      rw [List.inj_on_of_nodup_map hnodup (List.mem_of_find?_eq_some hfound) hw hname]
  have hcontains : ∀ text, exprContainsVariantRef classes text (variants.map EnumVariant.name) =
      true ↔ ∃ m ∈ scannedNames classes text, m ∈ variants.map EnumVariant.name := by
    intro text
    rw [exprContainsVariantRef, List.any_eq_true]
    simp only [decide_eq_true_eq]
    rfl
  rw [checkEnumChainedRefs, forM_eq_ok_iff]
  refine forall₂_congr fun v hv => ?_
  rw [forM_eq_ok_iff]
  refine forall₂_congr fun n hn => ?_
  by_cases hmem : n ∈ variants.map EnumVariant.name
  · obtain ⟨w, hw, rfl⟩ := List.mem_map.mp hmem
    rw [if_pos hmem, hfind hw]
    dsimp only
    constructor
    · intro h w' hw' hname m hm hvariant
      obtain rfl := List.inj_on_of_nodup_map hnodup hw' hw hname
      rw [if_pos ((hcontains _).mpr ⟨m, hm, hvariant⟩)] at h
      cases h
    · intro h
      rw [if_neg fun htrue => ?_]
      obtain ⟨m, hm, hvariant⟩ := (hcontains _).mp htrue
      exact h w hw rfl m hm hvariant
  · rw [if_neg hmem]
    refine iff_of_true rfl fun w hw hname => absurd ?_ hmem
    rw [← hname]
    exact List.mem_map_of_mem hw

end

/-! ### Both scans -/

/-- The values are rows of tokens over the variants declared before. -/
def ValuesCut (classes : CharClasses) (variants : List EnumVariant) : Prop :=
  ∀ before v after, variants = before ++ v :: after →
    Cuts classes (before.map EnumVariant.name) v.value.toList

section
variable {classes : CharClasses}

theorem validateVariants_eq_ok_iff {enumName : String} {declared : List String}
    {variants : List EnumVariant} :
    validateVariants classes enumName declared variants = .ok () ↔
      ∀ before v after, variants = before ++ v :: after →
        Cuts classes (declared ++ before.map EnumVariant.name) v.value.toList := by
  induction variants generalizing declared with
  | nil =>
    refine iff_of_true rfl fun before v after heq => ?_
    cases before <;> cases heq
  | cons w rest ih =>
    rw [validateVariants]
    constructor
    · intro h before v after heq
      obtain ⟨_, hvalue, hrest⟩ := bind_eq_ok.mp h
      cases before with
      | nil =>
        obtain ⟨rfl, rfl⟩ := List.cons.inj heq
        rw [List.map_nil, List.append_nil]
        exact (validateChars_eq_ok_iff (le_refl _)).mp hvalue
      | cons b before =>
        obtain ⟨rfl, hrest'⟩ := List.cons.inj heq
        have hcut := ih.mp hrest before v after hrest'
        rw [List.append_assoc] at hcut
        exact hcut
    · intro h
      refine bind_eq_ok.mpr ⟨(), ?_, ih.mpr fun before v after heq => ?_⟩
      · have hcut := h [] w rest rfl
        rw [List.map_nil, List.append_nil] at hcut
        exact (validateChars_eq_ok_iff (le_refl _)).mpr hcut
      · have hcut := h (w :: before) v after (congrArg (w :: ·) heq)
        rw [List.map_cons, ← List.singleton_append, ← List.append_assoc] at hcut
        exact hcut

/-- **The checks accept rows of tokens whose names are clear.** -/
theorem values_accepted_iff {enumName : String} {variants : List EnumVariant}
    (hnodup : (variants.map EnumVariant.name).Nodup) :
    checkEnumValues classes enumName variants = .ok () ↔
      ValuesCut classes variants ∧ ScanClear variants (scannedNames classes) := by
  rw [checkEnumValues]
  constructor
  · intro h
    obtain ⟨_, hvalues, hchain⟩ := bind_eq_ok.mp h
    exact ⟨validateVariants_eq_ok_iff.mp hvalues,
      (checkEnumChainedRefs_eq_ok_iff hnodup).mp hchain⟩
  · rintro ⟨hcut, hclear⟩
    exact bind_eq_ok.mpr ⟨(), validateVariants_eq_ok_iff.mpr hcut,
      (checkEnumChainedRefs_eq_ok_iff hnodup).mpr hclear⟩

end

/-- The variants in a value that is a row of tokens are declared. -/
theorem declared_of_cuts {classes : CharClasses} {declared : List String} {text : String}
    {ts : List SourceToken} (hcut : Cuts classes declared text.toList)
    (hts : sourceTokens text = some ts) : ∀ n, SourceToken.ref n ∈ ts → n ∈ declared := by
  intro n hn
  have hcheck : validateChars classes "" "" "" declared text.toList.length
      ((pieces isWordChar text.toList).flatMap Piece.text) = .ok () := by
    rw [text_pieces]
    exact (validateChars_eq_ok_iff (le_refl _)).mpr hcut
  refine declared_of_validateChars (Lexes.of_lex hts) (maximal_pieces _) ?_ hcheck hn
  rw [text_pieces]

/-! ### The scans and the language -/

/-- What the scans tell is what the language says: a list of values that they let pass is one of
expressions, and in the values of the language no name in a literal is taken for a variant that
matters. -/
structure Judged (classes : CharClasses) (variants : List EnumVariant) : Prop where
  sound : ValuesCut classes variants → ScanClear variants (scannedNames classes) →
    ∀ v ∈ variants, ∃ s, SourceReads v.value s
  complete : InLanguage variants → ScanClear variants writtenNames

theorem mem_refsOf {text : String} {ts : List SourceToken} (h : sourceTokens text = some ts)
    {n : String} : n ∈ refsOf text ↔ SourceToken.ref n ∈ ts := by
  rw [refsOf, h, Option.getD_some, List.mem_filterMap]
  constructor
  · rintro ⟨t, ht, hname⟩
    cases t with
    | ref name =>
      cases hname
      exact ht
    | literal text value => cases hname
    | shl => cases hname
    | pipe => cases hname
    | tilde => cases hname
    | openParen => cases hname
    | closeParen => cases hname
  · intro h
    exact ⟨_, h, rfl⟩

theorem mem_writtenNames_of_ref {text : String} {n : String} (h : n ∈ refsOf text) :
    n ∈ writtenNames text := by
  obtain ⟨t, ht, hname⟩ := List.mem_filterMap.mp h
  refine List.mem_flatMap.mpr ⟨t, ht, ?_⟩
  cases t with
  | ref name =>
    cases hname
    exact List.mem_singleton_self _
  | literal text value => cases hname
  | shl => cases hname
  | pipe => cases hname
  | tilde => cases hname
  | openParen => cases hname
  | closeParen => cases hname

/-- **The checks accept exactly the language, for a list of variants, exactly if the scans tell what
the language says.** -/
theorem judged_iff (classes : CharClasses) (enumName : String) (variants : List EnumVariant)
    (hnodup : (variants.map EnumVariant.name).Nodup) :
    (checkEnumValues classes enumName variants = .ok () ↔ InLanguage variants) ↔
      Judged classes variants := by
  have haccepted : checkEnumValues classes enumName variants = .ok () ↔
      ValuesCut classes variants ∧ ScanClear variants (scannedNames classes) :=
    values_accepted_iff hnodup
  -- In expressions the scan sees the names of the tokens.
  have hclear : (∀ v ∈ variants, ∃ s, SourceReads v.value s) →
      (ScanClear variants (scannedNames classes) ↔ ScanClear variants writtenNames) := by
    intro hreads
    have hscan : ∀ v ∈ variants, scannedNames classes v.value = writtenNames v.value := by
      intro v hv
      obtain ⟨s, ts, hts, -⟩ := hreads v hv
      exact scannedNames_of_tokens hts
    refine forall₂_congr fun v hv => ?_
    rw [hscan v hv]
    refine forall₂_congr fun n hn => forall₂_congr fun w hw => ?_
    rw [hscan w hw]
  have hcut : InLanguage variants → ValuesCut classes variants := by
    intro hlanguage before v after heq
    have hv : v ∈ variants := by
      rw [heq]
      exact List.mem_append_right _ List.mem_cons_self
    obtain ⟨s, ts, hts, -⟩ := hlanguage.reads v hv
    have hrow : Cuts classes (before.map EnumVariant.name)
        ((pieces isWordChar v.value.toList).flatMap Piece.text) :=
      cuts_of_lexes (Lexes.of_lex hts) (maximal_pieces _)
        fun n hn => hlanguage.declared before v after heq n ((mem_refsOf hts).mpr hn)
    rw [text_pieces] at hrow
    exact hrow
  constructor
  · intro hexact
    refine ⟨fun hvalues hnames => (hexact.mp (haccepted.mpr ⟨hvalues, hnames⟩)).reads,
      fun hlanguage => (hclear hlanguage.reads).mp (haccepted.mp (hexact.mpr hlanguage)).2⟩
  · intro hjudged
    constructor
    · intro hok
      obtain ⟨hvalues, hnames⟩ := haccepted.mp hok
      have hreads := hjudged.sound hvalues hnames
      have hdeclared : ∀ before v after, variants = before ++ v :: after →
          ∀ n ∈ refsOf v.value, n ∈ before.map EnumVariant.name := by
        intro before v after heq n hn
        have hv : v ∈ variants := by
          rw [heq]
          exact List.mem_append_right _ List.mem_cons_self
        obtain ⟨s, ts, hts, -⟩ := hreads v hv
        exact declared_of_cuts (hvalues before v after heq) hts n ((mem_refsOf hts).mp hn)
      refine ⟨hreads, hdeclared, fun v hv n hn w hw hname => ?_⟩
      have hwritten := (hclear hreads).mp hnames v hv n (mem_writtenNames_of_ref hn) w hw hname
      refine List.eq_nil_iff_forall_not_mem.mpr fun m hm => ?_
      obtain ⟨before, after, heq⟩ := List.append_of_mem hw
      have hbefore := hdeclared before w after heq m hm
      refine hwritten m (mem_writtenNames_of_ref hm) ?_
      rw [heq, List.map_append]
      exact List.mem_append_left _ hbefore
    · intro hlanguage
      exact haccepted.mpr
        ⟨hcut hlanguage, (hclear hlanguage.reads).mpr (hjudged.complete hlanguage)⟩

/-- A list that can be evaluated is checked at each place. -/
theorem inLanguage_of_places {variants : List EnumVariant}
    (hreads : ∀ v ∈ variants, ∃ s, SourceReads v.value s)
    (hdeclared : ∀ i, ∀ h : i < variants.length, ∀ n ∈ refsOf variants[i].value,
      n ∈ (variants.take i).map EnumVariant.name)
    (hunchained : ∀ v ∈ variants, ∀ n ∈ refsOf v.value, ∀ w ∈ variants, w.name = n →
      refsOf w.value = []) : InLanguage variants := by
  refine ⟨hreads, fun before v after heq n hn => ?_, hunchained⟩
  subst heq
  have hplace := hdeclared before.length (by simp) n (by simpa using hn)
  simpa using hplace

/-- The values `1` and `A << 1`. -/
def flagVariants : List EnumVariant := [⟨"A", "1"⟩, ⟨"B", "A << 1"⟩]

theorem inLanguage_flags : InLanguage flagVariants := by
  refine inLanguage_of_places (fun v hv => ?_) (by decide +kernel) (by decide +kernel)
  rcases List.mem_cons.mp hv with rfl | hv
  · exact ⟨_, sourceReads_one⟩
  · obtain rfl := List.mem_singleton.mp hv
    have hchain : Derives sourceGrammar (.chain 0 (.operand (.ref "A")))
        [.shl, .literal "1" 1] (.binary 0 (.operand (.ref "A")) (.operand (.literal "1" 1))) :=
      .operator rfl derives_one .noOperator
    exact ⟨_, [.ref "A", .shl, .literal "1" 1], by decide +kernel,
      .succ (.level (.of_unary derives_variant) hchain)⟩

/-- `A = 1` with `B = A << 1` is accepted, as it should be. -/
theorem judged_flags : Judged asciiClasses flagVariants :=
  (judged_iff asciiClasses "Flags" flagVariants (by decide)).mp
    ⟨fun _ => inLanguage_flags, fun _ => by decide +kernel⟩

/-- No expression is without a token. -/
theorem derives_ne_nil {p : Phrase SourceOperand Empty} {ts : List SourceToken} {s : SourceExpr}
    (h : Derives sourceGrammar p ts s) (hsuffix : ∀ e, p ≠ .suffixes e)
    (hchain : ∀ k e, p ≠ .chain k e) : ts ≠ [] := by
  induction h with
  | operand h => cases h <;> exact List.cons_ne_nil _ _
  | group => exact List.cons_ne_nil _ _
  | plain h ih => exact ih (fun e => by simp) (fun k e => by simp)
  | negate => exact List.cons_ne_nil _ _
  | noSuffix => exact absurd rfl (hsuffix _)
  | suffix => exact absurd rfl (hsuffix _)
  | bottom h hs ih =>
    exact List.append_ne_nil_of_left_ne_nil (ih (fun e => by simp) (fun k e => by simp)) _
  | level h hs ih =>
    exact List.append_ne_nil_of_left_ne_nil (ih (fun e => by simp) (fun k e => by simp)) _
  | noOperator => exact absurd rfl (hchain _ _)
  | operator => exact List.cons_ne_nil _ _

/-- The variant `b1` is the end of the literal `0b1`. -/
def binaryVariants : List EnumVariant := [⟨"b1", "1"⟩, ⟨"A", "0b1"⟩, ⟨"C", "A"⟩]

theorem inLanguage_binary : InLanguage binaryVariants := by
  refine inLanguage_of_places (fun v hv => ?_) (by decide +kernel) (by decide +kernel)
  rcases List.mem_cons.mp hv with rfl | hv
  · exact ⟨_, sourceReads_one⟩
  · rcases List.mem_cons.mp hv with rfl | hv
    · have hone : Derives sourceGrammar (.level 0) [.literal "0b1" 1]
          (.operand (.literal "0b1" 1)) :=
        .of_unary (.plain (.operand (SourceOperandTokens.literal "0b1" 1)))
      exact ⟨_, [.literal "0b1" 1], by decide +kernel, .succ (.succ hone)⟩
    · obtain rfl := List.mem_singleton.mp hv
      exact ⟨_, [.ref "A"], by decide +kernel, .succ (.succ (.of_unary derives_variant))⟩

/-- An empty value is accepted, and `C = A` is not where `A = 0b1` and a variant is called `b1`. -/
theorem scans_differ_from_language :
    (checkEnumValues asciiClasses "Flags" [⟨"A", ""⟩] = .ok () ∧ ¬ InLanguage [⟨"A", ""⟩]) ∧
      checkEnumValues asciiClasses "Flags" binaryVariants =
        .error (.enumChainedRef "Flags" "C" "A") ∧ InLanguage binaryVariants := by
  refine ⟨⟨by decide +kernel, fun hempty => ?_⟩, by decide +kernel, inLanguage_binary⟩
  obtain ⟨s, ts, hts, hderives⟩ := hempty.reads _ List.mem_cons_self
  obtain rfl : [] = ts := Option.some.inj (Eq.trans (by decide +kernel) hts)
  exact derives_ne_nil hderives (fun e => by simp) (fun k e => by simp) rfl

end PolyPlug.Codegen
