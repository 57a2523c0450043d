import PolyPlug.Proofs.Codegen.EnumScan
import PolyPlug.Proofs.Rust.ConstExpr
import Mathlib.Data.List.TakeWhile

/-!
# `PolyPlug.Proofs.Codegen.EnumEmission`: the text of a constant

For one variant of an accepted enum whose value is well formed, the tokens of the
constant's text are the translated tokens of the value where the blanks are Rust's, no literal
goes on with the name of a variant and no `~` stands in it (`tokens_emitted`). The text
reads as an expression with the operands of the value in exactly these cases and with
refs that are names and no shift after a cast (`reads_iff`).
-/

set_option autoImplicit false

namespace PolyPlug.Codegen

open PolyPlug.Lib
open PolyPlug.Rust

/-! ### An accepted enum -/

/-- What the checks leave of an enum: every variant's name is an identifier that no language
reserves, and its value names only variants before it. -/
structure Accepted (classes : CharClasses) (e : EnumDef) : Prop where
  names : ∀ v ∈ e.variants, isValidIdentifier v.name = true ∧ reservedIn v.name = none
  values : ∀ before v after, e.variants = before ++ v :: after →
    validateEnumValueExpr classes v.value e.name v.name (before.map EnumVariant.name) = .ok ()

theorem mapError_ok {ε ε' α : Type*} {x : Except ε α} {f : ε → ε'} {a : α}
    (h : x.mapError f = .ok a) : x = .ok a := by
  cases x with
  | error err => cases h
  | ok b =>
    obtain rfl := Except.ok.inj h
    rfl

theorem identifier_of_validate {name kind context : String}
    (h : validateIdentifier reservedIn name kind context = .ok ()) :
    isValidIdentifier name = true ∧ reservedIn name = none := by
  rw [validateIdentifier] at h
  split at h
  · next hvalid =>
    rw [validateNotReserved] at h
    split at h
    · cases h
    · next hreserved => exact ⟨hvalid, hreserved⟩
  · cases h

theorem lowerVariants_ok {classes : CharClasses} {enumName : String} {declared : List String}
    {raws : List RawEnumVariant} {variants : List EnumVariant}
    (h : lowerVariants classes enumName declared raws = .ok variants) :
    (∀ v ∈ variants, isValidIdentifier v.name = true ∧ reservedIn v.name = none) ∧
      ∀ before v after, variants = before ++ v :: after →
        validateEnumValueExpr classes v.value enumName v.name
          (declared ++ before.map EnumVariant.name) = .ok () := by
  induction raws generalizing declared variants with
  | nil =>
    obtain rfl := Except.ok.inj h
    exact ⟨nofun, fun before v after heq => by simp at heq⟩
  | cons raw raws ih =>
    unfold lowerVariants at h
    dsimp only [bind, Except.bind] at h
    split at h
    · cases h
    · next hident =>
      split at h
      · cases h
      · next hvalue =>
        split at h
        · cases h
        · next rest hrest =>
          obtain rfl := Except.ok.inj h
          obtain ⟨hnames, hvalues⟩ := ih hrest
          have hname := identifier_of_validate (mapError_ok hident)
          constructor
          · intro v hv
            rcases List.mem_cons.mp hv with rfl | hv
            · exact hname
            · exact hnames v hv
          · intro before v after heq
            cases before with
            | nil =>
              obtain ⟨rfl, rfl⟩ := List.cons.inj heq
              simpa using hvalue
            | cons first before =>
              obtain ⟨rfl, hrest'⟩ := List.cons.inj heq
              have hlater := hvalues before v after hrest'
              rwa [List.append_assoc] at hlater

/-- An accepted enum keeps its checks. -/
theorem accepted_of_lowerEnum {classes : CharClasses} {raw : RawEnum} {e : EnumDef}
    (h : lowerEnum classes raw = .ok e) : Accepted classes e := by
  unfold lowerEnum at h
  dsimp only [bind, Except.bind] at h
  split at h
  · cases h
  · split at h
    · cases h
    · split at h
      · cases h
      · next variants hvariants =>
        split at h
        · cases h
        · obtain rfl := Except.ok.inj h
          obtain ⟨hnames, hvalues⟩ := lowerVariants_ok hvariants
          exact ⟨hnames, fun before v after heq => by simpa using hvalues before v after heq⟩

/-! ### The names of the constants -/

theorem wordChars_of_identifier {name : String} (h : isValidIdentifier name = true) :
    name.toList ≠ [] ∧ ∀ c ∈ name.toList, isWordChar c = true :=
  identifierChar_of_isValidIdentifier h

/-- An identifier is read as a word. -/
theorem wordToken_identifier {name : String} (h : isValidIdentifier name = true) :
    wordToken name.toList = some (.word name) := by
  rw [isValidIdentifier] at h
  split at h
  · cases h
  · next c cs hname =>
    have hc : (c.isAlpha || c = '_') = true := (Bool.and_eq_true_iff.mp h).1
    have hword : isWordChar c = true := by
      simp only [isWordChar, Char.isAlphanum]
      simp only [Bool.or_eq_true] at hc ⊢
      tauto
    have hdigit : isAsciiDigit c = false :=
      @ascii_forall (fun c => (c.isAlpha || c = '_') = true → isAsciiDigit c = false)
        (by decide +kernel) c (toNat_lt_of_isWordChar hword) hc
    rw [wordToken, hname, List.head?_cons, Option.any_some,
      if_neg (Bool.eq_false_iff.mp hdigit), ← hname, String.ofList_toList]

/-- The upper case of an identifier is one. -/
theorem isValidIdentifier_toUpper {name : String} (h : isValidIdentifier name = true) :
    isValidIdentifier name.toUpper = true := by
  have hupper : name.toUpper.toList = name.toList.map Char.toUpper := String.toList_map
  have hwords := (wordChars_of_identifier h).2
  rw [isValidIdentifier] at h ⊢
  split at h
  · cases h
  · next c cs hname =>
    rw [hname] at hwords
    rw [hupper, hname, List.map_cons]
    obtain ⟨hc, hcs⟩ := Bool.and_eq_true_iff.mp h
    refine Bool.and_eq_true_iff.mpr ⟨?_, List.all_eq_true.mpr fun d hd => ?_⟩
    · exact @ascii_forall (fun c => (c.isAlpha || c = '_') = true →
        (c.toUpper.isAlpha || c.toUpper = '_') = true) (by decide +kernel) c
        (toNat_lt_of_isWordChar (hwords c List.mem_cons_self)) hc
    · obtain ⟨b, hb, rfl⟩ := List.mem_map.mp hd
      exact @ascii_forall (fun c => isIdentifierChar c = true → isIdentifierChar c.toUpper = true)
        (by decide +kernel) b (toNat_lt_of_isWordChar (hwords b (List.mem_cons_of_mem _ hb)))
        (List.all_eq_true.mp hcs b hb)

/-- No keyword but `gen` is missing in the table, and none is written in upper case only. -/
theorem constantName_notMem_keywords (e : EnumDef) {name : String}
    (h : isValidIdentifier name = true) (hreserved : reservedIn name = none)
    (hgen : e.constantName name ≠ "gen") : e.constantName name ∉ keywords := by
  intro hmem
  rw [EnumDef.constantName] at hmem hgen
  split at hmem
  · -- a keyword has a letter in lower case
    have hlower : ∀ k ∈ keywords, k.toList.any Char.isLower = true := by decide +kernel
    obtain ⟨c, hc, hclower⟩ := List.any_eq_true.mp (hlower _ hmem)
    have hupper : name.toUpper.toList = name.toList.map Char.toUpper := String.toList_map
    rw [hupper] at hc
    obtain ⟨d, hd, rfl⟩ := List.mem_map.mp hc
    exact absurd hclower (@ascii_forall (fun c => ¬ c.toUpper.isLower = true)
      (by decide +kernel) d (toNat_lt_of_isWordChar ((wordChars_of_identifier h).2 d hd)))
  · next hbitflag =>
    rw [if_neg hbitflag] at hgen
    have htable : ∀ k ∈ keywords, k = "gen" ∨ (k, "Rust") ∈ reservedWords := by
      decide +kernel
    have hsome := reservedIn_isSome ((htable name hmem).resolve_left hgen)
    rw [hreserved] at hsome
    cases hsome

theorem isName_constantName_iff (e : EnumDef) {name : String}
    (h : isValidIdentifier name = true) (hreserved : reservedIn name = none) :
    IsName (e.constantName name) ↔ e.constantName name ≠ "_" ∧ e.constantName name ≠ "gen" := by
  refine ⟨fun hname => ⟨hname.1, fun hgen => hname.2 (hgen ▸ by decide)⟩, fun hne => ?_⟩
  exact ⟨hne.1, constantName_notMem_keywords e h hreserved hne.2⟩

/-! ### The image of a variant -/

/-- What a variant is written as in a value. -/
def EnumDef.image (e : EnumDef) (ident : String) : String :=
  if e.bitflag then ident.toUpper else "Self::" ++ ident ++ " as " ++ e.repr.rustName

/-- The tokens a token of a value is written as. No token stands for `~`. -/
def EnumDef.translate (e : EnumDef) : SourceToken → List Token
  | .literal text value => [.literal text value]
  | .ref name           =>
    if e.bitflag then [.word (e.constantName name)]
    else [.word "Self", .pathSep, .word (e.constantName name), .word "as", .word e.repr.rustName]
  | .shl                => [.shl]
  | .pipe               => [.pipe]
  | .tilde              => []
  | .openParen          => [.openParen]
  | .closeParen         => [.closeParen]

theorem constantValue_eq (classes : CharClasses) (e : EnumDef) (v : EnumVariant) :
    e.constantValue classes v = substituteVariantRefs classes e.image e.variants v.value := by
  rw [EnumDef.constantValue]
  split
  · next hbitflag =>
    have himage : e.image = String.toUpper := funext fun ident => if_pos hbitflag
    rw [himage]
    rfl
  · next hbitflag =>
    have himage : e.image = fun ident => "Self::" ++ ident ++ " as " ++ e.repr.rustName :=
      funext fun ident => if_neg hbitflag
    rw [himage]
    rfl

/-- A text of word characters is one run. -/
theorem pieces_word {xs : List Char} (hne : xs ≠ []) (hxs : ∀ c ∈ xs, isWordChar c = true) :
    pieces isWordChar xs = [.run xs] := by
  have hrun := @pieces_run_append _ isWordChar xs [] hne hxs nofun
  rwa [List.append_nil] at hrun

theorem rustName_valid (repr : ReprType) : isValidIdentifier repr.rustName = true := by
  cases repr <;> decide

/-- The image of a variant in an ordinary enum, cut into pieces. -/
theorem pieces_variant {name type : String} (hname : isValidIdentifier name = true)
    (htype : isValidIdentifier type = true) :
    pieces isWordChar ("Self::" ++ name ++ " as " ++ type).toList =
      [.run "Self".toList, .one ':', .one ':', .run name.toList, .one ' ', .run "as".toList,
        .one ' ', .run type.toList] := by
  obtain ⟨hnne, hnword⟩ := wordChars_of_identifier hname
  obtain ⟨htne, htword⟩ := wordChars_of_identifier htype
  have hmaximal : MaximalRuns isWordChar
      [.run "Self".toList, .one ':', .one ':', .run name.toList, .one ' ', .run "as".toList,
        .one ' ', .run type.toList] := by
    refine .run (by decide) (chars_forall (by decide)) nofun
      (.one (by decide) (.one (by decide) ?_))
    refine .run hnne hnword nofun (.one (by decide) ?_)
    refine .run (by decide) (chars_forall (by decide)) nofun (.one (by decide) ?_)
    exact .run htne htword nofun .nil
  have htext : ("Self::" ++ name ++ " as " ++ type).toList =
      List.flatMap Piece.text [.run "Self".toList, .one ':', .one ':', .run name.toList,
        .one ' ', .run "as".toList, .one ' ', .run type.toList] := by
    simp [Piece.text, String.toList_append]
  rw [htext, pieces_text hmaximal]

/-- The image of a variant is read as the path of its constant. -/
theorem lexes_image (e : EnumDef) {name : String} (hname : isValidIdentifier name = true) :
    Lexes lexicon (pieces isWordChar (e.image name).toList) (e.translate (.ref name)) := by
  rw [EnumDef.image, EnumDef.translate, EnumDef.constantName]
  split
  · have hupper := isValidIdentifier_toUpper hname
    obtain ⟨hne, hwords⟩ := wordChars_of_identifier hupper
    rw [pieces_word hne hwords]
    exact .word (wordToken_identifier hupper) .nil
  · rw [pieces_variant hname (rustName_valid e.repr)]
    refine .word (t := Token.word "Self") (by decide) ?_
    refine .double (by decide) (by decide) (t := Token.pathSep) (by decide) ?_
    refine .word (wordToken_identifier hname) (.blank (by decide) ?_)
    refine .word (t := Token.word "as") (by decide) (.blank (by decide) ?_)
    exact .word (wordToken_identifier (rustName_valid e.repr)) .nil

/-! ### The tokens of the text -/

theorem single_cases {c : Char} {t : SourceToken} (h : sourceLexicon.single c = some t) :
    (c = '(' ∧ t = .openParen) ∨ (c = ')' ∧ t = .closeParen) ∨ (c = '|' ∧ t = .pipe) ∨
      (c = '~' ∧ t = .tilde) := by
  simp only [sourceLexicon] at h
  split at h
  · next hc => exact .inl ⟨hc, (Option.some.inj h).symm⟩
  · split at h
    · next hc => exact .inr (.inl ⟨hc, (Option.some.inj h).symm⟩)
    · split at h
      · next hc => exact .inr (.inr (.inl ⟨hc, (Option.some.inj h).symm⟩))
      · split at h
        · next hc => exact .inr (.inr (.inr ⟨hc, (Option.some.inj h).symm⟩))
        · cases h

theorem double_cases {c : Char} {t : SourceToken} (h : sourceLexicon.double c = some t) :
    c = '<' ∧ t = .shl := by
  simp only [sourceLexicon] at h
  split at h
  · next hc => exact ⟨hc, (Option.some.inj h).symm⟩
  · cases h

/-- A word is a literal or names a variant. -/
theorem sourceWord_cases {xs : List Char} {t : SourceToken} (h : sourceWord xs = some t) :
    (∃ value, literalValue xs = some value ∧ t = .literal (String.ofList xs) value ∧
      wordToken xs = some (.literal (String.ofList xs) value)) ∨
    (t = .ref (String.ofList xs) ∧ ¬ xs.head?.any isAsciiDigit = true) := by
  rw [sourceWord] at h
  split at h
  · next hdigit =>
    obtain ⟨value, hvalue, rfl⟩ := Option.map_eq_some_iff.mp h
    refine .inl ⟨value, hvalue, rfl, ?_⟩
    rw [wordToken, if_pos hdigit, hvalue]
    rfl
  · next hdigit => exact .inr ⟨(Option.some.inj h).symm, hdigit⟩

section
variable {classes : CharClasses} {e : EnumDef}

/-- The pieces of the text a cut value is written as. -/
def EnumDef.emittedPieces (e : EnumDef) (ps : List (Piece Char)) : List (Piece Char) :=
  ps.flatMap (Piece.replace fun xs => pieces isWordChar (substituteRun e.names e.image xs))

theorem Accepted.name_ne_empty (hacc : Accepted classes e) : "" ∉ e.names := by
  intro hempty
  obtain ⟨v, hv, hname⟩ := List.mem_map.mp hempty
  have hvalid := (hacc.names v hv).1
  rw [hname] at hvalid
  exact absurd hvalid (by decide)

theorem Accepted.valid_of_mem (hacc : Accepted classes e) {name : String} (h : name ∈ e.names) :
    isValidIdentifier name = true ∧ reservedIn name = none := by
  obtain ⟨v, hv, rfl⟩ := List.mem_map.mp h
  exact hacc.names v hv

/-- The text of a constant, cut into pieces. -/
theorem tokens_constantValue (hacc : Accepted classes e) {v : EnumVariant} {ts : List SourceToken}
    (hts : Lexes sourceLexicon (pieces isWordChar v.value.toList) ts) :
    tokens (e.constantValue classes v) =
      lex lexicon (e.emittedPieces (pieces isWordChar v.value.toList)) := by
  have hchars := @substituteChars_pieces classes e.names e.image hacc.name_ne_empty _
    (maximal_pieces v.value.toList) (fun c hc => isIdentContinue_of_one hts hc)
    v.value.toList.length (by rw [text_pieces])
  rw [text_pieces] at hchars
  have hmaximal : MaximalRuns isWordChar (e.emittedPieces (pieces isWordChar v.value.toList)) :=
    (maximal_pieces _).flatMap_replace fun xs _ => maximal_pieces _
  rw [constantValue_eq, substituteVariantRefs, tokens, String.toList_ofList]
  show lex lexicon (pieces isWordChar (substituteChars classes e.names e.image _ _)) = _
  rw [hchars]
  exact congrArg (lex lexicon) (pieces_text hmaximal)

/-- A literal without the name of a variant in it is copied. -/
theorem substituteRun_literal {xs : List Char} (h : literalTail (String.ofList xs) ∉ e.names) :
    substituteRun e.names e.image xs = xs := by
  rw [literalTail, String.toList_ofList] at h
  rw [substituteRun]
  rw [if_neg h, String.toList_ofList, List.takeWhile_append_dropWhile]

/-- A variant is written as its image. -/
theorem substituteRun_ref {xs : List Char} (hdigit : ¬ xs.head?.any isAsciiDigit = true)
    (h : String.ofList xs ∈ e.names) :
    substituteRun e.names e.image xs = (e.image (String.ofList xs)).toList := by
  have hspan : xs.takeWhile isAsciiDigit = [] ∧ xs.dropWhile isAsciiDigit = xs := by
    cases xs with
    | nil => exact ⟨rfl, rfl⟩
    | cons c cs =>
      rw [List.head?_cons, Option.any_some] at hdigit
      exact ⟨List.takeWhile_cons_of_neg hdigit, List.dropWhile_cons_of_neg hdigit⟩
  rw [substituteRun, hspan.1, hspan.2]
  rw [if_pos h, List.nil_append]

/-- The tokens of the text are the translated tokens of the value, where the blanks, the
literals and the operators survive. -/
theorem tokens_emitted (hacc : Accepted classes e) {ps : List (Piece Char)}
    {ts : List SourceToken} (hts : Lexes sourceLexicon ps ts) (hps : MaximalRuns isWordChar ps)
    (hrefs : ∀ name, SourceToken.ref name ∈ ts → name ∈ e.names)
    (hblanks : ∀ c, Piece.one c ∈ ps → isWhitespace c = true → isPatternWhitespace c = true)
    (hliterals : ∀ text value, SourceToken.literal text value ∈ ts → literalTail text ∉ e.names)
    (htilde : SourceToken.tilde ∉ ts) :
    Lexes lexicon (e.emittedPieces ps) (ts.flatMap e.translate) := by
  refine hts.flatMap_replace hblanks (fun xs t hxs ht => ?_) (fun c t hc _ ht => ?_)
    fun c t hc _ _ ht => ?_
  · obtain ⟨t', ht', hword⟩ := hts.word_of_mem hxs
    obtain rfl := Option.some.inj (ht.symm.trans hword)
    rcases sourceWord_cases ht with ⟨value, hvalue, rfl, hrust⟩ | ⟨rfl, hdigit⟩
    · have hrun : xs ≠ [] ∧ ∀ c ∈ xs, isWordChar c = true := hps.of_mem hxs
      rw [substituteRun_literal (hliterals _ _ ht'), pieces_word hrun.1 hrun.2]
      exact .word hrust .nil
    · have hname := hrefs _ ht'
      rw [substituteRun_ref hdigit hname]
      exact lexes_image e (hacc.valid_of_mem hname).1
  · rcases single_cases ht with ⟨rfl, rfl⟩ | ⟨rfl, rfl⟩ | ⟨rfl, rfl⟩ | ⟨rfl, rfl⟩
    · exact ⟨.openParen, by decide, by decide, rfl⟩
    · exact ⟨.closeParen, by decide, by decide, rfl⟩
    · exact ⟨.pipe, by decide, by decide, rfl⟩
    · -- the value holds no `~`
      rcases hts.one_of_mem hc with hblank | ⟨t, hmem, hsingle | hdouble⟩
      · exact absurd hblank (by decide)
      · obtain rfl := Option.some.inj (ht.symm.trans hsingle)
        exact absurd hmem htilde
      · exact absurd (double_cases hdouble).1 (by decide)
  · obtain ⟨rfl, rfl⟩ := double_cases ht
    exact ⟨.shl, by decide, by decide, by decide, rfl⟩

end

/-! ### The tree of the text -/

/-- The expression a value is written as. -/
def EnumDef.toRust (e : EnumDef) : SourceExpr → ConstExpr
  | .operand (.literal text value) => .operand (.literal text value)
  | .operand (.ref name)           =>
    if e.bitflag then .operand (.constant (e.constantName name))
    else .suffix (.operand (.variant (e.constantName name))) e.repr.rustName
  | .negate s                      => .negate (e.toRust s)
  | .binary k l r                  => .binary k (e.toRust l) (e.toRust r)

theorem operands_toRust (e : EnumDef) (s : SourceExpr) :
    (e.toRust s).operands = s.operands.map e.operandImage := by
  induction s with
  | operand a =>
    cases a with
    | literal text value => rfl
    | ref name =>
      rw [EnumDef.toRust, Expr.operands, List.map_cons, EnumDef.operandImage]
      split
      · rfl
      · rfl
  | negate s ih => exact ih
  | suffix s b ih => cases b
  | binary k l r ihl ihr =>
    rw [EnumDef.toRust, Expr.operands, ihl, ihr, Expr.operands, List.map_append]

/-- What the translation of a phrase of the value is a phrase of. A variant is cast, so
an operand need not be one of Rust. -/
def Translated (e : EnumDef) : Phrase SourceOperand Empty → List Token → SourceExpr → Prop
  | .primary, ts, s     => Derives grammar (.level 0) ts (e.toRust s)
  | .unary, ts, s       => Derives grammar (.level 0) ts (e.toRust s)
  | .suffixes s₀, ts, s => ts = [] ∧ s = s₀
  | .level k, ts, s     => Derives grammar (.level k) ts (e.toRust s)
  | .chain k s₀, ts, s  => Derives grammar (.chain k (e.toRust s₀)) ts (e.toRust s)

theorem translate_operator (e : EnumDef) {k : Nat} {t : SourceToken}
    (h : sourceGrammar.operators[k]? = some t) :
    ∃ t', grammar.operators[k]? = some t' ∧ e.translate t = [t'] := by
  match k with
  | 0     =>
    obtain rfl := Option.some.inj h
    exact ⟨.shl, rfl, rfl⟩
  | 1     =>
    obtain rfl := Option.some.inj h
    exact ⟨.pipe, rfl, rfl⟩
  | k + 2 => cases h

/-- The translation keeps the tree. -/
theorem derives_translate (e : EnumDef) {p : Phrase SourceOperand Empty} {ts : List SourceToken}
    {s : SourceExpr} (h : Derives sourceGrammar p ts s) (htilde : SourceToken.tilde ∉ ts)
    (hrefs : ∀ name, SourceToken.ref name ∈ ts → IsName (e.constantName name)) :
    Translated e p (ts.flatMap e.translate) s := by
  induction h with
  | @operand ts a h =>
    cases h with
    | literal text value => exact .of_unary (.plain (.operand (OperandTokens.literal text value)))
    | ref name =>
      have hname := hrefs name List.mem_cons_self
      show Derives grammar (.level 0) (e.translate (.ref name) ++ []) _
      rw [List.append_nil, EnumDef.translate, EnumDef.toRust]
      split
      · exact .of_unary (.plain (.operand (OperandTokens.constant hname)))
      · have htype : IsName e.repr.rustName := by cases e.repr <;> decide
        have hcast : grammar.suffix [.word "as", .word e.repr.rustName] e.repr.rustName :=
          CastTokens.cast htype
        exact Derives.bottom (.plain (.operand (OperandTokens.variant hname)))
          (.suffix hcast .noSuffix)
  | @group ts s h ih =>
    have hinner : Derives grammar (.level 2) (ts.flatMap e.translate) (e.toRust s) :=
      ih (fun ht => htilde (by simp [ht])) fun name hn => hrefs name (by simp [hn])
    show Derives grammar (.level 0)
      (.openParen :: (ts ++ [SourceToken.closeParen]).flatMap e.translate) _
    rw [List.flatMap_append]
    exact .of_unary (.plain (.group hinner))
  | plain h ih => exact ih htilde hrefs
  | negate h ih => exact absurd List.mem_cons_self htilde
  | noSuffix => exact ⟨rfl, rfl⟩
  | suffix hb h ih => exact hb.elim
  | bottom h hs ih ihs =>
    obtain ⟨hts, rfl⟩ := ihs (fun ht => htilde (List.mem_append_right _ ht))
      fun name hn => hrefs name (List.mem_append_right _ hn)
    rw [List.flatMap_append, hts, List.append_nil]
    exact ih (fun ht => htilde (List.mem_append_left _ ht))
      fun name hn => hrefs name (List.mem_append_left _ hn)
  | level h hs ih ihs =>
    rw [List.flatMap_append]
    exact .level
      (ih (fun ht => htilde (List.mem_append_left _ ht))
        fun name hn => hrefs name (List.mem_append_left _ hn))
      (ihs (fun ht => htilde (List.mem_append_right _ ht))
        fun name hn => hrefs name (List.mem_append_right _ hn))
  | noOperator => exact .noOperator
  | operator ht h hs ih ihs =>
    obtain ⟨t', ht', heq⟩ := translate_operator e ht
    rw [List.flatMap_cons, heq, List.singleton_append, List.flatMap_append]
    have hfirst : Derives grammar (.level _) _ _ :=
      ih (fun h => htilde (List.mem_cons_of_mem _ (List.mem_append_left _ h)))
      fun name hn => hrefs name (List.mem_cons_of_mem _ (List.mem_append_left _ hn))
    have hrest := ihs (fun h => htilde (List.mem_cons_of_mem _ (List.mem_append_right _ h)))
      fun name hn => hrefs name (List.mem_cons_of_mem _ (List.mem_append_right _ hn))
    exact Derives.operator ht' hfirst hrest

theorem shiftAfterCast_cons {t : Token} (ht : t ≠ .word "as") (ts : List Token) :
    shiftAfterCast (t :: ts) = shiftAfterCast ts := by
  rw [shiftAfterCast, decide_eq_false ht]
  rfl

theorem shiftAfterRef_cons {t : SourceToken} (ht : t.isRef = false) (ts : List SourceToken) :
    shiftAfterRef (t :: ts) = shiftAfterRef ts := by
  rw [shiftAfterRef, ht]
  rfl

/-- The translation starts with `<<` where the value does. -/
theorem head?_translate (e : EnumDef) {ts : List SourceToken} (htilde : SourceToken.tilde ∉ ts) :
    (ts.flatMap e.translate).head? = some .shl ↔ ts.head? = some .shl := by
  cases ts with
  | nil => simp
  | cons t ts =>
    rw [List.flatMap_cons]
    cases t with
    | literal text value => simp [EnumDef.translate]
    | ref name =>
      rw [EnumDef.translate]
      split
      · simp
      · simp
    | shl => simp [EnumDef.translate]
    | pipe => simp [EnumDef.translate]
    | tilde => exact absurd List.mem_cons_self htilde
    | openParen => simp [EnumDef.translate]
    | closeParen => simp [EnumDef.translate]

/-- A shift stands after a cast where it stood after a variant. -/
theorem shiftAfterCast_translate (e : EnumDef) {ts : List SourceToken}
    (htilde : SourceToken.tilde ∉ ts)
    (hrefs : ∀ name, SourceToken.ref name ∈ ts → IsName (e.constantName name)) :
    shiftAfterCast (ts.flatMap e.translate) = (!e.bitflag && shiftAfterRef ts) := by
  induction ts with
  | nil => simp [shiftAfterCast, shiftAfterRef]
  | cons t ts ih =>
    have hlater := ih (fun h => htilde (List.mem_cons_of_mem _ h))
      fun name hn => hrefs name (List.mem_cons_of_mem _ hn)
    rw [List.flatMap_cons]
    cases t with
    | ref name =>
      have hname : e.constantName name ≠ "as" := fun heq =>
        (hrefs name List.mem_cons_self).2 (heq ▸ by decide)
      have hhead := head?_translate e fun h => htilde (List.mem_cons_of_mem _ h)
      rw [EnumDef.translate]
      split
      · next hbitflag =>
        rw [hbitflag] at hlater ⊢
        exact (shiftAfterCast_cons (fun h => hname (Token.word.inj h)) _).trans hlater
      · next hbitflag =>
        have htype : e.repr.rustName ≠ "as" := by cases e.repr <;> decide
        rw [Bool.eq_false_iff.mpr hbitflag] at hlater ⊢
        show shiftAfterCast (.word "Self" :: .pathSep :: .word (e.constantName name) ::
          .word "as" :: .word e.repr.rustName :: ts.flatMap e.translate) = _
        rw [shiftAfterCast_cons (by decide), shiftAfterCast_cons (by decide),
          shiftAfterCast_cons (fun h => hname (Token.word.inj h)), shiftAfterCast,
          shiftAfterCast_cons (fun h => htype (Token.word.inj h)), hlater, shiftAfterRef]
        have hnext : (.word e.repr.rustName :: ts.flatMap e.translate : List Token)[1]? =
            (ts.flatMap e.translate).head? := by
          rw [List.getElem?_cons_succ, List.head?_eq_getElem?]
        simp only [hnext, hhead, SourceToken.isRef, decide_true, Bool.not_false, Bool.true_and]
    | tilde => exact absurd List.mem_cons_self htilde
    | literal text value =>
      rw [shiftAfterRef_cons rfl, ← hlater]
      exact shiftAfterCast_cons (t := .literal text value) nofun _
    | shl =>
      rw [shiftAfterRef_cons rfl, ← hlater]
      exact shiftAfterCast_cons (t := .shl) nofun _
    | pipe =>
      rw [shiftAfterRef_cons rfl, ← hlater]
      exact shiftAfterCast_cons (t := .pipe) nofun _
    | openParen =>
      rw [shiftAfterRef_cons rfl, ← hlater]
      exact shiftAfterCast_cons (t := .openParen) nofun _
    | closeParen =>
      rw [shiftAfterRef_cons rfl, ← hlater]
      exact shiftAfterCast_cons (t := .closeParen) nofun _

/-! ### Well-formed texts -/

section
variable {classes : CharClasses} {e : EnumDef}

/-- The variants of a value are the operands of its tree. -/
theorem ref_mem_operands {ts : List SourceToken} {s : SourceExpr} {k : Nat}
    (h : Derives sourceGrammar (.level k) ts s) {name : String} :
    SourceToken.ref name ∈ ts ↔ SourceOperand.ref name ∈ s.operands := by
  let operandOf : SourceToken → List SourceOperand := fun t =>
    match t with
    | .literal text value => [.literal text value]
    | .ref name           => [.ref name]
    | _                   => []
  have hoperands : s.operands = [] ++ ts.flatMap operandOf :=
    h.operands_eq (fun ts a ha => by cases ha <;> rfl) (fun _ _ hb => False.elim hb) rfl rfl rfl
      (fun t ht => by
        have ht : t ∈ [SourceToken.shl, .pipe] := ht
        rcases List.mem_cons.mp ht with rfl | ht
        · rfl
        · obtain rfl := List.mem_singleton.mp ht
          rfl)
  rw [hoperands, List.nil_append, List.mem_flatMap]
  constructor
  · exact fun h => ⟨_, h, List.mem_singleton_self _⟩
  · rintro ⟨t, ht, hmem⟩
    cases t with
    | ref name' =>
      obtain rfl := SourceOperand.ref.inj (List.mem_singleton.mp hmem)
      exact ht
    | literal text value => exact nomatch List.mem_singleton.mp hmem
    | shl => cases hmem
    | pipe => cases hmem
    | tilde => cases hmem
    | openParen => cases hmem
    | closeParen => cases hmem

/-- A single character of a cut text is one of the text. -/
theorem mem_of_one_mem {p : Char → Bool} {xs : List Char} {c : Char}
    (h : Piece.one c ∈ pieces p xs) : c ∈ xs := by
  have hmem : c ∈ (pieces p xs).flatMap Piece.text :=
    List.mem_flatMap.mpr ⟨_, h, List.mem_singleton_self c⟩
  rwa [text_pieces] at hmem

/-- A constant's text reads as the expression its variant's value is written as. -/
theorem reads_toRust (hacc : Accepted classes e) {v : EnumVariant} {ts : List SourceToken}
    {s : SourceExpr} (hts : sourceTokens v.value = some ts)
    (hs : Derives sourceGrammar (.level 2) ts s)
    (hrefs : ∀ name, SourceToken.ref name ∈ ts → name ∈ e.names)
    (hblanks : ∀ c ∈ v.value.toList, isWhitespace c = true → isPatternWhitespace c = true)
    (h : TokensEmittable e ts) : Reads (e.constantValue classes v) (e.toRust s) := by
  have hlexes := Lexes.of_lex hts
  have hnames : ∀ name, SourceToken.ref name ∈ ts → IsName (e.constantName name) := by
    intro name hname
    obtain ⟨hvalid, hreserved⟩ := hacc.valid_of_mem (hrefs name hname)
    exact (isName_constantName_iff e hvalid hreserved).mpr (h.refs name hname)
  refine ⟨ts.flatMap e.translate, ?_, derives_translate e hs h.tilde hnames, ?_⟩
  · rw [tokens_constantValue hacc hlexes]
    exact (tokens_emitted hacc hlexes (maximal_pieces _) hrefs
      (fun c hc => hblanks c (mem_of_one_mem hc)) h.literals h.tilde).lex_eq
  · rw [shiftAfterCast_translate e h.tilde hnames]
    cases hbitflag : e.bitflag with
    | true => rfl
    | false => exact h.shifts hbitflag

theorem one_mem_emittedPieces {ps : List (Piece Char)} {c : Char} (h : Piece.one c ∈ ps) :
    Piece.one c ∈ e.emittedPieces ps :=
  List.mem_flatMap.mpr ⟨_, h, List.mem_singleton_self _⟩

/-- A `0` followed by a letter other than `x` and `b` starts no literal. -/
theorem wordToken_eq_none {c : Char} (hc : c ∉ ['x', 'b']) (hdigit : isAsciiDigit c = false)
    (cs : List Char) : wordToken ('0' :: c :: cs) = none := by
  simp only [List.mem_cons, List.not_mem_nil, or_false, not_or] at hc
  have hnone : literalValue ('0' :: c :: cs) = none := by
    rw [literalValue]
    · rw [if_neg]
      rintro ⟨-, hall⟩
      simp only [List.all_cons, hdigit, Bool.false_and, Bool.and_false] at hall
      cases hall
    · rintro _ heq
      exact hc.1 (List.cons.inj (List.cons.inj heq).2).1
    · rintro _ heq
      exact hc.2 (List.cons.inj (List.cons.inj heq).2).1
  rw [wordToken, List.head?_cons, Option.any_some,
    if_pos (show isAsciiDigit '0' = true by decide), hnone]
  rfl

/-- A literal that goes on with the name of a variant is broken up. -/
theorem broken_literal (hacc : Accepted classes e) {xs : List Char} {value : Nat}
    (h : literalValue xs = some value) (htail : literalTail (String.ofList xs) ∈ e.names) :
    ∃ ys, Piece.run ys ∈ pieces isWordChar (substituteRun e.names e.image xs) ∧
      wordToken ys = none := by
  have hvalid := (hacc.valid_of_mem htail).1
  rw [literalTail, String.toList_ofList] at htail hvalid
  have hletter : ∃ c cs, xs = '0' :: c :: cs ∧ (c = 'x' ∨ c = 'b') := by
    rcases literal_cases h with ⟨hs, rfl, -⟩ | ⟨bs, rfl, -⟩ | hdigits
    · exact ⟨'x', hs, rfl, .inl rfl⟩
    · exact ⟨'b', bs, rfl, .inr rfl⟩
    · rw [List.dropWhile_eq_nil_iff.mpr hdigits] at hvalid
      exact absurd hvalid (by decide)
  obtain ⟨c, cs, rfl, hc⟩ := hletter
  have hdigit : ¬ isAsciiDigit c = true := by rcases hc with rfl | rfl <;> decide
  have hspan : ('0' :: c :: cs).takeWhile isAsciiDigit = ['0'] ∧
      ('0' :: c :: cs).dropWhile isAsciiDigit = c :: cs := by
    rw [List.takeWhile_cons_of_pos (by decide), List.dropWhile_cons_of_pos (by decide),
      List.takeWhile_cons_of_neg hdigit, List.dropWhile_cons_of_neg hdigit]
    exact ⟨rfl, rfl⟩
  rw [hspan.2] at htail hvalid
  rw [substituteRun, hspan.1, hspan.2, if_pos htail, EnumDef.image]
  split
  · -- the prefix of the base is written in upper case
    have hupper : (String.ofList (c :: cs)).toUpper.toList = c.toUpper :: cs.map Char.toUpper := by
      show (String.map Char.toUpper _).toList = _
      rw [String.toList_map, String.toList_ofList, List.map_cons]
    have hwords := (wordChars_of_identifier (isValidIdentifier_toUpper hvalid)).2
    rw [hupper] at hwords ⊢
    rw [List.singleton_append, pieces_word (by simp) (fun d hd => by
      rcases List.mem_cons.mp hd with rfl | hd
      · decide
      · exact hwords d hd)]
    refine ⟨_, List.mem_singleton_self _, wordToken_eq_none ?_ ?_ _⟩
    · rcases hc with rfl | rfl <;> decide
    · rcases hc with rfl | rfl <;> decide
  · -- the digit runs on into `Self`
    have htext : ['0'] ++ ("Self::" ++ String.ofList (c :: cs) ++ " as " ++
        e.repr.rustName).toList = '0' :: "Self".toList ++ ':' :: ("".toList ++ (':' ::
          (String.ofList (c :: cs)).toList ++ " as ".toList ++ e.repr.rustName.toList)) := by
      simp [String.toList_append]
    have hcolon : ∀ rest : List Char, pieces isWordChar (':' :: rest) =
        .one ':' :: pieces isWordChar rest := fun rest => if_neg (by decide)
    rw [htext, pieces_run_append (by simp) (chars_forall (by decide))
      (by rw [hcolon]; simp)]
    exact ⟨_, List.mem_cons_self, by decide⟩

/-- A well-formed text with the operands of the value comes from a value that survives. -/
theorem emittable_of_reads (hacc : Accepted classes e) {v : EnumVariant}
    {ts : List SourceToken} {s : SourceExpr} {r : ConstExpr}
    (hts : sourceTokens v.value = some ts) (hs : Derives sourceGrammar (.level 2) ts s)
    (hrefs : ∀ name, SourceToken.ref name ∈ ts → name ∈ e.names)
    (hr : Reads (e.constantValue classes v) r)
    (hoperands : r.operands = s.operands.map e.operandImage) :
    (∀ c ∈ v.value.toList, isWhitespace c = true → isPatternWhitespace c = true) ∧
      TokensEmittable e ts := by
  have hlexes := Lexes.of_lex hts
  obtain ⟨rts, hrts, htree, hshift⟩ := hr
  rw [tokens_constantValue hacc hlexes] at hrts
  have hemitted := Lexes.of_lex hrts
  -- A character between the words is copied, and Rust has to skip it or know it.
  have hblanks : ∀ c, Piece.one c ∈ pieces isWordChar v.value.toList →
      isWhitespace c = true → isPatternWhitespace c = true := by
    intro c hc hblank
    rcases hemitted.one_of_mem (one_mem_emittedPieces hc) with hskip | ⟨t, -, ht⟩
    · exact hskip
    · have hsymbols : ∀ d ∈ ['(', ')', '|', '!', '<', ':'], isWhitespace d = false :=
        chars_forall (by decide)
      have hc : c ∈ ['(', ')', '|', '!', '<', ':'] := by
        refine Decidable.byContradiction fun hc => ?_
        simp only [List.mem_cons, List.not_mem_nil, or_false, not_or] at hc
        simp [lexicon, hc] at ht
      exact absurd hblank (Bool.eq_false_iff.mp (hsymbols c hc))
  have htilde : SourceToken.tilde ∉ ts := by
    intro ht
    rcases hlexes.exists_of_mem ht with ⟨xs, -, hword⟩ | ⟨c, hc, -, hsingle | hdouble⟩
    · rcases sourceWord_cases hword with ⟨value, -, heq, -⟩ | ⟨heq, -⟩
      · cases heq
      · cases heq
    · rcases single_cases hsingle with ⟨-, heq⟩ | ⟨-, heq⟩ | ⟨-, heq⟩ | ⟨rfl, -⟩
      · cases heq
      · cases heq
      · cases heq
      · -- a `~` is no token of Rust
        rcases hemitted.one_of_mem (one_mem_emittedPieces hc) with hskip | ⟨t, -, ht⟩
        · exact absurd hskip (by decide)
        · exact ht.elim nofun nofun
    · exact nomatch (double_cases hdouble).2
  -- A literal that ends in the name of a variant is broken by the substitution.
  have hliterals : ∀ text value, SourceToken.literal text value ∈ ts →
      literalTail text ∉ e.names := by
    intro text value ht htail
    rcases hlexes.exists_of_mem ht with ⟨xs, hxs, hword⟩ | ⟨c, -, -, hsingle | hdouble⟩
    · rcases sourceWord_cases hword with ⟨value', hvalue, heq, -⟩ | ⟨heq, -⟩
      · obtain ⟨rfl, rfl⟩ := SourceToken.literal.inj heq
        obtain ⟨ys, hys, hnone⟩ := broken_literal hacc hvalue htail
        obtain ⟨t, -, hsome⟩ := hemitted.word_of_mem (List.mem_flatMap.mpr ⟨_, hxs, hys⟩)
        exact nomatch hnone.symm.trans hsome
      · cases heq
    · rcases single_cases hsingle with ⟨-, heq⟩ | ⟨-, heq⟩ | ⟨-, heq⟩ | ⟨-, heq⟩ <;>
        cases heq
    · exact nomatch (double_cases hdouble).2
  -- The operands that were read are names.
  have hnames : ∀ name, SourceToken.ref name ∈ ts → IsName (e.constantName name) := by
    intro name hname
    have hmem : e.operandImage (.ref name) ∈ r.operands := by
      rw [hoperands]
      exact List.mem_map_of_mem ((ref_mem_operands hs).mp hname)
    obtain ⟨us, hus⟩ := (htree.operand_of_mem hmem).resolve_left nofun
    have hus : OperandTokens us (e.operandImage (.ref name)) := hus
    rw [EnumDef.operandImage] at hus
    split at hus
    · cases hus with
      | constant h => exact h
    · cases hus with
      | variant h => exact h
  refine ⟨fun c hc hblank => ?_, htilde, hliterals, fun name hname => ?_, fun hbitflag => ?_⟩
  · -- a word holds no blank
    have hmem : c ∈ (pieces isWordChar v.value.toList).flatMap Piece.text := by
      rwa [text_pieces]
    obtain ⟨q, hq, hcq⟩ := List.mem_flatMap.mp hmem
    cases q with
    | run xs =>
      have hword := ((maximal_pieces (p := isWordChar) v.value.toList).of_mem hq).2 c hcq
      exact absurd hblank (Bool.eq_false_iff.mp (isWhitespace_of_identifierChar hword))
    | one d =>
      obtain rfl := List.mem_singleton.mp hcq
      exact hblanks c hq hblank
  · obtain ⟨hvalid, hreserved⟩ := hacc.valid_of_mem (hrefs name hname)
    exact (isName_constantName_iff e hvalid hreserved).mp (hnames name hname)
  · have htranslated := tokens_emitted hacc hlexes (maximal_pieces _) hrefs hblanks hliterals htilde
    obtain rfl := Option.some.inj (htranslated.lex_eq.symm.trans hrts)
    rw [shiftAfterCast_translate e htilde hnames, hbitflag] at hshift
    exact hshift

end

end PolyPlug.Codegen
