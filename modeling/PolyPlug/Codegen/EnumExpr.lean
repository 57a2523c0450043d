import PolyPlug.Codegen.Enums

/-!
# `PolyPlug.Codegen.EnumExpr`: what the value of a variant says

The meaning of the value expressions of `api.toml`, apart from any target language. A value is
an expression over decimal, `0x` and `0b` literals and the variants declared before
it, with `~`, `<<`, `|` and parentheses. `~` binds tightest, then `<<`, then `|`. It
means unsigned arithmetic in the width of the representation: a literal that does not fit
the width, or a shift by the width or more, has no value there.

`EmissionPreserves` says that the constants an enum is written as carry the values of
its variants, and `Emittable` is the condition on the enum under which they do.
-/

set_option autoImplicit false

namespace PolyPlug.Codegen

open PolyPlug.Lib
open PolyPlug.Rust

/-! ### Expressions -/

/-- A token of a value. -/
inductive SourceToken where
  | literal (text : String) (value : Nat)
  | ref (name : String)
  | shl
  | pipe
  | tilde
  | openParen
  | closeParen
deriving DecidableEq

/-- A run of word characters is a literal where it starts with a digit. -/
def sourceWord (cs : List Char) : Option SourceToken :=
  if cs.head?.any isAsciiDigit then
    (literalValue cs).map (.literal (String.ofList cs))
  else some (.ref (String.ofList cs))

/-- The tokens of a value. -/
def sourceLexicon : Lexicon Char SourceToken where
  blank := isWhitespace
  word := sourceWord
  single c :=
    if c = '(' then some .openParen
    else if c = ')' then some .closeParen
    else if c = '|' then some .pipe
    else if c = '~' then some .tilde
    else none
  double c := if c = '<' then some .shl else none

/-- The tokens of a text. -/
def sourceTokens (text : String) : Option (List SourceToken) :=
  lex sourceLexicon (pieces isWordChar text.toList)

/-- An operand of a value. -/
inductive SourceOperand where
  | literal (text : String) (value : Nat)
  | ref (name : String)
deriving DecidableEq

/-- The token of an operand. -/
inductive SourceOperandTokens : List SourceToken → SourceOperand → Prop where
  | literal (text : String) (value : Nat) :
      SourceOperandTokens [.literal text value] (.literal text value)
  | ref (name : String) : SourceOperandTokens [.ref name] (.ref name)

/-- The grammar of values. Nothing is written after an operand. -/
def sourceGrammar : Grammar SourceToken SourceOperand Empty where
  operand := SourceOperandTokens
  suffix _ _ := False
  negation := .tilde
  opening := .openParen
  closing := .closeParen
  operators := [.shl, .pipe]

/-- A value expression. -/
abbrev SourceExpr := Lib.Expr SourceOperand Empty

/-- The text is a well-formed value with the tree `s`. -/
def SourceReads (text : String) (s : SourceExpr) : Prop :=
  ∃ ts, sourceTokens text = some ts ∧ Derives sourceGrammar (.level 2) ts s

/-! ### Values -/

/-- The width of a representation. -/
def ReprType.bits : ReprType → Nat
  | .u8  => 8
  | .u16 => 16
  | .u32 => 32
  | .u64 => 64

/-- The type of a representation. -/
def ReprType.type (repr : ReprType) : IntType := unsigned repr.bits

/-- The value of an operand at a type. A variant has the type of its enum. -/
def sourceOperandValue (repr : ReprType) (env : String → Option Nat) (ty : IntType) :
    SourceOperand → Option Nat
  | .literal _ value => if value < ty.limit then some value else none
  | .ref name        => if ty = repr.type then env name else none

/-- The meaning of a value: everything is computed in the width of the representation. -/
def sourceValue (repr : ReprType) (env : String → Option Nat) (s : SourceExpr) : Option Nat :=
  arithmetic (fun _ => repr.type) (sourceOperandValue repr env) (fun _ _ _ => none) repr.type s

/-- A variant in the value determines its type. The amount of a shift does not count. -/
def namesVariant : SourceExpr → Bool
  | .operand (.literal _ _) => false
  | .operand (.ref _)       => true
  | .negate s               => namesVariant s
  | .binary k l r           => namesVariant l || (k ≠ 0 && namesVariant r)

/-- The value where the amount of a shift that names no variant is computed in
32 bits, with literals below `2 ^ 31`. -/
def computedValue (repr : ReprType) (env : String → Option Nat) (s : SourceExpr) : Option Nat :=
  arithmetic (fun amount => if namesVariant amount then repr.type else i32)
    (sourceOperandValue repr env) (fun _ _ _ => none) repr.type s

/-- The value of the first entry with a name. -/
def lookupValue (env : List (String × Option Nat)) (name : String) : Option Nat :=
  (env.find? fun entry => entry.1 = name).bind (·.2)

/-- The values of named expressions in order, each over those before it. -/
def valuesFrom {ε : Type*} (eval : (String → Option Nat) → ε → Option Nat) :
    List (String × Option Nat) → List (String × ε) → List (Option Nat)
  | _, []               => []
  | env, (name, e) :: rest =>
    eval (lookupValue env) e ::
      valuesFrom eval (env ++ [(name, eval (lookupValue env) e)]) rest

/-- The names of the variants. -/
def EnumDef.names (e : EnumDef) : List String := e.variants.map EnumVariant.name

/-- The names of the constants. -/
def EnumDef.constantNames (e : EnumDef) : List String := e.names.map e.constantName

/-- The values of the variants. -/
def EnumDef.sourceValues (e : EnumDef) (source : List SourceExpr) : List (Option Nat) :=
  valuesFrom (sourceValue e.repr) [] (e.names.zip source)

/-- The values of the variants with the amounts computed in 32 bits. -/
def EnumDef.computedValues (e : EnumDef) (source : List SourceExpr) : List (Option Nat) :=
  valuesFrom (computedValue e.repr) [] (e.names.zip source)

/-- The values of the constants. -/
def EnumDef.rustValues (e : EnumDef) (rust : List ConstExpr) : List (Option Nat) :=
  valuesFrom (fun env r => evaluate e.repr.type e.repr.rustName env r) []
    (e.constantNames.zip rust)

/-! ### The property and its condition -/

/-- What an operand is written as: a literal as it is, a variant as the path of its
constant. -/
def EnumDef.operandImage (e : EnumDef) : SourceOperand → Operand
  | .literal text value => .literal text value
  | .ref name           =>
    if e.bitflag then .constant (e.constantName name) else .variant (e.constantName name)

/-- `source` are the trees of the variants' values. -/
def EnumDef.WellFormed (e : EnumDef) (source : List SourceExpr) : Prop :=
  List.Forall₂ (fun (v : EnumVariant) s => SourceReads v.value s) e.variants source

/-- The text of every constant is a well-formed expression with the operands of the
variant's value, a variant's value is the value of its constant, and the constants of a bitflag
have different names. -/
def EmissionPreserves (classes : CharClasses) (e : EnumDef) (source : List SourceExpr) : Prop :=
  ∃ rust : List ConstExpr,
    List.Forall₂ (fun (text : String) r => Reads text r)
      ((generateRustEnum classes e).map Prod.snd) rust ∧
    List.Forall₂ (fun (s : SourceExpr) (r : ConstExpr) =>
      r.operands = s.operands.map e.operandImage) source rust ∧
    List.Forall₂ (fun value rustValue => ∀ n, value = some n → rustValue = some n)
      (e.sourceValues source) (e.rustValues rust) ∧
    (e.bitflag = true → ((generateRustEnum classes e).map Prod.fst).Nodup)

/-- The part of a literal after its leading digits. -/
def literalTail (text : String) : String := String.ofList (text.toList.dropWhile isAsciiDigit)

def SourceToken.isRef : SourceToken → Bool
  | .ref _ => true
  | _      => false

/-- A `<<` that stands directly after a variant. -/
def shiftAfterRef : List SourceToken → Bool
  | []      => false
  | t :: ts => (t.isRef && ts.head? = some .shl) || shiftAfterRef ts

/-- The tokens of a value that survive the substitution: no `~`; no `0x` or `0b` literal that
goes on, after its `0`, with the name of a variant; no variant whose constant is called `_` or
`gen`; and in an ordinary enum no `<<` directly after a variant. -/
structure TokensEmittable (e : EnumDef) (ts : List SourceToken) : Prop where
  tilde : SourceToken.tilde ∉ ts
  literals : ∀ text value, SourceToken.literal text value ∈ ts → literalTail text ∉ e.names
  refs : ∀ name, SourceToken.ref name ∈ ts →
    e.constantName name ≠ "_" ∧ e.constantName name ≠ "gen"
  shifts : e.bitflag = false → shiftAfterRef ts = false

/-- The enums whose values survive: the blanks are blanks of Rust, the tokens of every
value survive, every variant that has a value has it with literal shift amounts
computed in 32 bits, and no two constants of a bitflag share a name. -/
structure Emittable (e : EnumDef) (source : List SourceExpr) : Prop where
  blanks : ∀ v ∈ e.variants, ∀ c ∈ v.value.toList, isWhitespace c = true →
    isPatternWhitespace c = true
  tokens : ∀ v ∈ e.variants, ∀ ts, sourceTokens v.value = some ts → TokensEmittable e ts
  amounts : List.Forall₂ (fun value computed => value.isSome = true → computed.isSome = true)
    (e.sourceValues source) (e.computedValues source)
  names : e.bitflag = true → e.constantNames.Nodup

end PolyPlug.Codegen
