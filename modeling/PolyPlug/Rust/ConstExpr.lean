import PolyPlug.Lib.Lexer
import PolyPlug.Lib.Precedence
import PolyPlug.Rust.Str

/-!
# `PolyPlug.Rust.ConstExpr`: integer constant expressions of Rust

The part of Rust's expressions that an enum is emitted with: integer literals, the
path of a constant or of a variant, `!`, casts with `as`, `<<`, `|` and parentheses.

`Reads text e` says that a text is a well-formed expression with the tree `e`. A cast
binds tighter than `<<`, and `<<` tighter than `|`. `x as T << n` is refused, because
`T <` starts a list of generic arguments. Suffixes and underscores of literals and
identifiers outside ASCII are left out.

`evaluate` is the value at an integer type. Rust takes the type of a shift
amount from the amount alone: an amount that names no constant is an `i32`.
-/

set_option autoImplicit false

namespace PolyPlug.Rust

open PolyPlug.Lib

/-! ### Tokens -/

/-- `Pattern_White_Space`: the characters that separate the tokens of Rust. -/
def isPatternWhitespace (c : Char) : Bool :=
  let n := c.toNat
  (0x9 ≤ n && n ≤ 0xD) || n = 0x20 || n = 0x85 || n = 0x200E || n = 0x200F || n = 0x2028 ||
    n = 0x2029

/-- A character of an identifier or of a literal. -/
def isWordChar (c : Char) : Bool := c.isAlphanum || c = '_'

/-- `char::is_ascii_hexdigit`. -/
def isAsciiHexdigit (c : Char) : Bool :=
  isAsciiDigit c || ('a' ≤ c && c ≤ 'f') || ('A' ≤ c && c ≤ 'F')

/-- The value of a hexadecimal digit. -/
def hexDigitValue (c : Char) : Nat :=
  if isAsciiDigit c then c.toNat - '0'.toNat
  else if 'a' ≤ c then c.toNat - 'a'.toNat + 10
  else c.toNat - 'A'.toNat + 10

/-- A digit of a binary literal. -/
def isBinaryDigit (c : Char) : Bool := c = '0' || c = '1'

/-- The value of a run of digits in a base, most significant first. -/
def digitsValue (base : Nat) (cs : List Char) : Nat :=
  cs.foldl (fun acc c => base * acc + hexDigitValue c) 0

/-- The value of a decimal, `0x` or `0b` literal. -/
def literalValue : List Char → Option Nat
  | '0' :: 'x' :: cs =>
    if cs ≠ [] ∧ cs.all isAsciiHexdigit then some (digitsValue 16 cs) else none
  | '0' :: 'b' :: cs =>
    if cs ≠ [] ∧ cs.all isBinaryDigit then some (digitsValue 2 cs) else none
  | cs => if cs ≠ [] ∧ cs.all isAsciiDigit then some (digitsValue 10 cs) else none

/-- A token. -/
inductive Token where
  | literal (text : String) (value : Nat)
  | word (text : String)
  | pathSep
  | shl
  | pipe
  | bang
  | openParen
  | closeParen
deriving DecidableEq

/-- A run of word characters is a literal where it starts with a digit. -/
def wordToken (cs : List Char) : Option Token :=
  if cs.head?.any isAsciiDigit then
    (literalValue cs).map (.literal (String.ofList cs))
  else some (.word (String.ofList cs))

/-- The tokens of Rust. -/
def lexicon : Lexicon Char Token where
  blank := isPatternWhitespace
  word := wordToken
  single c :=
    if c = '(' then some .openParen
    else if c = ')' then some .closeParen
    else if c = '|' then some .pipe
    else if c = '!' then some .bang
    else none
  double c := if c = '<' then some .shl else if c = ':' then some .pathSep else none

/-- The tokens of a text. -/
def tokens (text : String) : Option (List Token) := lex lexicon (pieces isWordChar text.toList)

/-! ### The grammar -/

/-- The keywords of the 2024 edition, with those reserved for later use. -/
def keywords : List String :=
  ["as", "break", "const", "continue", "crate", "dyn", "else", "enum", "extern", "false", "fn",
   "for", "gen", "if", "impl", "in", "let", "loop", "match", "mod", "move", "mut", "pub", "ref",
   "return", "self", "Self", "static", "struct", "super", "trait", "true", "type", "unsafe",
   "use", "where", "while", "async", "await", "abstract", "become", "box", "do", "final",
   "macro", "override", "priv", "typeof", "unsized", "virtual", "yield", "try"]

/-- A word that may name a constant, a variant or a type. A single underscore may not. -/
def IsName (word : String) : Prop := word ≠ "_" ∧ word ∉ keywords

instance (word : String) : Decidable (IsName word) := inferInstanceAs (Decidable (_ ∧ _))

/-- An operand: a literal, a constant, or a variant of the enum being declared. -/
inductive Operand where
  | literal (text : String) (value : Nat)
  | constant (name : String)
  | variant (name : String)
deriving DecidableEq

/-- The tokens of an operand. -/
inductive OperandTokens : List Token → Operand → Prop where
  | literal (text : String) (value : Nat) :
      OperandTokens [.literal text value] (.literal text value)
  | constant {name : String} (h : IsName name) : OperandTokens [.word name] (.constant name)
  | variant {name : String} (h : IsName name) :
      OperandTokens [.word "Self", .pathSep, .word name] (.variant name)

/-- The tokens of a cast to a type. -/
inductive CastTokens : List Token → String → Prop where
  | cast {type : String} (h : IsName type) : CastTokens [.word "as", .word type] type

/-- The grammar of constant expressions. -/
def grammar : Grammar Token Operand String where
  operand := OperandTokens
  suffix := CastTokens
  negation := .bang
  opening := .openParen
  closing := .closeParen
  operators := [.shl, .pipe]

/-- A constant expression. Level 0 is `<<`, level 1 is `|`. -/
abbrev ConstExpr := Lib.Expr Operand String

/-- A `<<` that stands directly after `as T`. -/
def shiftAfterCast : List Token → Bool
  | []      => false
  | t :: ts => (t = .word "as" && ts[1]? = some .shl) || shiftAfterCast ts

/-- The text is a well-formed expression. -/
def Reads (text : String) (e : ConstExpr) : Prop :=
  ∃ ts, tokens text = some ts ∧ Derives grammar (.level 2) ts e ∧ shiftAfterCast ts = false

/-! ### Values -/

/-- An integer type: its width, and what its literals stay below. -/
structure IntType where
  bits : Nat
  limit : Nat
deriving DecidableEq

/-- An unsigned type. -/
def unsigned (bits : Nat) : IntType := ⟨bits, 2 ^ bits⟩

/-- `i32`. -/
def i32 : IntType := ⟨32, 2 ^ 31⟩

section
variable {α β : Type*} (amountType : Lib.Expr α β → IntType) (value : IntType → α → Option Nat)
  (cast : IntType → Lib.Expr α β → β → Option Nat)

/-- The bits of an expression at a type. `!` flips them all, and `<<` drops the ones
it moves out. A shift by the width or more has no value. -/
def arithmetic : IntType → Lib.Expr α β → Option Nat
  | ty, .operand a    => value ty a
  | ty, .negate e     => (arithmetic ty e).map fun n => 2 ^ ty.bits - 1 - n
  | ty, .suffix e b   => cast ty e b
  | ty, .binary k l r =>
    if k = 0 then
      (arithmetic ty l).bind fun n =>
        (arithmetic (amountType r) r).bind fun amount =>
          if amount < ty.bits then some ((n <<< amount) % 2 ^ ty.bits) else none
    else
      (arithmetic ty l).bind fun n => (arithmetic ty r).map fun m => n ||| m

end

/-- A constant determines the type. The amount of a shift does not count. -/
def namesConstant : ConstExpr → Bool
  | .operand (.literal _ _) => false
  | .operand _              => true
  | .negate e               => namesConstant e
  | .suffix _ _             => true
  | .binary k l r           => namesConstant l || (k ≠ 0 && namesConstant r)

/-- A variant is turned into an integer of the enum's type. -/
def castValue (repr : IntType) (typeName : String) (env : String → Option Nat) (ty : IntType) :
    ConstExpr → String → Option Nat
  | .operand (.variant name), type => if type = typeName ∧ ty = repr then env name else none
  | _, _                           => none

/-- The value of an operand at a type. -/
def operandValue (repr : IntType) (env : String → Option Nat) (ty : IntType) :
    Operand → Option Nat
  | .literal _ value => if value < ty.limit then some value else none
  | .constant name   => if ty = repr then env name else none
  | .variant _       => none

/-- The value of an expression of the type `repr`, called `typeName`, where `env` holds the
values of the constants. -/
def evaluate (repr : IntType) (typeName : String) (env : String → Option Nat) (e : ConstExpr) :
    Option Nat :=
  arithmetic (fun amount => if namesConstant amount then repr else i32) (operandValue repr env)
    (castValue repr typeName env) repr e

end PolyPlug.Rust
