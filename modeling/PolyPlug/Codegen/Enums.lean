import PolyPlug.Codegen.Contracts
import PolyPlug.Codegen.Reserved
import PolyPlug.Rust.ConstExpr

/-!
# `PolyPlug.Codegen.Enums`: the enums of `api.toml` and their Rust form

`lowerEnum` checks an enum: its name, its representation, and for each variant the name
and the characters of the value, where a variant may be named only after it was declared. A
value that names a variant may not itself be named.

A value is kept as text. `substituteVariantRefsRustEnum` and
`substituteVariantRefsRustBitflag` write it for Rust: they scan the text for identifiers and
replace those that name a variant. Everything else is copied.

The character classes of the standard library are a parameter with their documented
behaviour on ASCII and on white space. Docs and language rules of an enum are left out.
-/

set_option autoImplicit false

namespace PolyPlug.Codegen

open PolyPlug.Rust

/-- `char::is_alphabetic`, `char::is_numeric` and `char::is_uppercase`. -/
structure CharClasses where
  isAlphabetic : Char → Bool
  isNumeric : Char → Bool
  isUppercase : Char → Bool
  alphabetic_ascii : ∀ c, c.toNat < 128 → isAlphabetic c = c.isAlpha
  numeric_ascii : ∀ c, c.toNat < 128 → isNumeric c = c.isDigit
  alphabetic_whitespace : ∀ c, isWhitespace c = true → isAlphabetic c = false
  numeric_whitespace : ∀ c, isWhitespace c = true → isNumeric c = false

/-! ### Data -/

/-- `ReprType`. -/
inductive ReprType where
  | u8
  | u16
  | u32
  | u64
deriving DecidableEq

/-- `ReprType::parse`. -/
def ReprType.parse (s : String) : Option ReprType :=
  if s = "u8" then some .u8
  else if s = "u16" then some .u16
  else if s = "u32" then some .u32
  else if s = "u64" then some .u64
  else none

/-- `ReprType::rust_name`. -/
def ReprType.rustName : ReprType → String
  | .u8  => "u8"
  | .u16 => "u16"
  | .u32 => "u32"
  | .u64 => "u64"

/-- `RawEnumVariant`. -/
structure RawEnumVariant where
  name : String
  value : String
deriving DecidableEq

/-- `RawEnum`. -/
structure RawEnum where
  name : String
  repr : String
  bitflag : Bool
  variants : List RawEnumVariant
deriving DecidableEq

/-- `EnumVariant`. -/
structure EnumVariant where
  name : String
  value : String
deriving DecidableEq

/-- `EnumDef`. -/
structure EnumDef where
  name : String
  repr : ReprType
  bitflag : Bool
  variants : List EnumVariant
deriving DecidableEq

/-- The errors of an enum. The suggestions are left out. -/
inductive EnumError where
  | identifier (error : PolyplugcError)
  | enumInvalidRepr (enumName repr : String)
  | enumInvalidValueExpr (enumName variantName expr : String)
  | enumForwardRef (enumName variantName refName : String)
  | enumChainedRef (enumName variantName refName : String)
deriving DecidableEq

section
variable (classes : CharClasses)

/-! ### The checks -/

/-- The first character of an identifier in a value. -/
def isIdentStart (c : Char) : Bool := classes.isAlphabetic c || c = '_'

/-- `is_alphanumeric`, or an underscore. -/
def isIdentContinue (c : Char) : Bool :=
  classes.isAlphabetic c || classes.isNumeric c || c = '_'

/-- The text after a literal that starts with the digit `c`. -/
def afterLiteral (c : Char) : List Char → List Char
  | []      => []
  | d :: cs =>
    if c = '0' ∧ (d = 'x' ∨ d = 'X') then cs.dropWhile isAsciiHexdigit
    else if c = '0' ∧ (d = 'b' ∨ d = 'B') then cs.dropWhile isBinaryDigit
    else (d :: cs).dropWhile isAsciiDigit

/-- The loop of `validate_enum_value_expr`, with the number of characters as fuel. -/
def validateChars (expr enumName variantName : String) (declaredVariants : List String) :
    Nat → List Char → Except EnumError Unit
  | _, []               => .ok ()
  | 0, _ :: _           => .ok ()
  | fuel + 1, c :: cs =>
    if isWhitespace c then validateChars expr enumName variantName declaredVariants fuel cs
    -- Letters right after a literal are read as an identifier.
    else if isAsciiDigit c then
      validateChars expr enumName variantName declaredVariants fuel (afterLiteral c cs)
    else if isIdentStart classes c then
      let ident := String.ofList ((c :: cs).takeWhile (isIdentContinue classes))
      if ident ∈ declaredVariants then
        validateChars expr enumName variantName declaredVariants fuel
          ((c :: cs).dropWhile (isIdentContinue classes))
      -- An unknown name in upper case is taken for a variant that comes later.
      else if classes.isUppercase c then .error (.enumForwardRef enumName variantName ident)
      else .error (.enumInvalidValueExpr enumName variantName expr)
    else if c = '<' then
      match cs with
      | d :: rest =>
        if d = '<' then validateChars expr enumName variantName declaredVariants fuel rest
        else .error (.enumInvalidValueExpr enumName variantName expr)
      | []        => .error (.enumInvalidValueExpr enumName variantName expr)
    else if c = '|' ∨ c = '~' ∨ c = '(' ∨ c = ')' then
      validateChars expr enumName variantName declaredVariants fuel cs
    else .error (.enumInvalidValueExpr enumName variantName expr)

/-- `validate_enum_value_expr`. -/
def validateEnumValueExpr (expr enumName variantName : String)
    (declaredVariants : List String) : Except EnumError Unit :=
  validateChars classes expr enumName variantName declaredVariants expr.toList.length expr.toList

/-- The identifiers of a text, also those inside a literal, with the number of characters
as fuel. -/
def identifiers : Nat → List Char → List String
  | _, []             => []
  | 0, _ :: _         => []
  | fuel + 1, c :: cs =>
    if isIdentStart classes c then
      String.ofList ((c :: cs).takeWhile (isIdentContinue classes)) ::
        identifiers fuel ((c :: cs).dropWhile (isIdentContinue classes))
    else identifiers fuel cs

/-- `expr_contains_variant_ref`. -/
def exprContainsVariantRef (expr : String) (variantNames : List String) : Bool :=
  (identifiers classes expr.toList.length expr.toList).any fun ident => ident ∈ variantNames

/-- `check_enum_chained_refs`. -/
def checkEnumChainedRefs (enumName : String) (variants : List EnumVariant) :
    Except EnumError Unit :=
  let allNames := variants.map EnumVariant.name
  variants.forM fun variant =>
    (identifiers classes variant.value.toList.length variant.value.toList).forM fun refName =>
      if refName ∈ allNames then
        match variants.find? fun v => v.name = refName with
        | some refVariant =>
          -- A variant that is referred to must not refer to another.
          if exprContainsVariantRef classes refVariant.value allNames then
            .error (.enumChainedRef enumName variant.name refName)
          else .ok ()
        | none => .ok ()
      else .ok ()

/-- The loop of `lower_api` over the variants of an enum. -/
def lowerVariants (enumName : String) :
    List String → List RawEnumVariant → Except EnumError (List EnumVariant)
  | _, []                        => .ok []
  | declared, rawVariant :: rest => do
    (validateIdentifier reservedIn rawVariant.name "enum variant" enumName).mapError .identifier
    validateEnumValueExpr classes rawVariant.value enumName rawVariant.name declared
    let variants ← lowerVariants enumName (declared ++ [rawVariant.name]) rest
    .ok (⟨rawVariant.name, rawVariant.value⟩ :: variants)

/-- The checks of that loop on the values. -/
def validateVariants (enumName : String) :
    List String → List EnumVariant → Except EnumError Unit
  | _, []                     => .ok ()
  | declared, variant :: rest => do
    validateEnumValueExpr classes variant.value enumName variant.name declared
    validateVariants enumName (declared ++ [variant.name]) rest

/-- The checks of `lower_api` on the values of an enum. -/
def checkEnumValues (enumName : String) (variants : List EnumVariant) : Except EnumError Unit := do
  validateVariants classes enumName [] variants
  checkEnumChainedRefs classes enumName variants

/-- One enum of `lower_api`. -/
def lowerEnum (raw : RawEnum) : Except EnumError EnumDef := do
  (validateIdentifier reservedIn raw.name "enum" raw.name).mapError .identifier
  match ReprType.parse raw.repr with
  | none      => .error (.enumInvalidRepr raw.name raw.repr)
  | some repr => do
    let variants ← lowerVariants classes raw.name [] raw.variants
    checkEnumChainedRefs classes raw.name variants
    .ok ⟨raw.name, repr, raw.bitflag, variants⟩

/-! ### The Rust form -/

/-- The loop of the two substitutions, with the number of characters as fuel. `image` is what
a variant is written as. -/
def substituteChars (declaredNames : List String) (image : String → String) :
    Nat → List Char → List Char
  | _, []             => []
  | 0, _ :: _         => []
  | fuel + 1, c :: cs =>
    if isIdentStart classes c then
      let ident := String.ofList ((c :: cs).takeWhile (isIdentContinue classes))
      (if ident ∈ declaredNames then (image ident).toList else ident.toList) ++
        substituteChars declaredNames image fuel ((c :: cs).dropWhile (isIdentContinue classes))
    else c :: substituteChars declaredNames image fuel cs

/-- The substitution for one way of writing a variant. -/
def substituteVariantRefs (image : String → String) (declaredVariants : List EnumVariant)
    (expr : String) : String :=
  String.ofList (substituteChars classes (declaredVariants.map EnumVariant.name) image
    expr.toList.length expr.toList)

/-- `substitute_variant_refs_rust_enum`. -/
def substituteVariantRefsRustEnum (declaredVariants : List EnumVariant) (expr reprType : String) :
    String :=
  substituteVariantRefs classes (fun ident => "Self::" ++ ident ++ " as " ++ reprType)
    declaredVariants expr

/-- `substitute_variant_refs_rust_bitflag`. -/
def substituteVariantRefsRustBitflag (declaredVariants : List EnumVariant) (expr : String) :
    String :=
  substituteVariantRefs classes String.toUpper declaredVariants expr

/-- The name of the constant a variant becomes. -/
def EnumDef.constantName (e : EnumDef) (variantName : String) : String :=
  if e.bitflag then variantName.toUpper else variantName

/-- The text of the value of a constant. -/
def EnumDef.constantValue (e : EnumDef) (variant : EnumVariant) : String :=
  if e.bitflag then substituteVariantRefsRustBitflag classes e.variants variant.value
  else substituteVariantRefsRustEnum classes e.variants variant.value e.repr.rustName

/-- `generate_rust_enum`: the constants in the order they are written, each with the text of
its value. An ordinary enum has them as its variants, a bitflag as constants of a module. -/
def generateRustEnum (e : EnumDef) : List (String × String) :=
  e.variants.map fun variant => (e.constantName variant.name, e.constantValue classes variant)

end

end PolyPlug.Codegen
