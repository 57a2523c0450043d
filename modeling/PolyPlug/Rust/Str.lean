import Mathlib.Algebra.Group.Nat.Defs
import Mathlib.Data.List.Basic
import Mathlib.Data.String.Basic

/-!
# `PolyPlug.Rust.Str`: the `core::str` operations the runtime parses with

Contract names, version strings and `name@version` specs are cut up with the
standard library's string methods. This module spells the ones in use as
recursions over the characters of a `String`, following the documented
behaviour: `split_once` cuts at the first separator, `rsplit_once` at the last,
`split` always yields at least one piece, and `u32::from_str` takes an optional
leading `+`, then one or more ASCII digits, and rejects a value of `2 ^ 32` or
more. `trim` strips the characters with the Unicode `White_Space` property.
-/

set_option autoImplicit false

namespace PolyPlug.Rust

/-! ### The order of strings, which sorting reads -/

instance stringLeTrans : IsTrans String fun a b => a ≤ b := ⟨fun _ _ _ => le_trans⟩

instance stringLeAntisymm : Std.Antisymm fun a b : String => a ≤ b :=
  ⟨fun _ _ => le_antisymm⟩

/-! ### Pieces of a string -/

/-- The characters before and after the first `sep`. -/
def splitOnceChars (sep : Char) : List Char → Option (List Char × List Char)
  | []      => none
  | c :: cs =>
      if c = sep then some ([], cs)
      else (splitOnceChars sep cs).map fun p => (c :: p.1, p.2)

/-- `str::split_once`: cut at the first `sep`. -/
def splitOnce (s : String) (sep : Char) : Option (String × String) :=
  (splitOnceChars sep s.toList).map fun p => (String.ofList p.1, String.ofList p.2)

/-- `str::rsplit_once`: cut at the last `sep`. -/
def rsplitOnce (s : String) (sep : Char) : Option (String × String) :=
  (splitOnceChars sep s.toList.reverse).map fun p =>
    (String.ofList p.2.reverse, String.ofList p.1.reverse)

/-- The pieces between the separators. The empty text has one empty piece. -/
def splitChars (sep : Char) : List Char → List (List Char)
  | []      => [[]]
  | c :: cs =>
      if c = sep then [] :: splitChars sep cs
      else
        match splitChars sep cs with
        | []      => [[c]]
        | p :: ps => (c :: p) :: ps

/-- `str::split` on one character. -/
def split (s : String) (sep : Char) : List String :=
  (splitChars sep s.toList).map String.ofList

/-- `u8::is_ascii_digit` on a character. -/
def isAsciiDigit (c : Char) : Bool := '0' ≤ c && c ≤ '9'

/-- The value of a run of decimal digits, most significant first. -/
def decimalValue (cs : List Char) : Nat :=
  cs.foldl (fun acc c => 10 * acc + (c.toNat - '0'.toNat)) 0

/-- `u32::from_str` on the characters of the text. A single leading `+` is
accepted, a lone `+` and the empty text are not. -/
def parseU32Chars (cs : List Char) : Option Nat :=
  let digits := match cs with
    | '+' :: rest => rest
    | _           => cs
  if digits.isEmpty then none
  else if digits.all isAsciiDigit then
    if decimalValue digits < 2 ^ 32 then some (decimalValue digits) else none
  else none

/-- `str::parse::<u32>`. -/
def parseU32 (s : String) : Option Nat := parseU32Chars s.toList

/-- `char::is_whitespace`: the Unicode `White_Space` property. -/
def isWhitespace (c : Char) : Bool :=
  let n := c.toNat
  (0x9 ≤ n && n ≤ 0xD) || n = 0x20 || n = 0x85 || n = 0xA0 || n = 0x1680 ||
    (0x2000 ≤ n && n ≤ 0x200A) || n = 0x2028 || n = 0x2029 || n = 0x202F ||
    n = 0x205F || n = 0x3000

/-- `str::trim`. -/
def trim (s : String) : String :=
  String.ofList ((s.toList.dropWhile isWhitespace).reverse.dropWhile isWhitespace).reverse

/-- The decimal spelling of a number, as `format!` prints a `u32`. -/
def decimal (n : Nat) : String := String.ofList (Nat.toDigits 10 n)

/-- `char::escape_debug` inside a text. Printable characters stand for themselves; the
control characters of ASCII and Latin-1 are the only ones escaped by number. -/
def escapeDebug (c : Char) : String :=
  if c = '"' then "\\\""
  else if c = '\\' then "\\\\"
  else if c = '\n' then "\\n"
  else if c = '\r' then "\\r"
  else if c = '\t' then "\\t"
  else if c.toNat = 0 then "\\0"
  else if c.toNat < 0x20 || (0x7F ≤ c.toNat && c.toNat < 0xA0) then
    "\\u\x7b" ++ String.ofList (Nat.toDigits 16 c.toNat) ++ "\x7d"
  else c.toString

/-- The `Debug` form of a text. -/
def debugStr (s : String) : String := "\"" ++ String.join (s.toList.map escapeDebug) ++ "\""

/-- The `Debug` form of a list of texts. -/
def debugStrs (texts : List String) : String :=
  "[" ++ String.intercalate ", " (texts.map debugStr) ++ "]"

end PolyPlug.Rust
