import Mathlib.Algebra.Group.Nat.Defs
import Mathlib.Data.List.Basic

/-!
# `PolyPlug.Lib.Toml`: TOML documents as written by a program

A program that writes TOML with string formatting writes an array of tables as one
header for each table and one `key = value` line for each entry, a text between two
quotes as it is, and an identifier as a hexadecimal number. `tables` is that text. A
text is `Plain` when a basic string holds it without an escape.

The reader is somebody else's. `ReadsTables` is what the format says of such a text:
with plain strings a reader gives the tables back.
-/

set_option autoImplicit false

namespace PolyPlug.Lib.Toml

/-- A value of an entry. -/
inductive Value where
  | str (text : String)
  | hex (n : Nat)
deriving DecidableEq

/-- A table: its entries in order. -/
abbrev Table := List (String × Value)

/-! ### Text -/

/-- The characters a basic string holds as they are. -/
def plainChar (c : Char) : Bool :=
  c ≠ '"' && c ≠ '\\' && (c = '\t' || 0x20 ≤ c.toNat) && c.toNat ≠ 0x7F

/-- A basic string holds the text without an escape. -/
def Plain (text : String) : Prop := text.toList.all plainChar = true

instance (text : String) : Decidable (Plain text) :=
  inferInstanceAs (Decidable (text.toList.all plainChar = true))

/-- `{:016X}`: sixteen upper-case hexadecimal digits. -/
def hexUpper16 (n : Nat) : String :=
  let digits := (Nat.toDigits 16 n).map Char.toUpper
  String.ofList (List.replicate (16 - digits.length) '0' ++ digits)

/-- A value as it is written. -/
def Value.text : Value → String
  | .str text => "\"" ++ text ++ "\""
  | .hex n    => "0x" ++ hexUpper16 n

/-- An entry as it is written. -/
def entry (key : String) (value : Value) : String := key ++ " = " ++ value.text ++ "\n"

/-- The entries of a table. -/
def body : Table → String
  | []                    => ""
  | (key, value) :: table => entry key value ++ body table

/-- An array of tables. -/
def tables (name : String) : List Table → String
  | []            => ""
  | table :: rest => "\n[[" ++ name ++ "]]\n" ++ body table ++ tables name rest

/-- An entry that holds a text, from what is written before the text. -/
theorem entry_str {key pre : String} (h : key ++ " = \"" = pre) (text : String) :
    entry key (.str text) = pre ++ text ++ "\"\n" := by
  have hopen : (" = \"" : String) = " = " ++ "\"" := rfl
  have hclose : ("\"\n" : String) = "\"" ++ "\n" := rfl
  rw [← h, hopen, hclose, entry, Value.text]
  simp only [String.append_assoc]

/-- An entry that holds a number, from what is written before its digits. -/
theorem entry_hex {key pre : String} (h : key ++ " = 0x" = pre) (n : Nat) :
    entry key (.hex n) = pre ++ hexUpper16 n ++ "\n" := by
  have hopen : (" = 0x" : String) = " = " ++ "0x" := rfl
  rw [← h, hopen, entry, Value.text]
  simp only [String.append_assoc]

/-- The texts of a table are plain, and its numbers have 64 bits. -/
def PlainTable (table : Table) : Prop :=
  ∀ e ∈ table, match e.2 with
    | .str text => Plain text
    | .hex n    => n < 2 ^ 64

/-! ### Reading -/

/-- The reader reads the array of tables back, where its texts are plain. -/
def ReadsTables (read : String → Option (List Table)) (name : String) (ts : List Table) : Prop :=
  (∀ table ∈ ts, PlainTable table) → read (tables name ts) = some ts

/-- The text of a key. -/
def getStr (table : Table) (key : String) : Option String :=
  match table.lookup key with
  | some (.str text) => some text
  | _                => none

end PolyPlug.Lib.Toml
