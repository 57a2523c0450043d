import Mathlib.Data.List.Basic

/-!
# `PolyPlug.Codegen.Reserved`: the reserved words of the target languages

`reservedIn` names the languages that reserve an identifier, in the order of the
table, each once. The generators' own names are reserved by their beginning.
-/

set_option autoImplicit false

namespace PolyPlug.Codegen

/-- The words of the table for Rust. -/
def rustWords : List String :=
  ["as", "break", "const", "continue", "crate", "dyn", "else", "enum", "extern", "false", "fn",
   "for", "if", "impl", "in", "let", "loop", "match", "mod", "move", "mut", "pub", "ref",
   "return", "self", "Self", "static", "struct", "super", "trait", "true", "type", "unsafe",
   "use", "where", "while", "async", "await", "abstract", "become", "box", "do", "final",
   "macro", "override", "priv", "typeof", "unsized", "virtual", "yield", "try"]

/-- The words of the table for C++. -/
def cppWords : List String :=
  ["alignas", "alignof", "and", "and_eq", "asm", "auto", "bitand", "bitor", "bool", "case",
   "catch", "char", "char8_t", "char16_t", "char32_t", "class", "compl", "concept", "consteval",
   "constexpr", "constinit", "const_cast", "co_await", "co_return", "co_yield", "decltype",
   "default", "delete", "double", "dynamic_cast", "explicit", "export", "float", "friend",
   "goto", "inline", "int", "long", "mutable", "namespace", "new", "noexcept", "not", "not_eq",
   "nullptr", "operator", "or", "or_eq", "private", "protected", "public", "register",
   "reinterpret_cast", "requires", "short", "signed", "sizeof", "static_assert", "static_cast",
   "switch", "template", "this", "thread_local", "throw", "typedef", "typeid", "typename",
   "union", "unsigned", "using", "void", "volatile", "wchar_t", "xor", "xor_eq"]

/-- The words of the table for C#. -/
def csharpWords : List String :=
  ["base", "byte", "checked", "decimal", "delegate", "event", "finally", "fixed", "foreach",
   "implicit", "interface", "internal", "is", "lock", "null", "object", "out", "params",
   "readonly", "sbyte", "sealed", "stackalloc", "string", "uint", "ulong", "unchecked",
   "ushort"]

/-- The words of the table for Python. -/
def pythonWords : List String :=
  ["and", "assert", "class", "def", "del", "elif", "except", "from", "global", "import", "is",
   "lambda", "nonlocal", "None", "not", "or", "pass", "raise", "True", "False", "with"]

/-- The words of the table for Lua. -/
def luaWords : List String :=
  ["elseif", "end", "function", "local", "nil", "repeat", "then", "until"]

/-- The words of the table for JavaScript. -/
def javascriptWords : List String :=
  ["debugger", "function", "instanceof", "let", "var", "with", "yield", "arguments", "eval"]

/-- The words of the table for polyplug. -/
def polyplugWords : List String :=
  ["polyplug_init"]

/-- `RESERVED_WORDS`: each word with the language that reserves it. -/
def reservedWords : List (String × String) :=
  rustWords.map (·, "Rust") ++
  cppWords.map (·, "C++") ++
  csharpWords.map (·, "C#") ++
  pythonWords.map (·, "Python") ++
  luaWords.map (·, "Lua") ++
  javascriptWords.map (·, "JavaScript") ++
  polyplugWords.map (·, "polyplug")

/-- `RESERVED_PREFIXES`. -/
def reservedPrefixes : List String := ["polyplug_", "_polyplug"]

/-- The languages of the table that reserve a word, each once. -/
def reservingLanguages (name : String) : List String :=
  reservedWords.foldl (fun langs entry =>
    if entry.1 = name ∧ entry.2 ∉ langs then langs ++ [entry.2] else langs) []

/-- `reserved_in`. -/
def reservedIn (name : String) : Option String :=
  let langs := reservingLanguages name
  let langs :=
    if reservedPrefixes.any (fun beginning => beginning.toList.isPrefixOf name.toList) ∧
        "polyplug" ∉ langs then langs ++ ["polyplug"]
    else langs
  if langs.isEmpty then none else some (String.intercalate ", " langs)

/-- A step of the scan keeps the languages found so far. -/
theorem mem_foldl_languages {name language : String} (entries : List (String × String))
    {langs : List String} (h : language ∈ langs) :
    language ∈ entries.foldl (fun langs entry =>
      if entry.1 = name ∧ entry.2 ∉ langs then langs ++ [entry.2] else langs) langs := by
  induction entries generalizing langs with
  | nil => exact h
  | cons entry entries ih =>
    rw [List.foldl_cons]
    split
    · exact ih (List.mem_append_left _ h)
    · exact ih h

theorem mem_foldl_of_mem {name language : String} {entries : List (String × String)}
    (h : (name, language) ∈ entries) (langs : List String) :
    language ∈ entries.foldl (fun langs entry =>
      if entry.1 = name ∧ entry.2 ∉ langs then langs ++ [entry.2] else langs) langs := by
  induction entries generalizing langs with
  | nil => cases h
  | cons entry entries ih =>
    rw [List.foldl_cons]
    rcases List.mem_cons.mp h with rfl | h
    · by_cases hlang : language ∈ langs
      · rw [if_neg (fun hnew => hnew.2 hlang)]
        exact mem_foldl_languages entries hlang
      · rw [if_pos ⟨rfl, hlang⟩]
        exact mem_foldl_languages entries (List.mem_append_right _ List.mem_cons_self)
    · exact ih h _

/-- A word of the table is reserved. -/
theorem reservedIn_isSome {name language : String} (h : (name, language) ∈ reservedWords) :
    (reservedIn name).isSome = true := by
  have hmem : language ∈ reservingLanguages name := mem_foldl_of_mem h []
  have hne : (reservingLanguages name).isEmpty = false := by
    cases hlangs : reservingLanguages name with
    | nil => rw [hlangs] at hmem; cases hmem
    | cons l ls => rfl
  rw [reservedIn]
  split
  · simp
  · simp [hne]

end PolyPlug.Codegen
