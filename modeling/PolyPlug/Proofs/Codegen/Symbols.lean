import PolyPlug.Codegen.Symbols
import PolyPlug.Proofs.Codegen.ApiTypes
import PolyPlug.Proofs.Codegen.Enums

/-!
# `PolyPlug.Proofs.Codegen.Symbols`: names that give the same symbol

The parser compares the names of a schema and of a bundle as they are written. The generators do
not write them so: a separator is left out, the first letter of a word becomes a capital, and
the name of a contract is joined with that of a function. `SameWords` says when two names give the
same symbol, and `symbolsDistinct_iff` for which accepted schemas and bundles no two symbols are the
same.
-/

set_option autoImplicit false

namespace PolyPlug.Codegen

open PolyPlug.Rust
open PolyPlug.Lib

/-! ### Letters -/

/-- The letters of a name, with a mark at the first of each word. -/
def wordLetters (name : String) : List (Char × Bool) := marked isWordSeparator true name.toList

/-- A letter in lower case that begins no word. -/
def StaysLower (m : Char × Bool) : Prop := m.1.isLower = true ∧ m.2 = false

instance (m : Char × Bool) : Decidable (StaysLower m) := inferInstanceAs (Decidable (_ ∧ _))

/-- The letters are the same up to their case, and if one stays in lower case, so does the other. -/
def SameLetter (m n : Char × Bool) : Prop :=
  m.1.toUpper = n.1.toUpper ∧ (StaysLower m ↔ StaysLower n)

instance : DecidableRel SameLetter := fun _ _ => inferInstanceAs (Decidable (_ ∧ _))

/-- The names are the same words: the same letters one by one, wherever the separators are. -/
def SameWords (a b : String) : Prop := List.Forall₂ SameLetter (wordLetters a) (wordLetters b)

instance (a b : String) : Decidable (SameWords a b) :=
  inferInstanceAs (Decidable (List.Forall₂ _ _ _))

/-- A text is the words of a name, each with a capital. -/
def Spells (text words : String) : Prop :=
  List.Forall₂ SameLetter (text.toList.map fun c => (c, false)) (wordLetters words)

/-- The first word begins with `host`, in whatever case its first letter is. -/
def BeginsWithHost (name : String) : Prop :=
  List.Forall₂ SameLetter ((wordLetters name).take 4) (wordLetters "host")

instance (name : String) : Decidable (BeginsWithHost name) :=
  inferInstanceAs (Decidable (List.Forall₂ _ _ _))

/-- The texts are the same in upper case, but for a dot against an underscore. -/
def SameUpper (caseMap : CaseMap) (a b : String) : Prop :=
  List.Forall₂ (fun c d => c = d ∨ c ∈ ['.', '_'] ∧ d ∈ ['.', '_'])
    (a.toList.flatMap caseMap.upper) (b.toList.flatMap caseMap.upper)

/-- Characters of ASCII only. -/
def AsciiText (s : String) : Prop := ∀ c ∈ s.toList, c.toNat < 128

/-- A letter of ASCII, as a capital if it begins a word. -/
def written (m : Char × Bool) : Char := if m.2 then m.1.toUpper else m.1

theorem toUpper_of_not_isLower {c : Char} (hc : c.toNat < 128) (h : ¬ c.isLower = true) :
    c.toUpper = c :=
  @ascii_forall (fun c => ¬ c.isLower = true → c.toUpper = c) (by decide +kernel) c hc h

theorem not_isLower_toUpper {c : Char} (hc : c.toNat < 128) : ¬ c.toUpper.isLower = true :=
  @ascii_forall (fun c => ¬ c.toUpper.isLower = true) (by decide +kernel) c hc

theorem toUpper_toUpper {c : Char} (hc : c.toNat < 128) : c.toUpper.toUpper = c.toUpper :=
  @ascii_forall (fun c => c.toUpper.toUpper = c.toUpper) (by decide +kernel) c hc

theorem toLower_toUpper {c : Char} (hc : c.toNat < 128) (h : c.isLower = true) :
    c.toUpper.toLower = c :=
  @ascii_forall (fun c => c.isLower = true → c.toUpper.toLower = c) (by decide +kernel) c hc h

theorem written_toUpper {m : Char × Bool} (hm : m.1.toNat < 128) :
    (written m).toUpper = m.1.toUpper := by
  rw [written]
  split
  · exact toUpper_toUpper hm
  · rfl

theorem isLower_written {m : Char × Bool} (hm : m.1.toNat < 128) :
    (written m).isLower = true ↔ StaysLower m := by
  rw [written, StaysLower]
  cases m.2 with
  | true => exact iff_of_false (not_isLower_toUpper hm) fun h => Bool.false_ne_true h.2.symm
  | false => exact ⟨fun h => ⟨h, rfl⟩, fun h => h.1⟩

/-- **Two letters are written alike exactly if they are the same.** -/
theorem written_eq_iff {m n : Char × Bool} (hm : m.1.toNat < 128) (hn : n.1.toNat < 128) :
    written m = written n ↔ SameLetter m n := by
  constructor
  · intro h
    refine ⟨?_, ?_⟩
    · rw [← written_toUpper hm, h, written_toUpper hn]
    · rw [← isLower_written hm, h, isLower_written hn]
  · rintro ⟨hupper, hlower⟩
    have hcapital : ∀ {m : Char × Bool}, m.1.toNat < 128 → ¬ StaysLower m →
        written m = m.1.toUpper := by
      intro m hm hstays
      rw [written]
      split
      · rfl
      · next hinside =>
        exact (toUpper_of_not_isLower hm fun hl => hstays ⟨hl, Bool.eq_false_iff.mpr hinside⟩).symm
    by_cases hstays : StaysLower m
    · have hstays' := hlower.mp hstays
      rw [written, written, hstays.2, hstays'.2]
      show m.1 = n.1
      rw [← toLower_toUpper hm hstays.1, hupper, toLower_toUpper hn hstays'.1]
    · rw [hcapital hm hstays, hcapital hn fun h => hstays (hlower.mpr h), hupper]

/-! ### Words -/

section
variable {caseMap : CaseMap}

theorem renderLetter_ascii {m : Char × Bool} (hm : m.1.toNat < 128) :
    renderLetter caseMap.upper m = [written m] := by
  rw [renderLetter, written]
  split
  · exact caseMap.upper_ascii _ hm
  · rfl

theorem ascii_wordLetters {name : String} (h : AsciiText name) :
    ∀ m ∈ wordLetters name, m.1.toNat < 128 := fun _ hm => h _ (mem_of_mem_marked hm)

/-- The words of a name, each with a capital. -/
theorem canonicalPascalCase_toList (name : String) :
    (canonicalPascalCase caseMap name).toList =
      (wordLetters name).flatMap (renderLetter caseMap.upper) := by
  rw [canonicalPascalCase, String.toList_ofList, flatMap_filter_capitalize, flatMap_capitalize]
  rfl

/-- Letters give the same text exactly if they are the same one by one. -/
theorem flatMap_renderLetter_eq_iff {l l' : List (Char × Bool)} (hl : ∀ m ∈ l, m.1.toNat < 128)
    (hl' : ∀ m ∈ l', m.1.toNat < 128) :
    l.flatMap (renderLetter caseMap.upper) = l'.flatMap (renderLetter caseMap.upper) ↔
      List.Forall₂ SameLetter l l' :=
  flatMap_eq_iff (fun m hm => renderLetter_ascii (hl m hm))
    (fun m hm => renderLetter_ascii (hl' m hm))
    fun m hm n hn => written_eq_iff (hl m hm) (hl' n hn)

theorem canonicalPascalCase_eq_iff {a b : String} (ha : AsciiText a) (hb : AsciiText b) :
    canonicalPascalCase caseMap a = canonicalPascalCase caseMap b ↔ SameWords a b := by
  rw [← String.toList_inj, canonicalPascalCase_toList, canonicalPascalCase_toList,
    flatMap_renderLetter_eq_iff (ascii_wordLetters ha) (ascii_wordLetters hb)]
  rfl

/-- A text is the name in capitals exactly if it spells it. -/
theorem eq_canonicalPascalCase_iff {text name : String} (ht : AsciiText text)
    (hn : AsciiText name) :
    text = canonicalPascalCase caseMap name ↔ Spells text name := by
  have htext : text.toList =
      (text.toList.map fun c => (c, false)).flatMap (renderLetter caseMap.upper) := by
    rw [List.flatMap_map]
    exact (List.flatMap_singleton' _).symm
  rw [← String.toList_inj, canonicalPascalCase_toList, htext,
    flatMap_renderLetter_eq_iff (fun m hm => ?_) (ascii_wordLetters hn)]
  · rfl
  · obtain ⟨c, hc, rfl⟩ := List.mem_map.mp hm
    exact ht c hc

/-- Two names that are joined by a separator. -/
theorem canonicalPascalCase_append {a b : String} {sep : String} {c : Char}
    (hsep : sep.toList = [c]) (hc : isWordSeparator c = true) :
    canonicalPascalCase caseMap (a ++ sep ++ b) =
      canonicalPascalCase caseMap a ++ canonicalPascalCase caseMap b := by
  rw [← String.toList_inj, String.toList_append, canonicalPascalCase_toList,
    canonicalPascalCase_toList, canonicalPascalCase_toList, ← List.flatMap_append]
  congr 1
  rw [wordLetters, String.toList_append, String.toList_append, hsep, List.append_assoc]
  exact marked_append_cons hc true _ _

/-- Letters of ASCII are written one by one. -/
theorem flatMap_renderLetter_ascii {l : List (Char × Bool)} (hl : ∀ m ∈ l, m.1.toNat < 128) :
    l.flatMap (renderLetter caseMap.upper) = l.map written := by
  induction l with
  | nil => rfl
  | cons m l ih =>
    rw [List.flatMap_cons, renderLetter_ascii (hl m List.mem_cons_self),
      ih fun n hn => hl n (List.mem_cons_of_mem _ hn)]
    rfl

theorem canonicalPascalCase_of_ascii {name : String} (h : AsciiText name) :
    (canonicalPascalCase caseMap name).toList = (wordLetters name).map written := by
  rw [canonicalPascalCase_toList, flatMap_renderLetter_ascii (ascii_wordLetters h)]

/-! ### Contracts and plugins -/

theorem contractNameToStruct_eq_iff {a b : String} (ha : AsciiText a) (hb : AsciiText b) :
    contractNameToStruct caseMap a = contractNameToStruct caseMap b ↔ SameWords a b := by
  have hpascal := @canonicalPascalCase_eq_iff caseMap a b ha hb
  rw [← hpascal, contractNameToStruct, contractNameToStruct, String.append_left_inj]

theorem contractNameToGuestTrait_eq_iff {a b : String} (ha : AsciiText a) (hb : AsciiText b) :
    contractNameToGuestTrait caseMap a = contractNameToGuestTrait caseMap b ↔ SameWords a b := by
  have hpascal := @canonicalPascalCase_eq_iff caseMap a b ha hb
  rw [← hpascal, contractNameToGuestTrait, contractNameToGuestTrait, String.append_left_inj]

/-- The name with a dot made an underscore. -/
theorem replaceChar_eq_iff {s t : String} : replaceChar s '.' '_' = replaceChar t '.' '_' ↔
    List.Forall₂ (fun c d => c = d ∨ c ∈ ['.', '_'] ∧ d ∈ ['.', '_']) s.toList t.toList := by
  have hchar : ∀ c d : Char, (if c = '.' then '_' else c) = (if d = '.' then '_' else d) ↔
      c = d ∨ c ∈ ['.', '_'] ∧ d ∈ ['.', '_'] := by
    intro c d
    simp only [List.mem_cons, List.not_mem_nil, or_false]
    by_cases hc : c = '.'
    · by_cases hd : d = '.'
      · simp [hc, hd]
      · rw [if_pos hc, if_neg hd]
        constructor
        · intro h
          exact .inr ⟨.inl hc, .inr h.symm⟩
        · rintro (h | ⟨-, h⟩)
          · exact absurd (h ▸ hc) hd
          · exact (h.resolve_left hd).symm
    · by_cases hd : d = '.'
      · rw [if_neg hc, if_pos hd]
        constructor
        · intro h
          exact .inr ⟨.inr h, .inl hd⟩
        · rintro (h | ⟨h, -⟩)
          · exact absurd (h.trans hd) hc
          · exact h.resolve_left hc
      · rw [if_neg hc, if_neg hd]
        constructor
        · exact .inl
        · rintro (h | ⟨h, h'⟩)
          · exact h
          · rw [h.resolve_left hc, h'.resolve_left hd]
  rw [replaceChar, replaceChar, String.ofList_inj, ← List.forall₂_eq_eq_eq,
    List.forall₂_map_left_iff, List.forall₂_map_right_iff]
  exact ⟨fun h => h.imp fun c d => (hchar c d).mp, fun h => h.imp fun c d => (hchar c d).mpr⟩

theorem interfaceSymbol_eq_iff {a b : String} :
    interfaceSymbol caseMap a = interfaceSymbol caseMap b ↔ SameUpper caseMap a b := by
  rw [interfaceSymbol, interfaceSymbol, String.append_left_inj, replaceChar_eq_iff, toUppercase,
    toUppercase, String.toList_ofList, String.toList_ofList]
  rfl

/-- In ASCII the dots may be replaced before or after the case. -/
theorem contractNameToUpperSnake_eq {name : String} (h : AsciiText name) :
    contractNameToUpperSnake caseMap name = replaceChar (toUppercase caseMap name) '.' '_' := by
  rw [contractNameToUpperSnake, toUppercase, toUppercase, replaceChar, replaceChar,
    String.toList_ofList, String.toList_ofList, List.flatMap_map, List.map_flatMap]
  congr 1
  refine List.flatMap_congr fun c hc => ?_
  have hreplaced : (if c = '.' then '_' else c).toNat < 128 := by
    split
    · decide
    · exact h c hc
  rw [caseMap.upper_ascii _ hreplaced, caseMap.upper_ascii c (h c hc)]
  exact @ascii_forall (fun c => [(if c = '.' then '_' else c).toUpper] =
    [if c.toUpper = '.' then '_' else c.toUpper]) (by decide +kernel) c (h c hc)

theorem contractNameToUpperSnake_eq_iff {a b : String} (ha : AsciiText a) (hb : AsciiText b) :
    contractNameToUpperSnake caseMap a = contractNameToUpperSnake caseMap b ↔
      SameUpper caseMap a b := by
  rw [← interfaceSymbol_eq_iff, interfaceSymbol, interfaceSymbol, String.append_left_inj,
    contractNameToUpperSnake_eq ha, contractNameToUpperSnake_eq hb]

/-! ### Host contracts -/

/-- The words of the trait of a host contract: without `host.`, unless it begins with `host`. -/
def hostWords (name : String) : String :=
  let rest := (stripStart "host." name).getD name
  if BeginsWithHost rest then rest else "host." ++ rest

theorem beginsWithHost_iff {name : String} (h : AsciiText name) :
    BeginsWithHost name ↔
      "Host".toList.isPrefixOf (canonicalPascalCase caseMap name).toList = true := by
  have hhost : "Host".toList = (wordLetters "host").flatMap (renderLetter caseMap.upper) := by
    rw [← canonicalPascalCase_toList, canonicalPascalCase_of_ascii (chars_forall (by decide))]
    decide
  have hfour : ∀ m ∈ (wordLetters name).take 4, m.1.toNat < 128 := fun m hm =>
    ascii_wordLetters h m (List.mem_of_mem_take hm)
  have htake : ((wordLetters name).map written).take 4 =
      ((wordLetters name).take 4).flatMap (renderLetter caseMap.upper) := by
    rw [← List.map_take, flatMap_renderLetter_ascii hfour]
  rw [List.isPrefixOf_iff_prefix, List.prefix_iff_eq_take, canonicalPascalCase_of_ascii h]
  show _ ↔ _ = ((wordLetters name).map written).take 4
  rw [htake, hhost, eq_comm,
    flatMap_renderLetter_eq_iff hfour (ascii_wordLetters (chars_forall (by decide)))]
  rfl

theorem ascii_rest {name : String} (h : AsciiText name) :
    AsciiText ((stripStart "host." name).getD name) := by
  cases hrest : stripStart "host." name with
  | none => exact h
  | some rest =>
    intro c hc
    refine h c ?_
    rw [stripStart_eq_some.mp hrest, String.toList_append]
    exact List.mem_append_right _ hc

theorem AsciiText.append {a b : String} (ha : AsciiText a) (hb : AsciiText b) :
    AsciiText (a ++ b) := by
  intro c hc
  rw [String.toList_append] at hc
  rcases List.mem_append.mp hc with hc | hc
  · exact ha c hc
  · exact hb c hc

theorem ascii_hostWords {name : String} (h : AsciiText name) : AsciiText (hostWords name) := by
  rw [hostWords]
  split
  · exact ascii_rest h
  · exact AsciiText.append (chars_forall (by decide)) (ascii_rest h)

/-- The trait of a host contract is its words, each with a capital. -/
theorem hostContractNameToTrait_eq {name : String} (h : AsciiText name) :
    hostContractNameToTrait caseMap name = canonicalPascalCase caseMap (hostWords name) := by
  have hbegins := @beginsWithHost_iff caseMap _ (ascii_rest h)
  rw [hostContractNameToTrait, hostWords]
  by_cases hhost : BeginsWithHost ((stripStart "host." name).getD name)
  · rw [if_pos hhost, if_pos (hbegins.mp hhost)]
  · rw [if_neg hhost, if_neg fun h => hhost (hbegins.mpr h)]
    have hsplit : canonicalPascalCase caseMap
          ("host" ++ "." ++ (stripStart "host." name).getD name) =
        canonicalPascalCase caseMap "host" ++
          canonicalPascalCase caseMap ((stripStart "host." name).getD name) :=
      canonicalPascalCase_append rfl (by decide)
    have hword : canonicalPascalCase caseMap "host" = "Host" := by
      rw [← String.toList_inj, canonicalPascalCase_of_ascii (chars_forall (by decide))]
      decide
    rw [← hword]
    exact hsplit.symm

theorem hostContractNameToTrait_eq_iff {a b : String} (ha : AsciiText a) (hb : AsciiText b) :
    hostContractNameToTrait caseMap a = hostContractNameToTrait caseMap b ↔
      SameWords (hostWords a) (hostWords b) := by
  rw [hostContractNameToTrait_eq ha, hostContractNameToTrait_eq hb,
    canonicalPascalCase_eq_iff (ascii_hostWords ha) (ascii_hostWords hb)]

/-! ### Structs for arguments -/

/-- An identifier has no dot and no hyphen, so its words end at underscores only. -/
theorem argPackStructName_eq {structWords fnName : String} (hfn : isValidIdentifier fnName = true) :
    argPackStructName caseMap (canonicalPascalCase caseMap structWords) fnName =
      canonicalPascalCase caseMap (structWords ++ "." ++ fnName ++ "." ++ "args") := by
  have hargs : canonicalPascalCase caseMap "args" = "Args" := by
    rw [← String.toList_inj, canonicalPascalCase_of_ascii (chars_forall (by decide))]
    decide
  have hfnWords : String.ofList ((fnName.toList.splitOnP fun c => c = '_').flatMap
      (capitalizeWord caseMap.upper)) = canonicalPascalCase caseMap fnName := by
    rw [← String.toList_inj, String.toList_ofList, flatMap_capitalize, canonicalPascalCase_toList,
      wordLetters]
    congr 1
    refine marked_congr (fun c hc => ?_) true
    have hchar := (identifierChar_of_isValidIdentifier hfn).2 c hc
    rw [isWordSeparator]
    have hdot : c ≠ '.' := by
      rintro rfl
      exact absurd hchar (by decide)
    have hhyphen : c ≠ '-' := by
      rintro rfl
      exact absurd hchar (by decide)
    simp [hdot, hhyphen]
  rw [argPackStructName, hfnWords, canonicalPascalCase_append rfl (by decide),
    canonicalPascalCase_append rfl (by decide), hargs]

end

/-! ### The names of an accepted schema -/

/-- The words of the structs for the arguments of a contract. -/
def packWords (structWords : String) (contract : ApiContract) : List String :=
  (contract.functions.filter fun f => needsArgPack f.params).map fun f =>
    structWords ++ "." ++ f.name ++ "." ++ "args"

/-- The words of the structs for the arguments of a schema. -/
def argPackWords (ir : ApiIr) : List String :=
  ir.contracts.flatMap (fun c => packWords (c.name ++ "." ++ "contract") c) ++
    ir.hostContracts.flatMap fun c => packWords (hostWords c.name) c

/-- The name of a contract is ASCII, and those of its functions are identifiers. -/
structure NamesValid (c : ApiContract) : Prop where
  name : AsciiText c.name
  functions : ∀ f ∈ c.functions, isValidIdentifier f.name = true

theorem ascii_of_isValidIdentifier {name : String} (h : isValidIdentifier name = true) :
    AsciiText name := fun c hc =>
  toNat_lt_of_isWordChar ((wordChars_of_identifier h).2 c hc)

theorem ascii_of_validateContractName {name kind : String}
    (h : validateContractName reservedIn name kind = .ok ()) : AsciiText name := by
  rw [validateContractName] at h
  split at h
  · cases h
  · next hvalid =>
    simp only [Bool.or_eq_true, Bool.not_eq_true', not_or, Bool.not_eq_true,
      Bool.not_eq_false] at hvalid
    intro c hc
    rcases @mem_splitChars '.' _ _ hc with rfl | ⟨piece, hpiece, hmem⟩
    · decide
    · have hidentifier := List.all_eq_true.1 hvalid.2 _ (List.mem_map_of_mem hpiece)
      refine ascii_of_isValidIdentifier hidentifier c ?_
      rw [String.toList_ofList]
      exact hmem

theorem valid_of_validateFunctions {contractName : String} {functions : List RawFunction}
    {seen : List String}
    (h : validateFunctions reservedIn contractName functions seen = .ok ()) :
    ∀ f ∈ functions, isValidIdentifier f.name = true := by
  induction functions generalizing seen with
  | nil => exact fun f hf => absurd hf List.not_mem_nil
  | cons f rest ih =>
    rw [validateFunctions] at h
    obtain ⟨_, hname, h⟩ := bind_eq_ok.mp h
    split at h
    · cases h
    · obtain ⟨_, -, h⟩ := bind_eq_ok.mp h
      intro g hg
      rcases List.mem_cons.mp hg with rfl | hg
      · exact (identifier_of_validate hname).1
      · exact ih h g hg

theorem namesValid_of_ok {knownTypes : List String} {kind : String} {raw : RawApiContract}
    {c : ApiContract} (h : lowerApiContract knownTypes kind raw = .ok c) : NamesValid c := by
  obtain ⟨_, hmembers, h⟩ := bind_eq_ok.mp h
  obtain ⟨_, -, h⟩ := bind_eq_ok.mp h
  obtain ⟨functions, hfunctions, h⟩ := bind_eq_ok.mp h
  cases h
  obtain ⟨_, hname, hvalid⟩ := bind_eq_ok.mp (mapError_eq_ok.mp hmembers)
  refine ⟨ascii_of_validateContractName hname, fun f hf => ?_⟩
  obtain ⟨rawFn, hraw, hlowered⟩ := exists_of_forall₂ (forall₂_of_mapM hfunctions) f hf
  have hsame : f.name = rawFn.name := by
    obtain ⟨params, -, hlowered⟩ := bind_eq_ok.mp hlowered
    cases hreturns : rawFn.returns with
    | none =>
      rw [hreturns] at hlowered
      cases hlowered
      rfl
    | some ret =>
      rw [hreturns] at hlowered
      obtain ⟨ty, -, hlowered⟩ := bind_eq_ok.mp hlowered
      cases hlowered
      rfl
  rw [hsame]
  exact valid_of_validateFunctions hvalid _ (List.mem_map_of_mem hraw)

section
variable {caseMap : CaseMap} {ir : ApiIr}

theorem packNames_eq {structWords : String} {c : ApiContract} (h : NamesValid c) :
    packNames caseMap (canonicalPascalCase caseMap structWords) c =
      (packWords structWords c).map (canonicalPascalCase caseMap) := by
  rw [packNames, packWords, List.map_map]
  refine List.map_congr_left fun f hf => ?_
  exact argPackStructName_eq (h.functions f (List.mem_filter.mp hf).1)

/-- **The structs for the arguments are their words, each with a capital.** -/
theorem argPackNames_eq (hguest : ∀ c ∈ ir.contracts, NamesValid c)
    (hhost : ∀ c ∈ ir.hostContracts, NamesValid c) :
    argPackNames caseMap ir = (argPackWords ir).map (canonicalPascalCase caseMap) := by
  have hword : canonicalPascalCase caseMap "contract" = "Contract" := by
    rw [← String.toList_inj, canonicalPascalCase_of_ascii (chars_forall (by decide))]
    decide
  rw [argPackNames, argPackWords, List.map_append, List.map_flatMap, List.map_flatMap]
  congr 1
  · refine List.flatMap_congr fun c hc => ?_
    rw [← packNames_eq (hguest c hc), canonicalPascalCase_append rfl (by decide), hword]
    rfl
  · refine List.flatMap_congr fun c hc => ?_
    rw [← packNames_eq (hhost c hc), hostContractNameToTrait_eq (hhost c hc).name]

theorem ascii_packWords {structWords : String} (hstruct : AsciiText structWords) {c : ApiContract}
    (h : NamesValid c) : ∀ w ∈ packWords structWords c, AsciiText w := by
  intro w hw
  obtain ⟨f, hf, rfl⟩ := List.mem_map.mp hw
  have hfn := ascii_of_isValidIdentifier (h.functions f (List.mem_filter.mp hf).1)
  exact (((hstruct.append (chars_forall (by decide))).append hfn).append
    (chars_forall (by decide))).append (chars_forall (by decide))

theorem ascii_argPackWords (hguest : ∀ c ∈ ir.contracts, NamesValid c)
    (hhost : ∀ c ∈ ir.hostContracts, NamesValid c) : ∀ w ∈ argPackWords ir, AsciiText w := by
  intro w hw
  rcases List.mem_append.mp hw with hw | hw
  · obtain ⟨c, hc, hw⟩ := List.mem_flatMap.mp hw
    refine ascii_packWords ?_ (hguest c hc) w hw
    exact ((hguest c hc).name.append (chars_forall (by decide))).append (chars_forall (by decide))
  · obtain ⟨c, hc, hw⟩ := List.mem_flatMap.mp hw
    exact ascii_packWords (ascii_hostWords (hhost c hc).name) (hhost c hc) w hw

end

/-! ### Symbols of their own -/

/-- No two symbols are the same: not for two contracts, not for two plugins, not for two functions
of the contracts. No struct for arguments has the name of a type or an enum. -/
structure SymbolsDistinct (caseMap : CaseMap) (raw : RawApiSchema) (ir : ApiIr)
    (bundle : ResolvedBundle) : Prop where
  struct : (ir.contracts.map fun c => contractNameToStruct caseMap c.name).Nodup
  guestTrait : (ir.contracts.map fun c => contractNameToGuestTrait caseMap c.name).Nodup
  upperSnake : (ir.contracts.map fun c => contractNameToUpperSnake caseMap c.name).Nodup
  hostTrait : (ir.hostContracts.map fun c => hostContractNameToTrait caseMap c.name).Nodup
  interface : (bundle.plugins.map fun p => interfaceSymbol caseMap p.name).Nodup
  packs : (argPackNames caseMap ir).Nodup
  types : ∀ pack ∈ argPackNames caseMap ir, pack ∉ raw.knownNames

/-- No two names are the same in one of the two ways. -/
structure NamesApart (caseMap : CaseMap) (raw : RawApiSchema) (ir : ApiIr)
    (bundle : ResolvedBundle) : Prop where
  words : ∀ c ∈ ir.contracts, ∀ c' ∈ ir.contracts, SameWords c.name c'.name → c.name = c'.name
  cased : ∀ c ∈ ir.contracts, ∀ c' ∈ ir.contracts,
    SameUpper caseMap c.name c'.name → c.name = c'.name
  host : ∀ c ∈ ir.hostContracts, ∀ c' ∈ ir.hostContracts,
    SameWords (hostWords c.name) (hostWords c'.name) → c.name = c'.name
  plugins : ∀ p ∈ bundle.plugins, ∀ p' ∈ bundle.plugins,
    SameUpper caseMap p.name p'.name → p.name = p'.name
  packs : (argPackWords ir).Pairwise fun v w => ¬ SameWords v w
  types : ∀ w ∈ argPackWords ir, ∀ n ∈ raw.knownNames, ¬ Spells n w

theorem nodup_of_duplicateName {names seen : List String} (h : duplicateName names seen = none) :
    names.Nodup ∧ ∀ n ∈ names, n ∉ seen := by
  induction names generalizing seen with
  | nil => exact ⟨List.nodup_nil, fun n hn => absurd hn List.not_mem_nil⟩
  | cons name rest ih =>
    rw [duplicateName] at h
    split at h
    · cases h
    · next hnew =>
      obtain ⟨hnodup, hseen⟩ := ih h
      refine ⟨List.nodup_cons.mpr ⟨fun hmem => ?_, hnodup⟩, fun n hn => ?_⟩
      · exact hseen name hmem (List.mem_append_right _ (List.mem_singleton_self _))
      · rcases List.mem_cons.mp hn with rfl | hn
        · exact hnew
        · exact fun hmem => hseen n hn (List.mem_append_left _ hmem)

/-- An accepted schema names no contract twice. -/
theorem contractNames_of_lowerApi {classes : CharClasses} {raw : RawApiSchema} {ir : ApiIr}
    (h : lowerApi classes raw = .ok ir) :
    (raw.guestContracts.map RawApiContract.name).Nodup ∧
      (raw.hostContracts.map RawApiContract.name).Nodup := by
  rw [lowerApi] at h
  cases hcollision : enumCollision raw with
  | some name =>
    rw [hcollision] at h
    cases h
  | none =>
    rw [hcollision] at h
    obtain ⟨_, -, h⟩ := bind_eq_ok.mp h
    obtain ⟨_, -, h⟩ := bind_eq_ok.mp h
    cases hguest : duplicateName (raw.guestContracts.map RawApiContract.name) [] with
    | some name =>
      rw [hguest] at h
      cases h
    | none =>
      rw [hguest] at h
      obtain ⟨_, -, h⟩ := bind_eq_ok.mp h
      obtain ⟨_, -, h⟩ := bind_eq_ok.mp h
      obtain ⟨_, hhosts, -⟩ := bind_eq_ok.mp h
      refine ⟨(nodup_of_duplicateName hguest).1, ?_⟩
      rw [checkHostNames] at hhosts
      obtain ⟨_, -, hhosts⟩ := bind_eq_ok.mp hhosts
      cases hhost : duplicateName (raw.hostContracts.map RawApiContract.name) [] with
      | some name =>
        rw [hhost] at hhosts
        cases hhosts
      | none => exact (nodup_of_duplicateName hhost).1

/-- Entries of distinct names have distinct symbols if their names are not the same. -/
theorem nodup_symbols_iff {α : Type} {l : List α} {name : α → String} {f : String → String}
    {R : String → String → Prop} (hl : (l.map name).Nodup)
    (hR : ∀ a ∈ l, ∀ b ∈ l, f (name a) = f (name b) ↔ R (name a) (name b)) :
    (l.map fun a => f (name a)).Nodup ↔
      ∀ a ∈ l, ∀ b ∈ l, R (name a) (name b) → name a = name b := by
  have hmap : (l.map fun a => f (name a)) = (l.map name).map f := by rw [List.map_map]; rfl
  rw [hmap, List.nodup_map_iff_inj_on hl]
  constructor
  · intro h a ha b hb hab
    exact h _ (List.mem_map_of_mem ha) _ (List.mem_map_of_mem hb) ((hR a ha b hb).mpr hab)
  · intro h x hx y hy hxy
    obtain ⟨a, ha, rfl⟩ := List.mem_map.mp hx
    obtain ⟨b, hb, rfl⟩ := List.mem_map.mp hy
    exact h a ha b hb ((hR a ha b hb).mp hxy)

/-- The contracts of an accepted schema have valid names, and each its own. -/
theorem valid_of_mapM {knownTypes : List String} {kind : String} {raws : List RawApiContract}
    {contracts : List ApiContract}
    (h : raws.mapM (lowerApiContract knownTypes kind) = .ok contracts)
    (hnodup : (raws.map RawApiContract.name).Nodup) :
    (∀ c ∈ contracts, NamesValid c) ∧ (contracts.map ApiContract.name).Nodup := by
  have hall := forall₂_of_mapM h
  refine ⟨fun c hc => ?_, ?_⟩
  · obtain ⟨raw, -, hlowered⟩ := exists_of_forall₂ hall c hc
    exact namesValid_of_ok hlowered
  · have hnames : raws.map RawApiContract.name = contracts.map ApiContract.name := by
      refine map_eq_of_forall₂ (hall.imp fun raw c hlowered => ?_)
      obtain ⟨_, -, hlowered⟩ := bind_eq_ok.mp hlowered
      obtain ⟨_, -, hlowered⟩ := bind_eq_ok.mp hlowered
      obtain ⟨_, -, hlowered⟩ := bind_eq_ok.mp hlowered
      cases hlowered
      rfl
    rw [← hnames]
    exact hnodup

/-- **The symbols are distinct exactly if the names are apart.** -/
theorem symbolsDistinct_iff (caseMap : CaseMap) (classes : CharClasses) (raw : RawApiSchema)
    (ir : ApiIr) (rawBundle : RawBundleSchema) (mode : BundleParseMode) (bundle : ResolvedBundle)
    (hapi : lowerApi classes raw = .ok ir) (hbundle : lowerBundle rawBundle mode = .ok bundle) :
    SymbolsDistinct caseMap raw ir bundle ↔ NamesApart caseMap raw ir bundle := by
  have h := lowered_of_lowerApi hapi
  obtain ⟨hguestNodup, hhostNodup⟩ := contractNames_of_lowerApi hapi
  obtain ⟨hguest, hguestNames⟩ := valid_of_mapM h.contracts hguestNodup
  obtain ⟨hhost, hhostNames⟩ := valid_of_mapM h.hostContracts hhostNodup
  have hplugins := nodup_plugins hbundle
  have hpackNames := @argPackNames_eq caseMap ir hguest hhost
  have hpackAscii := ascii_argPackWords hguest hhost
  have hknown : ∀ n ∈ raw.knownNames, AsciiText n := fun n hn =>
    ascii_of_isValidIdentifier (h.valid_known n hn)
  have hstruct := nodup_symbols_iff (f := contractNameToStruct caseMap) hguestNames
    fun c hc c' hc' => contractNameToStruct_eq_iff (hguest c hc).name (hguest c' hc').name
  have htrait := nodup_symbols_iff (f := contractNameToGuestTrait caseMap) hguestNames
    fun c hc c' hc' => contractNameToGuestTrait_eq_iff (hguest c hc).name (hguest c' hc').name
  have hupper := nodup_symbols_iff (f := contractNameToUpperSnake caseMap) hguestNames
    fun c hc c' hc' => contractNameToUpperSnake_eq_iff (hguest c hc).name (hguest c' hc').name
  have hhostTrait := nodup_symbols_iff (f := hostContractNameToTrait caseMap)
    (R := fun a b => SameWords (hostWords a) (hostWords b)) hhostNames
    fun c hc c' hc' => hostContractNameToTrait_eq_iff (hhost c hc).name (hhost c' hc').name
  have hinterface := nodup_symbols_iff (f := interfaceSymbol caseMap) hplugins
    fun p _ p' _ => interfaceSymbol_eq_iff (a := p.name) (b := p'.name)
  have hpacks : (argPackNames caseMap ir).Nodup ↔
      (argPackWords ir).Pairwise fun v w => ¬ SameWords v w := by
    rw [hpackNames, List.Nodup, List.pairwise_map]
    refine List.Pairwise.iff_of_mem fun hv hw => not_congr ?_
    exact canonicalPascalCase_eq_iff (hpackAscii _ hv) (hpackAscii _ hw)
  have htypes : (∀ pack ∈ argPackNames caseMap ir, pack ∉ raw.knownNames) ↔
      ∀ w ∈ argPackWords ir, ∀ n ∈ raw.knownNames, ¬ Spells n w := by
    rw [hpackNames, List.forall_mem_map]
    refine forall₂_congr fun w hw => ⟨fun hnot n hn hspells => hnot ?_, fun hall hmem => ?_⟩
    · rw [← (eq_canonicalPascalCase_iff (hknown n hn) (hpackAscii w hw)).mpr hspells]
      exact hn
    · exact hall _ hmem ((eq_canonicalPascalCase_iff (hknown _ hmem) (hpackAscii w hw)).mp rfl)
  constructor
  · intro hdistinct
    exact {
      words := hstruct.mp hdistinct.struct
      cased := hupper.mp hdistinct.upperSnake
      host := hhostTrait.mp hdistinct.hostTrait
      plugins := hinterface.mp hdistinct.interface
      packs := hpacks.mp hdistinct.packs
      types := htypes.mp hdistinct.types }
  · intro hapart
    exact {
      struct := hstruct.mpr hapart.words
      guestTrait := htrait.mpr hapart.words
      upperSnake := hupper.mpr hapart.cased
      hostTrait := hhostTrait.mpr hapart.host
      interface := hinterface.mpr hapart.plugins
      packs := hpacks.mpr hapart.packs
      types := htypes.mpr hapart.types }

/-! ### Two names for one symbol -/

/-- A schema of contracts without types. -/
def contractsSchema (guestContracts hostContracts : List RawApiContract) : RawApiSchema :=
  ⟨[], [], guestContracts, hostContracts⟩

/-- The functions of a contract, each with two numbers. -/
def pairFunctions (names : List String) : List RawApiFunction :=
  names.map fun name => ⟨name, [⟨"a", "u32"⟩, ⟨"b", "u32"⟩], none⟩

/-- The functions of a contract, resolved. -/
def pairFunctionsIr (names : List String) : List ApiFunction :=
  names.map fun name => ⟨name, [⟨"a", .primitive .u32⟩, ⟨"b", .primitive .u32⟩], none⟩

/-- A bundle of plugins, in one script. -/
def pluginsBundle (names : List String) : RawBundleSchema :=
  ⟨"media", "1.0", "python", .single "media.py", false, names.map fun name => ⟨name, []⟩, []⟩

/-- The bundle of the plugins. -/
def pluginsResolved (names : List String) : ResolvedBundle :=
  ⟨"media", ⟨1, 0, 0⟩, "python", .single "media.py", names.map fun name => ⟨name, []⟩,
    (Abi.BundleId.new "media").id, [], false⟩

/-- A decoder and a mixer, with a logger and a clock of the host. -/
def media : RawApiSchema :=
  contractsSchema
    [⟨"image.decode", "1.0", pairFunctions ["decode"]⟩,
      ⟨"audio.mix", "2.0", pairFunctions ["mix", "fade"]⟩]
    [⟨"host.logger", "1.0", pairFunctions ["log"]⟩,
      ⟨"host.clock", "1.0", pairFunctions ["elapsed"]⟩]

theorem symbolsDistinct_media : ∃ ir bundle, lowerApi asciiClasses media = .ok ir ∧
    lowerBundle (pluginsBundle ["jpeg", "mixer"]) .external = .ok bundle ∧
    argPackNames asciiCase ir =
      ["ImageDecodeContractDecodeArgs", "AudioMixContractMixArgs", "AudioMixContractFadeArgs",
        "HostLoggerLogArgs", "HostClockElapsedArgs"] ∧
    (SymbolsDistinct asciiCase media ir bundle ↔ NamesApart asciiCase media ir bundle) :=
  ⟨⟨[], [], [⟨"image.decode", ⟨1, 0, 0⟩, pairFunctionsIr ["decode"]⟩,
        ⟨"audio.mix", ⟨2, 0, 0⟩, pairFunctionsIr ["mix", "fade"]⟩],
      [⟨"host.logger", ⟨1, 0, 0⟩, pairFunctionsIr ["log"]⟩,
        ⟨"host.clock", ⟨1, 0, 0⟩, pairFunctionsIr ["elapsed"]⟩]⟩,
    pluginsResolved ["jpeg", "mixer"], by decide +kernel, by decide +kernel, by decide +kernel,
    symbolsDistinct_iff asciiCase asciiClasses _ _ (pluginsBundle ["jpeg", "mixer"]) .external _
      (by decide +kernel) (by decide +kernel)⟩

/-- Two pairs of contracts, and a pair of functions. -/
def ambiguous : RawApiSchema :=
  contractsSchema [⟨"image.decode", "1.0", []⟩, ⟨"image_decode", "1.0", []⟩,
      ⟨"scan", "1.0", pairFunctions ["contract_page"]⟩,
      ⟨"scan.contract", "1.0", pairFunctions ["page"]⟩]
    [⟨"host.logger", "1.0", []⟩, ⟨"host.host.logger", "1.0", []⟩]

/-- The pairs have one symbol each, and so have two plugins. -/
theorem separators_and_case_are_lost : ∃ ir bundle, lowerApi asciiClasses ambiguous = .ok ir ∧
    lowerBundle (pluginsBundle ["jpeg.fast", "jpeg_fast", "JPEG_fast"]) .external = .ok bundle ∧
    (ir.contracts.map fun c => contractNameToStruct asciiCase c.name) =
      ["ImageDecodeContract", "ImageDecodeContract", "ScanContract", "ScanContractContract"] ∧
    (ir.contracts.map fun c => contractNameToUpperSnake asciiCase c.name) =
      ["IMAGE_DECODE", "IMAGE_DECODE", "SCAN", "SCAN_CONTRACT"] ∧
    (ir.hostContracts.map fun c => hostContractNameToTrait asciiCase c.name) =
      ["HostLogger", "HostLogger"] ∧
    (bundle.plugins.map fun p => interfaceSymbol asciiCase p.name) =
      ["JPEG_FAST_INTERFACE", "JPEG_FAST_INTERFACE", "JPEG_FAST_INTERFACE"] ∧
    argPackNames asciiCase ir =
      ["ScanContractContractPageArgs", "ScanContractContractPageArgs"] ∧
    ¬ SymbolsDistinct asciiCase ambiguous ir bundle := by
  refine ⟨⟨[], [], [⟨"image.decode", ⟨1, 0, 0⟩, []⟩, ⟨"image_decode", ⟨1, 0, 0⟩, []⟩,
      ⟨"scan", ⟨1, 0, 0⟩, pairFunctionsIr ["contract_page"]⟩,
      ⟨"scan.contract", ⟨1, 0, 0⟩, pairFunctionsIr ["page"]⟩],
    [⟨"host.logger", ⟨1, 0, 0⟩, []⟩, ⟨"host.host.logger", ⟨1, 0, 0⟩, []⟩]⟩,
    pluginsResolved ["jpeg.fast", "jpeg_fast", "JPEG_fast"], by decide +kernel, by decide +kernel,
    by decide +kernel, by decide +kernel, by decide +kernel, by decide +kernel, by decide +kernel,
    fun h => ?_⟩
  exact absurd h.packs (by decide +kernel)

end PolyPlug.Codegen
