import PolyPlug.Codegen.RustProviders
import PolyPlug.Lib.Loop
import PolyPlug.Proofs.Codegen.Version
import PolyPlug.Proofs.Lifecycle.Validate

/-!
# `PolyPlug.Proofs.Codegen.Providers`: a generated bundle at the runtime's checks

Of accepted contracts the names are distinct and have no `@` (`Named`), so
every reader cuts `name@major.minor` at the same places. Both manifests then declare
the same: the implemented contracts, each once, with their function counts (`Declares`).
What a registration stages is read by the checks as the contract of its interface
(`Registers`).

The checks therefore accept exactly if every implemented contract is registered and
registrations of one contract id are registrations of one contract by different plugins
(`passesValidation_iff`). A disk bundle registers the first entry of each plugin alone.
-/

set_option autoImplicit false

namespace PolyPlug.Codegen

open PolyPlug.Lib
open PolyPlug.Rust
open PolyPlug.Abi
open PolyPlug.Common
open PolyPlug.Registry
open PolyPlug.Lifecycle

/-! ### Accepted names -/

/-- What the parser knows of the contracts. -/
structure Named (contracts : List ResolvedContract) : Prop where
  distinct : (contracts.map ResolvedContract.name).Nodup
  noAt : ∀ c ∈ contracts, '@' ∉ c.name.toList
  visible : ∀ c ∈ contracts, ∃ ch ∈ c.name.toList, isWhitespace ch = false
  major : ∀ c ∈ contracts, c.version.major < 2 ^ 32
  minor : ∀ c ∈ contracts, c.version.minor < 2 ^ 32
  contractId : ∀ c ∈ contracts, c.contractId = (GuestContractId.new c.name c.version.major).id

/-- A letter or an underscore is no blank. -/
theorem isWhitespace_of_identifierChar {ch : Char} (h : isIdentifierChar ch = true) :
    isWhitespace ch = false := by
  have hrange : (48 ≤ ch.toNat ∧ ch.toNat ≤ 57) ∨ (65 ≤ ch.toNat ∧ ch.toNat ≤ 90) ∨
      (97 ≤ ch.toNat ∧ ch.toNat ≤ 122) ∨ ch.toNat = 95 := by
    rw [isIdentifierChar, Bool.or_eq_true, isAlphanum_iff, decide_eq_true_eq] at h
    rcases h with (hupper | hlower | hdigit) | rfl
    · exact .inr (.inl hupper)
    · exact .inr (.inr (.inl hlower))
    · exact .inl hdigit
    · exact .inr (.inr (.inr rfl))
  simp only [isWhitespace, Bool.or_eq_false_iff, Bool.and_eq_false_iff, decide_eq_false_iff_not]
  omega

/-- An identifier starts with a character and has no others than letters, digits and
underscores. -/
theorem identifierChar_of_isValidIdentifier {name : String} (h : isValidIdentifier name = true) :
    name.toList ≠ [] ∧ ∀ ch ∈ name.toList, isIdentifierChar ch = true := by
  rw [isValidIdentifier] at h
  split at h
  · cases h
  · next c cs hcons =>
    rw [Bool.and_eq_true, Bool.or_eq_true] at h
    rw [hcons]
    refine ⟨nofun, fun ch hmem => ?_⟩
    rcases List.mem_cons.1 hmem with rfl | hmem
    · rcases h.1 with halpha | hunderscore
      · simp [isIdentifierChar, Char.isAlphanum, halpha]
      · simp only [isIdentifierChar, hunderscore, Bool.or_true]
    · exact List.all_eq_true.1 h.2 ch hmem

section
variable {reservedIn : String → Option String}

/-- A contract name has no `@`, and a character that is no blank. -/
theorem visible_of_validateContractName {name kind : String}
    (h : validateContractName reservedIn name kind = .ok ()) :
    '@' ∉ name.toList ∧ ∃ ch ∈ name.toList, isWhitespace ch = false := by
  rw [validateContractName] at h
  split at h
  · cases h
  · next hvalid =>
    simp only [Bool.or_eq_true, Bool.not_eq_true', not_or, Bool.not_eq_true,
      Bool.not_eq_false] at hvalid
    have hpieces : ∀ piece ∈ splitChars '.' name.toList,
        piece ≠ [] ∧ ∀ ch ∈ piece, isIdentifierChar ch = true := by
      intro piece hpiece
      have hidentifier := List.all_eq_true.1 hvalid.2 _ (List.mem_map_of_mem hpiece)
      have hchars := identifierChar_of_isValidIdentifier hidentifier
      rwa [String.toList_ofList] at hchars
    refine ⟨fun hat => ?_, ?_⟩
    · rcases @mem_splitChars '.' _ _ hat with hdot | ⟨piece, hpiece, hmem⟩
      · cases hdot
      · exact absurd ((hpieces piece hpiece).2 _ hmem) (by decide)
    · cases hsplit : splitChars '.' name.toList with
      | nil =>
        cases hname : name.toList with
        | nil => rw [hname] at hsplit; cases hsplit
        | cons c cs =>
          rcases @mem_splitChars '.' c name.toList (hname ▸ List.mem_cons_self ..) with
            rfl | ⟨piece, hpiece, -⟩
          · exact ⟨'.', List.mem_cons_self .., by decide⟩
          · rw [hsplit] at hpiece
            cases hpiece
      | cons piece pieces =>
        have hmem : piece ∈ splitChars '.' name.toList := hsplit ▸ List.mem_cons_self ..
        obtain ⟨hne, hchars⟩ := hpieces piece hmem
        obtain ⟨ch, hch⟩ := List.exists_mem_of_ne_nil piece hne
        exact ⟨ch, mem_of_mem_splitChars hmem hch, isWhitespace_of_identifierChar (hchars ch hch)⟩

/-- The contract a raw one is resolved to. -/
theorem lowerContract_ok {raw : RawGuestContract} {c : ResolvedContract}
    (h : lowerContract reservedIn raw = .ok c) :
    c.name = raw.name ∧ validateContractName reservedIn raw.name "guest contract" = .ok () ∧
      parseVersion raw.version = .ok c.version ∧
        c.contractId = (GuestContractId.new c.name c.version.major).id := by
  rw [lowerContract, validateContractMembers] at h
  dsimp only [bind, Except.bind] at h
  cases hname : validateContractName reservedIn raw.name "guest contract" with
  | error e => rw [hname] at h; cases h
  | ok _ =>
    rw [hname] at h
    dsimp only at h
    split at h
    · cases h
    · split at h
      · cases h
      · next version hversion =>
        obtain rfl := Except.ok.inj h
        exact ⟨rfl, rfl, hversion, rfl⟩

theorem nodup_of_duplicateContract {raws : List RawGuestContract} {seen : List String}
    (h : duplicateContract raws seen = none) :
    (raws.map RawGuestContract.name).Nodup ∧ ∀ raw ∈ raws, raw.name ∉ seen := by
  induction raws generalizing seen with
  | nil => exact ⟨List.nodup_nil, nofun⟩
  | cons raw raws ih =>
    rw [duplicateContract] at h
    split at h
    · cases h
    · next hnew =>
      obtain ⟨hnodup, hseen⟩ := ih h
      refine ⟨List.nodup_cons.2 ⟨fun hmem => ?_, hnodup⟩, fun other hother => ?_⟩
      · obtain ⟨other, hother, hname⟩ := List.mem_map.1 hmem
        exact hseen other hother (by rw [hname]; simp)
      · rcases List.mem_cons.1 hother with rfl | hother
        · exact hnew
        · exact fun hmem => hseen other hother (List.mem_append_left _ hmem)

/-- **Accepted contracts have distinct names that every reader cuts alike.** -/
theorem named_of_lowerContracts {raws : List RawGuestContract} {contracts : List ResolvedContract}
    (h : lowerContracts reservedIn raws = .ok contracts) : Named contracts := by
  rw [lowerContracts] at h
  split at h
  · cases h
  · next hduplicate =>
    have hall := forall₂_of_mapM h
    have hmem := exists_of_forall₂ hall
    have hnames : raws.map RawGuestContract.name = contracts.map ResolvedContract.name :=
      map_eq_of_forall₂ (hall.imp fun _ _ h => (lowerContract_ok h).1.symm)
    refine ⟨hnames ▸ (nodup_of_duplicateContract hduplicate).1, fun c hc => ?_, fun c hc => ?_,
      fun c hc => ?_, fun c hc => ?_, fun c hc => ?_⟩ <;> obtain ⟨raw, -, hraw⟩ := hmem c hc <;>
      obtain ⟨hname, hvalid, hversion, hid⟩ := lowerContract_ok hraw
    · exact hname ▸ (visible_of_validateContractName hvalid).1
    · exact hname ▸ (visible_of_validateContractName hvalid).2
    · exact (lt_of_parseVersion hversion).1
    · exact (lt_of_parseVersion hversion).2
    · exact hid

/-- Everything accepted with a bundle. -/
theorem named_of_parseBundleWithApi {api : Option (List RawGuestContract)} {raw : RawBundleSchema}
    {mode : BundleParseMode} {ir : ValidatedIr}
    (h : parseBundleWithApi reservedIn api raw mode = .ok ir) :
    Named ir.contracts ∧ lowerBundle raw mode = .ok ir.bundle := by
  have hrest : ∀ contracts : List ResolvedContract, Named contracts →
      (do
        checkBundleNameConflict raw.name contracts
        let bundle ← lowerBundle raw mode
        .ok ⟨contracts, bundle⟩ : Except PolyplugcError ValidatedIr) = .ok ir →
      Named ir.contracts ∧ lowerBundle raw mode = .ok ir.bundle := by
    intro contracts hnamed h
    dsimp only [bind, Except.bind] at h
    split at h
    · cases h
    · split at h
      · cases h
      · next bundle hbundle =>
        obtain rfl := Except.ok.inj h
        exact ⟨hnamed, hbundle⟩
  unfold parseBundleWithApi at h
  cases api with
  | none => exact hrest [] ⟨List.nodup_nil, nofun, nofun, nofun, nofun, nofun⟩ h
  | some raws =>
    dsimp only [bind, Except.bind] at h
    cases hcontracts : lowerContracts reservedIn raws with
    | error e => rw [hcontracts] at h; cases h
    | ok contracts =>
      rw [hcontracts] at h
      exact hrest contracts (named_of_lowerContracts hcontracts) h

end

/-! ### Cutting a name -/

theorem splitOnce_at {name : String} (h : '@' ∉ name.toList) (rest : String) :
    splitOnce (name ++ "@" ++ rest) '@' = some (name, rest) :=
  splitOnce_append h

theorem splitOnce_version (major minor : Nat) :
    splitOnce (decimal major ++ "." ++ decimal minor) '.' = some (decimal major, decimal minor) :=
  splitOnce_append (notMem_decimal (by decide) major)

theorem split_version (major minor : Nat) :
    split (decimal major ++ "." ++ decimal minor) '.' = [decimal major, decimal minor] := by
  have hminor := split_of_notMem (@notMem_decimal '.' (by decide) minor)
  rw [← hminor]
  exact split_append (notMem_decimal (by decide) major)

section
variable {contracts : List ResolvedContract} (hnamed : Named contracts) {c d : ResolvedContract}
include hnamed

theorem splitOnce_fullName (hc : c ∈ contracts) :
    splitOnce c.fullName '@' =
      some (c.name, decimal c.version.major ++ "." ++ decimal c.version.minor) := by
  rw [← splitOnce_at (hnamed.noAt c hc), ResolvedContract.fullName]
  simp only [String.append_assoc]

theorem splitOnce_majorName (hc : c ∈ contracts) :
    splitOnce c.majorName '@' = some (c.name, decimal c.version.major) :=
  splitOnce_at (hnamed.noAt c hc) _

theorem truncateToMajor_fullName (hc : c ∈ contracts) :
    truncateToMajor c.fullName = c.majorName := by
  rw [truncateToMajor, splitOnce_fullName hnamed hc]
  dsimp only
  rw [splitOnce_version]
  rfl

theorem truncateToMajor_majorName (hc : c ∈ contracts) :
    truncateToMajor c.majorName = c.majorName := by
  rw [truncateToMajor, splitOnce_majorName hnamed hc]
  dsimp only
  rw [splitOnce_of_notMem (notMem_decimal (by decide) _)]

theorem internalProvider_fullName (hc : c ∈ contracts) :
    internalProvider c.fullName = c.majorName := by
  rw [internalProvider, splitOnce_fullName hnamed hc]
  dsimp only [Option.getD_some]
  rw [split_version]
  rfl

theorem eq_of_name (hc : c ∈ contracts) (hd : d ∈ contracts) (h : c.name = d.name) : c = d :=
  List.inj_on_of_nodup_map hnamed.distinct hc hd h

theorem eq_of_majorName (hc : c ∈ contracts) (hd : d ∈ contracts)
    (h : c.majorName = d.majorName) : c = d := by
  have hcut := splitOnce_majorName hnamed hc
  rw [h, splitOnce_majorName hnamed hd] at hcut
  exact eq_of_name hnamed hc hd (Prod.mk.inj (Option.some.inj hcut)).1.symm

theorem eq_of_fullName (hc : c ∈ contracts) (hd : d ∈ contracts)
    (h : c.fullName = d.fullName) : c = d := by
  have hcut := splitOnce_fullName hnamed hc
  rw [h, splitOnce_fullName hnamed hd] at hcut
  exact eq_of_name hnamed hc hd (Prod.mk.inj (Option.some.inj hcut)).1.symm

end

/-! ### What the manifests declare -/

/-- A contract of the schema that a plugin implements. -/
def Implemented (ir : ValidatedIr) (c : ResolvedContract) : Prop :=
  c ∈ ir.contracts ∧ c.fullName ∈ allImplements ir

/-- Every plugin implements a contract, and every entry is a contract at exactly its
version. -/
structure ImplementsExactly (ir : ValidatedIr) : Prop where
  some : ∀ plugin ∈ ir.bundle.plugins, plugin.implements ≠ []
  exact : ∀ spec ∈ allImplements ir, ∃ c ∈ ir.contracts, spec = c.fullName

/-- The manifest declares the implemented contracts, each once, with their counts. -/
structure Declares (ir : ValidatedIr) (m : ManifestData) : Prop where
  nodup : m.provides.Nodup
  provides : ∀ spec, spec ∈ m.provides ↔ ∃ c, Implemented ir c ∧ c.majorName = spec
  functionCount : ∀ c, Implemented ir c →
    m.functionCount.lookup c.majorName = some (asU32 c.functions.length)

theorem mem_sortDedup {texts : List String} {spec : String} :
    spec ∈ sortDedup texts ↔ spec ∈ texts := by
  rw [sortDedup, Finset.mem_sort, List.mem_toFinset]

theorem nodup_sortDedup (texts : List String) : (sortDedup texts).Nodup :=
  Finset.sort_nodup ..

section
variable {ir : ValidatedIr}

/-- The entries, after a cut at the major. -/
theorem mem_map_allImplements (hexact : ImplementsExactly ir) {cut : String → String}
    (hcut : ∀ c ∈ ir.contracts, cut c.fullName = c.majorName) (spec : String) :
    spec ∈ sortDedup ((allImplements ir).map cut) ↔ ∃ c, Implemented ir c ∧ c.majorName = spec := by
  rw [mem_sortDedup, List.mem_map]
  constructor
  · rintro ⟨entry, hentry, rfl⟩
    obtain ⟨c, hc, rfl⟩ := hexact.exact entry hentry
    exact ⟨c, ⟨hc, hentry⟩, (hcut c hc).symm⟩
  · rintro ⟨c, ⟨hc, hentry⟩, rfl⟩
    exact ⟨c.fullName, hentry, hcut c hc⟩

/-- The count of a declared contract. -/
theorem lookup_functionCount (hnamed : Named ir.contracts) {declared : List String}
    {count : ResolvedContract → Nat} {c : ResolvedContract} (hc : c ∈ ir.contracts)
    (hdeclared : c.majorName ∈ declared) :
    Finmap.lookup c.majorName
      ((((ir.contracts.filter fun c => c.majorName ∈ declared).map fun c =>
        (c.majorName, count c)).map fun e => (⟨e.1, e.2⟩ : Sigma fun _ : String => Nat)).toFinmap) =
      some (count c) := by
  rw [Finmap.dlookup_list_toFinmap, List.map_map]
  refine List.mem_dlookup ?_ ?_
  · rw [List.NodupKeys, List.keys, List.map_map]
    refine (hnamed.distinct.of_map _).filter _ |>.map_on ?_
    intro d hd e he h
    exact eq_of_majorName hnamed (List.mem_filter.1 hd).1 (List.mem_filter.1 he).1 h
  · exact List.mem_map.2 ⟨c, List.mem_filter.2 ⟨hc, by simpa using hdeclared⟩, rfl⟩

variable (hnamed : Named ir.contracts) (hexact : ImplementsExactly ir)
include hnamed hexact

/-- **The manifest of a disk bundle declares the implemented contracts.** -/
theorem declares_generateBundleManifest {m : ManifestData}
    (h : (generateBundleManifest ir).ReadAs m) : Declares ir m := by
  have hmem := mem_map_allImplements hexact fun c hc => truncateToMajor_fullName hnamed hc
  refine ⟨h.provides ▸ nodup_sortDedup _, fun spec => ?_, fun c hc => ?_⟩
  · rw [h.provides]
    exact hmem spec
  · rw [h.functionCount]
    refine lookup_functionCount hnamed hc.1 (List.mem_map.2 ⟨c.majorName, ?_, ?_⟩)
    · exact (hmem c.majorName).2 ⟨c, hc, rfl⟩
    · exact truncateToMajor_majorName hnamed hc.1

/-- **So does the manifest of the internal profile.** -/
theorem declares_generateInternalProfileManifest {m : ManifestData}
    (h : (generateInternalProfileManifest ir).ReadAs m) : Declares ir m := by
  have hmem := mem_map_allImplements hexact fun c hc => internalProvider_fullName hnamed hc
  refine ⟨h.provides ▸ nodup_sortDedup _, fun spec => ?_, fun c hc => ?_⟩
  · rw [h.provides]
    exact hmem spec
  · have hdeclared := (hmem c.majorName).2 ⟨c, hc, rfl⟩
    have hfits := h.fits (c.majorName, c.functions.length)
      (List.mem_map.2 ⟨c, List.mem_filter.2 ⟨hc.1, by simpa using hdeclared⟩, rfl⟩)
    rw [h.functionCount, asU32, Nat.mod_eq_of_lt hfits]
    exact lookup_functionCount hnamed hc.1 hdeclared

end

/-! ### What a registration stages -/

/-- The name and the version a registration spells, of the contract of its interface. -/
structure Spelling where
  name : ResolvedContract → String
  version : ResolvedContract → Version

/-- Every check reads the contract out of the spelling. -/
structure Spelling.Readable (spelling : Spelling) : Prop where
  name : ∀ c, spelling.name c = c.majorName ∨ spelling.name c = c.name
  version : ∀ c, (spelling.version c).major = c.version.major

/-- The registration is of an implemented contract, as it is spelled. -/
structure Registration.Sound (ir : ValidatedIr) (spelling : Spelling) (r : Registration) :
    Prop where
  implemented : Implemented ir r.interface
  name : r.contractName = spelling.name r.interface
  version : r.version = spelling.version r.interface

/-- What the checks read of a staged contract. -/
structure Registers (r : Registration) (c : PreparedGuestContract) : Prop where
  pluginName : c.descriptor.name = r.pluginName
  contractName : c.contractName = r.contractName
  version : c.descriptor.version = r.version
  contractId : c.contractId = ⟨r.contractId⟩
  interfaceVersion : c.interface.val.contractVersion.major = r.interface.version.major
  functionCount : ∀ count ∈ nativeFunctionCount c, count = asU32 r.interface.functions.length

/-- The runtime reads the text that the generated code passes. -/
theorem stringViewToOwnedString_stringView (text context : String) :
    stringViewToOwnedString (stringView text) context = .ok text := by
  have hbytes : ByteArray.mk text.toUTF8.data.toList.toArray = text.toByteArray := by
    rw [Array.toArray_toList]
    rfl
  have hread : String.fromUTF8? text.toByteArray = some text := by
    rw [String.fromUTF8?, dif_pos text.isValidUTF8]
    rfl
  rw [stringViewToOwnedString, stringView]
  dsimp only
  split
  · next hempty =>
    have hdata : text.toByteArray.data = #[] :=
      Array.toList_eq_nil_iff.1 (List.isEmpty_iff.1 hempty)
    have hnone : text = "" := String.toByteArray_eq_empty_iff.1 (ByteArray.ext hdata)
    rw [hnone]
  · rw [hbytes, hread]

theorem Registration.Stages.registers {r : Registration} {c : PreparedGuestContract}
    (h : r.Stages c) : Registers r c := by
  obtain ⟨createInstance, destroyInstance, functions, adapterContext, ptr, hprepare⟩ := h
  rw [prepareGuestContract, Registration.descriptor, Registration.rawInterface] at hprepare
  dsimp only at hprepare
  rw [stringViewToOwnedString_stringView] at hprepare
  cases hnative : r.native with
  | true =>
    rw [hnative] at hprepare
    obtain rfl := Except.ok.inj hprepare
    refine ⟨rfl, rfl, rfl, rfl, rfl, fun count hcount => ?_⟩
    exact (Option.some.inj hcount).symm
  | false =>
    rw [hnative] at hprepare
    obtain rfl := Except.ok.inj hprepare
    exact ⟨rfl, rfl, rfl, rfl, rfl, nofun⟩

/-! ### The checks -/

/-- The part of the runtime's own validation that is about providers. -/
structure PassesValidation (m : ManifestData) (contracts : List PreparedGuestContract) :
    Prop where
  provides : ∀ spec ∈ m.provides, validateNameVersionSpec spec "provides" m.path = .ok ()
  providerSet : validatePreparedProviderSet m contracts = .ok ()
  bundleContracts : validatePreparedBundleContracts contracts = .ok ()
  functionCounts : validatePreparedFunctionCounts m .strict contracts = .ok ()

theorem isDecimalComponent_decimal (n : Nat) : isDecimalComponent (decimal n) = true := by
  rw [isDecimalComponent, Bool.and_eq_true]
  constructor
  · rw [Bool.not_eq_true', Bool.eq_false_iff]
    intro hempty
    have hnil := congrArg String.toList (String.isEmpty_iff.1 hempty)
    rw [decimal, String.toList_ofList] at hnil
    exact toDigits_ne_nil n hnil
  · rw [decimal, String.toList_ofList]
    exact List.all_eq_true.2 fun _ => isAsciiDigit_of_mem_toDigits

section
variable {ir : ValidatedIr} (hnamed : Named ir.contracts) {m : ManifestData}
  (hdeclares : Declares ir m) {spelling : Spelling} (hreadable : spelling.Readable)
include hnamed

theorem bareName_spelling (hreadable : spelling.Readable) {c : ResolvedContract}
    (hc : c ∈ ir.contracts) : bareName (spelling.name c) = c.name := by
  rw [bareName]
  rcases hreadable.name c with hname | hname
  · rw [hname, splitOnce_majorName hnamed hc]
  · rw [hname, splitOnce_of_notMem (hnamed.noAt c hc)]

theorem canonicalContractName_spelling (hreadable : spelling.Readable) {c : ResolvedContract}
    (hc : c ∈ ir.contracts) : canonicalContractName (spelling.name c) = c.name := by
  have hdecimal (sep : Char) (h : isAsciiDigit sep = false) :=
    notMem_decimal h c.version.major
  rcases hreadable.name c with hname | hname
  · obtain ⟨ch, hch, -⟩ := hnamed.visible c hc
    have hempty : c.name.isEmpty = false := by
      rw [Bool.eq_false_iff]
      intro hempty
      rw [String.isEmpty_iff.1 hempty] at hch
      cases hch
    have hcut : rsplitOnce c.majorName '@' = some (c.name, decimal c.version.major) :=
      rsplitOnce_append (hdecimal '@' (by decide))
    rw [hname, canonicalContractName, hcut]
    dsimp only
    rw [hempty, split_of_notMem (hdecimal '.' (by decide))]
    exact if_pos (isDecimalComponent_decimal _)
  · rw [hname, canonicalContractName, rsplitOnce_of_notMem (hnamed.noAt c hc)]

/-- A declared provider is well formed. -/
theorem validateNameVersionSpec_declared (hdeclares : Declares ir m) {spec field path : String}
    (hspec : spec ∈ m.provides) : validateNameVersionSpec spec field path = .ok () := by
  obtain ⟨c, hc, rfl⟩ := (hdeclares.provides spec).1 hspec
  obtain ⟨ch, hch, hvisible⟩ := hnamed.visible c hc.1
  rw [validateNameVersionSpec, splitOnce_majorName hnamed hc.1]
  dsimp only
  rw [trim_nonempty hch hvisible, parseU32_decimal (hnamed.major c hc.1)]
  rfl

/-- The declaration that covers a contract is its own. -/
theorem expectedIndex_iff (hdeclares : Declares ir m) {c : ResolvedContract}
    (hc : Implemented ir c) {version : Version} (hversion : version.major = c.version.major)
    {k : Nat} : expectedIndex m c.name version = some k ↔ m.provides[k]? = some c.majorName := by
  have hproviders : expectedProviders m = m.provides.map fun spec =>
      (splitOnce spec '@').elim (spec, none) fun parts => (parts.1, some parts.2) := by
    rw [expectedProviders]
    refine List.map_congr_left fun spec _ => ?_
    cases splitOnce spec '@' with
    | none => rfl
    | some parts => rfl
  have htest : ∀ spec ∈ m.provides,
      (let p : String × Option String :=
        (splitOnce spec '@').elim (spec, none) fun parts => (parts.1, some parts.2)
      (p.1 = c.name && p.2.all fun declared => versionMatches declared version) = true) ↔
        spec = c.majorName := by
    intro spec hspec
    obtain ⟨d, hd, rfl⟩ := (hdeclares.provides spec).1 hspec
    rw [splitOnce_majorName hnamed hd.1]
    simp only [Option.elim_some, Option.all_some, Bool.and_eq_true]
    constructor
    · intro h
      rw [eq_of_name hnamed hd.1 hc.1 (of_decide_eq_true h.1)]
    · intro h
      obtain rfl := eq_of_majorName hnamed hd.1 hc.1 h
      refine ⟨decide_eq_true rfl, ?_⟩
      rw [versionMatches, parseU32_decimal (hnamed.major d hd.1)]
      exact decide_eq_true hversion.symm
  rw [expectedIndex, hproviders, List.findIdx?_map, List.findIdx?_eq_some_iff_getElem]
  constructor
  · rintro ⟨hk, hmatch, -⟩
    rw [List.getElem?_eq_getElem hk]
    exact congrArg some ((htest _ (List.getElem_mem hk)).1 hmatch)
  · intro h
    obtain ⟨hk, hget⟩ := List.getElem?_eq_some_iff.1 h
    refine ⟨hk, (htest _ (List.getElem_mem hk)).2 hget, fun j hj hmatch => ?_⟩
    have hjget := (htest _ (List.getElem_mem (hj.trans hk))).1 hmatch
    have hsame := (hdeclares.nodup.getElem_inj_iff).1 (hjget.trans hget.symm)
    omega

/-- The declaration that a registration is matched with. -/
theorem providerIndex_iff (hdeclares : Declares ir m) (hreadable : spelling.Readable)
    {r : Registration} (hsound : r.Sound ir spelling) {c : PreparedGuestContract}
    (hregisters : Registers r c) {k : Nat} :
    providerIndex m c = some k ↔ m.provides[k]? = some r.interface.majorName := by
  have hc := hsound.implemented
  have hversion : c.descriptor.version.major = r.interface.version.major := by
    rw [hregisters.version, hsound.version, hreadable.version]
  rw [← expectedIndex_iff hnamed hdeclares hc hversion, providerIndex, specIndex,
    hregisters.contractName, hsound.name]
  rcases hreadable.name r.interface with hname | hname
  · rw [hname, splitOnce_majorName hnamed hc.1]
    have hmatches : versionMatches (decimal r.interface.version.major) c.descriptor.version
        = true := by
      rw [versionMatches, parseU32_decimal (hnamed.major _ hc.1)]
      exact decide_eq_true hversion.symm
    simp [hmatches]
  · rw [hname, splitOnce_of_notMem (hnamed.noAt _ hc.1)]
    simp

/-- Two registrations are compatible if they are of different ids, or of one contract by two
plugins. -/
theorem compatible_iff (hreadable : spelling.Readable) {r r' : Registration}
    (hsound : r.Sound ir spelling) (hsound' : r'.Sound ir spelling)
    {c c' : PreparedGuestContract} (hregisters : Registers r c) (hregisters' : Registers r' c') :
    Compatible c c' ↔ (r.contractId = r'.contractId →
      r.interface = r'.interface ∧ r.pluginName ≠ r'.pluginName) := by
  have hid : c.contractId = c'.contractId ↔ r.contractId = r'.contractId := by
    rw [hregisters.contractId, hregisters'.contractId, GuestContractId.mk.injEq]
  have hname : nameCollision c.contractName c'.contractName = false ↔
      r.interface = r'.interface := by
    have hcanonical := canonicalContractName_spelling hnamed hreadable hsound.implemented.1
    have hcanonical' := canonicalContractName_spelling hnamed hreadable hsound'.implemented.1
    rw [nameCollision, hregisters.contractName, hregisters'.contractName, hsound.name,
      hsound'.name, hcanonical, hcanonical', decide_eq_false_iff_not, not_not]
    constructor
    · exact eq_of_name hnamed hsound.implemented.1 hsound'.implemented.1
    · exact congrArg ResolvedContract.name
  rw [Compatible, hid]
  refine imp_congr_right fun _ => ?_
  rw [hname]
  refine and_congr_right fun hsame => not_congr ?_
  rw [c.contractName_eq, c'.contractName_eq, hregisters.contractName, hregisters'.contractName,
    hsound.name, hsound'.name, hregisters.version, hregisters'.version, hsound.version,
    hsound'.version, hregisters.pluginName, hregisters'.pluginName, hsame]
  exact and_iff_left ⟨rfl, rfl⟩

/-- A declared count is the one of the interface. -/
theorem countMatches_of_registers (hdeclares : Declares ir m) (hreadable : spelling.Readable)
    {r : Registration} (hsound : r.Sound ir spelling) {c : PreparedGuestContract}
    (hregisters : Registers r c) : CountMatches m c := by
  intro count hcount
  have hkey : functionCountKey c = r.interface.majorName := by
    rw [functionCountKey, hregisters.contractName, hsound.name,
      bareName_spelling hnamed hreadable hsound.implemented.1, hregisters.interfaceVersion]
    rfl
  rw [hkey, hdeclares.functionCount _ hsound.implemented, hregisters.functionCount count hcount]

/-- **What is staged passes the two provider checks if every implemented contract is registered,
and registrations of one contract id are of one contract by different plugins.** -/
theorem providerChecks_iff (hdeclares : Declares ir m) (hreadable : spelling.Readable)
    {registrations : List Registration} (hsound : ∀ r ∈ registrations, r.Sound ir spelling)
    {staged : List PreparedGuestContract}
    (hstaged : List.Forall₂ Registers registrations staged) :
    validatePreparedProviderSet m staged = .ok () ∧
        validatePreparedBundleContracts staged = .ok () ↔
      (∀ c, Implemented ir c → ∃ r ∈ registrations, r.interface = c) ∧
      registrations.Pairwise fun r r' => r.contractId = r'.contractId →
        r.interface = r'.interface ∧ r.pluginName ≠ r'.pluginName := by
  have hboth : List.Forall₂ (fun r c => r.Sound ir spelling ∧ Registers r c) registrations staged :=
    (List.forall₂_and_left _ _).2 ⟨hsound, hstaged⟩
  have hleft : ∀ r ∈ registrations, ∃ c ∈ staged, r.Sound ir spelling ∧ Registers r c :=
    exists_of_forall₂ hboth.flip
  have hright : ∀ c ∈ staged, ∃ r ∈ registrations, r.Sound ir spelling ∧ Registers r c :=
    exists_of_forall₂ hboth
  -- The check of two staged contracts, on their registrations.
  have hpairwise : staged.Pairwise Compatible ↔
      registrations.Pairwise fun r r' => r.contractId = r'.contractId →
        r.interface = r'.interface ∧ r.pluginName ≠ r'.pluginName := by
    clear hstaged hsound hleft hright
    induction hboth with
    | nil => exact iff_of_true .nil .nil
    | @cons r c registrations staged hfirst hrest ih =>
      have hstep := fun {r' : Registration} {c' : PreparedGuestContract}
          (h : r'.Sound ir spelling ∧ Registers r' c') =>
        compatible_iff hnamed hreadable hfirst.1 h.1 hfirst.2 h.2
      rw [List.pairwise_cons, List.pairwise_cons, ih]
      refine and_congr_left' ?_
      clear ih hfirst
      induction hrest with
      | nil => exact iff_of_true nofun nofun
      | cons h _ ih => rw [List.forall_mem_cons, List.forall_mem_cons, ih, hstep h]
  -- The entries of `provides` are the implemented contracts.
  have hset : validatePreparedProviderSet m staged = .ok () ↔
      ∀ c, Implemented ir c → ∃ r ∈ registrations, r.interface = c := by
    rw [validatePreparedProviderSet_ok_iff]
    constructor
    · rintro ⟨-, hall⟩ c hc
      obtain ⟨k, hk, hget⟩ := List.getElem_of_mem ((hdeclares.provides _).2 ⟨c, hc, rfl⟩)
      obtain ⟨p, hp, hindex⟩ := hall k hk
      obtain ⟨r, hr, hs, hregisters⟩ := hright p hp
      have hprovides := (providerIndex_iff hnamed hdeclares hreadable hs hregisters).1 hindex
      rw [List.getElem?_eq_getElem hk, hget] at hprovides
      exact ⟨r, hr, (eq_of_majorName hnamed hc.1 hs.implemented.1
        (Option.some.inj hprovides)).symm⟩
    · intro hall
      constructor
      · intro p hp
        obtain ⟨r, hr, hs, hregisters⟩ := hright p hp
        obtain ⟨k, hk, hget⟩ := List.getElem_of_mem
          ((hdeclares.provides _).2 ⟨r.interface, hs.implemented, rfl⟩)
        rw [(providerIndex_iff hnamed hdeclares hreadable hs hregisters).2
          (List.getElem?_eq_some_iff.2 ⟨hk, hget⟩)]
        rfl
      · intro k hk
        obtain ⟨c, hc, hname⟩ := (hdeclares.provides _).1 (List.getElem_mem hk)
        obtain ⟨r, hr, rfl⟩ := hall c hc
        obtain ⟨p, hp, hs, hregisters⟩ := hleft r hr
        exact ⟨p, hp, (providerIndex_iff hnamed hdeclares hreadable hs hregisters).2
          (List.getElem?_eq_some_iff.2 ⟨hk, hname.symm⟩)⟩
  rw [hset, validatePreparedBundleContracts_ok_iff, hpairwise]

/-- **What is staged passes if it passes the two provider checks.** The declarations are well
formed and the counts are those of the interfaces. -/
theorem passesValidation_iff (hdeclares : Declares ir m) (hreadable : spelling.Readable)
    {registrations : List Registration} (hsound : ∀ r ∈ registrations, r.Sound ir spelling)
    {staged : List PreparedGuestContract}
    (hstaged : List.Forall₂ Registers registrations staged) :
    PassesValidation m staged ↔
      (∀ c, Implemented ir c → ∃ r ∈ registrations, r.interface = c) ∧
      registrations.Pairwise fun r r' => r.contractId = r'.contractId →
        r.interface = r'.interface ∧ r.pluginName ≠ r'.pluginName := by
  rw [← providerChecks_iff hnamed hdeclares hreadable hsound hstaged]
  constructor
  · intro h
    exact ⟨h.providerSet, h.bundleContracts⟩
  · rintro ⟨hset, hpair⟩
    refine ⟨fun spec hspec => validateNameVersionSpec_declared hnamed hdeclares hspec,
      hset, hpair, validatePreparedFunctionCounts_ok_iff.2 fun c hc => ?_⟩
    obtain ⟨r, -, hs, hregisters⟩ :=
      exists_of_forall₂ ((List.forall₂_and_left _ _).2 ⟨hsound, hstaged⟩) c hc
    exact countMatches_of_registers hnamed hdeclares hreadable hs hregisters

end

/-! ### The entries of a bundle -/

/-- Implemented contracts of one id are one contract. -/
def DistinctIds (ir : ValidatedIr) : Prop :=
  ∀ c d, Implemented ir c → Implemented ir d → c.contractId = d.contractId → c = d

/-- Implemented contracts whose names are one in upper case are one contract. -/
def DistinctConstants (text : RustText) (ir : ValidatedIr) : Prop :=
  ∀ c d, Implemented ir c → Implemented ir d →
    contractNameToUpperSnake text.toCaseMap c.name =
      contractNameToUpperSnake text.toCaseMap d.name → c = d

/-- The contract is the one entry of the plugin. -/
def OneEntry (ir : ValidatedIr) (plugin : ResolvedPlugin) (c : ResolvedContract) : Prop :=
  c ∈ ir.contracts ∧ plugin.implements = [c.fullName]

theorem nodup_of_duplicatePlugin {plugins : List ResolvedPlugin} {seen : List String}
    (h : duplicatePlugin plugins seen = none) :
    (plugins.map ResolvedPlugin.name).Nodup ∧ ∀ plugin ∈ plugins, plugin.name ∉ seen := by
  induction plugins generalizing seen with
  | nil => exact ⟨List.nodup_nil, nofun⟩
  | cons plugin plugins ih =>
    rw [duplicatePlugin] at h
    split at h
    · cases h
    · next hnew =>
      obtain ⟨hnodup, hseen⟩ := ih h
      refine ⟨List.nodup_cons.2 ⟨fun hmem => ?_, hnodup⟩, fun other hother => ?_⟩
      · obtain ⟨other, hother, hname⟩ := List.mem_map.1 hmem
        exact hseen other hother (by rw [hname]; simp)
      · rcases List.mem_cons.1 hother with rfl | hother
        · exact hnew
        · exact fun hmem => hseen other hother (List.mem_cons_of_mem _ hmem)

/-- The plugins of an accepted bundle have distinct names. -/
theorem nodup_plugins {raw : RawBundleSchema} {mode : BundleParseMode} {bundle : ResolvedBundle}
    (h : lowerBundle raw mode = .ok bundle) : (bundle.plugins.map ResolvedPlugin.name).Nodup := by
  rw [lowerBundle] at h
  dsimp only [bind, Except.bind] at h
  split at h
  · cases h
  · split at h
    · cases h
    · next hunique =>
      split at h
      · cases h
      · obtain rfl := Except.ok.inj h
        unfold validateBundlePluginUniqueness at hunique
        split at hunique
        · cases hunique
        · next hnone => exact (nodup_of_duplicatePlugin hnone).1

/-- A symmetric relation of pairs that holds of equals holds of all members. -/
theorem interface_eq_of_pairwise {registrations : List Registration}
    (h : registrations.Pairwise fun r r' => r.contractId = r'.contractId →
      r.interface = r'.interface ∧ r.pluginName ≠ r'.pluginName) {r r' : Registration}
    (hr : r ∈ registrations) (hr' : r' ∈ registrations)
    (hid : r.contractId = r'.contractId) : r.interface = r'.interface := by
  have hall := (h.imp fun h hid => (h hid).1 : registrations.Pairwise fun r r' =>
    r.contractId = r'.contractId → r.interface = r'.interface)
  exact List.Pairwise.forall_of_forall_of_flip (fun _ _ _ => rfl) hall
    (hall.imp fun h hid => (h hid.symm).symm) hr hr' hid

/-- Where the keys are distinct, an element is found by its key. -/
theorem find?_eq_some_of_pairwise {α : Type} {key : α → String} {l : List α}
    (hl : l.Pairwise fun p q => key p ≠ key q) {p : α} (hp : p ∈ l) :
    l.find? (fun q => key q = key p) = some p := by
  induction hl with
  | nil => cases hp
  | @cons q l hq _ ih =>
    rcases List.mem_cons.1 hp with rfl | hp
    · exact List.find?_cons_of_pos (by simp)
    · rw [List.find?_cons_of_neg (by simpa using hq p hp), ih hp]

section
variable {ir : ValidatedIr} (hnamed : Named ir.contracts) (hexact : ImplementsExactly ir)
include hnamed

theorem contractOf_fullName {c : ResolvedContract} (hc : c ∈ ir.contracts) :
    contractOf ir c.fullName = some c := by
  rw [contractOf]
  cases hfind : ir.contracts.find? fun contract => contract.fullName = c.fullName with
  | none => exact absurd (List.find?_eq_none.1 hfind c hc) (by simp)
  | some d =>
    have hname := List.find?_some hfind
    rw [eq_of_fullName hnamed (List.mem_of_find?_eq_some hfind) hc (by simpa using hname)]

include hexact

/-- The providers of a bundle are its entries. -/
theorem mem_guestProviders {provider : GuestProvider} :
    provider ∈ guestProviders ir ↔ provider.1 ∈ ir.bundle.plugins ∧ provider.2 ∈ ir.contracts ∧
      provider.2.fullName ∈ provider.1.implements := by
  obtain ⟨plugin, c⟩ := provider
  rw [guestProviders, List.mem_flatMap]
  constructor
  · intro ⟨other, hother, hmem⟩
    obtain ⟨spec, hspec, hsome⟩ := List.mem_filterMap.1 hmem
    obtain ⟨d, hd, rfl⟩ := hexact.exact spec (List.mem_flatMap.2 ⟨other, hother, hspec⟩)
    rw [contractOf_fullName hnamed hd] at hsome
    obtain ⟨rfl, rfl⟩ := Prod.mk.inj (Option.some.inj hsome)
    exact ⟨hother, hd, hspec⟩
  · intro ⟨hplugin, hc, hspec⟩
    refine ⟨plugin, hplugin, List.mem_filterMap.2 ⟨c.fullName, hspec, ?_⟩⟩
    rw [contractOf_fullName hnamed hc]
    rfl

/-- The implemented contracts are those of the providers. -/
theorem implemented_iff_provider {c : ResolvedContract} :
    Implemented ir c ↔ ∃ provider ∈ guestProviders ir, provider.2 = c := by
  constructor
  · intro ⟨hc, hentry⟩
    obtain ⟨plugin, hplugin, hspec⟩ := List.mem_flatMap.1 hentry
    exact ⟨(plugin, c), (mem_guestProviders hnamed hexact).2 ⟨hplugin, hc, hspec⟩, rfl⟩
  · intro ⟨provider, hprovider, heq⟩
    obtain ⟨hplugin, hc, hspec⟩ := (mem_guestProviders hnamed hexact).1 hprovider
    subst heq
    exact ⟨hc, List.mem_flatMap.2 ⟨provider.1, hplugin, hspec⟩⟩

end

/-! ### What `interfaces.rs` declares -/

section
variable {text : RustText} {ir : ValidatedIr}

theorem contractIdConst_eq_iff {c d : ResolvedContract} :
    contractIdConst text c = contractIdConst text d ↔
      contractNameToUpperSnake text.toCaseMap c.name =
        contractNameToUpperSnake text.toCaseMap d.name := by
  rw [contractIdConst, contractIdConst, String.append_left_inj]

/-- A constant has the id of some contract that gives its name. -/
theorem lookup_contractIdConsts {c : ResolvedContract} : ∀ {contracts : List ResolvedContract}
    {emittedConsts : List String}, c ∈ contracts → contractIdConst text c ∉ emittedConsts →
    ∃ d ∈ contracts, contractIdConst text d = contractIdConst text c ∧
      (contractIdConsts text contracts emittedConsts).lookup (contractIdConst text c) =
        some d.contractId := by
  intro contracts
  induction contracts with
  | nil => intro emittedConsts hc; cases hc
  | cons first rest ih =>
    intro emittedConsts hc hnew
    rw [contractIdConsts]
    by_cases hemitted : contractIdConst text first ∈ emittedConsts
    · -- The name is taken, so it is not the name of `c`.
      have hne : c ≠ first := fun h => hnew (h ▸ hemitted)
      obtain ⟨d, hd, hname, hlookup⟩ := ih ((List.mem_cons.1 hc).resolve_left hne) hnew
      exact ⟨d, List.mem_cons_of_mem _ hd, hname, by rw [if_pos hemitted]; exact hlookup⟩
    · simp only [if_neg hemitted, List.lookup_cons]
      by_cases hname : contractIdConst text c = contractIdConst text first
      · exact ⟨first, List.mem_cons_self, hname.symm, by simp [hname]⟩
      · have hne : c ≠ first := fun h => hname (by rw [h])
        have hnew' : contractIdConst text c ∉ contractIdConst text first :: emittedConsts := by
          simp [hname, hnew]
        obtain ⟨d, hd, hname', hlookup⟩ := ih ((List.mem_cons.1 hc).resolve_left hne) hnew'
        have hbeq : (contractIdConst text c == contractIdConst text first) = false := by
          simpa using hname
        exact ⟨d, List.mem_cons_of_mem _ hd, hname', by simp [hbeq, hlookup]⟩

/-- The name of the static of an entry. -/
def interfaceName (text : RustText) (mode : GuestRustOutputMode) (provider : GuestProvider) :
    String :=
  pluginUpper text (pluginSymbol text mode provider) ++ "_INTERFACE"

theorem interfaceName_mem (mode : GuestRustOutputMode) (provider : GuestProvider) :
    interfaceName text mode provider ∈ entryValues text mode provider := by
  refine List.mem_append_right _ ?_
  exact List.mem_cons_of_mem _ List.mem_cons_self

/-- No interface is declared for two entries. -/
theorem ScopesCompile.pairwise {mode : GuestRustOutputMode} (h : ScopesCompile text mode ir) :
    (guestProviders ir).Pairwise fun p q =>
      interfaceName text mode p ≠ interfaceName text mode q := by
  have hmem : interfaceValues text mode ir ∈ rustScopes text mode ir := by
    rw [rustScopes]
    exact List.mem_append_left _ List.mem_cons_self
  have hnodup := (h _ hmem).1
  rw [interfaceValues] at hnodup
  have hentries := (List.nodup_flatMap.1 (List.Nodup.of_append_right hnodup)).2
  refine List.Pairwise.imp ?_ hentries
  intro p q hdisjoint heq
  refine hdisjoint (interfaceName_mem mode p) ?_
  rw [heq]
  exact interfaceName_mem mode q

/-- The static of an entry is found by its name. -/
theorem interfaceNamed_of_mem {mode : GuestRustOutputMode} (h : ScopesCompile text mode ir)
    {provider : GuestProvider} (hprovider : provider ∈ guestProviders ir) :
    interfaceNamed text mode ir (interfaceName text mode provider) = some provider.2 := by
  have hfind := find?_eq_some_of_pairwise h.pairwise hprovider
  exact congrArg (Option.map Prod.snd) hfind

variable (hnamed : Named ir.contracts) (hexact : ImplementsExactly ir)
include hnamed hexact

/-- The constant of an implemented contract has the id of one with its name in upper case. -/
theorem constNamed_of_implemented {c : ResolvedContract} (hc : Implemented ir c) :
    ∃ d, Implemented ir d ∧ contractIdConst text d = contractIdConst text c ∧
      constNamed text ir (contractIdConst text c) = some d.contractId := by
  obtain ⟨provider, hprovider, rfl⟩ := (implemented_iff_provider hnamed hexact).1 hc
  obtain ⟨d, hd, hname, hlookup⟩ := @lookup_contractIdConsts text _ _ []
    (List.mem_map_of_mem (f := Prod.snd) hprovider) List.not_mem_nil
  obtain ⟨other, hother, rfl⟩ := List.mem_map.1 hd
  exact ⟨other.2, (implemented_iff_provider hnamed hexact).2 ⟨other, hother, rfl⟩, hname, hlookup⟩

/-- **Where the crate compiles, every plugin of a disk bundle has one entry.** A second one would
declare the plugin's interface again. -/
theorem exists_oneEntry_of_compiles (h : ScopesCompile text .disk ir) {plugin : ResolvedPlugin}
    (hplugin : plugin ∈ ir.bundle.plugins) : ∃ c, OneEntry ir plugin c := by
  have hentry : ∀ spec ∈ plugin.implements, ∃ c ∈ ir.contracts, spec = c.fullName :=
    fun spec hspec => hexact.exact spec (List.mem_flatMap.2 ⟨plugin, hplugin, hspec⟩)
  have hpairwise := h.pairwise
  rw [guestProviders, List.pairwise_flatMap] at hpairwise
  have hown := hpairwise.1 plugin hplugin
  cases himplements : plugin.implements with
  | nil => exact absurd himplements (hexact.some plugin hplugin)
  | cons first rest =>
    obtain ⟨c, hc, rfl⟩ := hentry first (by simp [himplements])
    cases rest with
    | nil => exact ⟨c, hc, himplements⟩
    | cons second rest =>
      obtain ⟨d, hd, rfl⟩ := hentry second (by simp [himplements])
      simp only [himplements, List.filterMap_cons, contractOf_fullName hnamed hc,
        contractOf_fullName hnamed hd, Option.map_some, List.pairwise_cons] at hown
      exact absurd rfl (hown.1 (plugin, d) List.mem_cons_self)

end

/-! ### The two kinds of generated code -/

/-- What `polyplug_init` spells. -/
def diskSpelling : Spelling where
  name := ResolvedContract.majorName
  version := fun c => ⟨c.version.major, c.version.minor, 0⟩

/-- What the internal profile spells. -/
def internalSpelling : Spelling where
  name := ResolvedContract.name
  version := ResolvedContract.version

/-- The generated code registers, and what the runtime stages passes its checks. -/
def BundlePasses (init : Option (List Registration)) (m : ManifestData) : Prop :=
  ∃ registrations, init = some registrations ∧
    ∀ staged, List.Forall₂ Registration.Stages registrations staged → PassesValidation m staged

/-- When a disk bundle does. -/
structure DiskSupported (text : RustText) (ir : ValidatedIr) : Prop where
  /-- The names of the crate are identifiers, and each is declared once in its scope. The rest of
  the crate compiles. -/
  compiles : DiskCompiles text ir
  constants : DistinctConstants text ir
  ids : DistinctIds ir

/-- When an internal bundle does. -/
structure ProfileSupported (text : RustText) (ir : ValidatedIr) : Prop where
  compiles : CrateCompiles text .internalProfile ir
  constants : DistinctConstants text ir
  ids : DistinctIds ir

/-- The registration is of an implemented contract, with the value of its constant. -/
structure Registration.FromCode (text : RustText) (ir : ValidatedIr) (spelling : Spelling)
    (r : Registration) : Prop where
  sound : r.Sound ir spelling
  contractId : constNamed text ir (contractIdConst text r.interface) = some r.contractId

/-- The runtime stages every registration of generated code. -/
theorem exists_stages (r : Registration) : ∃ c, r.Stages c := by
  have hprepare : ∃ c, prepareGuestContract r.descriptor (r.rawInterface 0 0 0) r.contractName 0 0
      = .ok c := by
    rw [prepareGuestContract, Registration.descriptor, Registration.rawInterface]
    dsimp only
    rw [stringViewToOwnedString_stringView]
    cases r.native <;> exact ⟨_, rfl⟩
  obtain ⟨c, hc⟩ := hprepare
  exact ⟨c, 0, 0, 0, 0, 0, hc⟩

theorem exists_staged : ∀ registrations : List Registration,
    ∃ staged, List.Forall₂ Registration.Stages registrations staged := by
  intro registrations
  induction registrations with
  | nil => exact ⟨[], .nil⟩
  | cons r registrations ih =>
    obtain ⟨c, hc⟩ := exists_stages r
    obtain ⟨staged, hstaged⟩ := ih
    exact ⟨c :: staged, .cons hc hstaged⟩

section
variable {text : RustText} {ir : ValidatedIr} (hnamed : Named ir.contracts)
  (hexact : ImplementsExactly ir)
include hnamed hexact

/-- **Registered contracts pass exactly if no two of them share a constant or an id.** All
implemented contracts are registered, a contract twice by different plugins only. -/
theorem bundlePasses_iff {spelling : Spelling} (hreadable : spelling.Readable) {m : ManifestData}
    (hdeclares : Declares ir m) {registrations : List Registration}
    (hcode : ∀ r ∈ registrations, r.FromCode text ir spelling)
    (hcovered : ∀ c, Implemented ir c → ∃ r ∈ registrations, r.interface = c)
    (hnames : registrations.Pairwise fun r r' =>
      r.interface = r'.interface → r.pluginName ≠ r'.pluginName) :
    BundlePasses (some registrations) m ↔ DistinctConstants text ir ∧ DistinctIds ir := by
  have hpasses : BundlePasses (some registrations) m ↔ registrations.Pairwise fun r r' =>
      r.contractId = r'.contractId → r.interface = r'.interface ∧ r.pluginName ≠ r'.pluginName := by
    have hstaged : ∀ staged, List.Forall₂ Registration.Stages registrations staged →
        (PassesValidation m staged ↔ _) := fun staged h =>
      passesValidation_iff hnamed hdeclares hreadable (fun r hr => (hcode r hr).sound)
        (h.imp fun _ _ h => h.registers)
    constructor
    · intro ⟨rs, hrs, hall⟩
      obtain rfl := Option.some.inj hrs
      obtain ⟨staged, h⟩ := exists_staged registrations
      exact ((hstaged staged h).1 (hall staged h)).2
    · intro hpair
      exact ⟨registrations, rfl, fun staged h => (hstaged staged h).2 ⟨hcovered, hpair⟩⟩
  rw [hpasses]
  constructor
  · intro hpair
    -- Contracts that share a constant are registered under one id.
    have hconstants : DistinctConstants text ir := by
      intro c d hc hd hupper
      obtain ⟨r, hr, rfl⟩ := hcovered c hc
      obtain ⟨r', hr', rfl⟩ := hcovered d hd
      refine interface_eq_of_pairwise hpair hr hr' ?_
      have hid := (hcode r hr).contractId
      rw [contractIdConst_eq_iff.2 hupper, (hcode r' hr').contractId] at hid
      exact (Option.some.inj hid).symm
    refine ⟨hconstants, fun c d hc hd hid => ?_⟩
    obtain ⟨r, hr, rfl⟩ := hcovered c hc
    obtain ⟨r', hr', rfl⟩ := hcovered d hd
    refine interface_eq_of_pairwise hpair hr hr' ?_
    have hown : ∀ r ∈ registrations, r.contractId = r.interface.contractId := by
      intro r hr
      obtain ⟨e, he, hname, hvalue⟩ :=
        @constNamed_of_implemented text _ hnamed hexact _ (hcode r hr).sound.implemented
      rw [(hcode r hr).contractId, hconstants e r.interface he (hcode r hr).sound.implemented
        (contractIdConst_eq_iff.1 hname)] at hvalue
      exact Option.some.inj hvalue
    rw [hown r hr, hown r' hr', hid]
  · intro ⟨hconstants, hids⟩
    refine hnames.imp_of_mem fun {r r'} hr hr' hname hid => ?_
    obtain ⟨c, hc, hconst, hvalue⟩ :=
      @constNamed_of_implemented text _ hnamed hexact _ (hcode r hr).sound.implemented
    obtain ⟨d, hd, hconst', hvalue'⟩ :=
      @constNamed_of_implemented text _ hnamed hexact _ (hcode r' hr').sound.implemented
    rw [(hcode r hr).contractId, Option.some.injEq] at hvalue
    rw [(hcode r' hr').contractId, Option.some.injEq] at hvalue'
    -- Each constant has the id of its own contract.
    have hsame : c = d := hids c d hc hd (by rw [← hvalue, ← hvalue', hid])
    have hinterface : r.interface = r'.interface := by
      rw [← hconstants c r.interface hc (hcode r hr).sound.implemented
          (contractIdConst_eq_iff.1 hconst), hsame,
        hconstants d r'.interface hd (hcode r' hr').sound.implemented
          (contractIdConst_eq_iff.1 hconst')]
    exact ⟨hinterface, hname hinterface⟩

/-- The registration of a plugin is of its entry. -/
theorem exists_initRegistration (h : ScopesCompile text .disk ir) {plugin : ResolvedPlugin}
    (hplugin : plugin ∈ ir.bundle.plugins) {c : ResolvedContract} (hc : OneEntry ir plugin c) :
    ∃ r, initRegistration text ir plugin = some r ∧ r.FromCode text ir diskSpelling ∧
      r.pluginName = plugin.name ∧ r.interface = c := by
  obtain ⟨hmem, himplements⟩ := hc
  have hspec : c.fullName ∈ plugin.implements := by
    rw [himplements]
    exact List.mem_singleton_self _
  have himplemented : Implemented ir c := ⟨hmem, List.mem_flatMap.2 ⟨plugin, hplugin, hspec⟩⟩
  obtain ⟨d, -, -, hvalue⟩ := @constNamed_of_implemented text _ hnamed hexact _ himplemented
  have hinterface : interfaceNamed text .disk ir (pluginUpper text plugin.name ++ "_INTERFACE") =
      some c :=
    @interfaceNamed_of_mem text ir .disk h (plugin, c)
      ((mem_guestProviders hnamed hexact).2 ⟨hplugin, hmem, hspec⟩)
  have hname : (split c.fullName '@').headD "" = c.name := by
    have hsplit := split_append (t := decimal c.version.major ++ "." ++ decimal c.version.minor)
      (hnamed.noAt c hmem)
    rw [show c.fullName = c.name ++ String.singleton '@' ++
      (decimal c.version.major ++ "." ++ decimal c.version.minor) by
        simp only [ResolvedContract.fullName, String.append_assoc]; rfl, hsplit]
    rfl
  have hconst : constNamed text ir
      (contractNameToUpperSnake text.toCaseMap c.name ++ "_CONTRACT_ID") = some d.contractId :=
    hvalue
  have hminor := split_of_notMem (@notMem_decimal '.' (by decide) c.version.minor)
  refine ⟨{
    pluginName := plugin.name
    contractName := c.majorName
    version := ⟨c.version.major, c.version.minor, 0⟩
    interface := c
    contractId := d.contractId
    native := isNativeRuntime ir.bundle.loader }, ?_, ⟨⟨himplemented, rfl, rfl⟩, hvalue⟩, rfl, rfl⟩
  rw [initRegistration, himplements]
  simp only [List.head?_cons, Option.map_some, Option.getD_some, hname, hconst, hinterface, hvalue,
    splitOnce_fullName hnamed hmem, splitOnce_version, hminor, List.headD_cons,
    parseU32_decimal (hnamed.major c hmem), parseU32_decimal (hnamed.minor c hmem),
    Option.bind_eq_bind, Option.bind_some]
  rfl

/-- **What `polyplug_init` registers: the entry of each plugin.** -/
theorem exists_generateGuestInit (h : DiskCompiles text ir) :
    ∃ registrations, generateGuestInit text ir = some registrations ∧
      List.Forall₂ (fun plugin r => r.FromCode text ir diskSpelling ∧ r.pluginName = plugin.name ∧
        OneEntry ir plugin r.interface) ir.bundle.plugins registrations := by
  rw [generateGuestInit, if_pos h]
  refine exists_mapM_some fun plugin hplugin => ?_
  obtain ⟨c, hc⟩ := exists_oneEntry_of_compiles hnamed hexact h.1.1 hplugin
  obtain ⟨r, hinit, hcode, hname, rfl⟩ := exists_initRegistration hnamed hexact h.1.1 hplugin hc
  exact ⟨r, hinit, hcode, hname, hc⟩

/-- **Which disk bundles pass.** -/
theorem disk_passes_iff (hplugins : (ir.bundle.plugins.map ResolvedPlugin.name).Nodup)
    {m : ManifestData} (hm : (generateBundleManifest ir).ReadAs m) :
    BundlePasses (generateGuestInit text ir) m ↔ DiskSupported text ir := by
  have hiff : DiskCompiles text ir → (BundlePasses (generateGuestInit text ir) m ↔
      DistinctConstants text ir ∧ DistinctIds ir) := by
    intro hcompiles
    obtain ⟨registrations, hinit, hall⟩ := exists_generateGuestInit hnamed hexact hcompiles
    have hright := exists_of_forall₂ hall
    have hleft := exists_of_forall₂ hall.flip
    have hnames : registrations.Pairwise fun r r' => r.pluginName ≠ r'.pluginName := by
      rw [map_eq_of_forall₂ (hall.imp fun _ _ h => h.2.1.symm)] at hplugins
      exact List.pairwise_map.1 hplugins
    rw [hinit]
    refine bundlePasses_iff hnamed hexact ⟨fun _ => .inl rfl, fun _ => rfl⟩
      (declares_generateBundleManifest hnamed hexact hm)
      (fun r hr => (hright r hr).elim fun _ h => h.2.1) ?_ ?_
    · intro c hc
      obtain ⟨plugin, hplugin, hspec⟩ := List.mem_flatMap.1 hc.2
      obtain ⟨r, hr, hcode, -, hentry⟩ := hleft plugin hplugin
      rw [hentry.2, List.mem_singleton] at hspec
      exact ⟨r, hr, eq_of_fullName hnamed hcode.sound.implemented.1 hc.1 hspec.symm⟩
    · refine hnames.imp ?_
      intro r r' hne _
      exact hne
  constructor
  · intro hpasses
    have hcompiles : DiskCompiles text ir := by
      by_contra hnot
      obtain ⟨registrations, hinit, -⟩ := hpasses
      rw [generateGuestInit, if_neg hnot] at hinit
      cases hinit
    obtain ⟨hconstants, hids⟩ := (hiff hcompiles).1 hpasses
    exact ⟨hcompiles, hconstants, hids⟩
  · intro h
    exact (hiff h.compiles).2 ⟨h.constants, h.ids⟩

omit hnamed hexact in
/-- A symbol of the profile has no dot, so neither has its upper case. -/
theorem pluginUpper_internalProviderSymbol (provider : GuestProvider) :
    pluginUpper text (internalProviderSymbol text provider)
      = internalProviderUpper text provider := by
  have hreplaced : ∀ s : String, ∀ c ∈ (replaceChar s '.' '_').toList, c ≠ '.' := by
    intro s c hc
    rw [replaceChar, String.toList_ofList] at hc
    obtain ⟨a, -, rfl⟩ := List.mem_map.1 hc
    by_cases ha : a = '.'
    · rw [if_pos ha]; decide
    · rw [if_neg ha]; exact ha
  have hsymbol : ∀ c ∈ (internalProviderSymbol text provider).toList, c ≠ '.' := by
    intro c hc
    rw [internalProviderSymbol, String.toList_append, String.toList_append] at hc
    rcases List.mem_append.1 hc with hc | hc
    · rcases List.mem_append.1 hc with hc | hc
      · exact hreplaced _ c hc
      · obtain rfl : c = '_' := List.mem_singleton.1 hc
        decide
    · exact hreplaced _ c hc
  have hupper : ∀ c ∈ (internalProviderSymbol text provider).toList.flatMap text.upper,
      c ≠ '.' := by
    intro c hc hdot
    obtain ⟨a, ha, hmem⟩ := List.mem_flatMap.1 hc
    exact hsymbol a ha (text.upper_dot a (hdot ▸ hmem))
  show String.ofList (((String.ofList _).toList).map fun c => if c = '.' then '_' else c) =
    String.ofList _
  rw [String.toList_ofList, List.map_congr_left fun c hc => if_neg (hupper c hc), List.map_id']

/-- What an entry registers. -/
theorem exists_stageRegistration (h : ScopesCompile text .internalProfile ir)
    {provider : GuestProvider} (hprovider : provider ∈ guestProviders ir) :
    ∃ r, stageRegistration text ir provider = some r ∧ r.FromCode text ir internalSpelling ∧
      r.pluginName = provider.1.name ∧ r.interface = provider.2 := by
  have himplemented := (implemented_iff_provider hnamed hexact).2 ⟨provider, hprovider, rfl⟩
  obtain ⟨d, -, -, hvalue⟩ := @constNamed_of_implemented text _ hnamed hexact _ himplemented
  have hinterface : interfaceNamed text .internalProfile ir
      (internalProviderUpper text provider ++ "_INTERFACE") = some provider.2 := by
    rw [← pluginUpper_internalProviderSymbol]
    exact interfaceNamed_of_mem h hprovider
  have hbare : bareName provider.2.name = provider.2.name := by
    rw [bareName, splitOnce_of_notMem (hnamed.noAt _ himplemented.1)]
  refine ⟨{
    pluginName := provider.1.name
    contractName := bareName provider.2.name
    version := provider.2.version
    interface := provider.2
    contractId := d.contractId
    native := true }, ?_, ⟨⟨himplemented, hbare, rfl⟩, hvalue⟩, rfl, rfl⟩
  rw [stageRegistration]
  simp only [hinterface, hvalue, Option.bind_eq_bind, Option.bind_some]

/-- **Which internal bundles pass.** -/
theorem profile_passes_iff {m : ManifestData}
    (hm : (generateInternalProfileManifest ir).ReadAs m) :
    BundlePasses (generateInternalInit text ir) m ↔ ProfileSupported text ir := by
  have hiff : CrateCompiles text .internalProfile ir →
      (BundlePasses (generateInternalInit text ir) m ↔
        DistinctConstants text ir ∧ DistinctIds ir) := by
    intro hcompiles
    obtain ⟨registrations, hinit, hall⟩ : ∃ registrations,
        generateInternalInit text ir = some registrations ∧
          List.Forall₂ (fun provider r => r.FromCode text ir internalSpelling ∧
            r.pluginName = provider.1.name ∧ r.interface = provider.2)
            (guestProviders ir) registrations := by
      rw [generateInternalInit, if_pos hcompiles]
      exact exists_mapM_some fun provider hprovider =>
        exists_stageRegistration hnamed hexact hcompiles.1 hprovider
    have hright := exists_of_forall₂ hall
    have hleft := exists_of_forall₂ hall.flip
    -- Two entries of one plugin with one contract would have one symbol.
    have hnames : registrations.Pairwise fun r r' =>
        r.interface = r'.interface → r.pluginName ≠ r'.pluginName := by
      have hpairwise := hcompiles.1.pairwise
      clear hright hleft hinit
      generalize guestProviders ir = providers at hall hpairwise
      induction hall with
      | nil => exact .nil
      | @cons provider r providers registrations hfirst hrest ih =>
        rw [List.pairwise_cons] at hpairwise ⊢
        refine ⟨fun r' hr' hinterface hname => ?_, ih hpairwise.2⟩
        obtain ⟨other, hother, -, hname', hinterface'⟩ := exists_of_forall₂ hrest r' hr'
        refine hpairwise.1 other hother ?_
        have hplugin : provider.1.name = other.1.name := by rw [← hfirst.2.1, hname, hname']
        have hcontract : provider.2 = other.2 := by rw [← hfirst.2.2, hinterface, hinterface']
        simp only [interfaceName, pluginSymbol, internalProviderSymbol, hplugin, hcontract]
    rw [hinit]
    refine bundlePasses_iff hnamed hexact ⟨fun _ => .inr rfl, fun _ => rfl⟩
      (declares_generateInternalProfileManifest hnamed hexact hm)
      (fun r hr => (hright r hr).elim fun _ h => h.2.1) ?_ hnames
    intro c hc
    obtain ⟨provider, hprovider, rfl⟩ := (implemented_iff_provider hnamed hexact).1 hc
    obtain ⟨r, hr, -, -, hinterface⟩ := hleft provider hprovider
    exact ⟨r, hr, hinterface⟩
  constructor
  · intro hpasses
    have hcompiles : CrateCompiles text .internalProfile ir := by
      by_contra hnot
      obtain ⟨registrations, hinit, -⟩ := hpasses
      rw [generateInternalInit, if_neg hnot] at hinit
      cases hinit
    obtain ⟨hconstants, hids⟩ := (hiff hcompiles).1 hpasses
    exact ⟨hcompiles, hconstants, hids⟩
  · intro h
    exact (hiff h.compiles).2 ⟨h.constants, h.ids⟩

end

/-- The manifest as the runtime reads it. -/
def manifestOf (generated : GeneratedManifest) : ManifestData where
  loader := "native"
  name := "image"
  dependencies := []
  id := (BundleId.new "image").id
  version := "1.0.0"
  file := "image.so"
  provides := generated.provides
  functionCount :=
    (generated.functionCount.map fun e => (⟨e.1, e.2⟩ : Sigma fun _ : String => Nat)).toFinmap
  needsReinitOnDepReload := false
  bundleDependencies := []
  path := "image"

/-- Two contracts with one function each. -/
def imageApi : List RawGuestContract :=
  [⟨"image.decoder", "1.0", [⟨"decode", []⟩]⟩, ⟨"image.encoder", "1.0", [⟨"encode", []⟩]⟩]

/-- A bundle whose one plugin has these entries. -/
def imageBundle (entries : List String) : RawBundleSchema where
  name := "image"
  version := "1.0.0"
  loader := "native"
  file := .platformMap [("linux", [("x86_64", "libimage.so")])]
  needsReinitOnDepReload := false
  plugin := [⟨"codec", entries⟩]
  dependencies := []

/-- What they are resolved to. -/
def imageIr (entries : List String) : ValidatedIr where
  contracts :=
    [⟨"image.decoder", (GuestContractId.new "image.decoder" 1).id, ⟨1, 0, 0⟩, ["decode"]⟩,
      ⟨"image.encoder", (GuestContractId.new "image.encoder" 1).id, ⟨1, 0, 0⟩, ["encode"]⟩]
  bundle :=
    { name := "image"
      version := ⟨1, 0, 0⟩
      loader := "native"
      file := .platformMap [(("linux", "x86_64"), "libimage.so")]
      plugins := [⟨"codec", entries⟩]
      bundleId := (BundleId.new "image").id
      dependencies := []
      needsReinitOnDepReload := false }

/-- Every generated manifest of a disk bundle is read. -/
theorem readAs_generateBundleManifest (ir : ValidatedIr) :
    (generateBundleManifest ir).ReadAs (manifestOf (generateBundleManifest ir)) := by
  refine ⟨rfl, rfl, fun e he => ?_⟩
  obtain ⟨c, -, rfl⟩ := List.mem_map.1 he
  exact Nat.mod_lt _ (by decide)

/-- The case mappings of ASCII, and its identifiers. -/
def asciiText : RustText where
  toCaseMap := asciiCase
  toLowercase := toLowercase
  isIdentifier := isValidIdentifier
  restCompiles _ _ := true
  upper_dot c hdot := by
    change '.' ∈ [c.toUpper] at hdot
    rw [List.mem_singleton] at hdot
    delta Char.toUpper at hdot
    split at hdot
    · next hlower =>
      have hval := congrArg (fun ch => ch.val.toNat) hdot
      have hlow : 97 ≤ c.val.toNat := UInt32.le_iff_toNat_le.1 hlower.1
      have hhigh : c.val.toNat ≤ 122 := UInt32.le_iff_toNat_le.1 hlower.2
      have hshift : ('A'.val - 'a'.val).toNat = 4294967264 := rfl
      have hcode : '.'.val.toNat = 46 := rfl
      simp only [UInt32.toNat_add, hshift, hcode] at hval
      omega
    · exact hdot.symm

/-- Two contracts whose names differ in case alone. -/
def casedApi : List RawGuestContract :=
  [⟨"colormap", "1.0", [⟨"find", []⟩]⟩, ⟨"colorMap", "1.0", [⟨"draw", []⟩]⟩]

/-- A bundle of these plugins. -/
def pluginsOf (plugins : List RawBundlePlugin) : RawBundleSchema :=
  { imageBundle [] with plugin := plugins }

/-- What it is resolved to, beside the contracts. -/
def pluginsIr (contracts : List ResolvedContract) (plugins : List RawBundlePlugin) :
    ValidatedIr where
  contracts := contracts
  bundle := { (imageIr []).bundle with plugins := plugins.map fun p => ⟨p.name, p.implements⟩ }

/-- What `casedApi` is resolved to. -/
def casedContracts : List ResolvedContract :=
  [⟨"colormap", (GuestContractId.new "colormap" 1).id, ⟨1, 0, 0⟩, ["find"]⟩,
    ⟨"colorMap", (GuestContractId.new "colorMap" 1).id, ⟨1, 0, 0⟩, ["draw"]⟩]

/-- One plugin for each of them. -/
def casedPlugins : List RawBundlePlugin :=
  [⟨"finder", ["colormap@1.0"]⟩, ⟨"drawer", ["colorMap@1.0"]⟩]

/-- Two decoders and an encoder. -/
def threeCodecs : List RawBundlePlugin :=
  [⟨"jpeg_decoder", ["image.decoder@1.0"]⟩, ⟨"png_decoder", ["image.decoder@1.0"]⟩,
    ⟨"png_encoder", ["image.encoder@1.0"]⟩]

end PolyPlug.Codegen
