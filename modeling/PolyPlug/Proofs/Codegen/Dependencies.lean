import PolyPlug.Lib.Loop
import PolyPlug.Lifecycle.InitLookup
import PolyPlug.Proofs.Codegen.Version
import PolyPlug.Proofs.Lifecycle.Staging
import PolyPlug.Proofs.Rust.Str

/-!
# `PolyPlug.Proofs.Codegen.Dependencies`: a dependency from `bundle.toml` to an init

A dependency is authored as a text, resolved to identifiers, written into the manifest
as text again, read back by the runtime, checked there, and reported to the init of the
bundle. The emitted text is that of a TOML array of tables (`emitManifestDependencies_eq`),
so with names that need no escape the declarations read back as they were resolved
(`parseManifestDependencies_emit`).

The two last steps read the version and the name differently from the first. The check
takes the contract name up to an `@`, and the report parses `major.0` as a number, which
it never is: every dependency is reported with the minimum version zero.
-/

set_option autoImplicit false

namespace PolyPlug.Codegen

open PolyPlug.Rust
open PolyPlug.Abi
open PolyPlug.Common
open PolyPlug.Registry
open PolyPlug.Lifecycle
open PolyPlug.Lib

/-! ### Fields of a dependency -/

/-- The contract of a dependency. -/
def ResolvedDependency.contract : ResolvedDependency → String
  | .byContract contract _ _   => contract
  | .byBundle _ _ contract _ _ => contract

/-- The contract id of a dependency. -/
def ResolvedDependency.contractId : ResolvedDependency → UInt64
  | .byContract _ contractId _   => contractId
  | .byBundle _ _ _ contractId _ => contractId

/-- The major version of a dependency. -/
def ResolvedDependency.minVersion : ResolvedDependency → Nat
  | .byContract _ _ minVersion   => minVersion
  | .byBundle _ _ _ _ minVersion => minVersion

/-- The named bundle of a dependency. -/
def ResolvedDependency.bundle : ResolvedDependency → Option (String × UInt64)
  | .byContract _ _ _              => none
  | .byBundle bundle bundleId _ _ _ => some (bundle, bundleId)

/-- The names of the dependency need no escape in TOML. -/
def ResolvedDependency.PlainNames (dep : ResolvedDependency) : Prop :=
  Toml.Plain dep.contract ∧ ∀ bundle ∈ dep.bundle, Toml.Plain bundle.1

/-- A major of a version that parses has 32 bits. -/
theorem dependencyMajor_lt (minVersion : String) : dependencyMajor minVersion < 2 ^ 32 := by
  rw [dependencyMajor]
  split
  · next version h => exact (lt_of_parseVersion h).1
  · decide

@[simp] theorem minVersion_lowerDependency (dep : RawDependency) :
    (lowerDependency dep).minVersion = dependencyMajor dep.minVersion := by
  rw [lowerDependency]
  split <;> rfl

@[simp] theorem contract_lowerDependency (dep : RawDependency) :
    (lowerDependency dep).contract = dep.contract := by
  rw [lowerDependency]
  split <;> rfl

@[simp] theorem contractId_lowerDependency (dep : RawDependency) :
    (lowerDependency dep).contractId =
      (GuestContractId.new dep.contract (dependencyMajor dep.minVersion)).id := by
  rw [lowerDependency]
  split <;> rfl

/-- What `lower_bundle` makes of the dependencies. -/
theorem lowerBundle_dependencies {raw : RawBundleSchema} {mode : BundleParseMode}
    {bundle : ResolvedBundle} (h : lowerBundle raw mode = .ok bundle) :
    bundle.dependencies = raw.dependencies.map lowerDependency := by
  rw [lowerBundle] at h
  dsimp only [bind, Except.bind] at h
  split at h
  · cases h
  · split at h
    · cases h
    · split at h
      · cases h
      · rw [← Except.ok.inj h]

/-! ### The emitted text -/

/-- The text of a `min_version`. -/
def minVersionText (minVersion : Nat) : String := decimal minVersion ++ ".0"

/-- The emitted table of a dependency. -/
def tableOf : ResolvedDependency → Toml.Table
  | .byContract contract contractId minVersion =>
      [("kind", .str "contract"), ("contract", .str contract),
        ("contract_id", .hex contractId.toNat), ("min_version", .str (minVersionText minVersion))]
  | .byBundle bundle bundleId contract contractId minVersion =>
      [("kind", .str "bundle"), ("bundle", .str bundle), ("bundle_id", .hex bundleId.toNat),
        ("contract", .str contract), ("contract_id", .hex contractId.toNat),
        ("min_version", .str (minVersionText minVersion))]

theorem entry_kind (kind : String) :
    Toml.entry "kind" (.str kind) = "kind = \"" ++ kind ++ "\"\n" :=
  Toml.entry_str rfl kind

theorem entry_contract (contract : String) :
    Toml.entry "contract" (.str contract) = "contract = \"" ++ contract ++ "\"\n" :=
  Toml.entry_str rfl contract

theorem entry_contractId (n : Nat) :
    Toml.entry "contract_id" (.hex n) = "contract_id = 0x" ++ Toml.hexUpper16 n ++ "\n" :=
  Toml.entry_hex rfl n

theorem entry_bundle (bundle : String) :
    Toml.entry "bundle" (.str bundle) = "bundle = \"" ++ bundle ++ "\"\n" :=
  Toml.entry_str rfl bundle

theorem entry_bundleId (n : Nat) :
    Toml.entry "bundle_id" (.hex n) = "bundle_id = 0x" ++ Toml.hexUpper16 n ++ "\n" :=
  Toml.entry_hex rfl n

theorem entry_minVersion (n : Nat) :
    Toml.entry "min_version" (.str (minVersionText n)) =
      "min_version = \"" ++ decimal n ++ ".0\"\n" := by
  have hclose : (".0\"\n" : String) = ".0" ++ "\"\n" := rfl
  rw [@Toml.entry_str "min_version" "min_version = \"" rfl, minVersionText, hclose]
  simp only [String.append_assoc]

/-- The emitted text of a dependency is its header and its table. -/
theorem emitDependency_eq (dep : ResolvedDependency) :
    emitDependency dep = "\n[[dependency]]\n" ++ Toml.body (tableOf dep) := by
  cases dep with
  | byContract contract contractId minVersion =>
      have hkind : "kind = \"contract\"\n" = "kind = \"" ++ "contract" ++ "\"\n" := rfl
      show "\n[[dependency]]\n"
        ++ "kind = \"contract\"\n"
        ++ "contract = \"" ++ contract ++ "\"\n"
        ++ "contract_id = 0x" ++ Toml.hexUpper16 contractId.toNat ++ "\n"
        ++ "min_version = \"" ++ decimal minVersion ++ ".0\"\n" = _
      simp only [-String.reduceAppend, hkind, tableOf, Toml.body, entry_kind, entry_contract,
        entry_contractId, entry_minVersion, String.append_assoc, String.append_empty]
  | byBundle bundle bundleId contract contractId minVersion =>
      have hkind : "kind = \"bundle\"\n" = "kind = \"" ++ "bundle" ++ "\"\n" := rfl
      show "\n[[dependency]]\n"
        ++ "kind = \"bundle\"\n"
        ++ "bundle = \"" ++ bundle ++ "\"\n"
        ++ "bundle_id = 0x" ++ Toml.hexUpper16 bundleId.toNat ++ "\n"
        ++ "contract = \"" ++ contract ++ "\"\n"
        ++ "contract_id = 0x" ++ Toml.hexUpper16 contractId.toNat ++ "\n"
        ++ "min_version = \"" ++ decimal minVersion ++ ".0\"\n" = _
      simp only [-String.reduceAppend, hkind, tableOf, Toml.body, entry_kind, entry_bundle,
        entry_bundleId, entry_contract, entry_contractId, entry_minVersion, String.append_assoc,
        String.append_empty]

/-- **The emitted text is an array of tables.** -/
theorem emitManifestDependencies_eq (deps : List ResolvedDependency) :
    emitManifestDependencies deps = Toml.tables "dependency" (deps.map tableOf) := by
  have hfold : ∀ (deps : List ResolvedDependency) (text : String),
      deps.foldl (fun depToml dep => depToml ++ emitDependency dep) text =
        text ++ Toml.tables "dependency" (deps.map tableOf) := by
    intro deps
    induction deps with
    | nil => intro text; simp [Toml.tables]
    | cons dep deps ih =>
        intro text
        rw [List.foldl_cons, ih, emitDependency_eq]
        simp [Toml.tables, String.append_assoc]
  rw [emitManifestDependencies, hfold]
  simp

/-- A digit needs no escape. -/
theorem plainChar_of_isAsciiDigit {c : Char} (h : isAsciiDigit c = true) :
    Toml.plainChar c = true := by
  simp only [isAsciiDigit, Bool.and_eq_true, decide_eq_true_eq, Char.le_def,
    UInt32.le_iff_toNat_le] at h
  have hlow : 48 ≤ c.toNat := h.1
  have hhigh : c.toNat ≤ 57 := h.2
  have hne (d : Char) (hd : ¬ (48 ≤ d.toNat ∧ d.toNat ≤ 57)) : c ≠ d := by
    rintro rfl
    exact hd ⟨hlow, hhigh⟩
  simp only [Toml.plainChar, Bool.and_eq_true, Bool.or_eq_true, decide_eq_true_eq, ne_eq]
  refine ⟨⟨⟨hne _ (by decide), hne _ (by decide)⟩, Or.inr (by omega)⟩, by omega⟩

theorem plain_minVersionText (minVersion : Nat) : Toml.Plain (minVersionText minVersion) := by
  rw [Toml.Plain, minVersionText, String.toList_append, List.all_append, Bool.and_eq_true]
  refine ⟨List.all_eq_true.2 fun c hc => ?_, by decide⟩
  rw [decimal, String.toList_ofList] at hc
  exact plainChar_of_isAsciiDigit (isAsciiDigit_of_mem_toDigits hc)

/-- A dependency with plain names has a plain table. -/
theorem plainTable_tableOf {dep : ResolvedDependency} (h : dep.PlainNames) :
    Toml.PlainTable (tableOf dep) := by
  have hkind : Toml.Plain "contract" ∧ Toml.Plain "bundle" := by decide
  cases dep with
  | byContract contract contractId minVersion =>
      intro e he
      simp only [tableOf, List.mem_cons, List.not_mem_nil, or_false] at he
      rcases he with rfl | rfl | rfl | rfl
      · exact hkind.1
      · exact h.1
      · exact contractId.toNat_lt
      · exact plain_minVersionText minVersion
  | byBundle bundle bundleId contract contractId minVersion =>
      intro e he
      simp only [tableOf, List.mem_cons, List.not_mem_nil, or_false] at he
      rcases he with rfl | rfl | rfl | rfl | rfl | rfl
      · exact hkind.2
      · exact h.2 _ rfl
      · exact bundleId.toNat_lt
      · exact h.1
      · exact contractId.toNat_lt
      · exact plain_minVersionText minVersion

/-! ### Reading it back -/

/-- The declaration the runtime reads. -/
def rawOf : ResolvedDependency → RawManifestDependency
  | .byContract contract contractId minVersion =>
      { kind := "contract"
        contract := contract
        minVersion := minVersionText minVersion
        bundle := none
        contractId := ⟨contractId⟩
        bundleId := none }
  | .byBundle bundle bundleId contract contractId minVersion =>
      { kind := "bundle"
        contract := contract
        minVersion := minVersionText minVersion
        bundle := some bundle
        contractId := ⟨contractId⟩
        bundleId := some ⟨bundleId⟩ }

theorem rawManifestDependencyOfTable_tableOf (dep : ResolvedDependency) :
    rawManifestDependencyOfTable (tableOf dep) = some (rawOf dep) := by
  cases dep with
  | byContract contract contractId minVersion =>
      have hlt := contractId.toNat_lt
      simp [rawManifestDependencyOfTable, tableOf, rawOf, Toml.getStr, getU64,
        List.lookup_cons, hlt]
  | byBundle bundle bundleId contract contractId minVersion =>
      have hlt := contractId.toNat_lt
      have hlt' := bundleId.toNat_lt
      simp [rawManifestDependencyOfTable, tableOf, rawOf, Toml.getStr, getU64,
        List.lookup_cons, hlt,
        hlt']

/-- **With plain names the declarations read back.** -/
theorem parseManifestDependencies_emit {read : String → Option (List Toml.Table)}
    {deps : List ResolvedDependency} (hread : Toml.ReadsTables read "dependency" (deps.map tableOf))
    (hplain : ∀ dep ∈ deps, dep.PlainNames) :
    parseManifestDependencies read (emitManifestDependencies deps) = some (deps.map rawOf) := by
  have htables : read (Toml.tables "dependency" (deps.map tableOf)) = some (deps.map tableOf) := by
    refine hread fun table ht => ?_
    obtain ⟨dep, hdep, rfl⟩ := List.mem_map.1 ht
    exact plainTable_tableOf (hplain dep hdep)
  rw [parseManifestDependencies, emitManifestDependencies_eq, htables, Option.bind_some]
  clear htables hread hplain
  induction deps with
  | nil => rfl
  | cons dep deps ih =>
      rw [List.map_cons, List.mapM_cons, rawManifestDependencyOfTable_tableOf, ih]
      rfl

/-! ### What the runtime makes of the version and the name -/

theorem minVersionText_eq (minVersion : Nat) :
    minVersionText minVersion = decimal minVersion ++ String.singleton '.' ++ "0" := by
  have hdot : (".0" : String) = String.singleton '.' ++ "0" := rfl
  rw [minVersionText, hdot, String.append_assoc]

/-- The check reads the emitted version as it was meant. -/
theorem fromStr_minVersionText {minVersion : Nat} (h : minVersion < 2 ^ 32) :
    Version.fromStr (minVersionText minVersion) = .ok ⟨minVersion, 0, 0⟩ := by
  have hzero : split "0" '.' = ["0"] := split_of_notMem (by decide)
  have hminor : parseU32 "0" = some 0 := parseU32_decimal (n := 0) (by decide)
  rw [Version.fromStr, minVersionText_eq, split_append (notMem_decimal (by decide) minVersion),
    hzero]
  simp [parseU32_decimal h, hminor]

/-- The report does not: a text with a dot is no number. -/
theorem parseU32_minVersionText (minVersion : Nat) :
    parseU32 (minVersionText minVersion) = none := by
  refine @parseU32_eq_none_of_mem '.' (by decide) (by decide) _ ?_
  rw [minVersionText_eq]
  simp

@[simp] theorem contractId_rawOf (dep : ResolvedDependency) :
    (rawOf dep).contractId = ⟨dep.contractId⟩ := by
  cases dep <;> rfl

@[simp] theorem contract_rawOf (dep : ResolvedDependency) :
    (rawOf dep).contract = dep.contract := by
  cases dep <;> rfl

@[simp] theorem minVersion_rawOf (dep : ResolvedDependency) :
    (rawOf dep).minVersion = minVersionText dep.minVersion := by
  cases dep <;> rfl

/-- The check of a manifest computes the id that was declared: the id of the name before
an `@` is that of the whole name, or the check is skipped. -/
def RawDependency.Canonical (dep : RawDependency) : Prop :=
  let depMajor := dependencyMajor dep.minVersion
  (GuestContractId.new dep.contract depMajor).id = 0 ∨
    GuestContractId.new (bareName dep.contract) depMajor = GuestContractId.new dep.contract depMajor

instance (dep : RawDependency) : Decidable dep.Canonical :=
  inferInstanceAs (Decidable (_ ∨ _))

/-- **The check passes on the canonical names alone.** -/
theorem validateDependency_iff (path : String) (dep : RawDependency) :
    validateDependency path (rawOf (lowerDependency dep)) = .ok () ↔ dep.Canonical := by
  have hmajor := fromStr_minVersionText (dependencyMajor_lt dep.minVersion)
  rw [validateDependency, contractId_rawOf, contract_rawOf, minVersion_rawOf,
    contractId_lowerDependency, contract_lowerDependency, minVersion_lowerDependency, hmajor,
    RawDependency.Canonical]
  dsimp only
  by_cases hzero : (GuestContractId.new dep.contract (dependencyMajor dep.minVersion)).id = 0
  · rw [if_pos hzero]
    exact iff_of_true rfl (.inl hzero)
  · rw [if_neg hzero]
    by_cases hname : GuestContractId.new (bareName dep.contract) (dependencyMajor dep.minVersion)
        = GuestContractId.new dep.contract (dependencyMajor dep.minVersion)
    · rw [if_neg (not_not.2 hname.symm)]
      exact iff_of_true rfl (.inr hname)
    · rw [if_pos (Ne.symm hname)]
      exact iff_of_false nofun fun h => h.elim hzero hname

/-! ### Declarations that survive -/

/-- The declaration the runtime reads is the authored one. -/
structure SameDeclaration (dep : RawDependency) (raw : RawManifestDependency) : Prop where
  kind : raw.kind = if dep.kind = "bundle" then "bundle" else "contract"
  contract : raw.contract = dep.contract
  contractId : raw.contractId = GuestContractId.new dep.contract (dependencyMajor dep.minVersion)
  bundle : raw.bundle = if dep.kind = "bundle" then some (dep.bundle.getD "") else none
  bundleId : raw.bundleId =
    if dep.kind = "bundle" then some (BundleId.new (dep.bundle.getD "")) else none

/-- An init is told the dependency: its contract, its bundle, and its major version. -/
structure Reports (dep : RawDependency) (info : DependencyInfo) : Prop where
  contractId : info.contractId = GuestContractId.new dep.contract (dependencyMajor dep.minVersion)
  bundleId : info.bundleId =
    if dep.kind = "bundle" then BundleId.new (dep.bundle.getD "") else ⟨0⟩
  minVersion : info.minVersion = dependencyMajor dep.minVersion

/-- The thread is inside an init of the bundle with this manifest. -/
structure InInit (rt : Runtime) (thread : ThreadId) (cached : BundleId → Option ManifestData)
    (manifest : ManifestData) : Prop where
  current : rt.currentInitBundleId thread ≠ 0
  manifest : rt.initManifest thread ⟨rt.currentInitBundleId thread⟩
    (cached ⟨rt.currentInitBundleId thread⟩) = some manifest

/-- The dependencies survive: the tables parse to what was authored, the manifest passes its
check, and every init of the bundle is told them. -/
def DeclarationsSurvive (read : String → Option (List Toml.Table)) (authored : List RawDependency)
    (resolved : List ResolvedDependency) : Prop :=
  ∃ raws, parseManifestDependencies read (emitManifestDependencies resolved) = some raws ∧
    List.Forall₂ SameDeclaration authored raws ∧
    (∀ raw ∈ raws, ∀ path, validateDependency path raw = .ok ()) ∧
    ∀ (rt : Runtime) (thread : ThreadId) (cached : BundleId → Option ManifestData)
      (manifest : ManifestData), manifest.dependencies = raws → InInit rt thread cached manifest →
      List.Forall₂ Reports authored (rt.hostGetDependencies thread cached)

/-- What survives is a minimum major of zero, under a canonical name. -/
def RawDependency.Survives (dep : RawDependency) : Prop :=
  dependencyMajor dep.minVersion = 0 ∧ dep.Canonical

instance (dep : RawDependency) : Decidable dep.Survives := inferInstanceAs (Decidable (_ ∧ _))

/-- The declarations are read as they were authored. -/
theorem sameDeclaration_rawOf (dep : RawDependency) :
    SameDeclaration dep (rawOf (lowerDependency dep)) := by
  by_cases h : dep.kind = "bundle"
  · constructor <;> simp [lowerDependency, rawOf, h]
  · constructor <;> simp [lowerDependency, rawOf, h]

/-- **The report gives the ids of the declaration, and always the minimum version zero.** -/
theorem reports_rawOf_iff (dep : RawDependency) :
    Reports dep (DependencyInfo.ofRaw (rawOf (lowerDependency dep))) ↔
      dependencyMajor dep.minVersion = 0 := by
  have hsame := sameDeclaration_rawOf dep
  have hzero : (DependencyInfo.ofRaw (rawOf (lowerDependency dep))).minVersion = 0 := by
    rw [DependencyInfo.ofRaw, minVersion_rawOf, parseU32_minVersionText]
    rfl
  refine ⟨fun h => h.minVersion.symm.trans hzero, fun h =>
    ⟨hsame.contractId, ?_, hzero.trans h.symm⟩⟩
  show (rawOf (lowerDependency dep)).bundleId.getD ⟨0⟩ = _
  rw [hsame.bundleId]
  split <;> rfl

theorem forall₂_reports_iff (deps : List RawDependency) :
    List.Forall₂ Reports deps
        ((deps.map fun dep => rawOf (lowerDependency dep)).map DependencyInfo.ofRaw) ↔
      ∀ dep ∈ deps, dependencyMajor dep.minVersion = 0 := by
  rw [List.map_map, List.forall₂_map_right_iff, List.forall₂_same]
  exact forall₂_congr fun dep _ => reports_rawOf_iff dep

/-- Inside an init the report is that of the manifest. -/
theorem hostGetDependencies_of_inInit {rt : Runtime} {thread : ThreadId}
    {cached : BundleId → Option ManifestData} {manifest : ManifestData}
    (h : InInit rt thread cached manifest) :
    rt.hostGetDependencies thread cached = manifest.dependencies.map DependencyInfo.ofRaw := by
  rw [Runtime.hostGetDependencies]
  simp only [h.current, if_false, h.manifest]

/-- **A load brings its thread into an init of its manifest.** -/
theorem inInit_of_begin {rt rt' : Runtime} {thread : ThreadId} {manifest : ManifestData}
    {language : SupportedLanguage} {source : BundleSource} {bundleId : BundleId}
    (cached : BundleId → Option ManifestData)
    (h : rt.beginPreparedBundleTransaction thread manifest language source = (.ok bundleId, rt')) :
    InInit (rt'.pushInitBundleId thread bundleId.id) thread cached manifest := by
  rw [Runtime.beginPreparedBundleTransaction] at h
  split at h
  · cases h
  · next hvalid =>
    have hid := ManifestData.id_of_validateMetadata hvalid
    have hne := ManifestData.id_ne_zero hvalid
    dsimp only at h
    split at h
    · cases h
    · obtain ⟨hbundle, hrt⟩ := Prod.mk.inj h
      obtain rfl := Except.ok.inj hbundle
      subst hrt
      have hcurrent : (({ rt with
          registry := rt.registry.beginPreparedBundle thread manifest language source } :
            Runtime).pushInitBundleId thread (BundleId.new manifest.name).id).currentInitBundleId
              thread = manifest.id := by
        simp [Runtime.currentInitBundleId, Runtime.pushInitBundleId, Runtime.initStackOn, hid]
      refine ⟨by rw [hcurrent]; exact hne, ?_⟩
      rw [hcurrent]
      simp [Runtime.initManifest, Runtime.pushInitBundleId, RuntimeStore.preparedManifest,
        RuntimeStore.beginPreparedBundle]

/-- A manifest that declares the dependencies and nothing else. -/
def declaring (dependencies : List RawManifestDependency) : ManifestData where
  loader := "native"
  name := "p"
  dependencies := dependencies
  id := (BundleId.new "p").id
  version := "1.0"
  file := "p.so"
  provides := []
  functionCount := ∅
  needsReinitOnDepReload := false
  bundleDependencies := []
  path := "p"

/-- Dependencies that pass the check are those of a bundle that is being loaded. -/
theorem exists_inInit {raws : List RawManifestDependency}
    (h : ∀ raw ∈ raws, ∀ path, validateDependency path raw = .ok ()) :
    ∃ (rt : Runtime) (thread : ThreadId) (cached : BundleId → Option ManifestData),
      InInit rt thread cached (declaring raws) := by
  have hid : (BundleId.new "p").id ≠ 0 := by decide +kernel
  have hvalid : (declaring raws).validateMetadata = .ok () := by
    have hdeps := forM_eq_ok_iff.2 fun raw hraw => h raw hraw "p"
    have hname : "p".isEmpty = false := by decide +kernel
    simp only [ManifestData.validateMetadata, declaring, hname, hid, hdeps, Bool.false_eq_true,
      if_false, ne_eq, not_true_eq_false]
    rfl
  have hbegin : Runtime.new.beginPreparedBundleTransaction 0 (declaring raws) .rust .internal =
      (.ok (BundleId.new "p"), { Runtime.new with
        registry := Runtime.new.registry.beginPreparedBundle 0 (declaring raws) .rust
          .internal }) := by
    rw [Runtime.beginPreparedBundleTransaction, hvalid]
    rfl
  exact ⟨_, 0, fun _ => none, inInit_of_begin _ hbegin⟩

/-! ### Exactly these survive -/

/-- The names of the dependency need no escape in TOML. -/
def RawDependency.PlainNames (dep : RawDependency) : Prop :=
  Toml.Plain dep.contract ∧ (dep.kind = "bundle" → Toml.Plain (dep.bundle.getD ""))

instance (dep : RawDependency) : Decidable dep.PlainNames := inferInstanceAs (Decidable (_ ∧ _))

theorem plainNames_lowerDependency {dep : RawDependency} (h : dep.PlainNames) :
    (lowerDependency dep).PlainNames := by
  refine ⟨by rw [contract_lowerDependency]; exact h.1, fun bundle hb => ?_⟩
  rw [lowerDependency] at hb
  split at hb
  · next hkind =>
    obtain rfl := Option.some.inj hb
    exact h.2 hkind
  · cases hb

section Survives

variable {read : String → Option (List Toml.Table)} {raw : RawBundleSchema}
  {mode : BundleParseMode} {bundle : ResolvedBundle}
  (hlower : lowerBundle raw mode = .ok bundle)
  (hread : Toml.ReadsTables read "dependency" (bundle.dependencies.map tableOf))
  (hplain : ∀ dep ∈ raw.dependencies, dep.PlainNames)
include hlower hread hplain

/-- The declarations of an accepted bundle, as the runtime reads them. -/
theorem parseManifestDependencies_lowerBundle :
    parseManifestDependencies read (emitManifestDependencies bundle.dependencies) =
      some (raw.dependencies.map fun dep => rawOf (lowerDependency dep)) := by
  have hdeps := lowerBundle_dependencies hlower
  rw [parseManifestDependencies_emit hread, hdeps, List.map_map]
  · rfl
  · intro dep hdep
    rw [hdeps] at hdep
    obtain ⟨dep, hmem, rfl⟩ := List.mem_map.1 hdep
    exact plainNames_lowerDependency (hplain dep hmem)

/-- What survives has a minimum major of zero and a canonical name. -/
theorem survives_of_declarationsSurvive
    (h : DeclarationsSurvive read raw.dependencies bundle.dependencies) :
    ∀ dep ∈ raw.dependencies, dep.Survives := by
  obtain ⟨raws, hraws, -, hvalid, hinit⟩ := h
  obtain rfl := Option.some.inj
    ((parseManifestDependencies_lowerBundle hlower hread hplain).symm.trans hraws)
  intro dep hdep
  refine ⟨?_, (validateDependency_iff "p" dep).1 (hvalid _ (List.mem_map_of_mem hdep) "p")⟩
  -- the check passes, so there is an init to look from
  obtain ⟨rt, thread, cached, hin⟩ := exists_inInit hvalid
  have hreported := hinit rt thread cached _ rfl hin
  rw [hostGetDependencies_of_inInit hin] at hreported
  exact (forall₂_reports_iff _).1 hreported dep hdep

/-- And it does survive. -/
theorem declarationsSurvive_of_survives (h : ∀ dep ∈ raw.dependencies, dep.Survives) :
    DeclarationsSurvive read raw.dependencies bundle.dependencies := by
  refine ⟨_, parseManifestDependencies_lowerBundle hlower hread hplain, ?_, fun raw hraw path => ?_,
    fun rt thread cached manifest hm hin => ?_⟩
  · rw [List.forall₂_map_right_iff, List.forall₂_same]
    exact fun dep _ => sameDeclaration_rawOf dep
  · obtain ⟨dep, hdep, rfl⟩ := List.mem_map.1 hraw
    exact (validateDependency_iff path dep).2 (h dep hdep).2
  · rw [hostGetDependencies_of_inInit hin, hm]
    exact (forall₂_reports_iff _).2 fun dep hdep => (h dep hdep).1

end Survives

/-- **The dependencies with a minimum major of zero and a canonical name survive, and no
others.** -/
theorem declarations_survive_iff {read : String → Option (List Toml.Table)}
    {raw : RawBundleSchema} {mode : BundleParseMode} {bundle : ResolvedBundle}
    (hlower : lowerBundle raw mode = .ok bundle)
    (hread : Toml.ReadsTables read "dependency" (bundle.dependencies.map tableOf))
    (hplain : ∀ dep ∈ raw.dependencies, dep.PlainNames) :
    DeclarationsSurvive read raw.dependencies bundle.dependencies ↔
      ∀ dep ∈ raw.dependencies, dep.Survives :=
  ⟨survives_of_declarationsSurvive hlower hread hplain,
    declarationsSurvive_of_survives hlower hread hplain⟩

/-- A bundle that depends on one contract. -/
def dependingOn (contract minVersion : String) : RawBundleSchema where
  name := "reader"
  version := "1.0.0"
  loader := "lua"
  file := .single "reader.lua"
  needsReinitOnDepReload := false
  plugin := []
  dependencies := [{ kind := "contract", contract, minVersion, bundle := none }]

/-- What the dependency on one contract is resolved to. -/
def resolvedOn (contract minVersion : String) : List ResolvedDependency :=
  (dependingOn contract minVersion).dependencies.map lowerDependency

/-- A reader of one text: the tables of one dependency. -/
def readingOn (contract minVersion : String) (text : String) : Option (List Toml.Table) :=
  let tables := (resolvedOn contract minVersion).map tableOf
  if text = Toml.tables "dependency" tables then some tables else none

theorem readsTables_readingOn (contract minVersion : String) :
    Toml.ReadsTables (readingOn contract minVersion) "dependency"
      ((resolvedOn contract minVersion).map tableOf) := by
  intro _
  exact if_pos rfl

/-- **A dependency on major one is reported as one on major zero.** -/
theorem minimum_major_is_lost :
    ¬ ∀ (read : String → Option (List Toml.Table)) (raw : RawBundleSchema)
      (mode : BundleParseMode) (bundle : ResolvedBundle), lowerBundle raw mode = .ok bundle →
      Toml.ReadsTables read "dependency" (bundle.dependencies.map tableOf) →
      DeclarationsSurvive read raw.dependencies bundle.dependencies := by
  intro hall
  have hplain : ∀ dep ∈ (dependingOn "codec" "1.0").dependencies, dep.PlainNames := by
    decide +kernel
  cases hlower : lowerBundle (dependingOn "codec" "1.0") .external with
  | error e =>
      have hok : (lowerBundle (dependingOn "codec" "1.0") .external).isOk = true := by
        decide +kernel
      rw [hlower] at hok
      cases hok
  | ok bundle =>
      have hread := readsTables_readingOn "codec" "1.0"
      rw [resolvedOn, ← lowerBundle_dependencies hlower] at hread
      have hsurvives := survives_of_declarationsSurvive hlower hread hplain
        (hall _ _ _ bundle hlower hread)
      exact absurd hsurvives (by decide +kernel)

/-- A dependency on any minor of major zero survives. -/
theorem declarations_survive_instance :
    ∃ bundle, lowerBundle (dependingOn "codec" "0.3") .external = .ok bundle ∧
      DeclarationsSurvive (readingOn "codec" "0.3") (dependingOn "codec" "0.3").dependencies
        bundle.dependencies := by
  cases hlower : lowerBundle (dependingOn "codec" "0.3") .external with
  | error e =>
      have hok : (lowerBundle (dependingOn "codec" "0.3") .external).isOk = true := by
        decide +kernel
      rw [hlower] at hok
      cases hok
  | ok bundle =>
      have hread := readsTables_readingOn "codec" "0.3"
      rw [resolvedOn, ← lowerBundle_dependencies hlower] at hread
      exact ⟨bundle, rfl,
        (declarations_survive_iff hlower hread (by decide +kernel)).2 (by decide +kernel)⟩

end PolyPlug.Codegen
