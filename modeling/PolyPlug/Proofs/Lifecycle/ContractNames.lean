import PolyPlug.Proofs.Lifecycle.ProviderSet
import PolyPlug.Proofs.Registry.Conflicts

/-!
# `PolyPlug.Proofs.Lifecycle.ContractNames`: two normal forms of a contract name

The provider check and the function counts cut a contract name at the first `@`
(`bareName`). The registry cuts it at the last `@`, and only before one or three
components of decimal digits (`canonicalContractName`).

A name that the provider check accepts has at most one `@`, so the two cut at the same
place. They differ in the versions they read: the provider check takes `major.minor`, and a
`+` before a component. `canonicalContractName_eq_iff` says for which accepted names the two
agree (`Spelled`), and `names_agree_iff` what follows for two providers of one contract id:
different bases always collide, and equal ones are kept apart only by such a spelling.
-/

set_option autoImplicit false

namespace PolyPlug.Lifecycle

open PolyPlug.Rust
open PolyPlug.Abi
open PolyPlug.Common
open PolyPlug.Registry

/-! ### Accepted names -/

/-- A base, and a version of one or three components without a sign. -/
def Spelled (name : String) : Prop :=
  ∀ declared ∈ specVersion name,
    bareName name ≠ "" ∧ '+' ∉ declared.toList ∧ (split declared '.').length ≠ 2

instance (name : String) : Decidable (Spelled name) :=
  inferInstanceAs (Decidable (∀ declared ∈ specVersion name, _))

/-- The provider check compares the version in a name with the contract's. -/
theorem suffixAgrees_of_accepted {m : ManifestData} {contracts : List PreparedGuestContract}
    (hok : validatePreparedProviderSet m contracts = .ok ()) {c : PreparedGuestContract}
    (hc : c ∈ contracts) : SuffixAgrees c := by
  have hindex := (validatePreparedProviderSet_ok_iff.mp hok).1 c hc
  intro declared hdeclared
  rw [specVersion] at hdeclared
  cases hcut : splitOnce c.contractName '@' with
  | none =>
    rw [hcut] at hdeclared
    cases hdeclared
  | some parts =>
    rw [hcut] at hdeclared
    cases hdeclared
    refine versionMatches_iff.mp (Decidable.byContradiction fun hmatch => ?_)
    rw [Bool.not_eq_true] at hmatch
    simp [providerIndex, specIndex, hcut, hmatch] at hindex

/-! ### The components of a version -/

/-- A component without a sign is one of decimal digits. -/
theorem isDecimalComponent_iff {component : String} {n : Nat}
    (h : parseU32 component = some n) :
    isDecimalComponent component = true ↔ '+' ∉ component.toList := by
  rw [isDecimalComponent, Bool.and_eq_true, Bool.not_eq_true', Bool.eq_false_iff]
  constructor
  · rintro ⟨-, hdigits⟩ hplus
    exact absurd (List.all_eq_true.mp hdigits '+' hplus) (by decide)
  · intro hplus
    rw [parseU32] at h
    have hempty : component.isEmpty ≠ true := by
      intro hempty
      rw [String.isEmpty_iff.mp hempty] at h
      cases h
    generalize component.toList = cs at h hplus ⊢
    have hdigits := (digits_of_parse h).1
    split at hdigits
    · exact absurd List.mem_cons_self hplus
    · exact ⟨hempty, hdigits⟩

/-- A full version has two or three components. -/
theorem components_of_fromStr {text : String} {version : Version}
    (h : Version.fromStr text = .ok version) :
    (∃ a b, split text '.' = [a, b] ∧ (parseU32 a).isSome ∧ (parseU32 b).isSome) ∨
    ∃ a b c, split text '.' = [a, b, c] ∧
      (parseU32 a).isSome ∧ (parseU32 b).isSome ∧ (parseU32 c).isSome := by
  rw [Version.fromStr] at h
  rcases hsplit : split text '.' with _ | ⟨a, _ | ⟨b, rest⟩⟩
  · rw [hsplit] at h
    cases h
  · rw [hsplit] at h
    cases ha : parseU32 a with
    | none => simp [ha] at h
    | some major => simp [ha] at h
  · rw [hsplit] at h
    cases ha : parseU32 a with
    | none => simp [ha] at h
    | some major =>
      cases hb : parseU32 b with
      | none => simp [ha, hb] at h
      | some minor =>
        rcases rest with _ | ⟨c, _ | ⟨d, ds⟩⟩
        · exact .inl ⟨a, b, rfl, by rw [ha]; rfl, by rw [hb]; rfl⟩
        · cases hc : parseU32 c with
          | none => simp [ha, hb, hc] at h
          | some patch =>
            exact .inr ⟨a, b, c, rfl, by rw [ha]; rfl, by rw [hb]; rfl, by rw [hc]; rfl⟩
        · cases hc : parseU32 c with
          | none => simp [ha, hb, hc] at h
          | some patch => simp [ha, hb, hc] at h

/-- A character of a text is a separator or in one of its pieces, and the other way round. -/
theorem mem_split_iff {text : String} {sep ch : Char} (hne : ch ≠ sep) :
    ch ∈ text.toList ↔ ∃ piece ∈ split text sep, ch ∈ piece.toList := by
  simp only [split, List.mem_map, exists_exists_and_eq_and, String.toList_ofList]
  constructor
  · intro hmem
    exact (mem_splitChars hmem).resolve_left hne
  · rintro ⟨piece, hpiece, hmem⟩
    exact mem_of_mem_splitChars hpiece hmem

/-- A version that denotes one has no `@`. -/
theorem notMem_at_of_denotes {declared : String} {version : Version}
    (h : Denotes declared version) : '@' ∉ declared.toList := by
  have hpiece : ∀ piece : String, (parseU32 piece).isSome → '@' ∉ piece.toList := by
    intro piece hsome
    obtain ⟨n, hn⟩ := Option.isSome_iff_exists.mp hsome
    exact notMem_of_parseU32 (by decide) (by decide) hn
  rcases h with hbare | hfull
  · exact hpiece declared (by rw [hbare]; rfl)
  · rw [mem_split_iff (by decide : '@' ≠ '.')]
    rintro ⟨piece, hmem, hat⟩
    rcases components_of_fromStr hfull with ⟨a, b, hsplit, ha, hb⟩ | ⟨a, b, c, hsplit, ha, hb, hc⟩
    · rw [hsplit] at hmem
      simp only [List.mem_cons, List.not_mem_nil, or_false] at hmem
      rcases hmem with rfl | rfl
      · exact hpiece _ ha hat
      · exact hpiece _ hb hat
    · rw [hsplit] at hmem
      simp only [List.mem_cons, List.not_mem_nil, or_false] at hmem
      rcases hmem with rfl | rfl | rfl
      · exact hpiece _ ha hat
      · exact hpiece _ hb hat
      · exact hpiece _ hc hat

/-! ### The two normal forms -/

/-- A name of a contract that the provider check accepts for some manifest. -/
def AcceptedName (name : String) : Prop :=
  ∃ (m : ManifestData) (contracts : List PreparedGuestContract),
    validatePreparedProviderSet m contracts = .ok () ∧ ∃ c ∈ contracts, c.contractName = name

/-- An accepted name is a base, or a base and a version that denotes one. -/
theorem AcceptedName.cases {name : String} (h : AcceptedName name) :
    (splitOnce name '@' = none ∧ '@' ∉ name.toList) ∨
    ∃ base declared version, splitOnce name '@' = some (base, declared) ∧
      name = base ++ String.singleton '@' ++ declared ∧ '@' ∉ declared.toList ∧
      Denotes declared version := by
  obtain ⟨m, contracts, hok, c, hc, rfl⟩ := h
  cases hcut : splitOnce c.contractName '@' with
  | none => exact .inl ⟨rfl, notMem_of_splitOnce_eq_none hcut⟩
  | some parts =>
    have hdenotes : Denotes parts.2 c.descriptor.version :=
      suffixAgrees_of_accepted hok hc parts.2 (by rw [specVersion, hcut]; rfl)
    exact .inr ⟨parts.1, parts.2, c.descriptor.version, rfl, (splitOnce_eq_some hcut).2,
      notMem_at_of_denotes hdenotes, hdenotes⟩

/-- The registry reads a version that denotes one, unless a component has a sign or there are
two. -/
theorem canonicalContractName_of_denotes {base declared : String} {version : Version}
    (h : Denotes declared version) :
    canonicalContractName (base ++ String.singleton '@' ++ declared) =
      if base ≠ "" ∧ '+' ∉ declared.toList ∧ (split declared '.').length ≠ 2 then base
      else base ++ String.singleton '@' ++ declared := by
  rw [canonicalContractName, rsplitOnce_append (notMem_at_of_denotes h)]
  by_cases hempty : base = ""
  · subst hempty
    rfl
  have hbase : base.isEmpty = false := by
    rw [Bool.eq_false_iff]
    exact fun h => hempty (String.isEmpty_iff.mp h)
  have hplus : '+' ∈ declared.toList ↔ ∃ piece ∈ split declared '.', '+' ∈ piece.toList :=
    mem_split_iff (by decide)
  simp only [hbase, Bool.false_eq_true, if_false, ne_eq, hempty, not_false_eq_true, true_and, hplus]
  rcases h with hbare | hfull
  · -- A bare major is the one component.
    have hdot : '.' ∉ declared.toList := notMem_of_parseU32 (by decide) (by decide) hbare
    simp only [split_of_notMem hdot, isDecimalComponent_iff hbare]
    simp
  · rcases components_of_fromStr hfull with ⟨a, b, hsplit, -, -⟩ | ⟨a, b, c, hsplit, ha, hb, hc⟩
    · simp [hsplit]
    · obtain ⟨major, ha⟩ := Option.isSome_iff_exists.mp ha
      obtain ⟨minor, hb⟩ := Option.isSome_iff_exists.mp hb
      obtain ⟨patch, hc⟩ := Option.isSome_iff_exists.mp hc
      simp only [hsplit, Bool.and_eq_true, isDecimalComponent_iff ha, isDecimalComponent_iff hb,
        isDecimalComponent_iff hc]
      simp [and_assoc]

/-- The registry keeps an accepted name, or cuts it where the provider check does. -/
theorem canonicalContractName_accepted {name : String} (h : AcceptedName name) :
    canonicalContractName name = if Spelled name then bareName name else name := by
  rcases h.cases with ⟨hcut, hat⟩ | ⟨base, declared, version, hcut, hname, -, hdenotes⟩
  · rw [canonicalContractName, rsplitOnce_of_notMem hat, bareName, hcut]
    simp
  · have hspelled : Spelled name ↔
        base ≠ "" ∧ '+' ∉ declared.toList ∧ (split declared '.').length ≠ 2 := by
      simp [Spelled, specVersion, bareName, hcut]
    simp only [hspelled, bareName, hcut]
    rw [hname]
    exact canonicalContractName_of_denotes hdenotes

/-- The base has no `@`. -/
theorem notMem_bareName (name : String) : '@' ∉ (bareName name).toList := by
  rw [bareName]
  cases hcut : splitOnce name '@' with
  | none => exact notMem_of_splitOnce_eq_none hcut
  | some parts => exact (splitOnce_eq_some hcut).1

theorem bareName_of_notMem {name : String} (h : '@' ∉ name.toList) : bareName name = name := by
  rw [bareName, splitOnce_of_notMem h]

theorem bareName_bareName (name : String) : bareName (bareName name) = bareName name :=
  bareName_of_notMem (notMem_bareName name)

/-- A name that is its own base has no version. -/
theorem spelled_of_bareName_eq {name : String} (h : bareName name = name) : Spelled name := by
  have hcut := splitOnce_of_notMem (h ▸ notMem_bareName name)
  intro declared hdeclared
  rw [specVersion, hcut] at hdeclared
  cases hdeclared

/-- **The normal form of an accepted name is its base exactly if the registry reads the
version.** -/
theorem canonicalContractName_eq_iff {name : String} (h : AcceptedName name) :
    canonicalContractName name = bareName name ↔ Spelled name := by
  rw [canonicalContractName_accepted h]
  by_cases hspelled : Spelled name
  · simp [hspelled]
  · rw [if_neg hspelled]
    exact iff_of_false (fun heq => hspelled (spelled_of_bareName_eq heq.symm)) hspelled

/-- The base of the normal form is the base. -/
theorem bareName_canonicalContractName {name : String} (h : AcceptedName name) :
    bareName (canonicalContractName name) = bareName name := by
  rw [canonicalContractName_accepted h]
  split
  · exact bareName_bareName name
  · rfl

/-! ### Collisions -/

/-- Names of one base are equal, or the registry reads the version of both. -/
def SameSpelling (name name' : String) : Prop :=
  bareName name = bareName name' → name = name' ∨ Spelled name ∧ Spelled name'

/-- The two names collide if the bases differ, and else if the spellings do. -/
theorem canonicalContractName_inj_iff {name name' : String} (h : AcceptedName name)
    (h' : AcceptedName name') :
    canonicalContractName name = canonicalContractName name' ↔
      bareName name = bareName name' ∧ (name = name' ∨ Spelled name ∧ Spelled name') := by
  constructor
  · intro heq
    have hbase : bareName name = bareName name' := by
      rw [← bareName_canonicalContractName h, heq, bareName_canonicalContractName h']
    refine ⟨hbase, ?_⟩
    rw [canonicalContractName_accepted h, canonicalContractName_accepted h'] at heq
    split at heq
    · next hspelled =>
      split at heq
      · next hspelled' => exact .inr ⟨hspelled, hspelled'⟩
      · exact .inr ⟨hspelled, spelled_of_bareName_eq (hbase.symm.trans heq)⟩
    · split at heq
      · next hspelled' =>
        exact .inr ⟨spelled_of_bareName_eq (hbase.trans heq.symm), hspelled'⟩
      · exact .inl heq
  · rintro ⟨hbase, rfl | ⟨hspelled, hspelled'⟩⟩
    · rfl
    · rw [(canonicalContractName_eq_iff h).mpr hspelled, hbase,
        (canonicalContractName_eq_iff h').mpr hspelled']

/-- The outcome is a collision of two contracts with one id. -/
def IsCollision (result : Except RegistryError Unit) : Prop :=
  ∃ id nameA nameB, result = .error (.contractIdCollision id nameA nameB)

theorem not_isCollision_ok : ¬ IsCollision (.ok ()) := by
  rintro ⟨id, a, b, h⟩
  cases h

theorem not_isCollision_duplicate {contract existing : String} :
    ¬ IsCollision (.error (.duplicateProvider contract existing)) := by
  rintro ⟨id, a, b, h⟩
  cases h

/-- The live providers listed under the contract's id. -/
def listedNames (data : RuntimeStoreData) (contract : PreparedGuestContract) : List String :=
  (data.indexOf contract.contractId).filterMap fun i => (data.entryAt i).map (·.contractName)

/-- The staged providers of the contract's id. -/
def stagedNames (staged : List PreparedGuestContract) (contract : PreparedGuestContract) :
    List String :=
  (staged.filter fun e => e.contractId = contract.contractId).map (·.contractName)

/-- The names are one contract to the registry. -/
def OneContract (names : List String) : Prop :=
  ∀ a ∈ names, ∀ b ∈ names, canonicalContractName a = canonicalContractName b

/-- The contract collides with the live providers of its id if it does with one of them. -/
theorem isCollision_indexed_iff {data : RuntimeStoreData} {contract : PreparedGuestContract}
    {b : BundleId} {isReloading : Bool} (hone : OneContract (listedNames data contract)) :
    IsCollision (validateGuestContractRegistration data contract b isReloading) ↔
      ∃ a ∈ listedNames data contract,
        canonicalContractName a ≠ canonicalContractName contract.contractName := by
  have hloop : ∀ indices : List Nat,
      OneContract (indices.filterMap fun i => (data.entryAt i).map (·.contractName)) →
      (IsCollision (validateAgainstIndexed data contract b isReloading indices) ↔
        ∃ a ∈ indices.filterMap fun i => (data.entryAt i).map (·.contractName),
          canonicalContractName a ≠ canonicalContractName contract.contractName) := by
    intro indices
    induction indices with
    | nil =>
      intro _
      refine iff_of_false not_isCollision_ok ?_
      rintro ⟨_, hmem, -⟩
      exact absurd hmem List.not_mem_nil
    | cons i rest ih =>
      intro hone
      rw [validateAgainstIndexed]
      cases hentry : data.entryAt i with
      | none =>
        simp only [List.filterMap_cons, hentry, Option.map_none] at hone ⊢
        exact ih hone
      | some existing =>
        simp only [List.filterMap_cons, hentry, Option.map_some] at hone ⊢
        have hrest : OneContract (rest.filterMap fun i => (data.entryAt i).map (·.contractName)) :=
          fun a ha b hb => hone a (List.mem_cons_of_mem _ ha) b (List.mem_cons_of_mem _ hb)
        split
        · next hname =>
          refine iff_of_true ⟨_, _, _, rfl⟩ ⟨_, List.mem_cons_self, ?_⟩
          simpa [nameCollision] using hname
        · next hname =>
          have hsame := nameCollision_eq_false.mp (by simpa using hname)
          split
          · refine iff_of_false not_isCollision_duplicate ?_
            rintro ⟨a, ha, hne⟩
            exact hne ((hone a ha _ List.mem_cons_self).trans hsame)
          · rw [ih hrest, List.exists_mem_cons_iff]
            simp [hsame]
  rw [validateGuestContractRegistration]
  unfold listedNames RuntimeStoreData.indexOf at hone ⊢
  cases hindices : data.guestContractIndex.lookup contract.contractId with
  | none => simpa [hindices] using not_isCollision_ok
  | some indices =>
    rw [hindices] at hone
    exact hloop indices hone

/-- The last contract of a list is checked against the ones before it. -/
theorem validateStagedFrom_append {contract : PreparedGuestContract}
    {before : List PreparedGuestContract} :
    ∀ {earlier : List PreparedGuestContract},
      validateStagedFrom earlier before = .ok () →
      validateStagedFrom earlier (before ++ [contract]) =
        validateAgainstStaged contract (earlier ++ before) := by
  induction before with
  | nil =>
    intro earlier _
    rw [List.nil_append, List.append_nil, validateStagedFrom]
    cases validateAgainstStaged contract earlier <;> rfl
  | cons e rest ih =>
    intro earlier hok
    rw [validateStagedFrom] at hok
    rw [List.cons_append, validateStagedFrom]
    cases hone : validateAgainstStaged e earlier with
    | error error =>
      rw [hone] at hok
      cases hok
    | ok u =>
      rw [hone] at hok
      show validateStagedFrom (earlier ++ [e]) (rest ++ [contract]) = _
      rw [ih hok, List.append_assoc]
      rfl

/-- The contracts that passed the staged check are one contract for each id. -/
theorem oneContract_staged {staged : List PreparedGuestContract} {contract : PreparedGuestContract}
    (hok : validatePreparedBundleContracts staged = .ok ()) :
    OneContract (stagedNames staged contract) := by
  have hpairs := validatePreparedBundleContracts_ok_iff.mp hok
  have hsame : ∀ e ∈ staged, ∀ e' ∈ staged, e.contractId = e'.contractId →
      canonicalContractName e.contractName = canonicalContractName e'.contractName := by
    have hname : staged.Pairwise fun e e' => e.contractId = e'.contractId →
        canonicalContractName e.contractName = canonicalContractName e'.contractName :=
      hpairs.imp fun h hid => nameCollision_eq_false.mp (h hid).1
    intro e he e' he'
    refine List.Pairwise.forall_of_forall_of_flip (fun _ _ _ => rfl) hname ?_ he he'
    exact hname.imp fun h hid => (h hid.symm).symm
  intro a ha b hb
  simp only [stagedNames, List.mem_map, List.mem_filter, decide_eq_true_eq] at ha hb
  obtain ⟨e, ⟨he, hid⟩, rfl⟩ := ha
  obtain ⟨e', ⟨he', hid'⟩, rfl⟩ := hb
  exact hsame e he e' he' (hid.trans hid'.symm)

/-- The contract collides with the staged ones of its id if it does with one of them. -/
theorem isCollision_staged_iff {staged : List PreparedGuestContract}
    {contract : PreparedGuestContract}
    (hok : validatePreparedBundleContracts staged = .ok ()) :
    IsCollision (validatePreparedBundleContracts (staged ++ [contract])) ↔
      ∃ a ∈ stagedNames staged contract,
        canonicalContractName a ≠ canonicalContractName contract.contractName := by
  have hone : OneContract (stagedNames staged contract) := oneContract_staged hok
  rw [validatePreparedBundleContracts, validateStagedFrom_append hok, List.nil_append]
  clear hok
  induction staged with
  | nil =>
    refine iff_of_false not_isCollision_ok ?_
    rintro ⟨_, hmem, -⟩
    exact absurd hmem List.not_mem_nil
  | cons existing rest ih =>
    rw [validateAgainstStaged]
    by_cases hid : existing.contractId = contract.contractId
    · have hnames : stagedNames (existing :: rest) contract =
          existing.contractName :: stagedNames rest contract := by
        simp [stagedNames, hid]
      rw [hnames] at hone ⊢
      rw [if_neg (not_not.mpr hid)]
      have hrest : OneContract (stagedNames rest contract) :=
        fun a ha b hb => hone a (List.mem_cons_of_mem _ ha) b (List.mem_cons_of_mem _ hb)
      split
      · next hname =>
        refine iff_of_true ⟨_, _, _, rfl⟩ ⟨_, List.mem_cons_self, ?_⟩
        simpa [nameCollision] using hname
      · next hname =>
        have hsame := nameCollision_eq_false.mp (by simpa using hname)
        split
        · refine iff_of_false not_isCollision_duplicate ?_
          rintro ⟨a, ha, hne⟩
          exact hne ((hone a ha _ List.mem_cons_self).trans hsame)
        · refine (ih hrest).trans ?_
          rw [List.exists_mem_cons_iff]
          simp [hsame]
    · have hnames : stagedNames (existing :: rest) contract = stagedNames rest contract := by
        simp [stagedNames, hid]
      rw [hnames] at hone ⊢
      rw [if_pos hid]
      exact ih hone

/-- The outcome for a contract beside providers of its id is a collision exactly if the base of
one of them differs. -/
def DecidedByBase (result : Except RegistryError Unit) (names : List String) (name : String) :
    Prop :=
  IsCollision result ↔ ∃ a ∈ names, bareName a ≠ bareName name

/-- A check that compares normal forms compares bases exactly if equal bases have one spelling. -/
theorem decidedByBase_iff {result : Except RegistryError Unit} {names : List String}
    {name : String} (hcollision : IsCollision result ↔
      ∃ a ∈ names, canonicalContractName a ≠ canonicalContractName name)
    (hone : OneContract names) (hname : AcceptedName name)
    (hnames : ∀ a ∈ names, AcceptedName a) :
    DecidedByBase result names name ↔ ∀ a ∈ names, SameSpelling a name := by
  have hiff : ∀ a ∈ names, (canonicalContractName a = canonicalContractName name ↔
      bareName a = bareName name ∧ (a = name ∨ Spelled a ∧ Spelled name)) :=
    fun a ha => canonicalContractName_inj_iff (hnames a ha) hname
  rw [DecidedByBase, hcollision]
  constructor
  · intro hdecided a ha hbase
    refine ((hiff a ha).mp (Decidable.byContradiction fun hne => ?_)).2
    -- `a` collides, so some provider has another base. It is one contract with `a`.
    obtain ⟨b, hb, hother⟩ := hdecided.mp ⟨a, ha, hne⟩
    refine hother (Eq.trans ?_ hbase)
    rw [← bareName_canonicalContractName (hnames b hb), hone b hb a ha,
      bareName_canonicalContractName (hnames a ha)]
  · intro hsame
    refine exists_congr fun a => and_congr_right fun ha => ?_
    rw [Ne, Ne, not_iff_not, hiff a ha]
    exact ⟨fun h => h.1, fun h => ⟨h, hsame a ha h⟩⟩

/-- **Contract names have one normal form exactly if the registry reads their versions.** An
accepted name is cut to its base if it is `Spelled`. Beside providers of one contract id the
registry decides by the base, in a bundle and against the published ones, exactly if every
provider of the same base has the same spelling. -/
theorem contract_names_agree_iff {contract : PreparedGuestContract}
    (hname : AcceptedName contract.contractName) :
    (canonicalContractName contract.contractName = bareName contract.contractName ↔
      Spelled contract.contractName) ∧
    (∀ staged : List PreparedGuestContract, validatePreparedBundleContracts staged = .ok () →
      (∀ a ∈ stagedNames staged contract, AcceptedName a) →
      (DecidedByBase (validatePreparedBundleContracts (staged ++ [contract]))
          (stagedNames staged contract) contract.contractName ↔
        ∀ a ∈ stagedNames staged contract, SameSpelling a contract.contractName)) ∧
    ∀ (data : RuntimeStoreData) (b : BundleId) (isReloading : Bool),
      OneContract (listedNames data contract) →
      (∀ a ∈ listedNames data contract, AcceptedName a) →
      (DecidedByBase (validateGuestContractRegistration data contract b isReloading)
          (listedNames data contract) contract.contractName ↔
        ∀ a ∈ listedNames data contract, SameSpelling a contract.contractName) := by
  refine ⟨canonicalContractName_eq_iff hname, ?_, ?_⟩
  · intro staged hok hnames
    exact decidedByBase_iff (isCollision_staged_iff hok) (oneContract_staged hok) hname hnames
  · intro data b isReloading hone hnames
    exact decidedByBase_iff (isCollision_indexed_iff hone) hone hname hnames

/-! ### A minor version in a name -/

/-- The first version of the logger, under a name. -/
def loggerNamed (name : String) : PreparedGuestContract := stagedLogger name ⟨1, 0, 0⟩

theorem acceptedName_logger {name : String}
    (h : validatePreparedProviderSet (loggingManifest ["logger"]) [loggerNamed name] = .ok ()) :
    AcceptedName name :=
  ⟨_, _, h, _, List.mem_singleton_self _, rfl⟩

/-- `logger@1.0` is accepted for the manifest that provides `logger`, and so is `logger`. The
registry keeps the first as it is, and the two collide. -/
theorem minor_version_collides :
    AcceptedName "logger@1.0" ∧ AcceptedName "logger" ∧
      canonicalContractName "logger@1.0" ≠ bareName "logger@1.0" ∧
      bareName "logger@1.0" = bareName "logger" ∧
      IsCollision (validatePreparedBundleContracts
        ([loggerNamed "logger"] ++ [loggerNamed "logger@1.0"])) := by
  refine ⟨acceptedName_logger (by decide +kernel), acceptedName_logger (by decide +kernel),
    by decide +kernel, by decide +kernel, (GuestContractId.new "logger" 1).id, "logger",
    "logger@1.0", ?_⟩
  decide +kernel

/-- `logger` and `logger@1` are one contract. -/
theorem contract_names_agree_logger :
    DecidedByBase (validatePreparedBundleContracts
        ([loggerNamed "logger"] ++ [loggerNamed "logger@1"]))
      (stagedNames [loggerNamed "logger"] (loggerNamed "logger@1")) "logger@1" := by
  have haccepted : AcceptedName (loggerNamed "logger@1").contractName :=
    acceptedName_logger (by decide +kernel)
  refine ((contract_names_agree_iff haccepted).2.1 [loggerNamed "logger"] (by decide +kernel)
    ?_).mpr ?_
  · intro a ha
    simp only [stagedNames, loggerNamed, stagedLogger, decide_true, List.filter_cons_of_pos,
      List.filter_nil, List.map_cons, List.map_nil, List.mem_singleton] at ha
    subst ha
    exact acceptedName_logger (by decide +kernel)
  · intro a ha _
    simp only [stagedNames, loggerNamed, stagedLogger, decide_true, List.filter_cons_of_pos,
      List.filter_nil, List.map_cons, List.map_nil, List.mem_singleton] at ha
    subst ha
    exact .inr ⟨by decide +kernel, by decide +kernel⟩

end PolyPlug.Lifecycle
