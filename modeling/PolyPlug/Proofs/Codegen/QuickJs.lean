import PolyPlug.Codegen.QuickJs
import PolyPlug.Proofs.Codegen.Providers

/-!
# `PolyPlug.Proofs.Codegen.QuickJs`: generated QuickJS bundles at the runtime's checks

The data of a provider pass through four stages: the interface that is named after the
plugin, the registration that reads it, what `load_inner` makes of it, what the runtime
stages. Where `contracts.ts` loads, every plugin has one entry (`exists_entries`), each
registration is read back as the contract of that entry (`readRegistration_provider`),
and what is lost is the upper half of the major version and the name of the plugin. So the
bundle registers what its manifest declares exactly if it also has a plugin, no entry occurs
twice, and the majors have 16 bits (`quickjs_registers_iff`).
-/

set_option autoImplicit false

namespace PolyPlug.Codegen

open PolyPlug.Lib
open PolyPlug.Rust
open PolyPlug.Abi
open PolyPlug.Common
open PolyPlug.Registry
open PolyPlug.Lifecycle
open PolyPlug.Js

/-! ### Reading a registration back -/

/-- The two halves of an id. -/
theorem join_halves (id : UInt64) :
    UInt64.ofNat (numberAsU32 (some (id >>> 32).toNat)) <<< 32 |||
      UInt64.ofNat (numberAsU32 (some (id &&& 0xFFFFFFFF).toNat)) = id := by
  have hlt := id.toNat_lt
  have hhi : (id >>> 32).toNat = id.toNat / 2 ^ 32 := by
    rw [UInt64.toNat_shiftRight, Nat.shiftRight_eq_div_pow]
    rfl
  have hlo : (id &&& 0xFFFFFFFF).toNat = id.toNat % 2 ^ 32 := by
    rw [UInt64.toNat_and]
    exact Nat.and_two_pow_sub_one_eq_mod _ 32
  rw [← UInt64.toNat_inj, UInt64.toNat_or, UInt64.toNat_shiftLeft, numberAsU32, numberAsU32,
    Option.getD_some, Option.getD_some, hhi, hlo, UInt64.toNat_ofNat', UInt64.toNat_ofNat',
    Nat.min_eq_left (by omega), Nat.min_eq_left (by omega),
    Nat.mod_eq_of_lt (show id.toNat / 2 ^ 32 < 2 ^ 64 by omega),
    Nat.mod_eq_of_lt (show id.toNat % 2 ^ 32 < 2 ^ 64 by omega)]
  show (id.toNat / 2 ^ 32) <<< 32 % 2 ^ 64 ||| id.toNat % 2 ^ 32 = id.toNat
  rw [Nat.mod_eq_of_lt (by rw [Nat.shiftLeft_eq]; omega),
    ← Nat.shiftLeft_add_eq_or_of_lt (Nat.mod_lt _ (by decide)), Nat.shiftLeft_eq]
  omega

/-- The version number keeps 16 bits of the major. -/
theorem shift_back (major : Nat) :
    numberAsU32 (some (asU32 (major <<< 16))) >>> 16 = major % 2 ^ 16 := by
  rw [numberAsU32, Option.getD_some, asU32, Nat.shiftLeft_eq, Nat.shiftRight_eq_div_pow,
    Nat.min_eq_left (by omega)]
  omega

/-- The loop over `functions` gets through. -/
theorem exists_readFunctions (bundle contractName : String) {wrappers : List String} {n : Nat}
    (hn : n ≤ wrappers.length) :
    ∃ functions, readFunctions bundle contractName n (wrappers.map some) = .ok functions := by
  unfold readFunctions
  refine Exists.imp (fun functions h => h.1)
    (exists_mapM_ok (P := fun _ _ => True) fun i hi => ?_)
  have hlt : i < wrappers.length := (List.mem_range.1 hi).trans_le hn
  refine ⟨wrappers[i], ?_, trivial⟩
  simp [hlt]

/-- A registration whose factory is set is read. -/
theorem exists_readRegistration {provider : JsProvider}
    (h : provider.interface.fnCount ≤ provider.wrappers.length) (bundle : String) (index : Nat) :
    ∃ functions, readRegistration bundle index
        ((provider.setFactory (.ok ())).interface.registration) = .ok
      { contractId := UInt64.ofNat (numberAsU32 (some provider.interface.contractHi)) <<< 32 |||
          UInt64.ofNat (numberAsU32 (some provider.interface.contractLo))
        contractVersion := numberAsU32 (some provider.interface.version)
        contractName := provider.interface.contractName
        functions } := by
  have hn : numberAsU32 (some provider.interface.fnCount) ≤ provider.wrappers.length :=
    (Nat.min_le_left _ _).trans h
  obtain ⟨functions, hfunctions⟩ :=
    exists_readFunctions bundle provider.interface.contractName hn
  refine ⟨functions, ?_⟩
  simp only [readRegistration, JsProvider.setFactory, JsInterfaceConst.registration, hfunctions]

/-- What is read for a contract. -/
structure ReadFor (c : ResolvedContract) (data : JsRegistrationData) : Prop where
  contractId : data.contractId = c.contractId
  version : data.version = ⟨c.version.major % 2 ^ 16, 0, 0⟩
  contractName : data.contractName = c.majorName

/-- **The loader reads the contract that was rendered, but for the upper half of its major.** -/
theorem readRegistration_render {rules : TextRules} {c : ResolvedContract}
    (hid : c.contractId = (GuestContractId.new c.name c.version.major).id)
    (pluginName interfaceVar setFactoryName bundle : String) (index : Nat) :
    ∃ data, readRegistration bundle index
        (((renderPluginInterfaceQuickjs rules pluginName c interfaceVar setFactoryName).setFactory
          (.ok ())).interface.registration) = .ok data ∧ ReadFor c data := by
  obtain ⟨functions, hread⟩ := @exists_readRegistration
    (renderPluginInterfaceQuickjs rules pluginName c interfaceVar setFactoryName)
    (by simp [renderPluginInterfaceQuickjs]) bundle index
  refine ⟨_, hread, ?_, ?_, rfl⟩
  · rw [hid]
    exact join_halves _
  · rw [JsRegistrationData.version]
    exact congrArg (fun major => (⟨major, 0, 0⟩ : Version)) (shift_back c.version.major)

/-! ### The entries of a bundle that loads -/

section
variable {rules : TextRules} {ir : ValidatedIr} (hnamed : Named ir.contracts)

/-- What is declared for an entry of a plugin. -/
def renderedFor (rules : TextRules) (plugin : ResolvedPlugin) (c : ResolvedContract) : JsProvider :=
  renderPluginInterfaceQuickjs rules plugin.name c (pluginVar rules plugin.name)
    (jsFactorySetterName rules plugin.name)

/-- No interface is declared for two entries. -/
theorem ContractsLoad.pairwise (hload : ContractsLoad rules ir) :
    (generateContractsTs rules ir).Pairwise fun p q => p.interfaceName ≠ q.interfaceName := by
  have hnodup := hload.1
  rw [declaredNames, List.nodup_cons, List.nodup_cons, List.nodup_flatMap] at hnodup
  refine hnodup.2.2.2.imp fun {p q} hdisjoint heq => ?_
  exact hdisjoint (List.mem_cons_self ..) (heq ▸ List.mem_cons_self ..)

include hnamed

theorem map_contractOf {plugin : ResolvedPlugin} {c : ResolvedContract} (hc : c ∈ ir.contracts) :
    (contractOf ir c.fullName).map (fun contract => renderPluginInterfaceQuickjs rules plugin.name
      contract (pluginVar rules plugin.name) (jsFactorySetterName rules plugin.name)) =
        some (renderedFor rules plugin c) := by
  rw [contractOf_fullName hnamed hc]
  rfl

/-- **Where `contracts.ts` loads, every plugin has one entry.** A second one would declare the
plugin's interface again. -/
theorem exists_oneEntry (hexact : ImplementsExactly ir) (hload : ContractsLoad rules ir)
    {plugin : ResolvedPlugin} (hplugin : plugin ∈ ir.bundle.plugins) :
    ∃ c, OneEntry ir plugin c := by
  have hentry : ∀ spec ∈ plugin.implements, ∃ c ∈ ir.contracts, spec = c.fullName := by
    intro spec hspec
    exact hexact.exact spec (List.mem_flatMap.2 ⟨plugin, hplugin, hspec⟩)
  have hpairwise := hload.pairwise
  rw [generateContractsTs, List.pairwise_flatMap] at hpairwise
  have hown := hpairwise.1 plugin hplugin
  match himplements : plugin.implements, hexact.some plugin hplugin with
  | [spec], _ =>
    obtain ⟨c, hc, rfl⟩ := hentry spec (himplements ▸ List.mem_cons_self ..)
    exact ⟨c, hc, himplements⟩
  | first :: second :: rest, _ =>
    obtain ⟨c, hc, rfl⟩ := hentry first (by simp [himplements])
    obtain ⟨d, hd, rfl⟩ := hentry second (by simp [himplements])
    simp only [himplements, List.filterMap_cons, map_contractOf hnamed hc,
      map_contractOf hnamed hd, List.pairwise_cons] at hown
    exact absurd rfl (hown.1 (renderedFor rules plugin d) (List.mem_cons_self ..))

theorem renderedFor_mem {plugin : ResolvedPlugin} (hplugin : plugin ∈ ir.bundle.plugins)
    {c : ResolvedContract} (hc : OneEntry ir plugin c) :
    renderedFor rules plugin c ∈ generateContractsTs rules ir := by
  refine List.mem_flatMap.2 ⟨plugin, hplugin, ?_⟩
  rw [hc.2, List.mem_filterMap]
  exact ⟨c.fullName, List.mem_singleton_self _, map_contractOf hnamed hc.1⟩

/-- **`init.ts` finds the interface of every plugin.** -/
theorem exists_generateInitTs (factories : String → FactoryCall) (hexact : ImplementsExactly ir)
    (hload : ContractsLoad rules ir) :
    ∃ registrations, generateInitTs rules factories ir = some registrations ∧
      List.Forall₂ (fun plugin r => ∀ c, OneEntry ir plugin c → r =
        ((renderedFor rules plugin c).setFactory (factories plugin.name)).interface.registration)
          ir.bundle.plugins registrations := by
  rw [generateInitTs, if_pos hload]
  refine exists_mapM_some fun plugin hplugin => ?_
  obtain ⟨c, hc⟩ := exists_oneEntry hnamed hexact hload hplugin
  have hmem := @renderedFor_mem rules ir hnamed plugin hplugin c hc
  -- no other provider has its name
  have hfind : ((generateContractsTs rules ir).map fun provider =>
      provider.setFactory (factories provider.pluginName)).find? (fun provider =>
        provider.interfaceName = pluginVar rules plugin.name ++ "_INTERFACE") =
      some ((renderedFor rules plugin c).setFactory (factories plugin.name)) := by
    rw [List.find?_map]
    exact congrArg (Option.map fun provider => provider.setFactory (factories provider.pluginName))
      (find?_eq_some_of_pairwise hload.pairwise hmem)
  refine ⟨_, by rw [hfind]; rfl, fun d hd => ?_⟩
  have hsame : c = d := by
    refine eq_of_fullName hnamed hc.1 hd.1 ?_
    exact List.singleton_inj.1 (hc.2.symm.trans hd.2)
  rw [hsame]

omit hnamed in
theorem readInit_polyplugInit (bundle : String) (registrations : List JsRegistration) :
    readInit bundle (polyplugInit registrations false false false) =
      if registrations.isEmpty then .error
        (jsInitFailed bundle "polyplug_init returned an empty registrations array")
      else registrations.zipIdx.mapM fun (entry, index) =>
        readRegistration bundle index entry := rfl

/-- The loader reads all registrations, if there are any. -/
theorem exists_readInit {factories : String → FactoryCall} (hexact : ImplementsExactly ir)
    (hload : ContractsLoad rules ir) (hsome : ir.bundle.plugins ≠ [])
    (hfactories : ∀ plugin ∈ ir.bundle.plugins, factories plugin.name = .ok ()) (bundle : String) :
    ∃ registrations loaded, generateInitTs rules factories ir = some registrations ∧
      readInit bundle (polyplugInit registrations false false false) = .ok loaded ∧
        ∀ cs, List.Forall₂ (OneEntry ir) ir.bundle.plugins cs → List.Forall₂ ReadFor cs loaded := by
  obtain ⟨registrations, hinit, hall⟩ := exists_generateInitTs hnamed factories hexact hload
  have hreads : List.Forall₂ (fun plugin r => ∀ c, OneEntry ir plugin c → ∀ index, ∃ data,
      readRegistration bundle index r = .ok data ∧ ReadFor c data)
        ir.bundle.plugins registrations := by
    refine ((List.forall₂_and_left _ _).2 ⟨fun _ h => h, hall⟩).imp ?_
    rintro plugin r ⟨hplugin, hof⟩ c hc index
    rw [hof c hc, hfactories plugin hplugin]
    exact readRegistration_render (hnamed.contractId c hc.1) ..
  have hentries : ∀ entry ∈ registrations.zipIdx, ∃ data,
      readRegistration bundle entry.2 entry.1 = .ok data ∧
        readRegistration bundle entry.2 entry.1 = .ok data := by
    rintro ⟨r, index⟩ hentry
    have hr : r ∈ registrations := List.fst_mem_of_mem_zipIdx hentry
    obtain ⟨plugin, hmem, hread⟩ :=
      exists_of_forall₂ ((List.forall₂_and_left _ _).2 ⟨fun _ h => h, hreads⟩) r hr
    obtain ⟨c, hc⟩ := exists_oneEntry hnamed hexact hload hmem
    obtain ⟨data, hdata, _⟩ := hread.2 c hc index
    exact ⟨data, hdata, hdata⟩
  obtain ⟨loaded, hok, hloaded⟩ := exists_mapM_ok hentries
  refine ⟨registrations, loaded, hinit, ?_, fun cs hcs => ?_⟩
  · have hne : registrations ≠ [] := fun hnil => by
      rw [hnil, List.forall₂_nil_right_iff] at hall
      exact hsome hall
    rw [readInit_polyplugInit, if_neg (by simpa using hne)]
    exact hok
  · have hpaired : List.Forall₂ (fun r data => ∃ index, readRegistration bundle index r = .ok data)
        registrations loaded := by
      rw [← List.zipIdx_map_fst 0 registrations, List.forall₂_map_left_iff]
      exact hloaded.imp fun entry _ h => ⟨entry.2, h⟩
    refine (forall₂_comp hcs.flip (forall₂_comp hreads hpaired)).imp ?_
    rintro c data ⟨plugin, hc, r, hread, index, hdata⟩
    obtain ⟨data', hdata', hfor⟩ := hread c hc index
    obtain rfl := Except.ok.inj (hdata.symm.trans hdata')
    exact hfor

end

section
variable {ir : ValidatedIr} (hnamed : Named ir.contracts) (hexact : ImplementsExactly ir)
include hnamed hexact

/-- **The manifest of a QuickJS bundle declares the implemented contracts.** -/
theorem declares_generateManifestToml {m : ManifestData}
    (h : (generateManifestToml ir).ReadAs m) : Declares ir m := by
  have hmem := mem_map_allImplements hexact fun c hc => truncateToMajor_fullName hnamed hc
  refine ⟨h.provides ▸ nodup_sortDedup _, fun spec => ?_, fun c hc => ?_⟩
  · rw [h.provides]
    exact hmem spec
  · rw [h.functionCount]
    exact lookup_functionCount hnamed hc.1 ((hmem c.majorName).2 ⟨c, hc, rfl⟩)

end

/-! ### What the runtime stages -/

/-- The registration of a contract whose major has 16 bits, as the checks read it. -/
def jsRegistration (c : ResolvedContract) : Registration where
  pluginName := "js-quickjs-plugin"
  contractName := c.majorName
  version := ⟨c.version.major, 0, 0⟩
  interface := c
  contractId := c.contractId
  native := false

/-- What `load_inner` spells. -/
def jsSpelling : Spelling where
  name := ResolvedContract.majorName
  version := fun c => ⟨c.version.major, 0, 0⟩

/-- What is staged for data that were read. -/
theorem stages_eq {data : JsRegistrationData} {c : PreparedGuestContract} (h : data.Stages c) :
    c.contractId = ⟨data.contractId⟩ ∧
      c.descriptor = ⟨"js-quickjs-plugin", data.contractName, data.version⟩ ∧
        c.contractName = data.contractName ∧ c.interface.val.contractVersion = data.version ∧
          c.interface.val.dispatchType = .virtualMachine := by
  obtain ⟨addresses, contractName, adapterContext, ptr, hname, hprepare⟩ := h
  obtain rfl : data.contractName = contractName :=
    Except.ok.inj ((stringViewToOwnedString_stringView _ _).symm.trans hname)
  rw [prepareGuestContract, JsRegistrationData.descriptor, JsRegistrationData.pluginInterface]
    at hprepare
  dsimp only at hprepare
  rw [show textView "js-quickjs-plugin" = stringView "js-quickjs-plugin" from rfl,
    stringViewToOwnedString_stringView] at hprepare
  obtain rfl := Except.ok.inj hprepare
  exact ⟨rfl, rfl, rfl, rfl, rfl⟩

/-- Whatever was read is staged. -/
theorem exists_jsStages (data : JsRegistrationData) : ∃ c, data.Stages c := by
  have hprepare : ∃ c, prepareGuestContract data.descriptor (data.pluginInterface ⟨1, 1, 1, 1⟩)
      data.contractName 1 1 = .ok c := by
    rw [prepareGuestContract, JsRegistrationData.descriptor, JsRegistrationData.pluginInterface]
    dsimp only
    rw [show textView "js-quickjs-plugin" = stringView "js-quickjs-plugin" from rfl,
      stringViewToOwnedString_stringView]
    exact ⟨_, rfl⟩
  obtain ⟨c, hc⟩ := hprepare
  exact ⟨c, ⟨1, 1, 1, 1⟩, data.contractName, 1, 1, stringViewToOwnedString_stringView _ _, hc⟩

theorem registers_of_readFor {c : ResolvedContract} (hmajor : c.version.major < 2 ^ 16)
    {data : JsRegistrationData} (hread : ReadFor c data) {staged : PreparedGuestContract}
    (hstaged : data.Stages staged) : Registers (jsRegistration c) staged := by
  obtain ⟨hid, hdescriptor, hname, hversion, hdispatch⟩ := stages_eq hstaged
  have hdata : data.version = ⟨c.version.major, 0, 0⟩ := by
    rw [hread.version, Nat.mod_eq_of_lt hmajor]
  refine ⟨?_, ?_, ?_, ?_, ?_, ?_⟩
  · rw [hdescriptor]
    rfl
  · rw [hname, hread.contractName]
    rfl
  · rw [hdescriptor]
    exact hdata
  · rw [hid, hread.contractId]
    rfl
  · rw [hversion, hdata]
    rfl
  · -- a virtual machine has no function count
    intro count hcount
    rw [nativeFunctionCount, hdispatch] at hcount
    cases hcount

/-! ### Declared and registered -/

/-- The plugins with their entries. -/
def implementedPairs (ir : ValidatedIr) : List (ResolvedPlugin × String) :=
  ir.bundle.plugins.flatMap fun plugin => plugin.implements.map fun entry => (plugin, entry)

/-- The staged contract is that of the entry, with its id and its major version. -/
def ProviderOf (ir : ValidatedIr) (entry : String) (staged : PreparedGuestContract) : Prop :=
  ∃ c, contractOf ir entry = some c ∧ staged.contractId = ⟨c.contractId⟩ ∧
    staged.descriptor.version.major = c.version.major ∧
      staged.interface.val.contractVersion.major = c.version.major

/-- What is staged is one provider for every plugin and entry, in some order. -/
def OneProviderEach (ir : ValidatedIr) (staged : List PreparedGuestContract) : Prop :=
  ∃ order, order.Perm staged ∧
    List.Forall₂ (fun pair c => ProviderOf ir pair.2 c) (implementedPairs ir) order

/-- The bundle loads, and it registers what its manifest declares. -/
def RegistersDeclared (rules : TextRules) (factories : String → FactoryCall) (ir : ValidatedIr) :
    Prop :=
  ∃ registrations loaded, generateInitTs rules factories ir = some registrations ∧
    readInit ir.bundle.name (polyplugInit registrations false false false) = .ok loaded ∧
      ∀ m staged, (generateManifestToml ir).ReadAs m →
        List.Forall₂ JsRegistrationData.Stages loaded staged →
          OneProviderEach ir staged ∧ validatePreparedProviderSet m staged = .ok () ∧
            validatePreparedBundleContracts staged = .ok ()

/-- When it does. -/
structure JsSupported (rules : TextRules) (ir : ValidatedIr) : Prop where
  /-- The names of `contracts.ts` are identifiers, and each is declared once. -/
  loads : ContractsLoad rules ir
  some : ir.bundle.plugins ≠ []
  major : ∀ c, Implemented ir c → c.version.major < 2 ^ 16
  /-- No contract is implemented twice. -/
  distinct : (allImplements ir).Nodup
  ids : DistinctIds ir

/-! ### When the bundle registers what it declares -/

theorem flatMap_implements {ir : ValidatedIr} {plugins : List ResolvedPlugin}
    {cs : List ResolvedContract} (h : List.Forall₂ (OneEntry ir) plugins cs) :
    plugins.flatMap ResolvedPlugin.implements = cs.map ResolvedContract.fullName := by
  induction h with
  | nil => rfl
  | cons hc _ ih => rw [List.flatMap_cons, hc.2, ih, List.map_cons, List.singleton_append]

theorem forall₂_pairs {ir : ValidatedIr} {plugins : List ResolvedPlugin}
    {cs : List ResolvedContract} (h : List.Forall₂ (OneEntry ir) plugins cs) :
    List.Forall₂ (fun (pair : ResolvedPlugin × String) c => pair.2 = c.fullName ∧ c ∈ ir.contracts)
      (plugins.flatMap fun plugin => plugin.implements.map fun entry => (plugin, entry)) cs := by
  induction h with
  | nil => exact .nil
  | cons hc _ ih =>
    rw [List.flatMap_cons, hc.2]
    exact .cons ⟨rfl, hc.1⟩ ih

section
variable {rules : TextRules} {ir : ValidatedIr} (hnamed : Named ir.contracts)
  {cs : List ResolvedContract} (hcs : List.Forall₂ (OneEntry ir) ir.bundle.plugins cs)
include hnamed hcs

/-- The implemented contracts are the entries. -/
theorem implemented_iff {c : ResolvedContract} : Implemented ir c ↔ c ∈ cs := by
  have hmem : ∀ d ∈ cs, d ∈ ir.contracts := fun d hd =>
    (exists_of_forall₂ hcs d hd).elim fun _ h => h.2.1
  rw [Implemented, allImplements, flatMap_implements hcs, List.mem_map]
  constructor
  · rintro ⟨hc, d, hd, hname⟩
    rwa [← eq_of_fullName hnamed (hmem d hd) hc hname]
  · exact fun hc => ⟨hmem c hc, c, hc, rfl⟩

/-- Distinct entries of distinct ids. -/
theorem pairwise_contractId_iff :
    cs.Pairwise (fun c d => c.contractId ≠ d.contractId) ↔
      (allImplements ir).Nodup ∧ DistinctIds ir := by
  rw [allImplements, flatMap_implements hcs, List.Nodup, List.pairwise_map]
  constructor
  · intro h
    have hnodup : (cs.map ResolvedContract.contractId).Nodup := List.pairwise_map.2 h
    constructor
    · refine h.imp_of_mem fun {c d} hc hd hne hname => hne ?_
      rw [eq_of_fullName hnamed ((implemented_iff hnamed hcs).2 hc).1
        ((implemented_iff hnamed hcs).2 hd).1 hname]
    · intro c d hc hd hid
      exact List.inj_on_of_nodup_map hnodup ((implemented_iff hnamed hcs).1 hc)
        ((implemented_iff hnamed hcs).1 hd) hid
  · rintro ⟨hdistinct, hids⟩
    refine hdistinct.imp_of_mem fun {c d} hc hd hne hid => hne ?_
    rw [hids c d ((implemented_iff hnamed hcs).2 hc) ((implemented_iff hnamed hcs).2 hd) hid]

/-- **What is staged passes the two checks if no contract is implemented twice.** All providers
have one name, so the checks take a second one for a duplicate. -/
theorem quickjs_checks_iff (hexact : ImplementsExactly ir)
    (hmajor : ∀ c ∈ cs, c.version.major < 2 ^ 16) {m : ManifestData}
    (hm : (generateManifestToml ir).ReadAs m) {loaded : List JsRegistrationData}
    (hread : List.Forall₂ ReadFor cs loaded) {staged : List PreparedGuestContract}
    (hstaged : List.Forall₂ JsRegistrationData.Stages loaded staged) :
    validatePreparedProviderSet m staged = .ok () ∧
        validatePreparedBundleContracts staged = .ok () ↔
      (allImplements ir).Nodup ∧ DistinctIds ir := by
  have hregisters : List.Forall₂ Registers (cs.map jsRegistration) staged := by
    rw [List.forall₂_map_left_iff]
    refine ((List.forall₂_and_left _ _).2 ⟨fun c hc => hmajor c hc,
      forall₂_comp hread hstaged⟩).imp ?_
    rintro c contract ⟨hlt, data, hdata, hstages⟩
    exact registers_of_readFor hlt hdata hstages
  have hreadable : jsSpelling.Readable := ⟨fun _ => .inl rfl, fun _ => rfl⟩
  have hsound : ∀ r ∈ cs.map jsRegistration, r.Sound ir jsSpelling := by
    intro r hr
    obtain ⟨c, hc, rfl⟩ := List.mem_map.1 hr
    exact ⟨(implemented_iff hnamed hcs).2 hc, rfl, rfl⟩
  rw [providerChecks_iff hnamed (declares_generateManifestToml hnamed hexact hm) hreadable hsound
    hregisters, ← pairwise_contractId_iff hnamed hcs, List.pairwise_map]
  constructor
  · rintro ⟨-, hpair⟩
    refine hpair.imp ?_
    intro c d h hid
    exact (h hid).2 rfl
  · intro hpair
    constructor
    · intro c hc
      exact ⟨jsRegistration c, List.mem_map_of_mem ((implemented_iff hnamed hcs).1 hc), rfl⟩
    · refine hpair.imp ?_
      intro c d hne hid
      exact absurd hid hne

end

/-- Every manifest is read. -/
theorem readAs_generateManifestToml (ir : ValidatedIr) :
    (generateManifestToml ir).ReadAs (manifestOf (generateManifestToml ir)) := by
  refine ⟨rfl, rfl, fun e he => ?_⟩
  obtain ⟨c, -, rfl⟩ := List.mem_map.1 he
  exact Nat.mod_lt _ (by decide)

section
variable {rules : TextRules} {ir : ValidatedIr} (hnamed : Named ir.contracts)
  (hexact : ImplementsExactly ir) {factories : String → FactoryCall}
  (hfactories : ∀ plugin ∈ ir.bundle.plugins, factories plugin.name = .ok ())
include hnamed hexact hfactories

theorem supported_of_registersDeclared (h : RegistersDeclared rules factories ir) :
    JsSupported rules ir := by
  obtain ⟨registrations, loaded, hinit, hread, hall⟩ := h
  have hload : ContractsLoad rules ir := by
    by_contra hnot
    rw [generateInitTs, if_neg hnot] at hinit
    cases hinit
  obtain ⟨registrations', hinit', hpaired⟩ := exists_generateInitTs hnamed factories hexact hload
  obtain rfl := Option.some.inj (hinit'.symm.trans hinit)
  have hsome : ir.bundle.plugins ≠ [] := fun hnil => by
    rw [hnil, List.forall₂_nil_left_iff] at hpaired
    rw [hpaired, readInit_polyplugInit] at hread
    cases hread
  obtain ⟨registrations'', loaded', hinit'', hread', hfor⟩ :=
    exists_readInit hnamed hexact hload hsome hfactories ir.bundle.name
  obtain rfl := Option.some.inj (hinit''.symm.trans hinit)
  obtain rfl := Except.ok.inj (hread'.symm.trans hread)
  obtain ⟨cs, hcs⟩ := exists_forall₂ fun plugin hplugin =>
    @exists_oneEntry rules ir hnamed hexact hload plugin hplugin
  obtain ⟨staged, hstaged⟩ := exists_forall₂ fun data (_ : data ∈ loaded') => exists_jsStages data
  obtain ⟨⟨order, hperm, horder⟩, hchecks⟩ := hall _ staged (readAs_generateManifestToml ir) hstaged
  have hmajor : ∀ c ∈ cs, c.version.major < 2 ^ 16 := by
    intro c hc
    obtain ⟨pair, hpair, hspec, hmem⟩ := exists_of_forall₂ (forall₂_pairs hcs) c hc
    obtain ⟨s, hs, d, hd, -, hversion, -⟩ := exists_of_forall₂ horder.flip pair hpair
    rw [hspec, contractOf_fullName hnamed hmem] at hd
    obtain rfl := Option.some.inj hd
    -- what is staged has a major of 16 bits
    obtain ⟨data, hdata, hstages⟩ := exists_of_forall₂ hstaged s (hperm.mem_iff.1 hs)
    obtain ⟨e, -, he⟩ := exists_of_forall₂ (hfor cs hcs) data hdata
    rw [(stages_eq hstages).2.1, he.version] at hversion
    rw [← hversion]
    exact Nat.mod_lt _ (by decide)
  obtain ⟨hdistinct, hids⟩ := (quickjs_checks_iff hnamed hcs hexact hmajor
    (readAs_generateManifestToml ir) (hfor cs hcs) hstaged).1 hchecks
  exact ⟨hload, hsome, fun c hc => hmajor c ((implemented_iff hnamed hcs).1 hc), hdistinct, hids⟩

theorem registersDeclared_of_supported (h : JsSupported rules ir) :
    RegistersDeclared rules factories ir := by
  obtain ⟨hload, hsome, hmajor, hdistinct, hids⟩ := h
  obtain ⟨registrations, loaded, hinit, hread, hfor⟩ :=
    exists_readInit hnamed hexact hload hsome hfactories ir.bundle.name
  obtain ⟨cs, hcs⟩ := exists_forall₂ fun plugin hplugin =>
    @exists_oneEntry rules ir hnamed hexact hload plugin hplugin
  refine ⟨registrations, loaded, hinit, hread, fun m staged hm hstaged => ⟨?_, ?_⟩⟩
  · refine ⟨staged, .refl _, ?_⟩
    have hkept := (List.forall₂_and_left _ _).2
      ⟨fun c hc => hmajor c ((implemented_iff hnamed hcs).2 hc),
        forall₂_comp (hfor cs hcs) hstaged⟩
    refine (forall₂_comp (forall₂_pairs hcs) hkept).imp ?_
    rintro pair contract ⟨c, ⟨hspec, hc⟩, hlt, data, hdata, hstages⟩
    obtain ⟨hid, hdescriptor, -, hversion, -⟩ := stages_eq hstages
    refine ⟨c, by rw [hspec, contractOf_fullName hnamed hc], ?_, ?_, ?_⟩
    · rw [hid, hdata.contractId]
    · rw [hdescriptor, hdata.version]
      exact Nat.mod_eq_of_lt hlt
    · rw [hversion, hdata.version]
      exact Nat.mod_eq_of_lt hlt
  · exact (quickjs_checks_iff hnamed hcs hexact
      (fun c hc => hmajor c ((implemented_iff hnamed hcs).2 hc)) hm (hfor cs hcs) hstaged).2
        ⟨hdistinct, hids⟩

end

/-- **When a generated QuickJS bundle registers what its manifest declares.** Its modules load,
which leaves one entry to each plugin, it has a plugin, no contract is implemented twice,
the majors have 16 bits, and the ids are distinct. -/
theorem quickjs_registers_iff {reservedIn : String → Option String}
    {api : Option (List RawGuestContract)} {raw : RawBundleSchema} {ir : ValidatedIr}
    (hparse : parseBundleWithApi reservedIn api raw .external = .ok ir)
    (hexact : ImplementsExactly ir) (rules : TextRules) {factories : String → FactoryCall}
    (hfactories : ∀ plugin ∈ ir.bundle.plugins, factories plugin.name = .ok ()) :
    RegistersDeclared rules factories ir ↔ JsSupported rules ir := by
  obtain ⟨hnamed, _⟩ := named_of_parseBundleWithApi hparse
  exact ⟨supported_of_registersDeclared hnamed hexact hfactories,
    registersDeclared_of_supported hnamed hexact hfactories⟩

/-! ### Two providers of one contract, and one plugin with two contracts -/

/-- The rules on texts of ASCII. -/
def asciiRules : TextRules where
  toUppercase := fun s => String.ofList (s.toList.map Char.toUpper)
  toLowercase := toLowercase
  isIdentifier := fun s => match s.toList with
    | []            => false
    | first :: rest => (first.isAlpha || first = '_' || first = '$') &&
        rest.all fun c => c.isAlphanum || c = '_' || c = '$'

/-- A QuickJS bundle with these plugins. -/
def quickjsBundle (plugins : List RawBundlePlugin) : RawBundleSchema where
  name := "image"
  version := "1.0.0"
  loader := "js-quickjs"
  file := .single "bundle.js"
  needsReinitOnDepReload := false
  plugin := plugins
  dependencies := []

/-- What it is resolved to, beside the two contracts. -/
def quickjsIr (plugins : List RawBundlePlugin) : ValidatedIr where
  contracts := (imageIr []).contracts
  bundle :=
    { (imageIr []).bundle with
      loader := "js-quickjs"
      file := .single "bundle.js"
      plugins := plugins.map fun p => ⟨p.name, p.implements⟩ }

/-- Two plugins with one contract. -/
def twoDecoders : List RawBundlePlugin :=
  [⟨"decoder_a", ["image.decoder@1.0"]⟩, ⟨"decoder_b", ["image.decoder@1.0"]⟩]

/-- One plugin with two contracts. -/
def oneCodec : List RawBundlePlugin := [⟨"codec", ["image.decoder@1.0", "image.encoder@1.0"]⟩]

/-- **A second provider of a contract is refused, and a plugin with two contracts does not
load.** -/
theorem quickjs_misses_provider :
    (parseBundleWithApi (fun _ => none) (some imageApi) (quickjsBundle twoDecoders) .external =
        .ok (quickjsIr twoDecoders) ∧ ImplementsExactly (quickjsIr twoDecoders) ∧
      ¬ RegistersDeclared asciiRules (fun _ => .ok ()) (quickjsIr twoDecoders)) ∧
    parseBundleWithApi (fun _ => none) (some imageApi) (quickjsBundle oneCodec) .external =
        .ok (quickjsIr oneCodec) ∧ ImplementsExactly (quickjsIr oneCodec) ∧
      ¬ RegistersDeclared asciiRules (fun _ => .ok ()) (quickjsIr oneCodec) := by
  have hparse : ∀ plugins ∈ [twoDecoders, oneCodec],
      parseBundleWithApi (fun _ => none) (some imageApi) (quickjsBundle plugins) .external =
        .ok (quickjsIr plugins) := by
    decide +kernel
  have hexact : ∀ plugins ∈ [twoDecoders, oneCodec],
      (∀ plugin ∈ (quickjsIr plugins).bundle.plugins, plugin.implements ≠ []) ∧
        ∀ spec ∈ allImplements (quickjsIr plugins), ∃ c ∈ (quickjsIr plugins).contracts,
          spec = c.fullName := by
    decide +kernel
  have hnot : ∀ plugins ∈ [twoDecoders, oneCodec], ¬ ((allImplements (quickjsIr plugins)).Nodup ∧
      ContractsLoad asciiRules (quickjsIr plugins)) := by
    decide +kernel
  have hmisses : ∀ plugins ∈ [twoDecoders, oneCodec],
      parseBundleWithApi (fun _ => none) (some imageApi) (quickjsBundle plugins) .external =
          .ok (quickjsIr plugins) ∧ ImplementsExactly (quickjsIr plugins) ∧
        ¬ RegistersDeclared asciiRules (fun _ => .ok ()) (quickjsIr plugins) := by
    intro plugins hplugins
    have himplements : ImplementsExactly (quickjsIr plugins) :=
      ⟨(hexact plugins hplugins).1, (hexact plugins hplugins).2⟩
    refine ⟨hparse plugins hplugins, himplements, fun hregisters => hnot plugins hplugins ?_⟩
    have h := supported_of_registersDeclared
      (named_of_parseBundleWithApi (hparse plugins hplugins)).1 himplements (fun _ _ => rfl)
      hregisters
    exact ⟨h.distinct, h.loads⟩
  exact ⟨hmisses twoDecoders (by simp), hmisses oneCodec (by simp)⟩

/-- Two plugins with one contract each. -/
def readerAndWriter : List RawBundlePlugin :=
  [⟨"reader", ["image.decoder@1.0"]⟩, ⟨"writer", ["image.encoder@1.0"]⟩]

/-- Both contracts are registered. -/
theorem quickjs_registers_instance :
    RegistersDeclared asciiRules (fun _ => .ok ()) (quickjsIr readerAndWriter) := by
  have hparse : parseBundleWithApi (fun _ => none) (some imageApi)
      (quickjsBundle readerAndWriter) .external = .ok (quickjsIr readerAndWriter) := by
    decide +kernel
  refine (quickjs_registers_iff hparse ⟨by decide +kernel, by decide +kernel⟩ asciiRules
    fun _ _ => rfl).2 ⟨by decide +kernel, by decide +kernel, fun c hc => ?_, by decide +kernel, ?_⟩
  · have hall : ∀ c ∈ (quickjsIr readerAndWriter).contracts, c.version.major < 2 ^ 16 := by
      decide +kernel
    exact hall c hc.1
  · rintro c d ⟨hc, -⟩ ⟨hd, -⟩ hsame
    have hapart : ∀ c ∈ (quickjsIr readerAndWriter).contracts,
        ∀ d ∈ (quickjsIr readerAndWriter).contracts, c.contractId = d.contractId → c = d := by
      decide +kernel
    exact hapart c hc d hd hsame

end PolyPlug.Codegen
