import Mathlib.Data.List.Infix
import PolyPlug.Proofs.Codegen.RustExpr

/-!
# `PolyPlug.Proofs.Codegen.Recursion`: types that hold themselves

The parser of `api.toml` accepts a struct that holds itself, in a field, through other structs or as
the element of an array. The Rust generator follows such a type for ever.
`generators_end_iff` says for which accepted schemas it ends: no call of the generators may lead
back to itself. That is so if no type leads back to itself (`Acyclic`), and where the schema has
neither tagged enums nor names that begin with `ArrayOf_`, only then.
-/

set_option autoImplicit false

namespace PolyPlug.Codegen

open PolyPlug.Lib
open Relation

/-- The four generators end at a type reference. -/
structure GeneratorsEnd (ir : ApiIr) (ty : ResolvedTypeRef) : Prop where
  copy : ∃ fuel, rustTypeRefIsCopy ir fuel ty ≠ none
  buffer : ∃ fuel, domainTypeContainsBuffer ir fuel ty ≠ none
  abi : ∀ value borrowed, ∃ fuel,
    hostAbiFromDomainExpr ir fuel ty value borrowed ≠ .error .outOfFuel
  domain : ∀ host returnedFromNative value, ∃ fuel,
    hostDomainFromAbiExpr ir host returnedFromNative fuel ty value ≠ .error .outOfFuel

/-- A type leads to the types of its fields, and an array to its element. -/
inductive LeadsTo (ir : ApiIr) : ResolvedTypeRef → ResolvedTypeRef → Prop
  | field {name : String} {item : ResolvedType} {f : ResolvedField}
      (hitem : typeNamed ir name = some item) (hf : f ∈ item.fields) :
      LeadsTo ir (.userDefined name) f.ty
  | element {name element : String} (harray : arrayElementName name = some element) :
      LeadsTo ir (.userDefined name) (resolvedTypeRefForName element)

/-- No type leads back to itself. -/
def Acyclic (ir : ApiIr) : Prop := ∀ ty, ¬ TransGen (LeadsTo ir) ty ty

/-- No call that the generators make for a reference of the schema leads back to itself. -/
def CallsAcyclic (ir : ApiIr) : Prop :=
  ∀ ty ∈ ir.refs, ∀ start ∈ [GenCall.copy ty, .buffer ty, .abi ty, .domain ty], ∀ c,
    ReflTransGen (generatorCalls ir).Makes start c → ¬ TransGen (generatorCalls ir).Makes c c

/-! ### The calls follow the types -/

section
variable {ir : ApiIr}

theorem mem_fieldTypes {name : String} {ty : ResolvedTypeRef} (h : ty ∈ fieldTypes ir name) :
    LeadsTo ir (.userDefined name) ty := by
  rw [fieldTypes] at h
  cases hty : typeNamed ir name with
  | none =>
    rw [hty] at h
    exact absurd h List.not_mem_nil
  | some item =>
    rw [hty] at h
    obtain ⟨f, hf, rfl⟩ := List.mem_map.mp h
    exact .field hty hf

theorem leadsTo_of_map {name : String} {call : ResolvedTypeRef → GenCall}
    (hcall : ∀ ty, (call ty).ty = ty) {c : GenCall} (h : c ∈ (fieldTypes ir name).map call) :
    LeadsTo ir (.userDefined name) c.ty := by
  obtain ⟨ty, hty, rfl⟩ := List.mem_map.mp h
  rw [hcall]
  exact mem_fieldTypes hty

/-- **A call leads to the types that its type leads to.** -/
theorem leadsTo_of_call {c c' : GenCall} (h : c' ∈ callsOf ir c) : LeadsTo ir c.ty c'.ty := by
  rw [callsOf] at h
  cases hty : c.ty with
  | primitive p =>
    rw [hty] at h
    exact absurd h List.not_mem_nil
  | abiType b =>
    rw [hty] at h
    exact absurd h List.not_mem_nil
  | userDefined name =>
    rw [hty] at h
    dsimp only at h
    cases c with
    -- The first three go on with the fields, or with the element of an array.
    | copy ty =>
      rw [callsFor] at h
      split at h
      · exact absurd h List.not_mem_nil
      · exact leadsTo_of_map (fun _ => rfl) h
    | buffer ty =>
      rw [callsFor] at h
      split at h
      · next harray =>
        rw [List.mem_singleton.mp h]
        exact .element harray
      · exact leadsTo_of_map (fun _ => rfl) h
    | canonical ty =>
      rw [callsFor] at h
      split at h
      · exact absurd h List.not_mem_nil
      · exact leadsTo_of_map (fun _ => rfl) h
    -- The other two go on with the payload of a variant of a tagged enum too.
    | abi ty =>
      rw [callsFor] at h
      split at h
      · exact absurd h List.not_mem_nil
      · split at h
        · next harray =>
          rw [List.mem_singleton.mp h]
          exact .element harray
        · split at h
          · next item projection htagged =>
            obtain ⟨mapping, -, h⟩ := List.mem_flatMap.mp h
            obtain ⟨field, hfield, h⟩ := List.mem_flatMap.mp h
            have hleads := LeadsTo.field (taggedEnumType_eq htagged).1 hfield
            split at h
            · exact absurd h List.not_mem_nil
            · split at h
              · rw [List.mem_singleton.mp h]
                exact hleads
              · rw [List.mem_singleton.mp h]
                exact hleads
          · exact leadsTo_of_map (fun _ => rfl) h
    | domain ty =>
      rw [callsFor] at h
      split at h
      · exact absurd h List.not_mem_nil
      · split at h
        · next harray =>
          rw [List.mem_singleton.mp h]
          exact .element harray
        · split at h
          · next item projection tagName htagged =>
            obtain ⟨mapping, -, h⟩ := List.mem_flatMap.mp h
            rw [taggedDomainCalls] at h
            split at h
            · exact absurd h List.not_mem_nil
            · split at h
              · exact absurd h List.not_mem_nil
              · next field hfind =>
                rw [List.mem_singleton.mp h]
                exact .field (taggedEnumType_eq (taggedDomainType_eq htagged)).1
                  (List.mem_of_find?_eq_some hfind)
          · exact leadsTo_of_map (fun _ => rfl) h

/-! ### Finitely many calls -/

/-- The elements of the arrays of a name, and of the arrays in their names. -/
def nestedElements : ResolvedTypeRef → List ResolvedTypeRef
  | .userDefined name => name.toList.tails.map fun l => resolvedTypeRefForName (String.ofList l)
  | _                 => []

/-- The types that the generators come to from the references of the schema. -/
def followedTypes (ir : ApiIr) : List ResolvedTypeRef :=
  ir.refs.flatMap fun ty => ty :: nestedElements ty

theorem resolvedTypeRefForName_userDefined {name n : String}
    (h : resolvedTypeRefForName name = .userDefined n) : n = name := by
  rw [resolvedTypeRefForName] at h
  split at h
  · cases h
  · split at h
    · cases h
    · cases h
      rfl

theorem mem_refs_of_field {name : String} {item : ResolvedType} {f : ResolvedField}
    (hitem : typeNamed ir name = some item) (hf : f ∈ item.fields) : f.ty ∈ ir.refs := by
  rw [ApiIr.refs, collectedRefs, List.append_assoc]
  exact List.mem_append_left _ (List.mem_flatMap.mpr
    ⟨item, List.mem_of_find?_eq_some hitem, List.mem_map_of_mem hf⟩)

theorem mem_followed_of_leadsTo {ty ty' : ResolvedTypeRef} (hleads : LeadsTo ir ty ty')
    (h : ty ∈ followedTypes ir) : ty' ∈ followedTypes ir := by
  cases hleads with
  | field hitem hf =>
    exact List.mem_flatMap.mpr ⟨_, mem_refs_of_field hitem hf, List.mem_cons_self⟩
  | @element name element harray =>
    obtain ⟨r, hr, hname⟩ := List.mem_flatMap.mp h
    refine List.mem_flatMap.mpr ⟨r, hr, List.mem_cons_of_mem _ ?_⟩
    have hsuffix : element.toList <:+ name.toList := by
      rw [stripStart_eq_some.mp harray, String.toList_append]
      exact List.suffix_append _ _
    rcases List.mem_cons.mp hname with heq | hname
    · rw [← heq]
      refine List.mem_map.mpr ⟨element.toList, (List.mem_tails _ _).mpr hsuffix, ?_⟩
      rw [String.ofList_toList]
    · cases r with
      | primitive p => exact absurd hname List.not_mem_nil
      | abiType b => exact absurd hname List.not_mem_nil
      | userDefined outer =>
        obtain ⟨l, hl, heq⟩ := List.mem_map.mp hname
        have hlist := resolvedTypeRefForName_userDefined heq
        rw [hlist, String.toList_ofList] at hsuffix
        refine List.mem_map.mpr ⟨element.toList,
          (List.mem_tails _ _).mpr (hsuffix.trans ((List.mem_tails _ _).mp hl)), ?_⟩
        rw [String.ofList_toList]

/-- The calls on the types of a list. -/
def callsOn (types : List ResolvedTypeRef) : List GenCall :=
  types.flatMap fun ty => [.copy ty, .buffer ty, .canonical ty, .abi ty, .domain ty]

theorem mem_callsOn {types : List ResolvedTypeRef} {c : GenCall} :
    c ∈ callsOn types ↔ c.ty ∈ types := by
  rw [callsOn, List.mem_flatMap]
  constructor
  · rintro ⟨ty, hty, hc⟩
    simp only [List.mem_cons, List.not_mem_nil, or_false] at hc
    rcases hc with rfl | rfl | rfl | rfl | rfl <;> exact hty
  · intro h
    refine ⟨c.ty, h, ?_⟩
    cases c <;> simp [GenCall.ty]

/-- A call ends exactly if no call that it makes leads back to itself. -/
theorem answers_iff_calls {c : GenCall} (hc : c.ty ∈ ir.refs) :
    (generatorCalls ir).Answers c ↔ ∀ c', ReflTransGen (generatorCalls ir).Makes c c' →
      ¬ TransGen (generatorCalls ir).Makes c' c' := by
  refine Descent.answers_iff_no_cycle (List.finite_toSet (callsOn (followedTypes ir))) ?_ ?_
  · intro a ha b hb
    exact mem_callsOn.mpr (mem_followed_of_leadsTo (leadsTo_of_call hb.mem) (mem_callsOn.mp ha))
  · exact mem_callsOn.mpr (List.mem_flatMap.mpr ⟨c.ty, hc, List.mem_cons_self⟩)

/-- The generators end exactly if their calls do. -/
theorem generatorsEnd_iff (htags : TagsValid ir) {ty : ResolvedTypeRef} :
    GeneratorsEnd ir ty ↔
      ∀ start ∈ [GenCall.copy ty, .buffer ty, .abi ty, .domain ty],
        (generatorCalls ir).Answers start := by
  have hcopy : (∃ fuel, rustTypeRefIsCopy ir fuel ty ≠ none) ↔
      (generatorCalls ir).Answers (.copy ty) := by
    refine exists_congr fun fuel => ?_
    rw [rustTypeRefIsCopy_eq, ne_eq, Option.map_eq_none_iff]
  have hbuffer : (∃ fuel, domainTypeContainsBuffer ir fuel ty ≠ none) ↔
      (generatorCalls ir).Answers (.buffer ty) := by
    refine exists_congr fun fuel => ?_
    rw [domainTypeContainsBuffer_eq]
  have habi : ∀ value borrowed,
      (∃ fuel, hostAbiFromDomainExpr ir fuel ty value borrowed ≠ .error .outOfFuel) ↔
        (generatorCalls ir).Answers (.abi ty) := by
    intro value borrowed
    refine exists_congr fun fuel => ?_
    rw [← hostAbiFromDomainExpr_outcome htags fuel ty value borrowed, ne_eq, ne_eq,
      outcome_eq_none]
  have hdomain : ∀ host returnedFromNative value,
      (∃ fuel, hostDomainFromAbiExpr ir host returnedFromNative fuel ty value ≠
        .error .outOfFuel) ↔ (generatorCalls ir).Answers (.domain ty) := by
    intro host returnedFromNative value
    refine exists_congr fun fuel => ?_
    rw [← hostDomainFromAbiExpr_outcome htags host returnedFromNative fuel ty value, ne_eq, ne_eq,
      outcome_eq_none]
  constructor
  · intro h start hstart
    simp only [List.mem_cons, List.not_mem_nil, or_false] at hstart
    rcases hstart with rfl | rfl | rfl | rfl
    · exact hcopy.mp h.copy
    · exact hbuffer.mp h.buffer
    · exact (habi "" false).mp (h.abi "" false)
    · exact (hdomain "" "" "").mp (h.domain "" "" "")
  · intro h
    exact {
      copy := hcopy.mpr (h _ (by simp))
      buffer := hbuffer.mpr (h _ (by simp))
      abi := fun value borrowed => (habi value borrowed).mpr (h _ (by simp))
      domain := fun host returnedFromNative value =>
        (hdomain host returnedFromNative value).mpr (h _ (by simp)) }

theorem callsAcyclic_of_acyclic (h : Acyclic ir) : CallsAcyclic ir := by
  intro ty _ start _ c _ hcycle
  exact h c.ty (hcycle.lift GenCall.ty fun a b hmakes => leadsTo_of_call hmakes.mem)

end

/-! ### Schemas with structs and arrays only -/

/-- The schema has no tagged enum, and no name of it begins with `ArrayOf_`. -/
structure RawApiSchema.StructsOnly (raw : RawApiSchema) : Prop where
  untagged : ∀ t ∈ raw.types, t.taggedEnum = none
  names : ∀ n ∈ raw.knownNames, arrayElementName n = none

/-- The references of a schema, and the elements of its arrays. -/
def Followed (ir : ApiIr) (ty : ResolvedTypeRef) : Prop :=
  ty ∈ ir.refs ∨ ∃ e, .userDefined (arrayWrapperName e) ∈ ir.refs ∧ ty = resolvedTypeRefForName e

theorem resolvePlainRef_eq {s : String} {knownTypes : List String} {r : ResolvedTypeRef}
    (h : resolvePlainRef s knownTypes = some r) : resolvedTypeRefForName s = r := by
  cases hp : PrimitiveType.parse s with
  | some p =>
    simp only [resolvePlainRef, hp, Option.some.injEq] at h
    rw [← h]
    simp only [resolvedTypeRefForName, hp]
  | none =>
    cases hb : AbiBuiltin.parse s with
    | some b =>
      simp only [resolvePlainRef, hp, hb, Option.some.injEq] at h
      rw [← h]
      simp only [resolvedTypeRefForName, hp, hb]
    | none =>
      simp only [resolvePlainRef, hp, hb, Option.ite_none_right_eq_some, Option.some.injEq] at h
      rw [← h.2]
      simp only [resolvedTypeRefForName, hp, hb]

theorem taggedEnum_of_lowerType {knownTypes : List String} {raw : RawType} {ty : ResolvedType}
    (h : lowerType knownTypes raw = .ok ty) : ty.taggedEnum = raw.taggedEnum := by
  obtain ⟨_, -, h⟩ := bind_eq_ok.mp h
  obtain ⟨fields, -, h⟩ := bind_eq_ok.mp h
  cases h
  rfl

section
variable {classes : CharClasses} {raw : RawApiSchema} {ir : ApiIr} (h : Lowered classes raw ir)
  (hplain : raw.StructsOnly)
include h hplain

/-- An array of the schema is written as one, and its element is known. -/
theorem element_of_ref {e : String} (hr : .userDefined (arrayWrapperName e) ∈ ir.refs) :
    resolvePlainRef e raw.knownNames = some (resolvedTypeRefForName e) := by
  rcases h.kept_of_ref _ hr with heq | ⟨s, -, hres⟩
  · cases heq
  · cases hinner : arrayInner s with
    | some e' =>
      obtain ⟨heq, r', hr'⟩ := refOf_of_arrayInner h.notMem_known hinner hres
      rw [arrayWrapperName_injective (ResolvedTypeRef.userDefined.inj heq), hr',
        resolvePlainRef_eq hr']
    | none =>
      obtain ⟨rfl, hknown⟩ := resolvePlainRef_userDefined (refOf_of_not_array hinner hres)
      have hnone := hplain.names _ hknown
      rw [arrayElementName_eq_some.mpr rfl] at hnone
      cases hnone

/-- A name that is followed is known, or is the wrapper of an array. -/
theorem known_of_followed {name : String} (hf : Followed ir (.userDefined name)) :
    name ∈ raw.knownNames ∨ .userDefined name ∈ ir.refs ∧ (arrayElementName name).isSome := by
  rcases hf with hr | ⟨e, hr, heq⟩
  · rcases h.kept_of_ref _ hr with heq | ⟨s, -, hres⟩
    · cases heq
    · cases hinner : arrayInner s with
      | some e =>
        obtain ⟨heq, -⟩ := refOf_of_arrayInner h.notMem_known hinner hres
        refine .inr ⟨hr, ?_⟩
        rw [arrayElementName_eq_some.mpr (ResolvedTypeRef.userDefined.inj heq)]
        rfl
      | none =>
        obtain ⟨rfl, hknown⟩ := resolvePlainRef_userDefined (refOf_of_not_array hinner hres)
        exact .inl hknown
  · have hplainRef := element_of_ref h hplain hr
    rw [← heq] at hplainRef
    obtain ⟨rfl, hknown⟩ := resolvePlainRef_userDefined hplainRef
    exact .inl hknown

theorem typeNamed_of_known {name : String} (hname : name ∈ raw.knownNames)
    (henum : enumNamed ir name = none) :
    ∃ item, typeNamed ir name = some item ∧ item.taggedEnum = none := by
  have htypes : name ∈ raw.types.map RawType.name := by
    refine (List.mem_append.mp hname).resolve_right fun hmem => ?_
    rw [← h.enumNames] at hmem
    obtain ⟨e, he, hename⟩ := List.mem_map.mp hmem
    exact List.find?_eq_none.mp henum e he (decide_eq_true hename)
  have hmem : name ∈ typeNames (declaredTypes raw) := by
    rw [typeNames, h.names]
    exact htypes
  obtain ⟨item, hitem, hdeclared, -⟩ := exists_typeOf hmem
  refine ⟨item, ((h.typeOf_ir name).1 htypes).trans hitem, ?_⟩
  obtain ⟨t, ht, hlowered⟩ := exists_of_forall₂ (forall₂_of_mapM h.types) item hdeclared
  rw [taggedEnum_of_lowerType hlowered]
  exact hplain.untagged t ht

theorem untagged_of_known {name : String} (hname : name ∈ raw.knownNames)
    (henum : enumNamed ir name = none) : taggedEnumType ir name = none := by
  obtain ⟨item, hitem, hnone⟩ := typeNamed_of_known h hplain hname henum
  rw [taggedEnumType, hitem]
  show (item.taggedEnum.bind fun projection => some (item, projection)) = none
  rw [hnone]
  rfl

/-- No followed name is unknown. -/
theorem not_unknown_of_followed {name : String} (hf : Followed ir (.userDefined name)) :
    unknownName ir name = false := by
  rw [unknownName]
  cases henum : enumNamed ir name with
  | some e => rfl
  | none =>
    rcases known_of_followed h hplain hf with hknown | ⟨-, harray⟩
    · obtain ⟨item, hitem, -⟩ := typeNamed_of_known h hplain hknown henum
      rw [hitem, Option.isNone_some, Bool.and_false]
    · obtain ⟨e, he⟩ := Option.isSome_iff_exists.mp harray
      rw [he]
      rfl

theorem followed_of_leadsTo {ty ty' : ResolvedTypeRef} (hf : Followed ir ty)
    (hleads : LeadsTo ir ty ty') : Followed ir ty' := by
  cases hleads with
  | field hitem hfield => exact .inl (mem_refs_of_field hitem hfield)
  | @element name element harray =>
    rcases known_of_followed h hplain hf with hknown | ⟨hr, -⟩
    · rw [hplain.names name hknown] at harray
      cases harray
    · rw [arrayElementName_eq_some.mp harray] at hr
      exact .inr ⟨element, hr, rfl⟩

/-- The calls towards the ABI for a followed type are such calls. -/
theorem abi_of_call {ty : ResolvedTypeRef} (hf : Followed ir ty) {c : GenCall}
    (hc : c ∈ callsOf ir (.abi ty)) : ∃ ty', c = .abi ty' ∧ Followed ir ty' := by
  have hfollowed : Followed ir c.ty := followed_of_leadsTo h hplain hf (leadsTo_of_call hc)
  refine ⟨c.ty, ?_, hfollowed⟩
  cases ty with
  | primitive p => exact absurd hc List.not_mem_nil
  | abiType b => exact absurd hc List.not_mem_nil
  | userDefined name =>
    replace hc : c ∈ callsFor ir name (.abi (.userDefined name)) := hc
    rw [callsFor] at hc
    cases henum : enumNamed ir name with
    | some e =>
      rw [henum] at hc
      exact absurd hc List.not_mem_nil
    | none =>
      rw [henum] at hc
      cases harray : arrayElementName name with
      | some element =>
        rw [harray] at hc
        rw [List.mem_singleton.mp hc]
        rfl
      | none =>
        have htagged : taggedEnumType ir name = none := by
          rcases known_of_followed h hplain hf with hknown | ⟨-, hsome⟩
          · exact untagged_of_known h hplain hknown henum
          · rw [harray] at hsome
            cases hsome
        rw [harray, htagged] at hc
        obtain ⟨ty', -, rfl⟩ := List.mem_map.mp hc
        rfl

/-- From a followed type no panic is reached. -/
theorem not_finds_of_followed {ty : ResolvedTypeRef} (hf : Followed ir ty) :
    ¬ (generatorCalls ir).Finds (.abi ty) := by
  rintro ⟨c, hc, hends⟩
  have hreach : ∃ ty', c = .abi ty' ∧ Followed ir ty' := by
    clear hends
    induction hc with
    | refl => exact ⟨ty, rfl, hf⟩
    | tail _ hcall ih =>
      obtain ⟨ty', rfl, hf'⟩ := ih
      exact abi_of_call h hplain hf' hcall
  obtain ⟨ty', rfl, hf'⟩ := hreach
  cases ty' with
  | primitive p => cases hends
  | abiType b => cases hends
  | userDefined name =>
    have hunknown : unknownName ir name = true := hends
    rw [not_unknown_of_followed h hplain hf'] at hunknown
    cases hunknown

/-- What a followed type leads to is called for, if it is a name. -/
theorem call_of_leadsTo {ty : ResolvedTypeRef} {m : String}
    (hleads : LeadsTo ir ty (.userDefined m)) :
    .abi (.userDefined m) ∈ callsOf ir (.abi ty) := by
  have hnoEnum : ∀ {name}, name ∉ raw.enums.map RawEnum.name → enumNamed ir name = none := by
    intro name hname
    refine List.find?_eq_none.mpr fun e he heq => hname ?_
    rw [← h.enumNames, ← of_decide_eq_true heq]
    exact List.mem_map_of_mem he
  generalize htarget : ResolvedTypeRef.userDefined m = target at hleads
  cases hleads with
  | @field name item f hitem hf =>
    have hdeclared : name ∈ raw.types.map RawType.name := by
      by_contra hname
      have hwrapper : item = arrayWrapperType name := (h.typeOf_ir name).2 hname item hitem
      rw [hwrapper] at hf
      simp only [arrayWrapperType, List.mem_cons, List.not_mem_nil, or_false] at hf
      rcases hf with rfl | rfl <;> cases htarget
    have henum := hnoEnum fun hmem => h.noCollision name hmem hdeclared
    have harray := hplain.names name (List.mem_append_left _ hdeclared)
    show GenCall.abi f.ty ∈ callsFor ir name (.abi (.userDefined name))
    rw [callsFor, henum, harray,
      untagged_of_known h hplain (List.mem_append_left _ hdeclared) henum]
    refine List.mem_map_of_mem ?_
    rw [fieldTypes_eq hitem]
    exact List.mem_map_of_mem hf
  | @element name element harray =>
    have henum := hnoEnum fun hmem => by
      have hnone := hplain.names name (List.mem_append_right _ hmem)
      rw [harray] at hnone
      cases hnone
    show GenCall.abi (resolvedTypeRefForName element) ∈ callsFor ir name (.abi (.userDefined name))
    rw [callsFor, henum, harray]
    exact List.mem_singleton_self _

/-- A call for a followed type is made. -/
theorem makes_of_call {ty : ResolvedTypeRef} (hf : Followed ir ty) {c : GenCall}
    (hc : c ∈ callsOf ir (.abi ty)) : (generatorCalls ir).Makes (.abi ty) c := by
  obtain ⟨front, back, heq⟩ := List.append_of_mem hc
  refine ⟨?_, front, back, heq, fun c' hc' => ?_⟩
  · cases ty with
    | primitive p => rfl
    | abiType b => rfl
    | userDefined name => exact not_unknown_of_followed h hplain hf
  · have hmem : c' ∈ callsOf ir (.abi ty) := by
      rw [heq]
      exact List.mem_append_left _ hc'
    obtain ⟨ty', rfl, hf'⟩ := abi_of_call h hplain hf hmem
    exact not_finds_of_followed h hplain hf'

/-- A way from a followed type to a name is a chain of made calls. -/
theorem chain_of_leadsTo {ty : ResolvedTypeRef} {m : String} (hf : Followed ir ty)
    (hway : TransGen (LeadsTo ir) ty (.userDefined m)) :
    TransGen (generatorCalls ir).Makes (.abi ty) (.abi (.userDefined m)) := by
  generalize htarget : ResolvedTypeRef.userDefined m = target at hway
  induction hway using TransGen.head_induction_on with
  | @single ty hleads =>
    subst htarget
    exact .single (makes_of_call h hplain hf (call_of_leadsTo h hplain hleads))
  | @head ty ty' hleads hrest ih =>
    -- the next type leads on, so it is a name
    have hname : ∃ n, ty' = .userDefined n := by
      obtain ⟨ty'', hnext, -⟩ := TransGen.head'_iff.mp hrest
      cases hnext with
      | field _ _ => exact ⟨_, rfl⟩
      | element _ => exact ⟨_, rfl⟩
    obtain ⟨n, rfl⟩ := hname
    exact .head (makes_of_call h hplain hf (call_of_leadsTo h hplain hleads))
      (ih (followed_of_leadsTo h hplain hf hleads))

end

/-- The length of a name. -/
def nameLength : ResolvedTypeRef → Nat
  | .userDefined name => name.toList.length
  | _                 => 0

/-- A way passes a field, whose type is a reference of the schema, or comes to a shorter name. -/
theorem ref_or_shorter {ir : ApiIr} {a b : ResolvedTypeRef} (hway : TransGen (LeadsTo ir) a b) :
    (∃ x ∈ ir.refs, ReflTransGen (LeadsTo ir) a x ∧ ReflTransGen (LeadsTo ir) x b) ∨
      nameLength b < nameLength a := by
  have hstep : ∀ {a b}, LeadsTo ir a b → b ∈ ir.refs ∨ nameLength b < nameLength a := by
    intro a b hleads
    cases hleads with
    | field hitem hf => exact .inl (mem_refs_of_field hitem hf)
    | @element name element harray =>
      have hlength : name.toList.length = 8 + element.toList.length := by
        rw [stripStart_eq_some.mp harray, String.toList_append, List.length_append]
        rfl
      refine .inr ?_
      cases href : resolvedTypeRefForName element with
      | primitive p =>
        show 0 < name.toList.length
        omega
      | abiType b =>
        show 0 < name.toList.length
        omega
      | userDefined n =>
        rw [resolvedTypeRefForName_userDefined href]
        show element.toList.length < name.toList.length
        omega
  induction hway with
  | single hleads =>
    exact (hstep hleads).imp_left fun hmem => ⟨_, hmem, .single hleads, .refl⟩
  | @tail b c hway hleads ih =>
    rcases ih with ⟨x, hx, hax, hxb⟩ | hshorter
    · exact .inl ⟨x, hx, hax, hxb.tail hleads⟩
    · rcases hstep hleads with hmem | hless
      · exact .inl ⟨c, hmem, (TransGen.tail hway hleads).to_reflTransGen, .refl⟩
      · exact .inr (by omega)

/-- A cycle of the types is one of the calls, where there are structs and arrays only. -/
theorem acyclic_of_callsAcyclic {classes : CharClasses} {raw : RawApiSchema} {ir : ApiIr}
    (h : Lowered classes raw ir) (hplain : raw.StructsOnly) (hcalls : CallsAcyclic ir) :
    Acyclic ir := by
  intro ty hcycle
  rcases ref_or_shorter hcycle with ⟨x, hx, hfrom, hto⟩ | hless
  · have hround : TransGen (LeadsTo ir) x x := by
      rcases hto.cases_head with rfl | ⟨y, hy, hrest⟩
      · exact hcycle
      · exact .head' hy (hrest.trans hfrom)
    obtain ⟨y, hfirst, -⟩ := TransGen.head'_iff.mp hround
    have hname : ∃ n, x = .userDefined n := by
      cases hfirst with
      | field _ _ => exact ⟨_, rfl⟩
      | element _ => exact ⟨_, rfl⟩
    obtain ⟨n, rfl⟩ := hname
    exact hcalls _ hx (.abi (.userDefined n)) (by simp) _ .refl
      (chain_of_leadsTo h hplain (.inl hx) hround)
  · exact absurd hless (lt_irrefl _)

/-- **The generators end for every reference of a schema exactly if no call leads back to
itself.** No call does if no type leads back to itself, and with structs and arrays only, a type
that does makes a call that does. -/
theorem generators_end_iff (classes : CharClasses) (raw : RawApiSchema) (ir : ApiIr)
    (hok : lowerApi classes raw = .ok ir) :
    ((∀ ty ∈ ir.refs, GeneratorsEnd ir ty) ↔ CallsAcyclic ir) ∧
      (Acyclic ir → CallsAcyclic ir) ∧
      (raw.StructsOnly → CallsAcyclic ir → Acyclic ir) := by
  have h := lowered_of_lowerApi hok
  refine ⟨?_, callsAcyclic_of_acyclic, acyclic_of_callsAcyclic h⟩
  refine forall_congr' fun ty => forall_congr' fun hty => ?_
  refine (generatorsEnd_iff h.tagsValid).trans ?_
  refine forall_congr' fun start => forall_congr' fun hstart => answers_iff_calls ?_
  simp only [List.mem_cons, List.not_mem_nil, or_false] at hstart
  rcases hstart with rfl | rfl | rfl | rfl <;> exact hty

theorem generators_end_path : ∃ ir, lowerApi asciiClasses path = .ok ir ∧
    .userDefined "ArrayOf_Point" ∈ ir.refs ∧
    ((∀ ty ∈ ir.refs, GeneratorsEnd ir ty) ↔ CallsAcyclic ir) ∧
      (Acyclic ir → CallsAcyclic ir) ∧
      (path.StructsOnly → CallsAcyclic ir → Acyclic ir) :=
  ⟨typesIr [⟨"Point", [⟨"x", .primitive .u32⟩], none⟩, arrayWrapperType "ArrayOf_Point",
      ⟨"Path", [⟨"points", .userDefined "ArrayOf_Point"⟩], none⟩],
    by decide +kernel, by decide +kernel, generators_end_iff asciiClasses _ _ (by decide +kernel)⟩

/-! ### A struct that holds itself -/

/-- A list, linked by values. -/
def linkedList : RawApiSchema := typesSchema [⟨"Node", [⟨"next", "Node"⟩], none⟩]

/-- The resolved schema of a list. -/
def linkedIr : ApiIr := typesIr [⟨"Node", [⟨"next", .userDefined "Node"⟩], none⟩]

/-- The parser accepts the list, and none of the generators ends. -/
theorem linked_list_never_ends : lowerApi asciiClasses linkedList = .ok linkedIr ∧
    .userDefined "Node" ∈ linkedIr.refs ∧
    (∀ fuel, rustTypeRefIsCopy linkedIr fuel (.userDefined "Node") = none) ∧
    (∀ fuel, domainTypeContainsBuffer linkedIr fuel (.userDefined "Node") = none) ∧
    (∀ fuel value borrowed,
      hostAbiFromDomainExpr linkedIr fuel (.userDefined "Node") value borrowed =
      .error .outOfFuel) ∧
    (∀ host returnedFromNative fuel value, hostDomainFromAbiExpr linkedIr host returnedFromNative
      fuel (.userDefined "Node") value = .error .outOfFuel) ∧
    ¬ Acyclic linkedIr := by
  have hitem : typeNamed linkedIr "Node" =
      some ⟨"Node", [⟨"next", .userDefined "Node"⟩], none⟩ := by decide +kernel
  have henum : enumNamed linkedIr "Node" = none := by decide +kernel
  have harray : arrayElementName "Node" = none := by decide +kernel
  have htagged : taggedEnumType linkedIr "Node" = none := by decide +kernel
  have hdomain : taggedDomainType linkedIr "Node" = none := by decide +kernel
  refine ⟨by decide +kernel, by decide +kernel, fun fuel => ?_, fun fuel => ?_, fun fuel => ?_,
    fun host returnedFromNative fuel => ?_, fun h => ?_⟩
  · induction fuel with
    | zero => rfl
    | succ fuel ih =>
      rw [rustTypeRefIsCopy, hitem, henum, harray]
      show [_].allM _ = none
      rw [List.allM_cons, ih]
      rfl
  · induction fuel with
    | zero => rfl
    | succ fuel ih =>
      rw [domainTypeContainsBuffer, hitem, harray]
      exact anyM_singleton.trans ih
  · induction fuel with
    | zero => exact fun _ _ => rfl
    | succ fuel ih =>
      intro value borrowed
      rw [hostAbiFromDomainExpr, henum, harray, htagged, hitem]
      dsimp only
      rw [List.mapM_cons, ih]
      rfl
  · induction fuel with
    | zero => exact fun _ => rfl
    | succ fuel ih =>
      intro value
      rw [hostDomainFromAbiExpr, henum, harray, hdomain, hitem]
      dsimp only
      rw [List.mapM_cons, ih]
      rfl
  · exact h _ (.single (.field hitem List.mem_cons_self))

end PolyPlug.Codegen
