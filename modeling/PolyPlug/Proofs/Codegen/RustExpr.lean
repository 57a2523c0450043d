import PolyPlug.Codegen.RustExpr
import PolyPlug.Lib.Descent
import PolyPlug.Proofs.Codegen.ArrayRefs

/-!
# `PolyPlug.Proofs.Codegen.RustExpr`: when the Rust generator ends

The generator follows the types without a visited set, so a type that holds itself is followed
for ever. `generatorCalls` are the calls of the four functions and of `canonical_abi_value_expr`
as a descent: a question ends at its first `true`, and a text at its first panic.
-/

set_option autoImplicit false

namespace PolyPlug.Codegen

open PolyPlug.Lib
open Relation

/-! ### The calls -/

/-- A call of one of the generators. -/
inductive GenCall where
  | copy (ty : ResolvedTypeRef)
  | buffer (ty : ResolvedTypeRef)
  | canonical (ty : ResolvedTypeRef)
  | abi (ty : ResolvedTypeRef)
  | domain (ty : ResolvedTypeRef)
deriving DecidableEq

/-- The type of a call. -/
def GenCall.ty : GenCall → ResolvedTypeRef
  | .copy ty      => ty
  | .buffer ty    => ty
  | .canonical ty => ty
  | .abi ty       => ty
  | .domain ty    => ty

section
variable (ir : ApiIr)

/-- The types of the fields of a name. -/
def fieldTypes (name : String) : List ResolvedTypeRef :=
  match typeNamed ir name with
  | some item => item.fields.map ResolvedField.ty
  | none      => []

/-- The calls for a variant of a tagged enum, towards the ABI. -/
def taggedAbiCalls (ty : ResolvedType) (projection : RustTaggedEnum)
    (mapping : RustTaggedEnumVariant) : List GenCall :=
  ty.fields.flatMap fun field =>
    if field.name = projection.tagField then []
    else if mapping.payload = some field.name then [.abi field.ty]
    else [.canonical field.ty]

/-- The call for a variant of a tagged enum, from the ABI. -/
def taggedDomainCalls (ty : ResolvedType) (mapping : RustTaggedEnumVariant) : List GenCall :=
  match mapping.payload with
  | none         => []
  | some payload =>
    match ty.fields.find? fun field => field.name = payload with
    | none       => []
    | some field => [.domain field.ty]

/-- The calls for a name. -/
def callsFor (name : String) : GenCall → List GenCall
  | .copy _      =>
    if (arrayElementName name).isSome ∨ (enumNamed ir name).isSome then []
    else (fieldTypes ir name).map .copy
  | .buffer _    =>
    match arrayElementName name with
    | some element => [.buffer (resolvedTypeRefForName element)]
    | none         => (fieldTypes ir name).map .buffer
  | .canonical _ => if (enumNamed ir name).isSome then [] else (fieldTypes ir name).map .canonical
  | .abi _       =>
    if (enumNamed ir name).isSome then []
    else
      match arrayElementName name with
      | some element => [.abi (resolvedTypeRefForName element)]
      | none         =>
        match taggedEnumType ir name with
        | some (ty, projection) => projection.variants.flatMap (taggedAbiCalls ty projection)
        | none                  => (fieldTypes ir name).map .abi
  | .domain _    =>
    if (enumNamed ir name).isSome then []
    else
      match arrayElementName name with
      | some element => [.domain (resolvedTypeRefForName element)]
      | none         =>
        match taggedDomainType ir name with
        | some (ty, projection, _) => projection.variants.flatMap (taggedDomainCalls ty)
        | none                     => (fieldTypes ir name).map .domain

/-- A name that is none of the schema, behind the test for an array. -/
def unknownName (name : String) : Bool :=
  (enumNamed ir name).isNone && (arrayElementName name).isNone && (typeNamed ir name).isNone

/-- A call that ends the search: a buffer, or a panic. -/
def endsAt : GenCall → Bool
  | .copy ty                       => ty = .abiType .buffer
  | .buffer ty                     => ty = .abiType .buffer
  | .canonical (.userDefined name) =>
    match enumNamed ir name with
    | some enumDef => enumDef.variants.isEmpty
    | none         => (typeNamed ir name).isNone
  | .abi (.userDefined name)       => unknownName ir name
  | .domain (.userDefined name)    => unknownName ir name
  | _                              => false

/-- The calls of a call. -/
def callsOf (c : GenCall) : List GenCall :=
  match c.ty with
  | .userDefined name => callsFor ir name c
  | _                 => []

/-- The calls of the generators. -/
def generatorCalls : Descent GenCall where
  calls := callsOf ir
  ends := endsAt ir

end

/-! ### The questions -/

theorem anyM_singleton {α : Type} {p : α → Option Bool} {a : α} : [a].anyM p = p a := by
  rw [List.anyM_cons]
  cases p a with
  | none => rfl
  | some answer => cases answer <;> rfl

section
variable {ir : ApiIr}

theorem fieldTypes_eq {name : String} {item : ResolvedType} (h : typeNamed ir name = some item) :
    fieldTypes ir name = item.fields.map ResolvedField.ty := by
  rw [fieldTypes, h]

theorem fieldTypes_eq_nil {name : String} (h : typeNamed ir name = none) :
    fieldTypes ir name = [] := by
  rw [fieldTypes, h]

/-- A call that ends nothing, and makes no call, answers `false`. -/
theorem search_leaf {fuel : Nat} {c : GenCall} (hends : endsAt ir c = false)
    (hcalls : callsOf ir c = []) : (generatorCalls ir).search (fuel + 1) c = some false := by
  show (if endsAt ir c then some true else (callsOf ir c).anyM _) = some false
  rw [hends, hcalls]
  rfl

theorem search_ends {fuel : Nat} {c : GenCall} (hends : endsAt ir c = true) :
    (generatorCalls ir).search (fuel + 1) c = some true := by
  show (if endsAt ir c then some true else (callsOf ir c).anyM _) = some true
  rw [hends]
  rfl

theorem search_calls {fuel : Nat} {c : GenCall} (hends : endsAt ir c = false) :
    (generatorCalls ir).search (fuel + 1) c =
      (callsOf ir c).anyM ((generatorCalls ir).search fuel) := by
  show (if endsAt ir c then some true else (callsOf ir c).anyM _) = _
  rw [hends]
  rfl

/-- A type is `Copy` if no buffer is found. -/
theorem rustTypeRefIsCopy_eq (fuel : Nat) (ty : ResolvedTypeRef) :
    rustTypeRefIsCopy ir fuel ty = ((generatorCalls ir).search fuel (.copy ty)).map not := by
  induction fuel generalizing ty with
  | zero => rfl
  | succ fuel ih =>
    cases ty with
    | primitive p => rw [search_leaf rfl rfl]; rfl
    | abiType b =>
      cases b with
      | buffer => rw [search_ends rfl]; rfl
      | stringView => rw [search_leaf rfl rfl]; rfl
      | ptr => rw [search_leaf rfl rfl]; rfl
      | void => rw [search_leaf rfl rfl]; rfl
    | userDefined name =>
      rw [search_calls rfl, rustTypeRefIsCopy]
      show _ = Option.map not ((callsFor ir name (.copy (.userDefined name))).anyM _)
      rw [callsFor]
      split
      · rfl
      · cases hty : typeNamed ir name with
        | none =>
          rw [fieldTypes_eq_nil hty]
          rfl
        | some item =>
          rw [fieldTypes_eq hty, List.map_map, anyM_map]
          dsimp only
          rw [List.allM_eq_not_anyM_not]
          show Option.map not _ = _
          congr 1
          refine anyM_congr fun f _ => ?_
          rw [ih]
          show Option.map not (Option.map not _) = (generatorCalls ir).search fuel (.copy f.ty)
          rw [Option.map_map]
          cases (generatorCalls ir).search fuel (.copy f.ty) with
          | none => rfl
          | some answer => cases answer <;> rfl

/-- A type holds a buffer if one is found. -/
theorem domainTypeContainsBuffer_eq (fuel : Nat) (ty : ResolvedTypeRef) :
    domainTypeContainsBuffer ir fuel ty = (generatorCalls ir).search fuel (.buffer ty) := by
  induction fuel generalizing ty with
  | zero => rfl
  | succ fuel ih =>
    cases ty with
    | primitive p => rw [search_leaf rfl rfl]; rfl
    | abiType b =>
      cases b with
      | buffer => rw [search_ends rfl]; rfl
      | stringView => rw [search_leaf rfl rfl]; rfl
      | ptr => rw [search_leaf rfl rfl]; rfl
      | void => rw [search_leaf rfl rfl]; rfl
    | userDefined name =>
      rw [search_calls rfl, domainTypeContainsBuffer]
      show _ = (callsFor ir name (.buffer (.userDefined name))).anyM _
      rw [callsFor]
      cases hname : arrayElementName name with
      | some element =>
        dsimp only
        rw [anyM_singleton, ih]
      | none =>
        dsimp only
        cases hty : typeNamed ir name with
        | none =>
          rw [fieldTypes_eq_nil hty]
          rfl
        | some item =>
          rw [fieldTypes_eq hty, List.map_map, anyM_map]
          exact anyM_congr fun f _ => ih f.ty

end

/-! ### The texts -/

/-- What is left of a result: a text, a panic, or no end. -/
def outcome {α : Type} : Except GenError α → Option Bool
  | .ok _                   => some false
  | .error .outOfFuel       => none
  | .error (.unreachable _) => some true

theorem outcome_eq_none {α : Type} {r : Except GenError α} :
    outcome r = none ↔ r = .error .outOfFuel := by
  cases r with
  | ok a => exact iff_of_false (fun h => by cases h) (fun h => by cases h)
  | error e =>
    cases e with
    | outOfFuel => exact iff_of_true rfl rfl
    | unreachable message => exact iff_of_false (fun h => by cases h) (fun h => by cases h)

theorem outcome_bind_ok {α β : Type} (r : Except GenError α) (g : α → β) :
    outcome (r >>= fun a => .ok (g a)) = outcome r := by
  cases r with
  | ok a => rfl
  | error e => cases e <;> rfl

/-- The texts of a list end at the first one that does not. -/
theorem outcome_mapM {α β : Type} (f : α → Except GenError β) (l : List α) :
    outcome (l.mapM f) = l.anyM fun a => outcome (f a) := by
  induction l with
  | nil => rfl
  | cons a rest ih =>
    rw [List.mapM_cons, List.anyM_cons, ← ih]
    cases f a with
    | error e => cases e <;> rfl
    | ok b =>
      show outcome (rest.mapM f >>= fun bs => .ok (b :: bs)) = outcome (rest.mapM f)
      exact outcome_bind_ok _ _

/-- A list of texts that is joined, or wrapped otherwise. -/
theorem outcome_mapM_bind_ok {α β γ : Type} (f : α → Except GenError β) (g : List β → γ)
    (l : List α) :
    outcome (l.mapM f >>= fun bs => .ok (g bs)) = l.anyM fun a => outcome (f a) := by
  rw [outcome_bind_ok, outcome_mapM]

section
variable {ir : ApiIr}

/-- The texts of the fields. -/
theorem outcome_fields {fuel : Nat} {name : String} {item : ResolvedType}
    (hty : typeNamed ir name = some item) {call : ResolvedTypeRef → GenCall}
    {f : ResolvedField → Except GenError String} {g : List String → String}
    (h : ∀ field, outcome (f field) = (generatorCalls ir).search fuel (call field.ty)) :
    outcome (item.fields.mapM f >>= fun texts => .ok (g texts)) =
      ((fieldTypes ir name).map call).anyM ((generatorCalls ir).search fuel) := by
  rw [outcome_mapM_bind_ok, fieldTypes_eq hty, List.map_map, anyM_map]
  exact anyM_congr fun field _ => h field

theorem canonicalAbiValueExpr_outcome (fuel : Nat) (ty : ResolvedTypeRef) :
    outcome (canonicalAbiValueExpr ir fuel ty) =
      (generatorCalls ir).search fuel (.canonical ty) := by
  induction fuel generalizing ty with
  | zero => rfl
  | succ fuel ih =>
    cases ty with
    | primitive p => rw [search_leaf rfl rfl]; cases p <;> rfl
    | abiType b => rw [search_leaf rfl rfl]; cases b <;> rfl
    | userDefined name =>
      have hends : endsAt ir (.canonical (.userDefined name)) =
        ((enumNamed ir name).elim (typeNamed ir name).isNone fun e => e.variants.isEmpty) := by
        rw [endsAt]
        cases enumNamed ir name <;> rfl
      have hcalls : callsOf ir (.canonical (.userDefined name)) =
        if (enumNamed ir name).isSome then [] else (fieldTypes ir name).map .canonical := rfl
      rw [canonicalAbiValueExpr]
      cases henum : enumNamed ir name with
      | some enumDef =>
        rw [henum] at hends hcalls
        dsimp only
        cases hvariants : enumDef.variants with
        | nil =>
          rw [search_ends (hends.trans (by rw [Option.elim, hvariants]; rfl))]
          rfl
        | cons variant rest =>
          rw [search_leaf (hends.trans (by rw [Option.elim, hvariants]; rfl)) hcalls]
          rfl
      | none =>
        rw [henum] at hends hcalls
        cases hty : typeNamed ir name with
        | none =>
          rw [search_ends (hends.trans (by rw [hty]; rfl))]
          rfl
        | some item =>
          rw [search_calls (hends.trans (by rw [hty]; rfl)), hcalls]
          dsimp only
          refine outcome_fields hty fun field => ?_
          rw [outcome_bind_ok, ih]

/-- The projections to tagged enums that the generators may rely on: the tag is a field, of no
primitive type and of no builtin, and the payloads are fields. -/
def TagsValid (ir : ApiIr) : Prop :=
  ∀ name ty projection, taggedEnumType ir name = some (ty, projection) →
    (∃ tagName, tagNameOf ty projection = .ok tagName) ∧
      ∀ mapping ∈ projection.variants, ∀ payload, mapping.payload = some payload →
        ∃ field, ty.fields.find? (fun field => field.name = payload) = some field

theorem taggedEnumType_eq {name : String} {ty : ResolvedType} {projection : RustTaggedEnum}
    (h : taggedEnumType ir name = some (ty, projection)) :
    typeNamed ir name = some ty ∧ ty.taggedEnum = some projection := by
  rw [taggedEnumType] at h
  obtain ⟨ty', hty, h⟩ := Option.bind_eq_some_iff.mp h
  obtain ⟨projection', hprojection, h⟩ := Option.bind_eq_some_iff.mp h
  cases h
  exact ⟨hty, hprojection⟩

theorem taggedDomainType_eq {name tagName : String} {ty : ResolvedType}
    {projection : RustTaggedEnum} (h : taggedDomainType ir name = some (ty, projection, tagName)) :
    taggedEnumType ir name = some (ty, projection) := by
  rw [taggedDomainType] at h
  obtain ⟨⟨ty', projection'⟩, hty, h⟩ := Option.bind_eq_some_iff.mp h
  obtain ⟨tag, -, h⟩ := Option.bind_eq_some_iff.mp h
  split at h
  · cases h
    exact hty
  · cases h

/-- The values of a variant of a tagged enum, towards the ABI. -/
theorem taggedAbiStructExpr_outcome {fuel : Nat} {name tagName : String} {ty : ResolvedType}
    {projection : RustTaggedEnum} {mapping : RustTaggedEnumVariant}
    {payloadValue canonical : ResolvedTypeRef → Except GenError String}
    (htag : tagNameOf ty projection = .ok tagName)
    (hpayload : ∀ ty, outcome (payloadValue ty) = (generatorCalls ir).search fuel (.abi ty))
    (hcanonical : ∀ ty, outcome (canonical ty) = (generatorCalls ir).search fuel (.canonical ty)) :
    outcome (taggedAbiStructExpr name ty projection mapping payloadValue canonical) =
      (taggedAbiCalls ty projection mapping).anyM ((generatorCalls ir).search fuel) := by
  rw [taggedAbiStructExpr, htag]
  show outcome (ty.fields.mapM _ >>= fun fields => .ok _) = _
  rw [outcome_mapM_bind_ok, taggedAbiCalls, anyM_flatMap]
  refine anyM_congr fun field _ => ?_
  rw [taggedAbiField]
  split
  · rfl
  · split
    · rw [anyM_singleton, outcome_bind_ok, hpayload]
    · rw [anyM_singleton, outcome_bind_ok, hcanonical]

theorem hostAbiFromDomainExpr_outcome (htags : TagsValid ir) (fuel : Nat) (ty : ResolvedTypeRef)
    (value : String) (borrowed : Bool) :
    outcome (hostAbiFromDomainExpr ir fuel ty value borrowed) =
      (generatorCalls ir).search fuel (.abi ty) := by
  induction fuel generalizing ty value borrowed with
  | zero => rfl
  | succ fuel ih =>
    cases ty with
    | primitive p => rw [search_leaf rfl rfl]; rfl
    | abiType b => rw [search_leaf rfl rfl]; cases b <;> rfl
    | userDefined name =>
      have hends : endsAt ir (.abi (.userDefined name)) = unknownName ir name := rfl
      rw [unknownName] at hends
      have hcalls : callsOf ir (.abi (.userDefined name)) =
        callsFor ir name (.abi (.userDefined name)) := rfl
      rw [callsFor] at hcalls
      rw [hostAbiFromDomainExpr]
      cases henum : enumNamed ir name with
      | some enumDef =>
        rw [henum] at hends hcalls
        rw [search_leaf hends hcalls]
        rfl
      | none =>
        rw [henum] at hends hcalls
        cases harray : arrayElementName name with
        | some element =>
          rw [harray] at hends hcalls
          rw [search_calls hends, hcalls]
          dsimp only
          rw [outcome_bind_ok, ih]
          exact anyM_singleton.symm
        | none =>
          rw [harray] at hends hcalls
          cases htagged : taggedEnumType ir name with
          | some projected =>
            obtain ⟨item, projection⟩ := projected
            have hty := (taggedEnumType_eq htagged).1
            rw [htagged] at hcalls
            rw [search_calls (hends.trans (by rw [hty]; rfl)), hcalls]
            obtain ⟨⟨tagName, htag⟩, -⟩ := htags name item projection htagged
            dsimp only
            rw [taggedHostAbiFromDomainExpr, outcome_mapM_bind_ok]
            show _ = (projection.variants.flatMap _).anyM _
            rw [anyM_flatMap]
            refine anyM_congr fun mapping _ => ?_
            rw [outcome_bind_ok]
            exact taggedAbiStructExpr_outcome htag (fun ty => ih ty "payload" true)
              (canonicalAbiValueExpr_outcome fuel)
          | none =>
            rw [htagged] at hcalls
            cases hty : typeNamed ir name with
            | none =>
              rw [search_ends (hends.trans (by rw [hty]; rfl))]
              rfl
            | some item =>
              rw [search_calls (hends.trans (by rw [hty]; rfl)), hcalls]
              dsimp only
              refine outcome_fields hty fun field => ?_
              rw [outcome_bind_ok, ih]

/-- The value of a payload, from the ABI. -/
theorem taggedDomainPayload_outcome {fuel : Nat} {ty : ResolvedType} {value : String}
    {mapping : RustTaggedEnumVariant}
    {payloadValue : ResolvedTypeRef → String → Except GenError String}
    (hfield : ∀ payload, mapping.payload = some payload →
      ∃ field, ty.fields.find? (fun field => field.name = payload) = some field)
    (hpayload : ∀ ty value,
      outcome (payloadValue ty value) = (generatorCalls ir).search fuel (.domain ty)) :
    outcome (taggedDomainPayload ty value payloadValue mapping.payload) =
      (taggedDomainCalls ty mapping).anyM ((generatorCalls ir).search fuel) := by
  rw [taggedDomainCalls]
  cases hname : mapping.payload with
  | none => rfl
  | some payload =>
    obtain ⟨field, hfound⟩ := hfield payload hname
    rw [taggedDomainPayload, hfound]
    dsimp only
    rw [outcome_bind_ok, hfound, hpayload]
    exact anyM_singleton.symm

theorem hostDomainFromAbiExpr_outcome (htags : TagsValid ir) (host returnedFromNative : String)
    (fuel : Nat) (ty : ResolvedTypeRef) (value : String) :
    outcome (hostDomainFromAbiExpr ir host returnedFromNative fuel ty value) =
      (generatorCalls ir).search fuel (.domain ty) := by
  induction fuel generalizing ty value with
  | zero => rfl
  | succ fuel ih =>
    cases ty with
    | primitive p => rw [search_leaf rfl rfl]; rfl
    | abiType b => rw [search_leaf rfl rfl]; cases b <;> rfl
    | userDefined name =>
      have hends : endsAt ir (.domain (.userDefined name)) = unknownName ir name := rfl
      rw [unknownName] at hends
      have hcalls : callsOf ir (.domain (.userDefined name)) =
        callsFor ir name (.domain (.userDefined name)) := rfl
      rw [callsFor] at hcalls
      rw [hostDomainFromAbiExpr]
      cases henum : enumNamed ir name with
      | some enumDef =>
        rw [henum] at hends hcalls
        rw [search_leaf hends hcalls]
        rfl
      | none =>
        rw [henum] at hends hcalls
        cases harray : arrayElementName name with
        | some element =>
          rw [harray] at hends hcalls
          rw [search_calls hends, hcalls]
          dsimp only
          rw [outcome_bind_ok, ih]
          exact anyM_singleton.symm
        | none =>
          rw [harray] at hends hcalls
          cases htagged : taggedDomainType ir name with
          | some projected =>
            obtain ⟨item, projection, tagName⟩ := projected
            have henumType := taggedDomainType_eq htagged
            have hty := (taggedEnumType_eq henumType).1
            rw [htagged] at hcalls
            rw [search_calls (hends.trans (by rw [hty]; rfl)), hcalls]
            dsimp only
            rw [taggedHostDomainFromAbiExpr, outcome_mapM_bind_ok]
            show _ = (projection.variants.flatMap _).anyM _
            rw [anyM_flatMap]
            refine anyM_congr fun mapping hmapping => ?_
            rw [outcome_bind_ok]
            exact taggedDomainPayload_outcome
              ((htags name item projection henumType).2 mapping hmapping) ih
          | none =>
            rw [htagged] at hcalls
            cases hty : typeNamed ir name with
            | none =>
              rw [search_ends (hends.trans (by rw [hty]; rfl))]
              rfl
            | some item =>
              rw [search_calls (hends.trans (by rw [hty]; rfl)), hcalls]
              dsimp only
              refine outcome_fields hty fun field => ?_
              rw [outcome_bind_ok, ih]

end

/-! ### The projections of an accepted schema -/

/-- A check of a list in which each element passed. -/
theorem exists_of_foldlM {σ α ε : Type} {f : σ → α → Except ε σ} {l : List α} {s s' : σ}
    (h : l.foldlM f s = .ok s') : ∀ a ∈ l, ∃ t t', f t a = .ok t' := by
  induction l generalizing s with
  | nil => exact fun a ha => absurd ha List.not_mem_nil
  | cons b rest ih =>
    rw [List.foldlM_cons] at h
    obtain ⟨t, hb, hrest⟩ := bind_eq_ok.mp h
    intro a ha
    rcases List.mem_cons.mp ha with rfl | ha
    · exact ⟨s, t, hb⟩
    · exact ih hrest a ha

/-- A variant that passed has a field for its payload. -/
theorem payload_of_validate {ty : ResolvedType} {tagEnum : EnumDef} {tagField : String}
    {seen seen' : TaggedSeen} {mapping : RustTaggedEnumVariant}
    (h : validateTaggedVariant ty tagEnum tagField seen mapping = .ok seen') {payload : String}
    (hpayload : mapping.payload = some payload) :
    ∃ field, ty.fields.find? (fun field => field.name = payload) = some field := by
  rw [validateTaggedVariant] at h
  obtain ⟨_, -, h⟩ := bind_eq_ok.mp h
  split at h
  · cases h
  · split at h
    · cases h
    · split at h
      · cases h
      · rw [hpayload] at h
        dsimp only at h
        split at h
        · cases h
        · next hany =>
          rw [Bool.not_eq_true, Bool.not_eq_false] at hany
          obtain ⟨field, hfield, hname⟩ := List.any_eq_true.mp hany
          cases hfind : ty.fields.find? (fun field => field.name = payload) with
          | some field => exact ⟨field, rfl⟩
          | none => exact absurd hname (List.find?_eq_none.mp hfind field hfield)

theorem tagNameOf_of_validate {enums : List EnumDef} {ty : ResolvedType}
    {projection : RustTaggedEnum} {tagEnum : EnumDef}
    (h : tagEnumOf enums ty projection.tagField = .ok tagEnum) :
    ∃ tagName, tagNameOf ty projection = .ok tagName := by
  rw [tagEnumOf] at h
  rw [tagNameOf]
  cases hfind : ty.fields.find? (fun field => field.name = projection.tagField) with
  | none =>
    rw [hfind] at h
    cases h
  | some field =>
    rw [hfind] at h
    dsimp only at h ⊢
    cases hty : field.ty with
    | userDefined tagName => exact ⟨tagName, rfl⟩
    | primitive p =>
      rw [hty] at h
      cases h
    | abiType b =>
      rw [hty] at h
      cases h

theorem Lowered.tagsValid {classes : CharClasses} {raw : RawApiSchema} {ir : ApiIr}
    (h : Lowered classes raw ir) : TagsValid ir := by
  intro name ty projection htagged
  obtain ⟨hty, hprojection⟩ := taggedEnumType_eq htagged
  have hvalid := h.tagged ty (List.mem_of_find?_eq_some hty)
  rw [validateTaggedEnum, hprojection] at hvalid
  dsimp only at hvalid
  split at hvalid
  · cases hvalid
  · obtain ⟨tagEnum, htag, hvalid⟩ := bind_eq_ok.mp hvalid
    split at hvalid
    · cases hvalid
    · obtain ⟨seen, hvariants, -⟩ := bind_eq_ok.mp hvalid
      refine ⟨tagNameOf_of_validate htag, fun mapping hmapping payload hpayload => ?_⟩
      obtain ⟨t, t', hstep⟩ := exists_of_foldlM hvariants mapping hmapping
      exact payload_of_validate hstep hpayload

end PolyPlug.Codegen
