import PolyPlug.Codegen.ApiTypes
import PolyPlug.Lib.Loop
import PolyPlug.Proofs.Codegen.EnumEmission
import PolyPlug.Proofs.Rust.Str

/-!
# `PolyPlug.Proofs.Codegen.ApiTypes`: what an accepted schema holds

The type references of an accepted schema, as they are written (`RawApiSchema.writtenRefs`) and as
they are resolved. `refOf` is what a text resolves to. It is an array exactly if it is written
as one (`refOf_of_arrayInner`), since the names of a schema are identifiers.

`Lowered` lists the parts of a schema that `lowerApi` accepts.
-/

set_option autoImplicit false

namespace PolyPlug.Codegen

open PolyPlug.Rust
open PolyPlug.Lib

/-! ### Texts -/

theorem stripStart_eq_some {start s rest : String} :
    stripStart start s = some rest ↔ s = start ++ rest := by
  rw [stripStart]
  constructor
  · intro h
    split at h
    · next hstart =>
      cases h
      obtain ⟨tail, htail⟩ := List.isPrefixOf_iff_prefix.mp hstart
      refine String.toList_injective ?_
      rw [String.toList_append, String.toList_ofList, ← htail, List.drop_left]
    · cases h
  · rintro rfl
    rw [String.toList_append, if_pos (List.isPrefixOf_iff_prefix.mpr (List.prefix_append _ _)),
      List.drop_left, String.ofList_toList]

theorem arrayElementName_eq_some {name e : String} :
    arrayElementName name = some e ↔ name = arrayWrapperName e :=
  stripStart_eq_some

theorem arrayWrapperName_injective : Function.Injective arrayWrapperName := by
  intro e e' h
  have hname := arrayElementName_eq_some.mpr h
  rw [arrayElementName_eq_some.mpr rfl] at hname
  exact Option.some.inj hname

/-- An array is written with a `<`. -/
theorem mem_of_arrayInner {typeStr e : String} (h : arrayInner typeStr = some e) :
    '<' ∈ typeStr.toList := by
  rw [arrayInner, Option.map_eq_some_iff] at h
  obtain ⟨inner, hinner, -⟩ := h
  rw [Option.bind_eq_some_iff] at hinner
  obtain ⟨rest, hrest, -⟩ := hinner
  rw [stripStart_eq_some.mp hrest, String.toList_append]
  exact List.mem_append_left _ (by decide)

theorem notMem_of_isValidIdentifier {name : String} (h : isValidIdentifier name = true) :
    '<' ∉ name.toList := by
  intro hmem
  exact absurd ((identifierChar_of_isValidIdentifier h).2 '<' hmem) (by decide)

/-! ### References -/

/-- What a text resolves to. -/
def refOf (knownTypes : List String) (typeStr : String) : Option ResolvedTypeRef :=
  (resolveTypeRef typeStr "" knownTypes).toOption

section
variable {knownTypes : List String} {typeStr contract : String} {ref : ResolvedTypeRef}

/-- The contract is only in the error. -/
theorem resolveTypeRef_ok_iff :
    resolveTypeRef typeStr contract knownTypes = .ok ref ↔ refOf knownTypes typeStr = some ref := by
  rw [refOf, resolveTypeRef, resolveTypeRef]
  cases resolvePlainRef typeStr knownTypes with
  | some r => simp [Except.toOption]
  | none =>
    cases arrayInner typeStr with
    | none => simp [Except.toOption]
    | some inner =>
      dsimp only
      split
      · simp [Except.toOption]
      · cases resolvePlainRef inner knownTypes with
        | none => simp [Except.toOption]
        | some r => simp [Except.toOption]

theorem resolveTypeRefSpanned_ok_iff :
    resolveTypeRefSpanned typeStr contract knownTypes = .ok ref ↔
      refOf knownTypes typeStr = some ref := by
  rw [resolveTypeRefSpanned, mapError_eq_ok, resolveTypeRef_ok_iff]

/-- A name is no array. -/
theorem resolvePlainRef_of_arrayInner {e : String} (hknown : ∀ n ∈ knownTypes, '<' ∉ n.toList)
    (h : arrayInner typeStr = some e) : resolvePlainRef typeStr knownTypes = none := by
  have hmem := mem_of_arrayInner h
  have hprimitive : PrimitiveType.parse typeStr = none := by
    cases hparse : PrimitiveType.parse typeStr with
    | none => rfl
    | some p =>
      have hname := List.find?_some hparse
      rw [decide_eq_true_iff] at hname
      rw [← hname] at hmem
      cases p <;> exact absurd hmem (by decide)
  have hne : ∀ name : String, '<' ∉ name.toList → typeStr ≠ name := by
    rintro name hname rfl
    exact hname hmem
  have hbuiltin : AbiBuiltin.parse typeStr = none := by
    rw [AbiBuiltin.parse, if_neg (hne _ (by decide)), if_neg (hne _ (by decide)), if_neg, if_neg]
    · rintro (h | h) <;> exact hne _ (by decide) h
    · rintro (h | h) <;> exact hne _ (by decide) h
  rw [resolvePlainRef, hprimitive, hbuiltin]
  exact if_neg fun hname => hknown typeStr hname hmem

/-- A reference that is written as an array is one to the wrapper of its element. -/
theorem refOf_of_arrayInner {e : String} (hknown : ∀ n ∈ knownTypes, '<' ∉ n.toList)
    (h : arrayInner typeStr = some e) (hok : refOf knownTypes typeStr = some ref) :
    ref = .userDefined (arrayWrapperName e) ∧ ∃ r, resolvePlainRef e knownTypes = some r := by
  rw [refOf, resolveTypeRef, resolvePlainRef_of_arrayInner hknown h, h] at hok
  dsimp only at hok
  split at hok
  · cases hok
  · cases hinner : resolvePlainRef e knownTypes with
    | none =>
      rw [hinner] at hok
      cases hok
    | some r =>
      rw [hinner] at hok
      cases hok
      exact ⟨rfl, r, rfl⟩

/-- Another reference is the name of a type or an enum of the schema, or no such name. -/
theorem refOf_of_not_array (h : arrayInner typeStr = none)
    (hok : refOf knownTypes typeStr = some ref) :
    resolvePlainRef typeStr knownTypes = some ref := by
  rw [refOf, resolveTypeRef] at hok
  cases hplain : resolvePlainRef typeStr knownTypes with
  | some r =>
    rw [hplain] at hok
    exact hok
  | none =>
    rw [hplain, h] at hok
    cases hok

theorem resolvePlainRef_userDefined {name : String}
    (h : resolvePlainRef typeStr knownTypes = some (.userDefined name)) :
    name = typeStr ∧ typeStr ∈ knownTypes := by
  rw [resolvePlainRef] at h
  split at h
  · cases h
  · split at h
    · cases h
    · split at h
      · next hknown =>
        cases h
        exact ⟨rfl, hknown⟩
      · cases h

end

/-! ### What is written -/

/-- The references of a contract, as they are written. -/
def RawApiContract.writtenRefs (c : RawApiContract) : List String :=
  c.functions.flatMap fun f => f.params.map RawField.ty ++ f.returns.toList

/-- The references of a schema, as they are written. -/
def RawApiSchema.writtenRefs (raw : RawApiSchema) : List String :=
  raw.types.flatMap (fun t => t.fields.map RawField.ty) ++
    raw.guestContracts.flatMap RawApiContract.writtenRefs ++
    raw.hostContracts.flatMap RawApiContract.writtenRefs

/-- The elements of the arrays of a schema, each once. -/
def RawApiSchema.usedElements (raw : RawApiSchema) : List String :=
  (raw.writtenRefs.filterMap arrayInner).dedup

/-- The `[[types]]` declarations of a schema, resolved. -/
def declaredTypes (raw : RawApiSchema) : List ResolvedType :=
  (raw.types.mapM (lowerType raw.knownNames)).toOption.getD []

/-- The references that `collect_array_wrapper_types` looks at. -/
def collectedRefs (types : List ResolvedType) (contracts hostContracts : List ApiContract) :
    List ResolvedTypeRef :=
  types.flatMap (fun t => t.fields.map ResolvedField.ty) ++
    contracts.flatMap ApiContract.refs ++ hostContracts.flatMap ApiContract.refs

/-- The references of a resolved schema: those of its types and of its contracts. -/
def ApiIr.refs (ir : ApiIr) : List ResolvedTypeRef :=
  collectedRefs ir.types ir.contracts ir.hostContracts

/-- The parts of an accepted schema. -/
structure Lowered (classes : CharClasses) (raw : RawApiSchema) (ir : ApiIr) : Prop where
  noCollision : ∀ n ∈ raw.enums.map RawEnum.name, n ∉ raw.types.map RawType.name
  types : raw.types.mapM (lowerType raw.knownNames) = .ok (declaredTypes raw)
  enums : raw.enums.mapM (fun e => (lowerEnum classes e).mapError ApiError.enumDef) = .ok ir.enums
  contracts : raw.guestContracts.mapM (lowerApiContract raw.knownNames "guest contract") =
    .ok ir.contracts
  hostContracts : raw.hostContracts.mapM (lowerApiContract raw.knownNames "host contract") =
    .ok ir.hostContracts
  ordered : ir.types = topologicallyOrderTypes
    (declaredTypes raw ++ collectArrayWrapperTypes (declaredTypes raw) ir.contracts
      ir.hostContracts)
  tagged : ∀ ty ∈ ir.types, validateTaggedEnum ir.enums ty = .ok ()

theorem lowered_of_lowerApi {classes : CharClasses} {raw : RawApiSchema} {ir : ApiIr}
    (h : lowerApi classes raw = .ok ir) : Lowered classes raw ir := by
  rw [lowerApi] at h
  cases hcollision : enumCollision raw with
  | some name =>
    rw [hcollision] at h
    cases h
  | none =>
    rw [hcollision] at h
    obtain ⟨types, htypes, h⟩ := bind_eq_ok.mp h
    obtain ⟨enums, henums, h⟩ := bind_eq_ok.mp h
    cases hdup : duplicateName (raw.guestContracts.map RawApiContract.name) [] with
    | some name =>
      rw [hdup] at h
      cases h
    | none =>
      rw [hdup] at h
      obtain ⟨contracts, hcontracts, h⟩ := bind_eq_ok.mp h
      obtain ⟨hostContracts, hhosts, h⟩ := bind_eq_ok.mp h
      obtain ⟨_, -, h⟩ := bind_eq_ok.mp h
      obtain ⟨_, htagged, h⟩ := bind_eq_ok.mp h
      cases h
      have hdeclared : declaredTypes raw = types := by
        rw [declaredTypes, htypes]
        rfl
      refine ⟨?_, by rw [hdeclared]; exact htypes, henums, hcontracts, hhosts,
        by rw [hdeclared], forM_eq_ok_iff.mp htagged⟩
      intro n hn htype
      have hnone := List.find?_eq_none.mp hcollision n hn
      exact hnone (decide_eq_true htype)

/-! ### Written and resolved references -/

/-- The resolved references are those of the written ones, but for a return of `void`. -/
structure Matches (knownTypes : List String) (written : List String)
    (refs : List ResolvedTypeRef) : Prop where
  written_of_ref : ∀ r ∈ refs, ∃ s ∈ written, refOf knownTypes s = some r
  ref_of_written : ∀ s ∈ written, ∃ r, refOf knownTypes s = some r ∧
    (r = .abiType .void ∨ r ∈ refs)

section
variable {knownTypes : List String}

theorem Matches.append {written written' : List String} {refs refs' : List ResolvedTypeRef}
    (h : Matches knownTypes written refs) (h' : Matches knownTypes written' refs') :
    Matches knownTypes (written ++ written') (refs ++ refs') := by
  refine ⟨fun r hr => ?_, fun s hs => ?_⟩
  · rcases List.mem_append.mp hr with hr | hr
    · obtain ⟨s, hs, hres⟩ := h.written_of_ref r hr
      exact ⟨s, List.mem_append_left _ hs, hres⟩
    · obtain ⟨s, hs, hres⟩ := h'.written_of_ref r hr
      exact ⟨s, List.mem_append_right _ hs, hres⟩
  · rcases List.mem_append.mp hs with hs | hs
    · obtain ⟨r, hres, hr⟩ := h.ref_of_written s hs
      exact ⟨r, hres, hr.imp_right (List.mem_append_left _)⟩
    · obtain ⟨r, hres, hr⟩ := h'.ref_of_written s hs
      exact ⟨r, hres, hr.imp_right (List.mem_append_right _)⟩

theorem Matches.nil : Matches knownTypes [] [] :=
  ⟨fun _ h => absurd h List.not_mem_nil, fun _ h => absurd h List.not_mem_nil⟩

/-- Lists that match element by element match as a whole. -/
theorem Matches.flatMap {α β : Type} {f : α → List String} {g : β → List ResolvedTypeRef}
    {l : List α} {l' : List β}
    (h : List.Forall₂ (fun a b => Matches knownTypes (f a) (g b)) l l') :
    Matches knownTypes (l.flatMap f) (l'.flatMap g) := by
  induction h with
  | nil => exact .nil
  | cons hab _ ih =>
    rw [List.flatMap_cons, List.flatMap_cons]
    exact hab.append ih

/-- A field and its resolved form. -/
def FieldLowered (knownTypes : List String) (raw : RawField) (field : ResolvedField) : Prop :=
  field.name = raw.name ∧ refOf knownTypes raw.ty = some field.ty

theorem Matches.fields {raws : List RawField} {fields : List ResolvedField}
    (h : List.Forall₂ (FieldLowered knownTypes) raws fields) :
    Matches knownTypes (raws.map RawField.ty) (fields.map ResolvedField.ty) := by
  induction h with
  | nil => exact .nil
  | @cons raw field raws fields hfield _ ih =>
    have hone : Matches knownTypes [raw.ty] [field.ty] := by
      refine ⟨fun r hr => ?_, fun s hs => ?_⟩
      · rw [List.mem_singleton.mp hr]
        exact ⟨raw.ty, List.mem_singleton_self _, hfield.2⟩
      · rw [List.mem_singleton.mp hs]
        exact ⟨field.ty, hfield.2, .inr (List.mem_singleton_self _)⟩
    exact hone.append ih

/-- What a resolved type keeps of its declaration. -/
structure TypeLowered (knownTypes : List String) (raw : RawType) (ty : ResolvedType) : Prop where
  valid : isValidIdentifier raw.name = true
  name : ty.name = raw.name
  fields : List.Forall₂ (FieldLowered knownTypes) raw.fields ty.fields

theorem typeLowered_of_ok {raw : RawType} {ty : ResolvedType}
    (h : lowerType knownTypes raw = .ok ty) : TypeLowered knownTypes raw ty := by
  obtain ⟨_, hname, h⟩ := bind_eq_ok.mp h
  obtain ⟨fields, hfields, h⟩ := bind_eq_ok.mp h
  cases h
  refine ⟨(identifier_of_validate (mapError_eq_ok.mp hname)).1, rfl, ?_⟩
  refine (forall₂_of_mapM hfields).imp fun field resolved hfield => ?_
  obtain ⟨_, -, hfield⟩ := bind_eq_ok.mp hfield
  obtain ⟨ty, hty, hfield⟩ := bind_eq_ok.mp hfield
  cases hfield
  exact ⟨rfl, resolveTypeRefSpanned_ok_iff.mp hty⟩

/-- The references of a function. -/
theorem matches_function {contract : String} {raw : RawApiFunction} {f : ApiFunction}
    (h : lowerFunction knownTypes contract raw = .ok f) :
    Matches knownTypes (raw.params.map RawField.ty ++ raw.returns.toList)
      (f.params.map ResolvedField.ty ++ f.returns.toList) := by
  obtain ⟨params, hparams, h⟩ := bind_eq_ok.mp h
  have hfields : List.Forall₂ (FieldLowered knownTypes) raw.params params := by
    refine (forall₂_of_mapM hparams).imp fun field resolved hfield => ?_
    obtain ⟨ty, hty, hfield⟩ := bind_eq_ok.mp hfield
    cases hfield
    exact ⟨rfl, resolveTypeRefSpanned_ok_iff.mp hty⟩
  cases hreturns : raw.returns with
  | none =>
    rw [hreturns] at h
    cases h
    exact (Matches.fields hfields).append .nil
  | some ret =>
    rw [hreturns] at h
    obtain ⟨ty, hty, h⟩ := bind_eq_ok.mp h
    cases h
    refine (Matches.fields hfields).append ?_
    have hres := resolveTypeRef_ok_iff.mp hty
    refine ⟨fun r hr => ?_, fun s hs => ?_⟩
    · split at hr
      · cases hr
      · rw [List.mem_singleton.mp hr]
        exact ⟨ret, List.mem_singleton_self _, hres⟩
    · rw [List.mem_singleton.mp hs]
      refine ⟨ty, hres, ?_⟩
      by_cases hvoid : ty = .abiType .void
      · exact .inl hvoid
      · rw [if_neg hvoid]
        exact .inr (List.mem_singleton_self _)

/-- The references of a contract. -/
theorem matches_contract {kind : String} {raw : RawApiContract} {c : ApiContract}
    (h : lowerApiContract knownTypes kind raw = .ok c) :
    Matches knownTypes raw.writtenRefs c.refs := by
  obtain ⟨_, -, h⟩ := bind_eq_ok.mp h
  obtain ⟨_, -, h⟩ := bind_eq_ok.mp h
  obtain ⟨functions, hfunctions, h⟩ := bind_eq_ok.mp h
  cases h
  exact Matches.flatMap ((forall₂_of_mapM hfunctions).imp fun _ _ => matches_function)

end

namespace Lowered

variable {classes : CharClasses} {raw : RawApiSchema} {ir : ApiIr} (h : Lowered classes raw ir)
include h

theorem typeLowered :
    List.Forall₂ (TypeLowered raw.knownNames) raw.types (declaredTypes raw) :=
  (forall₂_of_mapM h.types).imp fun _ _ => typeLowered_of_ok

/-- The declared types have the declared names. -/
theorem names : (declaredTypes raw).map ResolvedType.name = raw.types.map RawType.name :=
  (map_eq_of_forall₂ (h.typeLowered.imp fun _ _ hty => hty.name.symm)).symm

theorem collected : Matches raw.knownNames raw.writtenRefs
    (collectedRefs (declaredTypes raw) ir.contracts ir.hostContracts) := by
  refine Matches.append (Matches.append ?_ ?_) ?_
  · exact Matches.flatMap (h.typeLowered.imp fun _ _ hty => Matches.fields hty.fields)
  · exact Matches.flatMap ((forall₂_of_mapM h.contracts).imp fun _ _ => matches_contract)
  · exact Matches.flatMap ((forall₂_of_mapM h.hostContracts).imp fun _ _ => matches_contract)

/-- The names of the schema are identifiers. -/
theorem valid_known : ∀ n ∈ raw.knownNames, isValidIdentifier n = true := by
  intro n hn
  rcases List.mem_append.mp hn with hn | hn
  · obtain ⟨t, ht, rfl⟩ := List.mem_map.mp hn
    obtain ⟨ty, -, hty⟩ := exists_of_forall₂ h.typeLowered.flip t ht
    exact hty.valid
  · obtain ⟨e, he, rfl⟩ := List.mem_map.mp hn
    obtain ⟨def_, -, hdef⟩ := exists_of_forall₂ (forall₂_of_mapM h.enums).flip e he
    obtain ⟨_, hname, -⟩ := bind_eq_ok.mp (mapError_eq_ok.mp hdef)
    exact (identifier_of_validate (mapError_eq_ok.mp hname)).1

/-- A name of the schema is no array. -/
theorem notMem_known : ∀ n ∈ raw.knownNames, '<' ∉ n.toList :=
  fun n hn => notMem_of_isValidIdentifier (h.valid_known n hn)

/-- The names of the enums. -/
theorem enumNames : ir.enums.map EnumDef.name = raw.enums.map RawEnum.name := by
  refine (map_eq_of_forall₂ ((forall₂_of_mapM h.enums).imp fun e def_ hdef => ?_)).symm
  obtain ⟨_, -, hdef⟩ := bind_eq_ok.mp (mapError_eq_ok.mp hdef)
  cases hrepr : ReprType.parse e.repr with
  | none =>
    rw [hrepr] at hdef
    cases hdef
  | some repr =>
    rw [hrepr] at hdef
    obtain ⟨_, -, hdef⟩ := bind_eq_ok.mp hdef
    obtain ⟨_, -, hdef⟩ := bind_eq_ok.mp hdef
    cases hdef
    rfl

end Lowered

end PolyPlug.Codegen
