import PolyPlug.Proofs.Codegen.TypeOrder

/-!
# `PolyPlug.Proofs.Codegen.ArrayRefs`: arrays by the names of their wrappers

The generators take a reference for an array if its name begins with `ArrayOf_`. The parser gives
that name to `Array<t>`. It does not reserve it, so a type or an enum of the schema may have
it. `arraysExact_iff` says for which accepted schemas the references with such a name
are the arrays, each with a wrapper of an address and a length.
-/

set_option autoImplicit false

namespace PolyPlug.Codegen

open PolyPlug.Lib

/-! ### The references of the resolved schema -/

/-- The types that are the first of their name. -/
def RawApiSchema.firstTypes (raw : RawApiSchema) : List RawType :=
  raw.types.filter fun t => raw.types.find? (fun t' => t'.name = t.name) = some t

/-- The references that are kept: those of the first types and of the contracts. -/
def RawApiSchema.keptRefs (raw : RawApiSchema) : List String :=
  raw.firstTypes.flatMap (fun t => t.fields.map RawField.ty) ++
    raw.guestContracts.flatMap RawApiContract.writtenRefs ++
    raw.hostContracts.flatMap RawApiContract.writtenRefs

theorem mem_written_of_kept {raw : RawApiSchema} {s : String} (h : s ∈ raw.keptRefs) :
    s ∈ raw.writtenRefs := by
  rw [RawApiSchema.keptRefs, List.append_assoc, List.mem_append] at h
  rw [RawApiSchema.writtenRefs, List.append_assoc, List.mem_append]
  refine h.imp_left fun hfield => ?_
  obtain ⟨t, ht, hs⟩ := List.mem_flatMap.mp hfield
  exact List.mem_flatMap.mpr ⟨t, (List.mem_filter.mp ht).1, hs⟩

/-- The element of a reference: `array_element_name` of its name. -/
def ResolvedTypeRef.element (ref : ResolvedTypeRef) : Option String :=
  ref.name?.bind arrayElementName

theorem element_eq_some {ref : ResolvedTypeRef} {e : String} :
    ref.element = some e ↔ ref = .userDefined (arrayWrapperName e) := by
  cases ref with
  | userDefined n =>
    rw [ResolvedTypeRef.userDefined.injEq]
    exact arrayElementName_eq_some
  | primitive p => exact iff_of_false (fun h => by cases h) (fun h => by cases h)
  | abiType b => exact iff_of_false (fun h => by cases h) (fun h => by cases h)

/-- Related lists are searched alike. -/
theorem find?_of_forall₂ {α β : Type} {R : α → β → Prop} {p : α → Bool} {q : β → Bool}
    {l : List α} {l' : List β} (h : List.Forall₂ R l l') (hpq : ∀ a b, R a b → p a = q b) :
    (∀ a, l.find? p = some a → ∃ b, l'.find? q = some b ∧ R a b) ∧
      ∀ b, l'.find? q = some b → ∃ a, l.find? p = some a ∧ R a b := by
  induction h with
  | nil => exact ⟨fun a h => (by cases h), fun b h => (by cases h)⟩
  | @cons a b l l' hab _ ih =>
    have hsame := hpq a b hab
    cases hp : p a with
    | true =>
      rw [List.find?_cons_of_pos hp, List.find?_cons_of_pos (hsame.symm.trans hp)]
      refine ⟨fun a' h => ?_, fun b' h => ?_⟩
      · cases h
        exact ⟨b, rfl, hab⟩
      · cases h
        exact ⟨a, rfl, hab⟩
    | false =>
      have hq : ¬ q b = true := by rw [← hsame, hp]; exact Bool.false_ne_true
      rw [List.find?_cons_of_neg (by rw [hp]; exact Bool.false_ne_true), List.find?_cons_of_neg hq]
      exact ih

namespace Lowered

variable {classes : CharClasses} {raw : RawApiSchema} {ir : ApiIr} (h : Lowered classes raw ir)
include h

/-- The first declared type of a name is the first authored one. -/
theorem typeOf_declared (n : String) :
    (∀ t, (raw.types.find? fun t => t.name = n) = some t →
        ∃ ty, typeOf (declaredTypes raw) n = some ty ∧ TypeLowered raw.knownNames t ty) ∧
      ∀ ty, typeOf (declaredTypes raw) n = some ty →
        ∃ t, (raw.types.find? fun t => t.name = n) = some t ∧ TypeLowered raw.knownNames t ty := by
  refine find?_of_forall₂ h.typeLowered fun t ty hty => ?_
  rw [hty.name]

/-- The type of a declared name, and of the name of a wrapper. -/
theorem typeOf_ir (n : String) :
    (n ∈ raw.types.map RawType.name → typeOf ir.types n = typeOf (declaredTypes raw) n) ∧
      (n ∉ raw.types.map RawType.name → ∀ ty, typeOf ir.types n = some ty →
        ty = arrayWrapperType n) := by
  obtain ⟨names, hlist, -⟩ := h.exists_wrappers
  rw [h.listed, typeOf_order, hlist]
  have happend : ∀ l l' : List ResolvedType, typeOf (l ++ l') n = (typeOf l n).or (typeOf l' n) :=
    fun l l' => List.find?_append
  rw [happend, ← h.names]
  constructor
  · intro hn
    obtain ⟨ty, hty, -⟩ := exists_typeOf hn
    rw [hty]
    rfl
  · intro hn ty hty
    have hnone : typeOf (declaredTypes raw) n = none := typeOf_eq_none hn
    rw [hnone, Option.none_or] at hty
    have hmem := List.mem_of_find?_eq_some hty
    have hname := List.find?_some hty
    rw [decide_eq_true_iff] at hname
    obtain ⟨m, -, rfl⟩ := List.mem_map.mp hmem
    rw [← hname]
    rfl

/-- A wrapper whose name no type has is synthesized. -/
theorem typeOf_wrapper {e : String} (he : e ∈ raw.usedElements)
    (hfree : arrayWrapperName e ∉ raw.types.map RawType.name) :
    typeOf ir.types (arrayWrapperName e) = some (arrayWrapperType (arrayWrapperName e)) := by
  obtain ⟨names, hlist, -, -, -, hused, -⟩ := h.exists_wrappers
  have hmem : arrayWrapperName e ∈ typeNames ir.types := by
    rw [h.listed, mem_order_names, hlist, typeNames, List.map_append]
    refine List.mem_append_right _ ?_
    show arrayWrapperName e ∈ typeNames (names.map arrayWrapperType)
    rw [typeNames_map_wrapper]
    exact hused e he hfree
  obtain ⟨ty, hty, -⟩ := exists_typeOf hmem
  rw [hty, (h.typeOf_ir _).2 hfree ty hty]

/-- **The references of the resolved schema come from the kept ones**, but for the two numbers of a
wrapper. -/
theorem kept_of_ref : ∀ r ∈ ir.refs, r = .primitive .u64 ∨
    ∃ s ∈ raw.keptRefs, refOf raw.knownNames s = some r := by
  intro r hr
  rw [ApiIr.refs, collectedRefs, List.append_assoc, List.mem_append] at hr
  rcases hr with hr | hr
  · obtain ⟨ty, hty, hr⟩ := List.mem_flatMap.mp hr
    obtain ⟨f, hf, rfl⟩ := List.mem_map.mp hr
    have hself := typeOf_name h.nodup_names hty
    by_cases hdeclared : ty.name ∈ raw.types.map RawType.name
    · rw [(h.typeOf_ir _).1 hdeclared] at hself
      obtain ⟨t, ht, hlowered⟩ := (h.typeOf_declared ty.name).2 ty hself
      have hfirst : t ∈ raw.firstTypes := by
        refine List.mem_filter.mpr ⟨List.mem_of_find?_eq_some ht, decide_eq_true ?_⟩
        rw [← hlowered.name]
        exact ht
      obtain ⟨s, hs, hres⟩ := (Matches.fields hlowered.fields).written_of_ref f.ty
        (List.mem_map_of_mem hf)
      refine .inr ⟨s, ?_, hres⟩
      rw [RawApiSchema.keptRefs, List.append_assoc]
      exact List.mem_append_left _ (List.mem_flatMap.mpr ⟨t, hfirst, hs⟩)
    · have hwrapper := (h.typeOf_ir ty.name).2 hdeclared ty hself
      rw [hwrapper] at hf
      simp only [arrayWrapperType, List.mem_cons, List.not_mem_nil, or_false] at hf
      rcases hf with rfl | rfl
      · exact .inl rfl
      · exact .inl rfl
  · have hguest : Matches raw.knownNames (raw.guestContracts.flatMap RawApiContract.writtenRefs)
        (ir.contracts.flatMap ApiContract.refs) :=
      Matches.flatMap ((forall₂_of_mapM h.contracts).imp fun _ _ => matches_contract)
    have hhost : Matches raw.knownNames (raw.hostContracts.flatMap RawApiContract.writtenRefs)
        (ir.hostContracts.flatMap ApiContract.refs) :=
      Matches.flatMap ((forall₂_of_mapM h.hostContracts).imp fun _ _ => matches_contract)
    obtain ⟨s, hs, hres⟩ := (hguest.append hhost).written_of_ref r hr
    refine .inr ⟨s, ?_, hres⟩
    rw [RawApiSchema.keptRefs, List.append_assoc]
    exact List.mem_append_right _ hs

/-- A kept reference is resolved, and is a reference of the resolved schema unless it is a return of
`void`. -/
theorem ref_of_kept : ∀ s ∈ raw.keptRefs, ∃ r, refOf raw.knownNames s = some r ∧
    (r = .abiType .void ∨ r ∈ ir.refs) := by
  intro s hs
  rw [RawApiSchema.keptRefs, List.append_assoc, List.mem_append] at hs
  rw [ApiIr.refs, collectedRefs, List.append_assoc]
  rcases hs with hs | hs
  · obtain ⟨t, ht, hs⟩ := List.mem_flatMap.mp hs
    obtain ⟨htypes, hfirst⟩ := List.mem_filter.mp ht
    obtain ⟨ty, hty, hlowered⟩ := (h.typeOf_declared t.name).1 t (of_decide_eq_true hfirst)
    have hname : ty.name ∈ raw.types.map RawType.name := by
      rw [hlowered.name]
      exact List.mem_map_of_mem htypes
    have hmem : ty ∈ ir.types := by
      refine List.mem_of_find?_eq_some (p := fun t => decide (t.name = ty.name)) ?_
      show typeOf ir.types ty.name = some ty
      rw [(h.typeOf_ir ty.name).1 hname, hlowered.name]
      exact hty
    obtain ⟨r, hres, hr⟩ := (Matches.fields hlowered.fields).ref_of_written s hs
    refine ⟨r, hres, hr.imp_right fun hr => List.mem_append_left _ ?_⟩
    exact List.mem_flatMap.mpr ⟨ty, hmem, hr⟩
  · have hguest : Matches raw.knownNames (raw.guestContracts.flatMap RawApiContract.writtenRefs)
        (ir.contracts.flatMap ApiContract.refs) :=
      Matches.flatMap ((forall₂_of_mapM h.contracts).imp fun _ _ => matches_contract)
    have hhost : Matches raw.knownNames (raw.hostContracts.flatMap RawApiContract.writtenRefs)
        (ir.hostContracts.flatMap ApiContract.refs) :=
      Matches.flatMap ((forall₂_of_mapM h.hostContracts).imp fun _ _ => matches_contract)
    obtain ⟨r, hres, hr⟩ := (hguest.append hhost).ref_of_written s hs
    exact ⟨r, hres, hr.imp_right (List.mem_append_right _)⟩

end Lowered

/-! ### Arrays and wrappers -/

/-- The references to arrays are those that were written as arrays. The type they name has an
address and a length, and no enum has its name. The element is a primitive, a builtin, or a
declared type or enum. -/
structure ArraysExact (raw : RawApiSchema) (ir : ApiIr) : Prop where
  written : ∀ s ∈ raw.keptRefs, ∀ r ∈ refOf raw.knownNames s, ∀ e,
    r.element = some e ↔ arrayInner s = some e
  wrapper : ∀ r ∈ ir.refs, ∀ e, r.element = some e →
    (∃ ty, typeOf ir.types (arrayWrapperName e) = some ty ∧
      ty.fields = [⟨"items", .primitive .u64⟩, ⟨"len", .primitive .u64⟩]) ∧
    arrayWrapperName e ∉ ir.enums.map EnumDef.name
  element : ∀ r ∈ ir.refs, ∀ e, r.element = some e →
    ∃ r', resolvePlainRef e raw.knownNames = some r'

/-- No reference is a declared name that begins with `ArrayOf_`. No enum has the name of a wrapper
that is used, and a type that has it is an address and a length. -/
structure PlainArrays (raw : RawApiSchema) : Prop where
  named : ∀ s ∈ raw.keptRefs, s ∈ raw.knownNames → arrayElementName s = none
  enums : ∀ s ∈ raw.keptRefs, ∀ e, arrayInner s = some e →
    arrayWrapperName e ∉ raw.enums.map RawEnum.name
  types : ∀ s ∈ raw.keptRefs, ∀ e, arrayInner s = some e → ∀ t,
    (raw.types.find? fun t => t.name = arrayWrapperName e) = some t →
      t.fields = [⟨"items", "u64"⟩, ⟨"len", "u64"⟩]

/-- `u64` is written as itself. -/
theorem refOf_eq_u64 {knownTypes : List String} {s : String} :
    refOf knownTypes s = some (.primitive .u64) ↔ s = "u64" := by
  constructor
  · intro h
    rw [refOf, resolveTypeRef] at h
    cases hplain : resolvePlainRef s knownTypes with
    | some r =>
      rw [hplain] at h
      cases h
      rw [resolvePlainRef] at hplain
      split at hplain
      · next p hp =>
        cases hplain
        have hname := List.find?_some hp
        rw [decide_eq_true_iff] at hname
        exact hname.symm
      · split at hplain
        · cases hplain
        · split at hplain
          · cases hplain
          · cases hplain
    | none =>
      rw [hplain] at h
      dsimp only at h
      cases hinner : arrayInner s with
      | none =>
        rw [hinner] at h
        cases h
      | some inner =>
        rw [hinner] at h
        dsimp only at h
        split at h
        · cases h
        · cases hres : resolvePlainRef inner knownTypes with
          | none =>
            rw [hres] at h
            cases h
          | some r =>
            rw [hres] at h
            cases h
  · rintro rfl
    have hparse : PrimitiveType.parse "u64" = some .u64 := by decide
    rw [refOf, resolveTypeRef, resolvePlainRef, hparse]
    rfl

/-- The fields of a wrapper, written and resolved. -/
theorem wrapperFields_iff {knownTypes : List String} {raws : List RawField}
    {fields : List ResolvedField} (h : List.Forall₂ (FieldLowered knownTypes) raws fields) :
    fields = [⟨"items", .primitive .u64⟩, ⟨"len", .primitive .u64⟩] ↔
      raws = [⟨"items", "u64"⟩, ⟨"len", "u64"⟩] := by
  have hone : ∀ {raw : RawField} {field : ResolvedField} {name : String},
      FieldLowered knownTypes raw field →
      (field = ⟨name, .primitive .u64⟩ ↔ raw = ⟨name, "u64"⟩) := by
    rintro ⟨rawName, rawTy⟩ ⟨fieldName, fieldTy⟩ name ⟨hname, hty⟩
    dsimp only at hname hty
    subst hname
    constructor
    · intro heq
      cases heq
      rw [refOf_eq_u64.mp hty]
    · intro heq
      cases heq
      rw [refOf_eq_u64.mpr rfl] at hty
      cases hty
      rfl
  cases h with
  | nil => exact iff_of_false (fun h => by cases h) (fun h => by cases h)
  | cons hfirst hrest =>
    cases hrest with
    | nil => exact iff_of_false (fun h => by cases h) (fun h => by cases h)
    | cons hsecond hrest =>
      cases hrest with
      | nil =>
        simp only [List.cons.injEq, and_true]
        exact and_congr (hone hfirst) (hone hsecond)
      | cons hthird hrest => exact iff_of_false (fun h => by cases h) (fun h => by cases h)

/-- **The references by the name of a wrapper are the arrays exactly if no author uses the
name.** -/
theorem arraysExact_iff (classes : CharClasses) (raw : RawApiSchema) (ir : ApiIr)
    (hok : lowerApi classes raw = .ok ir) : ArraysExact raw ir ↔ PlainArrays raw := by
  have h := lowered_of_lowerApi hok
  have hresolves : ∀ s ∈ raw.keptRefs, ∀ e, arrayInner s = some e →
      refOf raw.knownNames s = some (.userDefined (arrayWrapperName e)) ∧
        .userDefined (arrayWrapperName e) ∈ ir.refs ∧
        ∃ r, resolvePlainRef e raw.knownNames = some r := by
    intro s hs e hinner
    obtain ⟨r, hres, hr⟩ := h.ref_of_kept s hs
    obtain ⟨rfl, helement⟩ := refOf_of_arrayInner h.notMem_known hinner hres
    exact ⟨hres, hr.resolve_left (fun heq => by cases heq), helement⟩
  constructor
  · intro hexact
    refine ⟨fun s hs hknown => ?_, fun s hs e hinner => ?_, fun s hs e hinner t ht => ?_⟩
    · cases helement : arrayElementName s with
      | none => rfl
      | some e =>
        have hplain : arrayInner s = none := by
          cases hinner : arrayInner s with
          | none => rfl
          | some e' => exact absurd (mem_of_arrayInner hinner) (h.notMem_known s hknown)
        obtain rfl := arrayElementName_eq_some.mp helement
        obtain ⟨r, hres, -⟩ := h.ref_of_kept _ hs
        obtain rfl := resolvePlainRef_wrapper (refOf_of_not_array hplain hres)
        have hinner := (hexact.written _ hs _ hres e).mp (element_eq_some.mpr rfl)
        rw [hplain] at hinner
        cases hinner
    · obtain ⟨-, hmem, -⟩ := hresolves s hs e hinner
      rw [← h.enumNames]
      exact (hexact.wrapper _ hmem e (element_eq_some.mpr rfl)).2
    · obtain ⟨-, hmem, -⟩ := hresolves s hs e hinner
      obtain ⟨⟨ty, hty, hfields⟩, -⟩ := hexact.wrapper _ hmem e (element_eq_some.mpr rfl)
      obtain ⟨ty', hty', hlowered⟩ := (h.typeOf_declared _).1 t ht
      have hname : arrayWrapperName e ∈ raw.types.map RawType.name := by
        have hfound := List.find?_some ht
        rw [decide_eq_true_iff] at hfound
        rw [← hfound]
        exact List.mem_map_of_mem (List.mem_of_find?_eq_some ht)
      rw [(h.typeOf_ir _).1 hname, hty'] at hty
      cases hty
      exact (wrapperFields_iff hlowered.fields).mp hfields
  · intro hplain
    -- A reference by the name of a wrapper is written as an array.
    have harray : ∀ s ∈ raw.keptRefs, ∀ r, refOf raw.knownNames s = some r → ∀ e,
        r.element = some e → arrayInner s = some e := by
      intro s hs r hres e helement
      obtain rfl := element_eq_some.mp helement
      cases hinner : arrayInner s with
      | some e' =>
        obtain ⟨heq, -⟩ := refOf_of_arrayInner h.notMem_known hinner hres
        rw [arrayWrapperName_injective (ResolvedTypeRef.userDefined.inj heq)]
      | none =>
        obtain ⟨rfl, hknown⟩ := resolvePlainRef_userDefined (refOf_of_not_array hinner hres)
        have hnone := hplain.named _ hs hknown
        rw [arrayElementName_eq_some.mpr rfl] at hnone
        cases hnone
    have hfrom : ∀ r ∈ ir.refs, ∀ e, r.element = some e →
        ∃ s ∈ raw.keptRefs, arrayInner s = some e := by
      intro r hr e helement
      rcases h.kept_of_ref r hr with rfl | ⟨s, hs, hres⟩
      · cases helement
      · exact ⟨s, hs, harray s hs r hres e helement⟩
    refine ⟨fun s hs r hres e => ⟨harray s hs r hres e, fun hinner => ?_⟩,
      fun r hr e helement => ?_, fun r hr e helement => ?_⟩
    · obtain ⟨hres', -, -⟩ := hresolves s hs e hinner
      rw [Option.mem_def, hres'] at hres
      cases hres
      exact element_eq_some.mpr rfl
    · obtain ⟨s, hs, hinner⟩ := hfrom r hr e helement
      have hused : e ∈ raw.usedElements :=
        List.mem_dedup.mpr (List.mem_filterMap.mpr ⟨s, mem_written_of_kept hs, hinner⟩)
      refine ⟨?_, by rw [h.enumNames]; exact hplain.enums s hs e hinner⟩
      by_cases hdeclared : arrayWrapperName e ∈ raw.types.map RawType.name
      · have hnames : arrayWrapperName e ∈ typeNames (declaredTypes raw) := by
          rw [typeNames, h.names]
          exact hdeclared
        obtain ⟨ty, hty, -⟩ := exists_typeOf hnames
        obtain ⟨t, ht, hlowered⟩ := (h.typeOf_declared _).2 ty hty
        refine ⟨ty, by rw [(h.typeOf_ir _).1 hdeclared]; exact hty, ?_⟩
        exact (wrapperFields_iff hlowered.fields).mpr (hplain.types s hs e hinner t ht)
      · exact ⟨_, h.typeOf_wrapper hused hdeclared, rfl⟩
    · obtain ⟨s, hs, hinner⟩ := hfrom r hr e helement
      exact (hresolves s hs e hinner).2.2

/-! ### A type with the name of a wrapper -/

/-- A path of points. -/
def path : RawApiSchema :=
  typesSchema [⟨"Point", [⟨"x", "u32"⟩], none⟩, ⟨"Path", [⟨"points", "Array<Point>"⟩], none⟩]

theorem arraysExact_path : ∃ ir, lowerApi asciiClasses path = .ok ir ∧
    typeNames ir.types = ["Point", "ArrayOf_Point", "Path"] ∧
    (ArraysExact path ir ↔ PlainArrays path) :=
  ⟨typesIr [⟨"Point", [⟨"x", .primitive .u32⟩], none⟩, arrayWrapperType "ArrayOf_Point",
      ⟨"Path", [⟨"points", .userDefined "ArrayOf_Point"⟩], none⟩],
    by decide +kernel, by decide +kernel, arraysExact_iff asciiClasses _ _ (by decide +kernel)⟩

/-- A type that an author named like a wrapper, and a field of it. -/
def namedLikeWrapper : RawApiSchema :=
  typesSchema [⟨"ArrayOf_Point", [⟨"x", "u32"⟩], none⟩, ⟨"Path", [⟨"p", "ArrayOf_Point"⟩], none⟩]

/-- The generators take the field for an array of `Point`, which is no type of the schema. -/
theorem type_taken_for_array : ∃ ir, lowerApi asciiClasses namedLikeWrapper = .ok ir ∧
    "ArrayOf_Point" ∈ namedLikeWrapper.keptRefs ∧
    refOf namedLikeWrapper.knownNames "ArrayOf_Point" = some (.userDefined "ArrayOf_Point") ∧
    (ResolvedTypeRef.userDefined "ArrayOf_Point").element = some "Point" ∧
    arrayInner "ArrayOf_Point" = none ∧
    resolvePlainRef "Point" namedLikeWrapper.knownNames = none ∧
    ¬ ArraysExact namedLikeWrapper ir := by
  refine ⟨typesIr [⟨"ArrayOf_Point", [⟨"x", .primitive .u32⟩], none⟩,
    ⟨"Path", [⟨"p", .userDefined "ArrayOf_Point"⟩], none⟩], by decide +kernel, by decide +kernel,
    by decide +kernel, by decide +kernel, by decide +kernel, by decide +kernel, ?_⟩
  intro h
  obtain ⟨r, hr⟩ := h.element (.userDefined "ArrayOf_Point") (by decide +kernel) "Point"
    (by decide +kernel)
  have hnone : resolvePlainRef "Point" namedLikeWrapper.knownNames = none := by decide +kernel
  rw [hnone] at hr
  cases hr

end PolyPlug.Codegen
