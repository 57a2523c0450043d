import PolyPlug.Codegen.JsMarshal
import PolyPlug.Lib.CLayout

/-!
# `PolyPlug.Proofs.Codegen.JsLayout`: the generator computes the sizes of C

`HasLayout` gives the layout that C gives to a type of the API: natural alignment, an enum as its
representation, and a struct by the rule for structs. `jsCAlign` and `jsCSize` compute it wherever
there is one, with enough fuel (`layout_computed`). There is one unless a struct contains itself or
a name is unknown.
-/

set_option autoImplicit false

namespace PolyPlug.Codegen

open PolyPlug.Lib

/-! ### Layouts -/

/-- The layout of a primitive. -/
def PrimitiveType.layout : PrimitiveType → Layout
  | .u8   => natural 0
  | .i8   => natural 0
  | .bool => natural 0
  | .u16  => natural 1
  | .i16  => natural 1
  | .u32  => natural 2
  | .i32  => natural 2
  | .f32  => natural 2
  | .u64  => natural 3
  | .i64  => natural 3
  | .f64  => natural 3

/-- The layout of an enum. -/
def ReprType.layout : ReprType → Layout
  | .u8  => natural 0
  | .u16 => natural 1
  | .u32 => natural 2
  | .u64 => natural 3

/-- A pointer and a length. -/
def viewLayout : Layout := ⟨16, 8, ⟨3, rfl⟩, ⟨2, rfl⟩⟩

/-- The layout of a type of the ABI. -/
def AbiBuiltin.layout : AbiBuiltin → Layout
  | .stringView => viewLayout
  | .buffer     => ⟨24, 8, ⟨3, rfl⟩, ⟨3, rfl⟩⟩
  | .ptr        => natural 3
  | .void       => ⟨0, 1, ⟨0, rfl⟩, ⟨0, rfl⟩⟩

@[simp] theorem PrimitiveType.layout_size (p : PrimitiveType) : p.layout.size = p.jsSize := by
  cases p <;> rfl

@[simp] theorem PrimitiveType.layout_align (p : PrimitiveType) : p.layout.align = p.jsSize := by
  cases p <;> rfl

@[simp] theorem ReprType.layout_size (r : ReprType) : r.layout.size = jsReprSize r := by
  cases r <;> rfl

@[simp] theorem ReprType.layout_align (r : ReprType) : r.layout.align = jsReprSize r := by
  cases r <;> rfl

/-- The C layout of a type. A struct has one if its fields have. -/
inductive HasLayout (ir : ApiIr) : ResolvedTypeRef → Layout → Prop
  | primitive (p : PrimitiveType) : HasLayout ir (.primitive p) p.layout
  | abiType (b : AbiBuiltin) : HasLayout ir (.abiType b) b.layout
  | enum {name : String} {e : EnumDef} (henum : enumNamed ir name = some e) :
      HasLayout ir (.userDefined name) e.repr.layout
  | struct {name : String} {s : ResolvedType} (lay : ResolvedField → Layout)
      (henum : enumNamed ir name = none) (htype : typeNamed ir name = some s)
      (hfields : ∀ f ∈ s.fields, HasLayout ir f.ty (lay f)) :
      HasLayout ir (.userDefined name) (structLayout (s.fields.map lay))

/-- A type without bytes has no alignment. -/
theorem HasLayout.align_eq_one {ir : ApiIr} {ty : ResolvedTypeRef} {l : Layout}
    (h : HasLayout ir ty l) (hsize : l.size = 0) : l.align = 1 := by
  induction h with
  | primitive p => cases p <;> cases hsize
  | abiType b =>
    cases b with
    | void => rfl
    | stringView => cases hsize
    | buffer => cases hsize
    | ptr => cases hsize
  | @enum name e _ =>
    rw [e.repr.layout_size] at hsize
    cases hrepr : e.repr <;> rw [hrepr] at hsize <;> cases hsize
  | @struct name s lay _ _ _ ih =>
    refine align_structLayout hsize fun l hl hl0 => ?_
    obtain ⟨f, hf, rfl⟩ := List.mem_map.mp hl
    exact ih f hf hl0

/-! ### The sizes that are computed -/

theorem jsAlignUp_eq {a : Nat} (offset : Nat) (ha : 0 < a) :
    jsAlignUp offset a = roundUp offset a :=
  if_neg (by omega)

/-- Enough for each of them is enough for all. -/
theorem exists_common_bound {α : Type} {P : α → Nat → Prop} {xs : List α}
    (h : ∀ x ∈ xs, ∃ N, ∀ n, N ≤ n → P x n) : ∃ N, ∀ n, N ≤ n → ∀ x ∈ xs, P x n := by
  induction xs with
  | nil => exact ⟨0, fun _ _ x hx => absurd hx List.not_mem_nil⟩
  | cons y ys ih =>
    obtain ⟨N, hN⟩ := h y List.mem_cons_self
    obtain ⟨M, hM⟩ := ih fun x hx => h x (List.mem_cons_of_mem y hx)
    refine ⟨max N M, fun n hn x hx => ?_⟩
    rcases List.mem_cons.mp hx with rfl | hx
    · exact hN n (by omega)
    · exact hM n (by omega) x hx

/-- The layout of a type is computed. -/
def Computed (ir : ApiIr) (fuel : Nat) (ty : ResolvedTypeRef) (l : Layout) : Prop :=
  jsCAlign ir fuel ty = .ok l.align ∧ jsCSize ir fuel ty = .ok l.size

section
variable {ir : ApiIr} {fuel : Nat} {lay : ResolvedField → Layout} {fields : List ResolvedField}

/-- The loop of `js_c_align` over the fields. -/
theorem foldlM_align (h : ∀ f ∈ fields, Computed ir fuel f.ty (lay f)) {start : Nat}
    (hstart : 1 ≤ start) :
    (fields.foldlM (fun maxAlign field => do
      let a ← jsCAlign ir fuel field.ty
      .ok (if a > maxAlign then a else maxAlign)) start : Except JsGenError Nat) =
      .ok (max start (maxAlign (fields.map lay))) := by
  induction fields generalizing start with
  | nil =>
    show Except.ok start = Except.ok (max start 1)
    rw [max_eq_left hstart]
  | cons f fs ih =>
    have hmax : (if (lay f).align > start then (lay f).align else start) =
        max start (lay f).align := by
      split <;> omega
    rw [List.foldlM_cons, (h f List.mem_cons_self).1]
    show List.foldlM _ (if (lay f).align > start then (lay f).align else start) fs = _
    rw [hmax, ih (fun g hg => h g (List.mem_cons_of_mem f hg)) (by omega), List.map_cons, maxAlign,
      max_assoc]

/-- The loop of `js_c_size` over the fields. -/
theorem foldlM_size (h : ∀ f ∈ fields, Computed ir fuel f.ty (lay f)) {start m : Nat}
    (hm : 1 ≤ m) :
    (fields.foldlM (fun (ends : Nat × Nat) field => do
      let a ← jsCAlign ir fuel field.ty
      let size ← jsCSize ir fuel field.ty
      .ok (jsAlignUp ends.1 a + size, if a > ends.2 then a else ends.2)) (start, m) :
      Except JsGenError (Nat × Nat)) =
      .ok (stop start (fields.map lay), max m (maxAlign (fields.map lay))) := by
  induction fields generalizing start m with
  | nil =>
    show Except.ok (start, m) = Except.ok (start, max m 1)
    rw [max_eq_left hm]
  | cons f fs ih =>
    have hmax : (if (lay f).align > m then (lay f).align else m) = max m (lay f).align := by
      split <;> omega
    obtain ⟨halign, hsize⟩ := h f List.mem_cons_self
    rw [List.foldlM_cons, halign, hsize]
    show List.foldlM _ (jsAlignUp start (lay f).align + (lay f).size,
      if (lay f).align > m then (lay f).align else m) fs = _
    rw [hmax, jsAlignUp_eq start (lay f).align_pos,
      ih (fun g hg => h g (List.mem_cons_of_mem f hg)) (by omega), List.map_cons, maxAlign,
      max_assoc, stop]

end

/-- The generator computes the layout that C gives. -/
theorem layout_computed {ir : ApiIr} {ty : ResolvedTypeRef} {l : Layout} (h : HasLayout ir ty l) :
    ∃ N, ∀ fuel, N ≤ fuel → Computed ir fuel ty l := by
  induction h with
  | primitive p =>
    refine ⟨1, fun fuel hfuel => ?_⟩
    obtain ⟨fuel, rfl⟩ := Nat.exists_eq_add_of_le' hfuel
    exact ⟨by rw [jsCAlign, p.layout_align], by rw [jsCSize, p.layout_size]⟩
  | abiType b =>
    refine ⟨1, fun fuel hfuel => ?_⟩
    obtain ⟨fuel, rfl⟩ := Nat.exists_eq_add_of_le' hfuel
    cases b <;> exact ⟨rfl, rfl⟩
  | @enum name e henum =>
    refine ⟨1, fun fuel hfuel => ?_⟩
    obtain ⟨fuel, rfl⟩ := Nat.exists_eq_add_of_le' hfuel
    constructor
    · simp only [jsCAlign, henum, e.repr.layout_align]
    · simp only [jsCSize, henum, e.repr.layout_size]
  | @struct name s lay henum htype _ ih =>
    obtain ⟨N, hN⟩ := exists_common_bound ih
    refine ⟨N + 1, fun fuel hfuel => ?_⟩
    obtain ⟨fuel, rfl⟩ := Nat.exists_eq_add_one_of_ne_zero (by omega : fuel ≠ 0)
    have hfields := hN fuel (by omega)
    have hpos := (structLayout (s.fields.map lay)).align_pos
    have hone : 1 ≤ maxAlign (s.fields.map lay) := hpos
    constructor
    · simp only [jsCAlign, henum, htype]
      rw [foldlM_align hfields (le_refl 1), max_eq_right hone]
      rfl
    · simp only [jsCSize, henum, htype]
      rw [foldlM_size hfields (le_refl 1), max_eq_right hone]
      exact congrArg Except.ok (jsAlignUp_eq _ hpos)

/-- A type has one layout. -/
theorem HasLayout.unique {ir : ApiIr} {ty : ResolvedTypeRef} {l l' : Layout}
    (h : HasLayout ir ty l) (h' : HasLayout ir ty l') : l = l' := by
  obtain ⟨N, hN⟩ := layout_computed h
  obtain ⟨M, hM⟩ := layout_computed h'
  obtain ⟨halign, hsize⟩ := hN (max N M) (by omega)
  obtain ⟨halign', hsize'⟩ := hM (max N M) (by omega)
  rw [halign] at halign'
  rw [hsize] at hsize'
  exact Layout.ext (Except.ok.inj hsize') (Except.ok.inj halign')

end PolyPlug.Codegen
