import PolyPlug.Proofs.Codegen.JsLayout

/-!
# `PolyPlug.Proofs.Codegen.JsValues`: the values that a wrapper returns

Three relations, none of which mentions the code that is generated. `Returns` says which types a
wrapper may return here, with their layouts: numbers, enums, strings, and structs and arrays of
these. `ValueOf` says which values an author may return for one. In a struct or an array a string
may stand as a view of memory that the author holds. `ReadsAs` says that the memory from an address
on, read by the C layout, is a value: an array through `items` and `len`, a string through its
pointer and its length. It lists the data that is read outside of the slot, without that memory.

`ReadsAs.frame`: what is read depends on the slot and on that data.
-/

set_option autoImplicit false

namespace PolyPlug.Codegen

open PolyPlug.Lib PolyPlug.Js

/-! ### Numbers -/

/-- The number that `k` bits are in two's complement. -/
def signed (k n : Nat) : Int := if n < 2 ^ (k - 1) then n else n - 2 ^ k

/-- The value is the one of the bits. -/
def PrimitiveType.Bits : PrimitiveType → JsValue → Nat → Prop
  | .u8, v, n   => v = .num n ∧ n < 2 ^ 8
  | .u16, v, n  => v = .num n ∧ n < 2 ^ 16
  | .u32, v, n  => v = .num n ∧ n < 2 ^ 32
  | .i8, v, n   => v = .num (signed 8 n) ∧ n < 2 ^ 8
  | .i16, v, n  => v = .num (signed 16 n) ∧ n < 2 ^ 16
  | .i32, v, n  => v = .num (signed 32 n) ∧ n < 2 ^ 32
  | .f32, v, n  => v = .float32 n ∧ n < 2 ^ 32
  | .f64, v, n  => v = .float64 n ∧ n < 2 ^ 64
  | .bool, v, n => v = .bool (n == 1) ∧ n < 2
  | .u64, v, n  => v.get "lo" = some (.num (n % 2 ^ 32 : Nat)) ∧
      v.get "hi" = some (.num (n / 2 ^ 32 : Nat)) ∧ n < 2 ^ 64
  | .i64, v, n  => v.get "lo" = some (.num (n % 2 ^ 32 : Nat)) ∧
      v.get "hi" = some (.num (n / 2 ^ 32 : Nat)) ∧ n < 2 ^ 64

theorem PrimitiveType.Bits.lt {p : PrimitiveType} {v : JsValue} {n : Nat} (h : p.Bits v n) :
    n < 256 ^ p.jsSize := by
  cases p <;> simp only [PrimitiveType.Bits, PrimitiveType.jsSize] at h ⊢ <;> omega

/-! ### Types -/

/-- The name is that of an array, and its type the wrapper that the array was lowered to. -/
def ArrayOf (ir : ApiIr) (name element : String) : Prop :=
  arrayElementName name = some element ∧ enumNamed ir name = none ∧
    ∃ s, typeNamed ir name = some s ∧ s.fields = (arrayWrapperType name).fields

/-- The types that are built by nesting structs, arrays, strings and numbers. -/
inductive Returns (ir : ApiIr) : ResolvedTypeRef → Layout → Prop
  | primitive (p : PrimitiveType) : Returns ir (.primitive p) p.layout
  | enum {name : String} {e : EnumDef} (henum : enumNamed ir name = some e) :
      Returns ir (.userDefined name) e.repr.layout
  | text : Returns ir (.abiType .stringView) viewLayout
  | array {name element : String} {l : Layout} (harray : ArrayOf ir name element)
      (helement : Returns ir (resolvedTypeRefForName element) l) :
      Returns ir (.userDefined name) viewLayout
  | struct {name : String} {s : ResolvedType} (lay : ResolvedField → Layout)
      (henum : enumNamed ir name = none) (htype : typeNamed ir name = some s)
      (harray : ∀ element, ¬ ArrayOf ir name element)
      (hfields : ∀ f ∈ s.fields, Returns ir f.ty (lay f)) :
      Returns ir (.userDefined name) (structLayout (s.fields.map lay))

/-- The wrapper of an array is a struct of two 64-bit words. -/
theorem ArrayOf.hasLayout {ir : ApiIr} {name element : String} (harray : ArrayOf ir name element) :
    HasLayout ir (.userDefined name) viewLayout := by
  obtain ⟨-, henum, s, htype, hfields⟩ := harray
  have hlayout : viewLayout = structLayout (s.fields.map fun _ => PrimitiveType.u64.layout) := by
    rw [hfields]
    show viewLayout = structLayout [natural 3, natural 3]
    exact Layout.ext (by decide) (by decide)
  rw [hlayout]
  refine .struct _ henum htype fun f hf => ?_
  have hty : f.ty = .primitive .u64 := by
    rw [hfields] at hf
    simp only [arrayWrapperType, List.mem_cons, List.not_mem_nil, or_false] at hf
    rcases hf with rfl | rfl <;> rfl
  rw [hty]
  exact .primitive .u64

theorem Returns.hasLayout {ir : ApiIr} {ty : ResolvedTypeRef} {l : Layout} (h : Returns ir ty l) :
    HasLayout ir ty l := by
  induction h with
  | primitive p => exact .primitive p
  | enum henum => exact .enum henum
  | text => exact .abiType .stringView
  | array harray _ _ => exact harray.hasLayout
  | struct lay henum htype _ _ ih => exact .struct lay henum htype ih

/-- The names of structs and enums that are met in a type. -/
inductive Reaches (ir : ApiIr) : ResolvedTypeRef → String → Prop
  | here (name : String) : Reaches ir (.userDefined name) name
  | field {name met : String} {s : ResolvedType} {f : ResolvedField}
      (htype : typeNamed ir name = some s) (hf : f ∈ s.fields) (h : Reaches ir f.ty met) :
      Reaches ir (.userDefined name) met
  | element {name met element : String} (harray : ArrayOf ir name element)
      (h : Reaches ir (resolvedTypeRefForName element) met) : Reaches ir (.userDefined name) met

/-- No struct or enum that is met in a type has the name of an array. -/
def Untaken (ir : ApiIr) (ty : ResolvedTypeRef) : Prop :=
  ∀ name element, Reaches ir ty name → arrayElementName name = some element →
    ArrayOf ir name element

section
variable {ir : ApiIr} {name e : String} {s : ResolvedType} {f : ResolvedField}

theorem Untaken.field (h : Untaken ir (.userDefined name)) (htype : typeNamed ir name = some s)
    (hf : f ∈ s.fields) : Untaken ir f.ty := fun met element hmet =>
  h met element (.field htype hf hmet)

theorem Untaken.element (h : Untaken ir (.userDefined name)) (harray : ArrayOf ir name e) :
    Untaken ir (resolvedTypeRefForName e) := fun met other hmet =>
  h met other (.element harray hmet)

/-- A name that no array has is not taken for one. -/
theorem Untaken.plain (h : Untaken ir (.userDefined name))
    (hplain : ∀ element, ¬ ArrayOf ir name element) : arrayElementName name = none := by
  cases hname : arrayElementName name with
  | none => rfl
  | some element => exact absurd (h name element (.here name) hname) (hplain element)

theorem untaken_primitive (p : PrimitiveType) : Untaken ir (.primitive p) := by
  intro met other hreach
  cases hreach

theorem untaken_abiType (b : AbiBuiltin) : Untaken ir (.abiType b) := by
  intro met other hreach
  cases hreach

/-- In the wrapper of an array nothing else is met. -/
theorem untaken_array (harray : ArrayOf ir name e)
    (h : Untaken ir (resolvedTypeRefForName e)) : Untaken ir (.userDefined name) := by
  intro met other hreach hmet
  cases hreach with
  | here =>
    rw [harray.1] at hmet
    obtain rfl := Option.some.inj hmet
    exact harray
  | @field _ _ s f htype hf hreach =>
    obtain ⟨-, -, s', htype', hfields⟩ := harray
    rw [htype'] at htype
    obtain rfl := Option.some.inj htype
    rw [hfields] at hf
    rcases List.mem_cons.mp hf with rfl | hf
    · exact untaken_primitive .u64 met other hreach hmet
    · obtain rfl := List.mem_singleton.mp hf
      exact untaken_primitive .u64 met other hreach hmet
  | @element _ _ element' harray' hreach =>
    have hname := harray'.1
    rw [harray.1] at hname
    obtain rfl := Option.some.inj hname
    exact h met other hreach hmet

/-- In a struct the fields are met. -/
theorem untaken_struct (hname : arrayElementName name = none) (htype : typeNamed ir name = some s)
    (hfields : ∀ f ∈ s.fields, Untaken ir f.ty) : Untaken ir (.userDefined name) := by
  intro met other hreach hmet
  cases hreach with
  | here =>
    rw [hname] at hmet
    cases hmet
  | @field _ _ s' f htype' hf hreach =>
    rw [htype] at htype'
    obtain rfl := Option.some.inj htype'
    exact hfields f hf met other hreach hmet
  | element harray =>
    have hnone := harray.1
    rw [hname] at hnone
    cases hnone

end

/-! ### Values -/

/-- Which bytes stand for a string of code units, and which memory an author holds. A view of it
may be returned in place of a string. -/
structure TextEncoding where
  bytes : List UInt16 → List UInt8 → Prop
  held : Region → Prop

/-- UTF-8, of strings without unpaired halves. No memory is held. -/
def utf8 : TextEncoding where
  bytes units bytes := Paired units = true ∧ bytes = textEncode units
  held _ := False

/-- The values of a type. -/
inductive ValueOf (ir : ApiIr) (te : TextEncoding) : ResolvedTypeRef → JsValue → Prop
  | primitive {p : PrimitiveType} {v : JsValue} {n : Nat} (hbits : p.Bits v n) :
      ValueOf ir te (.primitive p) v
  | enum {name : String} {e : EnumDef} {n : Nat} (henum : enumNamed ir name = some e)
      (hlt : n < 256 ^ jsReprSize e.repr) (hexact : n < 2 ^ 53) :
      ValueOf ir te (.userDefined name) (.num n)
  | text {units : List UInt16} {bytes : List UInt8} (hbytes : te.bytes units bytes)
      (hlt : bytes.length < 2 ^ 32) :
      ValueOf ir te (.abiType .stringView) (.str units)
  | view {v : JsValue} {p n : Nat} (hlo : v.get "ptr_lo" = some (.num (p % 2 ^ 32 : Nat)))
      (hhi : v.get "ptr_hi" = some (.num (p / 2 ^ 32 : Nat))) (hlen : v.get "len" = some (.num n))
      (hp : p < 2 ^ 64) (hn : n < 2 ^ 32) (hheld : te.held ⟨p, n⟩) :
      ValueOf ir te (.abiType .stringView) v
  | array {name element : String} {l : Layout} {elems : List JsValue}
      (harray : ArrayOf ir name element) (hl : HasLayout ir (resolvedTypeRefForName element) l)
      (hcount : elems.length < 2 ^ 32) (hlt : elems.length * l.size + (l.align - 1) < 2 ^ 32)
      (helems : ∀ v ∈ elems, ValueOf ir te (resolvedTypeRefForName element) v) :
      ValueOf ir te (.userDefined name) (.arr elems)
  | struct {name : String} {s : ResolvedType} {v : JsValue} (val : ResolvedField → JsValue)
      (henum : enumNamed ir name = none) (htype : typeNamed ir name = some s)
      (harray : ∀ element, ¬ ArrayOf ir name element)
      (hget : ∀ f ∈ s.fields, v.get f.name = some (val f))
      (hfields : ∀ f ∈ s.fields, ValueOf ir te f.ty (val f)) :
      ValueOf ir te (.userDefined name) v

/-! ### Memory -/

/-- Data outside of the slot: where it is, and its alignment. -/
structure Data where
  region : Region
  align : Nat

/-- The data of an array, if its elements have bytes. -/
def arrayData (items : Nat) (elems : List JsValue) (l : Layout) : List Data :=
  if elems.length * l.size = 0 then [] else [⟨⟨items, elems.length * l.size⟩, l.align⟩]

/-- What is read at an address by the C layout is a value, with data elsewhere. -/
inductive ReadsAs (ir : ApiIr) (te : TextEncoding) (m : Memory) :
    ResolvedTypeRef → Layout → Nat → JsValue → List Data → Prop
  | primitive {p : PrimitiveType} {a : Nat} {v : JsValue} (hbits : p.Bits v (m.read a p.jsSize)) :
      ReadsAs ir te m (.primitive p) p.layout a v []
  | enum {name : String} {e : EnumDef} {a : Nat} (henum : enumNamed ir name = some e) :
      ReadsAs ir te m (.userDefined name) e.repr.layout a (.num (m.read a (jsReprSize e.repr))) []
  | text {a : Nat} {units : List UInt16}
      (hbytes : te.bytes units (m.bytes (m.read a 8) (m.read (a + 8) 8))) :
      ReadsAs ir te m (.abiType .stringView) viewLayout a (.str units)
        [⟨⟨m.read a 8, m.read (a + 8) 8⟩, 1⟩]
  | view {a : Nat} {v : JsValue} (hlo : v.get "ptr_lo" = some (.num (m.read a 8 % 2 ^ 32 : Nat)))
      (hhi : v.get "ptr_hi" = some (.num (m.read a 8 / 2 ^ 32 : Nat)))
      (hlen : v.get "len" = some (.num (m.read (a + 8) 8)))
      (hheld : te.held ⟨m.read a 8, m.read (a + 8) 8⟩) :
      ReadsAs ir te m (.abiType .stringView) viewLayout a v []
  | array {name element : String} {l : Layout} {a : Nat} {elems : List JsValue}
      {data : List (List Data)} (harray : ArrayOf ir name element)
      (hl : HasLayout ir (resolvedTypeRefForName element) l)
      (haligned : l.align ∣ m.read a 8) (hlength : m.read (a + 8) 8 = elems.length)
      (hdata : data.length = elems.length)
      (helems : ∀ (i : Nat) v d, elems[i]? = some v → data[i]? = some d →
        ReadsAs ir te m (resolvedTypeRefForName element) l (m.read a 8 + i * l.size) v d) :
      ReadsAs ir te m (.userDefined name) viewLayout a (.arr elems)
        (arrayData (m.read a 8) elems l ++ data.flatten)
  | struct {name : String} {s : ResolvedType} {a : Nat} {v : JsValue}
      {data : List (List Data)} (lay : ResolvedField → Layout) (val : ResolvedField → JsValue)
      (henum : enumNamed ir name = none) (htype : typeNamed ir name = some s)
      (harray : ∀ element, ¬ ArrayOf ir name element)
      (hget : ∀ f ∈ s.fields, v.get f.name = some (val f)) (hdata : data.length = s.fields.length)
      (hfields : ∀ (i : Nat) f o d, s.fields[i]? = some f →
        (place 0 (s.fields.map lay))[i]? = some o →
        data[i]? = some d → ReadsAs ir te m f.ty (lay f) (a + o) (val f) d) :
      ReadsAs ir te m (.userDefined name) (structLayout (s.fields.map lay)) a v data.flatten

section
variable {ir : ApiIr} {te : TextEncoding} {m m' : Memory} {ty : ResolvedTypeRef} {l : Layout}
  {a : Nat} {v : JsValue} {data : List Data}

/-- A field stands inside of its struct. -/
theorem field_subset {lays : List Layout} {i o : Nat} (ho : (place 0 lays)[i]? = some o)
    (hl : lays[i]? = some l) :
    Region.span ⟨a + o, l.size⟩ ⊆ Region.span ⟨a, (structLayout lays).size⟩ := by
  obtain ⟨-, -, hstop⟩ := place_spec ho hl
  have hsize := stop_le_size lays
  refine Region.span_subset (Nat.le_add_right a o) ?_
  show a + o + l.size ≤ a + (structLayout lays).size
  omega

/-- An element stands inside of the data of its array. -/
theorem element_subset {elems : List JsValue} {items i : Nat} (hi : i < elems.length) :
    Region.span ⟨items + i * l.size, l.size⟩ ⊆ Region.span ⟨items, elems.length * l.size⟩ := by
  refine Region.span_subset (Nat.le_add_right items _) ?_
  have hnext := Nat.mul_le_mul_right l.size (show i + 1 ≤ elems.length from hi)
  rw [Nat.add_mul] at hnext
  show items + i * l.size + l.size ≤ items + elems.length * l.size
  omega

/-- The pointer and the length of a view. -/
theorem view_congr (h : m.Agree m' ⟨a, viewLayout.size⟩) :
    m'.read a 8 = m.read a 8 ∧ m'.read (a + 8) 8 = m.read (a + 8) 8 :=
  ⟨Memory.read_congr (h.mono
    (Region.span_subset (le_refl a) (Nat.add_le_add_left (show 8 ≤ 16 by omega) a))),
    Memory.read_congr (h.mono (Region.span_subset (Nat.le_add_right a 8) (le_refl (a + 16))))⟩

/-- What is read depends on the slot and on the data. -/
theorem ReadsAs.frame (h : ReadsAs ir te m ty l a v data) (hslot : m.Agree m' ⟨a, l.size⟩)
    (hdata : ∀ d ∈ data, m.Agree m' d.region) : ReadsAs ir te m' ty l a v data := by
  induction h with
  | @primitive p a v hbits =>
    rw [p.layout_size] at hslot
    rw [← Memory.read_congr hslot] at hbits
    exact .primitive hbits
  | @enum name e a henum =>
    rw [e.repr.layout_size] at hslot
    rw [← Memory.read_congr hslot]
    exact .enum henum
  | @text a units hbytes =>
    obtain ⟨hptr, hlen⟩ := view_congr hslot
    have hread : te.bytes units (m'.bytes (m'.read a 8) (m'.read (a + 8) 8)) := by
      rw [hptr, hlen, Memory.bytes_congr (hdata _ List.mem_cons_self)]
      exact hbytes
    rw [← hptr, ← hlen]
    exact .text hread
  | @view a v hlo hhi hlen hheld =>
    obtain ⟨hptr, hcount⟩ := view_congr hslot
    rw [← hptr] at hlo hhi hheld
    rw [← hcount] at hlen hheld
    exact .view hlo hhi hlen hheld
  | @array name element l a elems data harray hl haligned hlength hlen helems ih =>
    obtain ⟨hptr, hcount⟩ := view_congr hslot
    rw [← hptr] at haligned ⊢
    refine .array harray hl haligned (hcount.trans hlength) hlen fun i v d hv hd => ?_
    have hi : i < elems.length := (List.getElem?_eq_some_iff.mp hv).1
    have hitems : m.Agree m' ⟨m.read a 8, elems.length * l.size⟩ := by
      by_cases hbytes : elems.length * l.size = 0
      · rw [hbytes]
        exact Memory.agree_empty
      · refine hdata ⟨_, l.align⟩ (List.mem_append_left _ ?_)
        rw [arrayData, if_neg hbytes]
        exact List.mem_cons_self
    rw [hptr]
    refine ih i v d hv hd (hitems.mono (element_subset hi)) fun e he => ?_
    exact hdata e (List.mem_append_right _ (List.mem_flatten.mpr ⟨d, List.mem_of_getElem? hd, he⟩))
  | @struct name s a v data lay val henum htype harray hget hlen hfields ih =>
    refine .struct lay val henum htype harray hget hlen fun i f o d hf ho hd => ?_
    have hl : (s.fields.map lay)[i]? = some (lay f) := by rw [List.getElem?_map, hf]; rfl
    refine ih i f o d hf ho hd (hslot.mono (field_subset ho hl)) fun e he => ?_
    exact hdata e (List.mem_flatten.mpr ⟨d, List.mem_of_getElem? hd, he⟩)

/-- What is read has the layout of its type. -/
theorem ReadsAs.hasLayout (h : ReadsAs ir te m ty l a v data) : HasLayout ir ty l := by
  induction h with
  | primitive _ => exact .primitive _
  | enum henum => exact .enum henum
  | text _ => exact .abiType .stringView
  | view _ _ _ _ => exact .abiType .stringView
  | array harray _ _ _ _ _ _ => exact harray.hasLayout
  | @struct name s a v data lay val henum htype _ _ hdata _ ih =>
    refine .struct lay henum htype fun f hf => ?_
    obtain ⟨i, hi, rfl⟩ := List.mem_iff_getElem.mp hf
    have hplace : i < (place 0 (s.fields.map lay)).length := by
      rw [length_place, List.length_map]
      exact hi
    exact ih i _ _ _ (List.getElem?_eq_getElem hi) (List.getElem?_eq_getElem hplace)
      (List.getElem?_eq_getElem (hdata ▸ hi))

/-- An enum is read without data. -/
theorem reads_enum {name : String} {e : EnumDef} (henum : enumNamed ir name = some e)
    (h : ReadsAs ir te m (.userDefined name) l a v data) : data = [] := by
  cases h with
  | enum _ => rfl
  | array harray =>
    rw [harray.2.1] at henum
    cases henum
  | struct _ _ hnone =>
    rw [hnone] at henum
    cases henum

/-- An array is read with the data of its elements. -/
theorem reads_array {name element : String} (harray : ArrayOf ir name element)
    (h : ReadsAs ir te m (.userDefined name) l a v data) :
    ∃ (elems : List JsValue) (l' : Layout) (parts : List (List Data)), v = .arr elems ∧
      HasLayout ir (resolvedTypeRefForName element) l' ∧ parts.length = elems.length ∧
      data = arrayData (m.read a 8) elems l' ++ parts.flatten ∧
      ∀ (i : Nat) w d, elems[i]? = some w → parts[i]? = some d →
        ReadsAs ir te m (resolvedTypeRefForName element) l' (m.read a 8 + i * l'.size) w d := by
  cases h with
  | enum henum =>
    rw [harray.2.1] at henum
    cases henum
  | @array _ element' l' _ elems parts harray' hl _ _ hlength helems =>
    have hname := harray'.1
    rw [harray.1] at hname
    obtain rfl := Option.some.inj hname
    exact ⟨elems, l', parts, rfl, hl, hlength, rfl, helems⟩
  | struct _ _ _ _ hplain => exact absurd harray (hplain element)

/-- A struct is read field by field, with the layouts of the fields. -/
theorem reads_struct {name : String} {s : ResolvedType} {lay : ResolvedField → Layout}
    (henum : enumNamed ir name = none) (htype : typeNamed ir name = some s)
    (hplain : ∀ element, ¬ ArrayOf ir name element)
    (hlay : ∀ f ∈ s.fields, HasLayout ir f.ty (lay f))
    (h : ReadsAs ir te m (.userDefined name) l a v data) :
    ∃ (val : ResolvedField → JsValue) (parts : List (List Data)),
      (∀ f ∈ s.fields, v.get f.name = some (val f)) ∧ parts.length = s.fields.length ∧
      data = parts.flatten ∧
      ∀ (i : Nat) f o d, s.fields[i]? = some f → (place 0 (s.fields.map lay))[i]? = some o →
        parts[i]? = some d → ReadsAs ir te m f.ty (lay f) (a + o) (val f) d := by
  cases h with
  | enum henum' =>
    rw [henum] at henum'
    cases henum'
  | array harray => exact absurd harray (hplain _)
  | @struct _ s' _ _ parts lay' val _ htype' _ hget hlength hfields =>
    rw [htype] at htype'
    obtain rfl := Option.some.inj htype'
    have hmap : ∀ f ∈ s.fields, lay' f = lay f := by
      intro f hf
      obtain ⟨i, hi, rfl⟩ := List.mem_iff_getElem.mp hf
      have hplace : i < (place 0 (s.fields.map lay')).length := by
        rw [length_place, List.length_map]
        exact hi
      exact (hfields i _ _ _ (List.getElem?_eq_getElem hi) (List.getElem?_eq_getElem hplace)
        (List.getElem?_eq_getElem (hlength ▸ hi))).hasLayout.unique (hlay _ hf)
    refine ⟨val, parts, hget, hlength, rfl, fun i f o d hf ho hd => ?_⟩
    rw [← List.map_congr_left hmap] at ho
    rw [← hmap f (List.mem_of_getElem? hf)]
    exact hfields i f o d hf ho hd

/-- A value without bytes has no data. -/
theorem reads_no_bytes (h : ReadsAs ir te m ty l a v data) (hsize : l.size = 0) : data = [] := by
  induction h with
  | primitive _ => rfl
  | enum _ => rfl
  | text _ => cases hsize
  | view _ _ _ _ => rfl
  | array _ _ _ _ _ _ _ => cases hsize
  | @struct name s a v data lay val _ _ _ _ hlength _ ih =>
    refine List.flatten_eq_nil_iff.mpr fun d hd => ?_
    obtain ⟨i, hi, rfl⟩ := List.mem_iff_getElem.mp hd
    have hf : i < s.fields.length := hlength ▸ hi
    have hplace : i < (place 0 (s.fields.map lay)).length := by
      rw [length_place, List.length_map]
      exact hf
    refine ih i _ _ _ (List.getElem?_eq_getElem hf) (List.getElem?_eq_getElem hplace)
      (List.getElem?_eq_getElem hi) ?_
    have hlay : lay s.fields[i] ∈ s.fields.map lay :=
      List.mem_map_of_mem (List.getElem_mem hf)
    exact size_eq_zero_of_structLayout hsize hlay

end

end PolyPlug.Codegen
