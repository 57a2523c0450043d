import PolyPlug.Codegen.DenoRead
import PolyPlug.Proofs.Codegen.JsReturns

/-!
# `PolyPlug.Proofs.Codegen.DenoFrees`: who frees what a call returned

The wrapper allocates a block for each string and each array it returns, and the caller sees
pointers and lengths only. It frees the bytes of each string that has some (`FreesWhen`). So all
blocks of a call are freed exactly when every string of the value has bytes and no array has any
(`payloads_freed_iff`): an empty string has a block of one byte that nothing frees, and an array is
read as its pointer and its length. A view that stands in place of a string is freed as well, but it
is no block of the wrapper's.
-/

set_option autoImplicit false

namespace PolyPlug.Codegen

open PolyPlug.Lib PolyPlug.Js

/-! ### What is freed -/

/-- The block was freed once, as it was allocated, and not read afterwards. -/
def FreedOnce (events : List PayloadEvent) (r : Region) : Prop :=
  ∃ before after, events = before ++ .free r.start r.size 1 :: after ∧
    (∀ size align, .free r.start size align ∉ before ++ after) ∧
    ∀ s, .read s ∈ after → Disjoint s.span r.span

/-- Every block was. -/
def AllFreed (events : List PayloadEvent) (blocks : List Region) : Prop :=
  ∀ r ∈ blocks, FreedOnce events r

/-- The bytes of each string as the wrapper encodes it, and the memory that the author holds. -/
def encodedBy (hasTextEncoder : Bool) (held : Region → Prop) : TextEncoding where
  bytes units bytes := bytes = ppEncodeUtf8 hasTextEncoder units
  held := held

/-- The strings of a value have bytes, and its arrays have none. -/
inductive Freeable (ir : ApiIr) : ResolvedTypeRef → JsValue → Prop
  | primitive (p : PrimitiveType) (v : JsValue) : Freeable ir (.primitive p) v
  | enum {name : String} {e : EnumDef} (henum : enumNamed ir name = some e) (v : JsValue) :
      Freeable ir (.userDefined name) v
  | text {units : List UInt16} (hne : units ≠ []) : Freeable ir (.abiType .stringView) (.str units)
  | view {v : JsValue} (hview : ∀ units, v ≠ .str units) : Freeable ir (.abiType .stringView) v
  | array {name element : String} {l : Layout} {elems : List JsValue}
      (harray : ArrayOf ir name element) (hl : HasLayout ir (resolvedTypeRefForName element) l)
      (hnone : elems.length * l.size = 0) : Freeable ir (.userDefined name) (.arr elems)
  | struct {name : String} {s : ResolvedType} {v : JsValue} (val : ResolvedField → JsValue)
      (henum : enumNamed ir name = none) (htype : typeNamed ir name = some s)
      (harray : ∀ element, ¬ ArrayOf ir name element)
      (hget : ∀ f ∈ s.fields, v.get f.name = some (val f))
      (hfields : ∀ f ∈ s.fields, Freeable ir f.ty (val f)) : Freeable ir (.userDefined name) v

section
variable {ir : ApiIr} {name element : String}

theorem freeable_array (harray : ArrayOf ir name element) {elems : List JsValue} {l : Layout}
    (hl : HasLayout ir (resolvedTypeRefForName element) l) :
    Freeable ir (.userDefined name) (.arr elems) ↔ elems.length * l.size = 0 := by
  constructor
  · intro h
    cases h with
    | enum henum =>
      rw [harray.2.1] at henum
      cases henum
    | @array _ element' l' _ harray' hl' hnone =>
      have hname := harray'.1
      rw [harray.1] at hname
      obtain rfl := Option.some.inj hname
      obtain rfl := hl.unique hl'
      exact hnone
    | struct _ _ _ hplain => exact absurd harray (hplain element)
  · exact fun hnone => .array harray hl hnone

theorem freeable_struct {s : ResolvedType} {v : JsValue} {val : ResolvedField → JsValue}
    (henum : enumNamed ir name = none) (htype : typeNamed ir name = some s)
    (hplain : ∀ element, ¬ ArrayOf ir name element)
    (hget : ∀ f ∈ s.fields, v.get f.name = some (val f)) :
    Freeable ir (.userDefined name) v ↔ ∀ f ∈ s.fields, Freeable ir f.ty (val f) := by
  constructor
  · intro h f hf
    cases h with
    | enum henum' =>
      rw [henum] at henum'
      cases henum'
    | array harray _ _ => exact absurd harray (hplain _)
    | @struct _ s' _ val' _ htype' _ hget' hfields =>
      rw [htype] at htype'
      obtain rfl := Option.some.inj htype'
      have hval := hget f hf
      rw [hget' f hf] at hval
      rw [← Option.some.inj hval]
      exact hfields f hf
  · exact fun hfields => .struct val henum htype hplain hget hfields

end

/-! ### Copies -/

/-- A region that is copied and freed, and whether it is data of the value or memory that the author
holds. -/
structure Copy where
  region : Region
  own : Bool

/-- Regions that are copied and then freed, one after the other. -/
def copies (cs : List Copy) : List PayloadEvent :=
  cs.flatMap fun c => [.read c.region, .free c.region.start c.region.size 1]

/-- The data among them. -/
def owned (cs : List Copy) : List Region := (cs.filter Copy.own).map Copy.region

section
variable {cs cs' : List Copy} {c : Copy} {r s : Region} {data data' : List Data} {P Q : Prop}
  {held : Region → Prop}

theorem copies_append (cs cs' : List Copy) : copies (cs ++ cs') = copies cs ++ copies cs' :=
  List.flatMap_append

theorem owned_append (cs cs' : List Copy) : owned (cs ++ cs') = owned cs ++ owned cs' := by
  rw [owned, List.filter_append, List.map_append]
  rfl

theorem mem_owned : r ∈ owned cs ↔ ∃ c ∈ cs, c.own = true ∧ c.region = r := by
  simp only [owned, List.mem_map, List.mem_filter, and_assoc]

theorem read_mem_copies (h : .read s ∈ copies cs) : ∃ c ∈ cs, c.region = s := by
  obtain ⟨c, hc, hs⟩ := List.mem_flatMap.mp h
  simp only [List.mem_cons, PayloadEvent.read.injEq, List.not_mem_nil, or_false, reduceCtorEq] at hs
  exact ⟨c, hc, hs.symm⟩

theorem free_mem_copies {ptr size align : Nat} (h : .free ptr size align ∈ copies cs) :
    ∃ c ∈ cs, c.region.start = ptr := by
  obtain ⟨c, hc, hs⟩ := List.mem_flatMap.mp h
  simp only [List.mem_cons, PayloadEvent.free.injEq, List.not_mem_nil, or_false, false_or,
    reduceCtorEq] at hs
  exact ⟨c, hc, hs.1.symm⟩

/-- What the caller frees is part of the data, besides memory that the author holds. It is all
of the data, unaligned and not empty, exactly when a condition holds. -/
structure FreesWhen (held : Region → Prop) (cs : List Copy) (data : List Data) (P : Prop) :
    Prop where
  sublist : (owned cs).Sublist (data.map Data.region)
  others : ∀ c ∈ cs, c.own = false → held c.region ∧ 0 < c.region.size
  complete : P → owned cs = data.map Data.region ∧ ∀ d ∈ data, d.align = 1 ∧ 0 < d.region.size
  needed : owned cs = data.map Data.region → P

theorem FreesWhen.nil (hP : P) : FreesWhen held [] [] P :=
  ⟨List.Sublist.slnil, fun _ hc => absurd hc List.not_mem_nil,
    fun _ => ⟨rfl, fun _ hd => absurd hd List.not_mem_nil⟩, fun _ => hP⟩

theorem FreesWhen.congr (h : FreesWhen held cs data P) (hiff : P ↔ Q) : FreesWhen held cs data Q :=
  ⟨h.sublist, h.others, fun hQ => h.complete (hiff.mpr hQ), fun howned => hiff.mp (h.needed howned)⟩

theorem FreesWhen.append (h : FreesWhen held cs data P) (h' : FreesWhen held cs' data' Q) :
    FreesWhen held (cs ++ cs') (data ++ data') (P ∧ Q) where
  sublist := by
    rw [owned_append, List.map_append]
    exact h.sublist.append h'.sublist
  others := fun c hc => by
    rcases List.mem_append.mp hc with hc | hc
    · exact h.others c hc
    · exact h'.others c hc
  complete := fun hPQ => by
    obtain ⟨howned, hdata⟩ := h.complete hPQ.1
    obtain ⟨howned', hdata'⟩ := h'.complete hPQ.2
    refine ⟨by rw [owned_append, howned, howned', List.map_append], fun d hd => ?_⟩
    rcases List.mem_append.mp hd with hd | hd
    · exact hdata d hd
    · exact hdata' d hd
  needed := fun howned => by
    rw [owned_append, List.map_append] at howned
    -- Neither part frees more than its own data.
    have hle := h.sublist.length_le
    have hle' := h'.sublist.length_le
    have hlength := congrArg List.length howned
    rw [List.length_append, List.length_append] at hlength
    obtain ⟨hfirst, hsecond⟩ := List.append_inj howned (by omega)
    exact ⟨h.needed hfirst, h'.needed hsecond⟩

/-! ### Blocks -/

theorem start_mem_span (h : 0 < r.size) : r.start ∈ r.span := ⟨le_refl _, Nat.lt_add_of_pos_right h⟩

/-- Regions that do not overlap and are not empty start at different addresses. -/
theorem start_ne (h : Disjoint r.span s.span) (hr : 0 < r.size) (hs : 0 < s.size) :
    r.start ≠ s.start := by
  intro heq
  have hmem := start_mem_span hr
  rw [heq] at hmem
  exact Set.disjoint_left.mp h hmem (start_mem_span hs)

/-- If the data that is freed are the blocks, each is freed once. -/
theorem copies_freedOnce (hapart : Apart (owned cs)) (hpos : ∀ r ∈ owned cs, 0 < r.size)
    (hothers : ∀ c ∈ cs, c.own = false → 0 < c.region.size ∧
      ∀ r ∈ owned cs, Disjoint c.region.span r.span) (hr : r ∈ owned cs) :
    FreedOnce (copies cs) r := by
  obtain ⟨c, hc, hown, rfl⟩ := mem_owned.mp hr
  obtain ⟨before, after, rfl⟩ := List.append_of_mem hc
  have hsplit : owned (before ++ c :: after) = owned before ++ c.region :: owned after := by
    rw [owned_append, owned, owned, List.filter_cons_of_pos hown]
    rfl
  rw [hsplit] at hapart
  obtain ⟨-, hrest, hcross⟩ := List.pairwise_append.mp hapart
  have hafter := (List.pairwise_cons.mp hrest).1
  -- Whatever else is copied lies elsewhere.
  have hother : ∀ d, d ∈ before ∨ d ∈ after → 0 < d.region.size ∧
      Disjoint d.region.span c.region.span := by
    intro d hd
    have hmem : d ∈ before ++ c :: after := by
      rcases hd with hd | hd
      · exact List.mem_append_left _ hd
      · exact List.mem_append_right _ (List.mem_cons_of_mem c hd)
    cases hdown : d.own with
    | false =>
      obtain ⟨hsize, hdisjoint⟩ := hothers d hmem hdown
      exact ⟨hsize, hdisjoint c.region hr⟩
    | true =>
      refine ⟨hpos d.region (mem_owned.mpr ⟨d, hmem, hdown, rfl⟩), ?_⟩
      rcases hd with hd | hd
      · exact hcross d.region (mem_owned.mpr ⟨d, hd, hdown, rfl⟩) c.region List.mem_cons_self
      · exact (hafter d.region (mem_owned.mpr ⟨d, hd, hdown, rfl⟩)).symm
  refine ⟨copies before ++ [.read c.region], copies after, ?_, fun size align hfree => ?_,
    fun s hs => ?_⟩
  · rw [copies_append, List.append_assoc]
    rfl
  · have hfreed : ∃ d, (d ∈ before ∨ d ∈ after) ∧ d.region.start = c.region.start := by
      rw [List.append_assoc, List.singleton_append] at hfree
      rcases List.mem_append.mp hfree with hfree | hfree
      · obtain ⟨d, hd, hstart⟩ := free_mem_copies hfree
        exact ⟨d, .inl hd, hstart⟩
      · rcases List.mem_cons.mp hfree with hfree | hfree
        · cases hfree
        · obtain ⟨d, hd, hstart⟩ := free_mem_copies hfree
          exact ⟨d, .inr hd, hstart⟩
    obtain ⟨d, hd, hstart⟩ := hfreed
    obtain ⟨hsize, hdisjoint⟩ := hother d hd
    exact start_ne hdisjoint hsize (hpos c.region hr) hstart
  · obtain ⟨d, hd, rfl⟩ := read_mem_copies hs
    exact (hother d (.inr hd)).2

/-- The blocks of data that is not aligned and not empty are the data. -/
theorem blocks_eq_data {blocks : List Region} (hinside : List.Forall₂ Inside data blocks)
    (hdata : ∀ d ∈ data, d.align = 1 ∧ 0 < d.region.size) : blocks = data.map Data.region := by
  induction hinside with
  | nil => rfl
  | @cons d r data blocks hd hinside ih =>
    obtain ⟨halign, hpos⟩ := hdata d List.mem_cons_self
    have hstart := hd.start
    have hsize := hd.size
    rw [halign, roundUp_one] at hstart
    rw [halign, Nat.sub_self, Nat.add_zero, max_eq_left hpos] at hsize
    have hblock : d.region = ⟨r.start, r.size⟩ := by rw [← hstart, hsize]
    rw [List.map_cons, ← ih fun e he => hdata e (List.mem_cons_of_mem d he), hblock]

/-- Blocks are freed exactly when all data is. -/
theorem allFreed_iff {blocks : List Region} (howned : FreesWhen held cs data P)
    (hinside : List.Forall₂ Inside data blocks) (hapart : Apart blocks)
    (hheld : ∀ r, held r → ∀ b ∈ blocks, Disjoint r.span b.span) :
    AllFreed (copies cs) blocks ↔ P := by
  have hpos : ∀ r ∈ blocks, 0 < r.size := by
    intro r hr
    obtain ⟨d, -, hd⟩ := exists_of_forall₂ hinside r hr
    have hsize := hd.size
    omega
  constructor
  · intro hfreed
    -- The blocks start at different addresses, and something that is freed starts at each.
    have hnodup : (blocks.map Region.start).Nodup := by
      rw [List.nodup_iff_pairwise_ne, List.pairwise_map]
      exact hapart.imp_of_mem fun hr hs hdisjoint => start_ne hdisjoint (hpos _ hr) (hpos _ hs)
    have hsubset : blocks.map Region.start ⊆ (owned cs).map Region.start := by
      intro start hstart
      obtain ⟨r, hr, rfl⟩ := List.mem_map.mp hstart
      obtain ⟨before, after, hevents, -⟩ := hfreed r hr
      have hfree : .free r.start r.size 1 ∈ copies cs := by
        rw [hevents]
        exact List.mem_append_right _ List.mem_cons_self
      obtain ⟨c, hc, hstart⟩ := free_mem_copies hfree
      cases hown : c.own with
      | true => exact List.mem_map.mpr ⟨c.region, mem_owned.mpr ⟨c, hc, hown, rfl⟩, hstart⟩
      | false =>
        obtain ⟨hholds, hsize⟩ := howned.others c hc hown
        exact absurd hstart (start_ne (hheld _ hholds r hr) hsize (hpos r hr))
    have hle := (List.subperm_of_subset hnodup hsubset).length_le
    rw [List.length_map, List.length_map, ← hinside.length_eq] at hle
    exact howned.needed (howned.sublist.eq_of_length_le (by rw [List.length_map]; exact hle))
  · intro hP
    obtain ⟨hall, hdata⟩ := howned.complete hP
    rw [← blocks_eq_data hinside hdata] at hall
    subst hall
    intro r hr
    refine copies_freedOnce hapart hpos (fun c hc hown => ?_) hr
    obtain ⟨hholds, hsize⟩ := howned.others c hc hown
    exact ⟨hsize, hheld _ hholds⟩

end

/-! ### What the caller reads -/

/-- The string encoding gives the empty string no bytes, and every other string some. -/
def EmptyIff (te : TextEncoding) : Prop :=
  ∀ units bytes, te.bytes units bytes → (bytes = [] ↔ units = [])

/-- The statements free the data of each value that they read, when it is freeable. -/
def FreesData (ir : ApiIr) (ty : ResolvedTypeRef) (l : Layout) (off : Nat) (code : List DenoStmt) :
    Prop :=
  ∀ te m dv v data, EmptyIff te → ReadsAs ir te m ty l (dv + off) v data →
    (∀ d ∈ data, 0 < d.region.start) →
    ∃ cs, denoEvents m dv code = copies cs ∧ FreesWhen te.held cs data (Freeable ir ty v)

/-- What the caller emits for a type, at every place and from every local on. -/
def ReadFrees (ir : ApiIr) (emit : Nat → Nat → Except JsGenError (List DenoStmt × Nat))
    (ty : ResolvedTypeRef) (l : Layout) : Prop :=
  ∀ off n, l.align ∣ off → ∃ code n', emit off n = .ok (code, n') ∧ FreesData ir ty l off code

section
variable {ir : ApiIr} {fuel : Nat} {lay : ResolvedField → Layout} {fields : List ResolvedField}
  {emit : ResolvedTypeRef → Nat → Nat → Except JsGenError (List DenoStmt × Nat)}

theorem denoEvents_stringView (m : Memory) (dv n off : Nat) :
    denoEvents m dv [.stringView n off true] = payloadEvents (m.read (dv + off) 8)
      (m.read (dv + off + 8) 8) (m.read (dv + off + 8) 8) true := List.append_nil _

/-- A string is copied and freed if it has bytes. -/
theorem text_frees {te : TextEncoding} (hte : EmptyIff te) {units : List UInt16} {m : Memory}
    {ptr len : Nat} (hbytes : te.bytes units (m.bytes ptr len)) (hpos : 0 < ptr) :
    ∃ cs, payloadEvents ptr len len true = copies cs ∧
      FreesWhen te.held cs [⟨⟨ptr, len⟩, 1⟩] (Freeable ir (.abiType .stringView) (.str units)) := by
  have hzero : len = 0 ↔ units = [] := by
    rw [← hte _ _ hbytes, ← List.length_eq_zero_iff, Memory.length_bytes]
  rw [payloadEvents]
  by_cases hempty : units = []
  · have hlen0 := hzero.mpr hempty
    rw [if_neg (by omega)]
    refine ⟨[], rfl, List.nil_sublist _, fun _ hc => absurd hc List.not_mem_nil, fun hfree => ?_,
      fun howned => by cases howned⟩
    cases hfree with
    | text hne => exact absurd hempty hne
    | view hview => exact absurd rfl (hview units)
  · have hlen0 : len ≠ 0 := fun h => hempty (hzero.mp h)
    rw [if_pos ⟨by omega, by omega⟩]
    refine ⟨[⟨⟨ptr, len⟩, true⟩], rfl, List.Sublist.refl _, fun c hc hown => ?_,
      fun _ => ⟨rfl, fun d hd => ?_⟩, fun _ => .text hempty⟩
    · obtain rfl := List.mem_singleton.mp hc
      cases hown
    · obtain rfl := List.mem_singleton.mp hd
      exact ⟨rfl, by show 0 < len; omega⟩

/-- A view in place of a string is copied and freed as well. -/
theorem view_frees {held : Region → Prop} {v : JsValue} {ptr len : Nat}
    (hview : ∀ units, v ≠ .str units) (hheld : held ⟨ptr, len⟩) :
    ∃ cs, payloadEvents ptr len len true = copies cs ∧
      FreesWhen held cs [] (Freeable ir (.abiType .stringView) v) := by
  have hnone : ∀ cs : List Copy, owned cs = [] →
      (∀ c ∈ cs, c.own = false → held c.region ∧ 0 < c.region.size) →
      FreesWhen held cs [] (Freeable ir (.abiType .stringView) v) := by
    intro cs howned hothers
    refine ⟨?_, hothers, fun _ => ⟨howned, fun _ hd => absurd hd List.not_mem_nil⟩,
      fun _ => .view hview⟩
    rw [howned]
    exact List.nil_sublist _
  rw [payloadEvents]
  split
  · next hread =>
    refine ⟨[⟨⟨ptr, len⟩, false⟩], rfl, hnone _ rfl fun c hc _ => ?_⟩
    obtain rfl := List.mem_singleton.mp hc
    exact ⟨hheld, hread.2⟩
  · exact ⟨[], rfl, hnone _ rfl fun _ hc => absurd hc List.not_mem_nil⟩

/-- A string is read so. -/
theorem stringView_frees (ir : ApiIr) (fuel : Nat) :
    ReadFrees ir (emitDenoReadLocal ir true (fuel + 1) (.abiType .stringView))
      (.abiType .stringView) viewLayout := by
  intro off n _
  refine ⟨[.stringView n off true], n + 1, rfl, fun te m dv v data hte hreads hnull => ?_⟩
  rw [denoEvents_stringView]
  cases hreads with
  | text hbytes => exact text_frees hte hbytes (hnull _ List.mem_cons_self)
  | view hlo _ _ hheld =>
    refine view_frees (fun units hv => ?_) hheld
    rw [hv] at hlo
    cases hlo

/-- The fields of a struct free their data, each its own. -/
theorem denoReadFields_frees (hcomputed : ∀ f ∈ fields, Computed ir fuel f.ty (lay f))
    (hemit : ∀ f ∈ fields, ReadFrees ir (emit f.ty) f.ty (lay f)) {off : Nat}
    (halign : ∀ f ∈ fields, (lay f).align ∣ off) (start n : Nat) :
    ∃ code, denoReadFields ir fuel emit fields (off + start) n = .ok code ∧
      ∀ te m dv (val : ResolvedField → JsValue) (data : List (List Data)), EmptyIff te →
        data.length = fields.length →
        (∀ (i : Nat) f o d, fields[i]? = some f → (place start (fields.map lay))[i]? = some o →
          data[i]? = some d → ReadsAs ir te m f.ty (lay f) (dv + off + o) (val f) d) →
        (∀ d ∈ data.flatten, 0 < d.region.start) →
        ∃ cs, denoEvents m dv code.1 = copies cs ∧
          FreesWhen te.held cs data.flatten (∀ f ∈ fields, Freeable ir f.ty (val f)) := by
  induction fields generalizing start n with
  | nil =>
    refine ⟨_, rfl, fun te m dv val data _ hlength _ _ => ⟨[], rfl, ?_⟩⟩
    rw [List.length_eq_zero_iff.mp hlength]
    exact .nil fun f hf => absurd hf List.not_mem_nil
  | cons f fs ih =>
    obtain ⟨halignOk, hsizeOk⟩ := hcomputed f List.mem_cons_self
    have hdvd := halign f List.mem_cons_self
    have hplace : jsAlignUp (off + start) (lay f).align = off + roundUp start (lay f).align := by
      rw [jsAlignUp_eq _ (lay f).align_pos, roundUp_add hdvd]
    obtain ⟨code₁, n₁, hemit₁, hfrees₁⟩ := hemit f List.mem_cons_self
      (off + roundUp start (lay f).align) n (Nat.dvd_add hdvd (dvd_roundUp start _))
    obtain ⟨code₂, hemit₂, hfrees₂⟩ := ih
      (fun g hg => hcomputed g (List.mem_cons_of_mem f hg))
      (fun g hg => hemit g (List.mem_cons_of_mem f hg))
      (fun g hg => halign g (List.mem_cons_of_mem f hg))
      (roundUp start (lay f).align + (lay f).size) n₁
    refine ⟨(code₁ ++ code₂.1, (f.name, n) :: code₂.2.1, code₂.2.2), ?_, ?_⟩
    · simp only [denoReadFields, halignOk, hplace, hemit₁, hsizeOk, Nat.add_assoc, hemit₂, bind,
        Except.bind]
    · intro te m dv val data hte hlength hreads hnull
      cases data with
      | nil => cases hlength
      | cons d data =>
        -- The first field, and the fields after it.
        obtain ⟨cs₁, hevents₁, hwhen₁⟩ := hfrees₁ te m dv (val f) d hte
          (by rw [← Nat.add_assoc]; exact hreads 0 f _ d rfl rfl rfl)
          (fun e he => hnull e (List.mem_append_left _ he))
        obtain ⟨cs₂, hevents₂, hwhen₂⟩ := hfrees₂ te m dv val data hte (Nat.succ.inj hlength)
          (fun i g o e hg ho he => hreads (i + 1) g o e hg ho he)
          (fun e he => hnull e (List.mem_append_right _ he))
        have hfields := (List.forall_mem_cons (p := fun g : ResolvedField =>
          Freeable ir g.ty (val g)) (a := f) (l := fs)).symm
        refine ⟨cs₁ ++ cs₂, ?_, (hwhen₁.append hwhen₂).congr hfields⟩
        rw [copies_append, ← hevents₁, ← hevents₂]
        exact List.flatMap_append

/-- A local that is read in the out buffer alone. -/
theorem const_frees {emit : Nat → Nat → Except JsGenError (List DenoStmt × Nat)}
    {ty : ResolvedTypeRef} {l : Layout} {read : DvRead}
    (hemit : ∀ off n, emit off n = .ok ([.const n read off], n + 1))
    (hdata : ∀ te m a v data, ReadsAs ir te m ty l a v data → data = [] ∧ Freeable ir ty v) :
    ReadFrees ir emit ty l := by
  intro off n _
  refine ⟨_, n + 1, hemit off n, fun te m dv v data _ hreads _ => ⟨[], rfl, ?_⟩⟩
  obtain ⟨rfl, hfree⟩ := hdata te m _ v data hreads
  exact .nil hfree

/-- An array has data if its elements have bytes. -/
theorem data_of_array {te : TextEncoding} {m : Memory} {element : String} {l : Layout} {items : Nat}
    {elems : List JsValue} {parts : List (List Data)} (hlength : parts.length = elems.length)
    (hparts : ∀ (i : Nat) v d, elems[i]? = some v → parts[i]? = some d →
      ReadsAs ir te m (resolvedTypeRefForName element) l (items + i * l.size) v d) :
    arrayData items elems l ++ parts.flatten = [] ↔ elems.length * l.size = 0 := by
  rw [List.append_eq_nil_iff, arrayData]
  constructor
  · intro hnone
    by_contra hbytes
    rw [if_neg hbytes] at hnone
    cases hnone.1
  · intro hbytes
    rw [if_pos hbytes]
    refine ⟨rfl, List.flatten_eq_nil_iff.mpr fun d hd => ?_⟩
    obtain ⟨i, hi, rfl⟩ := List.mem_iff_getElem.mp hd
    have helem : i < elems.length := hlength ▸ hi
    have hsize : l.size = 0 := (Nat.mul_eq_zero.mp hbytes).resolve_left (by omega)
    exact reads_no_bytes (hparts i _ _ (List.getElem?_eq_getElem helem)
      (List.getElem?_eq_getElem hi)) hsize

/-- An array is read as two numbers, and nothing of it is freed. -/
theorem array_frees {name element : String} (harray : ArrayOf ir name element) (fuel : Nat) :
    ReadFrees ir (emitDenoReadLocal ir true (fuel + 2) (.userDefined name)) (.userDefined name)
      viewLayout := by
  obtain ⟨s, htype, hfields⟩ := harray.2.2
  intro off n _
  have hemit : emitDenoReadLocal ir true (fuel + 2) (.userDefined name) off n =
      .ok ([.const (n + 1) .getBigUint64 (jsAlignUp off 8),
        .const (n + 2) .getBigUint64 (jsAlignUp (jsAlignUp off 8 + 8) 8),
        .object n [("items", n + 1), ("len", n + 2)]], n + 3) := by
    rw [emitDenoReadLocal]
    simp only [harray.2.1, htype, hfields]
    rfl
  refine ⟨_, _, hemit, fun te m dv v data _ hreads _ => ⟨[], rfl, ?_⟩⟩
  have hwhen : FreesWhen te.held [] data (data = []) := by
    refine ⟨List.nil_sublist _, fun _ hc => absurd hc List.not_mem_nil, fun hdata => ?_,
      fun howned => ?_⟩
    · rw [hdata]
      exact ⟨rfl, fun _ hd => absurd hd List.not_mem_nil⟩
    · exact List.map_eq_nil_iff.mp howned.symm
  refine hwhen.congr ?_
  obtain ⟨elems, l, parts, rfl, hl, hlength, rfl, hparts⟩ := reads_array harray hreads
  rw [freeable_array harray hl]
  exact data_of_array hlength hparts

/-- With enough fuel the caller emits such statements for every type. -/
theorem read_frees {ty : ResolvedTypeRef} {l : Layout} (h : Returns ir ty l) :
    ∃ N, ∀ fuel, N ≤ fuel → ReadFrees ir (emitDenoReadLocal ir true fuel ty) ty l := by
  induction h with
  | primitive p =>
    refine ⟨1, fun fuel hfuel => ?_⟩
    obtain ⟨fuel, rfl⟩ := Nat.exists_eq_add_of_le' hfuel
    refine const_frees (fun off n => rfl) fun te m a v data hreads => ?_
    cases hreads with
    | primitive _ => exact ⟨rfl, .primitive p v⟩
  | @enum name e henum =>
    refine ⟨1, fun fuel hfuel => ?_⟩
    obtain ⟨fuel, rfl⟩ := Nat.exists_eq_add_of_le' hfuel
    have hemit : ∀ off n, emitDenoReadLocal ir true (fuel + 1) (.userDefined name) off n =
        .ok ([.const n e.repr.dvRead off], n + 1) := by
      intro off n
      rw [emitDenoReadLocal]
      simp only [henum]
    refine const_frees hemit fun te m a v data hreads => ?_
    exact ⟨reads_enum henum hreads, .enum henum v⟩
  | text =>
    refine ⟨1, fun fuel hfuel => ?_⟩
    obtain ⟨fuel, rfl⟩ := Nat.exists_eq_add_of_le' hfuel
    exact stringView_frees ir fuel
  | array harray _ _ =>
    refine ⟨2, fun fuel hfuel => ?_⟩
    obtain ⟨fuel, rfl⟩ := Nat.exists_eq_add_of_le' hfuel
    exact array_frees harray fuel
  | @struct name s lay henum htype hplain hfields ih =>
    obtain ⟨N, hN⟩ := exists_common_bound ih
    obtain ⟨M, hM⟩ := exists_common_bound fun f hf => layout_computed (hfields f hf).hasLayout
    refine ⟨max N M + 1, fun fuel hfuel off n hdvd => ?_⟩
    obtain ⟨fuel, rfl⟩ := Nat.exists_eq_add_one_of_ne_zero (by omega : fuel ≠ 0)
    have halign : ∀ f ∈ s.fields, (lay f).align ∣ off := fun f hf =>
      (dvd_maxAlign (List.mem_map_of_mem hf)).trans hdvd
    obtain ⟨code, hcode, hfrees⟩ := denoReadFields_frees (hM fuel (by omega)) (hN fuel (by omega))
      halign 0 (n + 1)
    refine ⟨code.1 ++ [.object n code.2.1], code.2.2, ?_, ?_⟩
    · rw [Nat.add_zero] at hcode
      rw [emitDenoReadLocal]
      simp only [henum, htype, hcode, bind, Except.bind]
    · intro te m dv v data hte hreads hnull
      -- The layout of the fields is the one that was read.
      obtain ⟨val, parts, hget, hlength, rfl, hparts⟩ := reads_struct henum htype hplain
        (fun f hf => (hfields f hf).hasLayout) hreads
      obtain ⟨cs, hevents, hwhen⟩ := hfrees te m dv val parts hte hlength hparts hnull
      refine ⟨cs, ?_, hwhen.congr (freeable_struct henum htype hplain hget).symm⟩
      rw [← hevents]
      exact List.flatMap_append.trans (List.append_nil _)

end

/-! ### The call -/

/-- The wrapper returns every value of the type, and when the caller has read it, the blocks that do
not overlap have all been freed exactly if the condition holds. The allocations of the call are
those of `host.alloc` with alignment 1, and no block is memory that the author holds already. -/
def FreedExactlyIf (ir : ApiIr) (ty : ResolvedTypeRef) (l : Layout) (wrapper : JsStmt)
    (caller : List DenoStmt) (condition : JsValue → Prop) : Prop :=
  ∀ w held out result m, Placed w → ReturnOf ir (encodedBy w.hasTextEncoder held) ty result →
    0 < out → out + l.size ≤ 2 ^ 53 →
    ∃ env h, wrapper.exec w (returnEnv out result) ⟨m, []⟩ = some (env, h) ∧
      (Apart (⟨out, l.size⟩ :: h.blocks) →
        (∀ r, held r → ∀ b ∈ h.blocks, Disjoint r.span b.span) →
        (AllFreed (denoEvents h.memory out caller) h.blocks ↔ condition result))

section
variable {ir : ApiIr} {ty : ResolvedTypeRef} {l : Layout}

theorem ready_encodedBy {w : JsWorld} (hw : Placed w) (held : Region → Prop) :
    Ready (encodedBy w.hasTextEncoder held) w where
  placed := hw
  encodes := fun _ _ henc => henc.symm

/-- Only the empty string has no bytes, with `TextEncoder` and without. -/
theorem emptyIff_encodedBy (hasTextEncoder : Bool) (held : Region → Prop) :
    EmptyIff (encodedBy hasTextEncoder held) := by
  intro units bytes henc
  obtain rfl : bytes = ppEncodeUtf8 hasTextEncoder units := henc
  cases units with
  | nil => cases hasTextEncoder <;> simp [ppEncodeUtf8, textEncode, encodeUnits, scalars]
  | cons u us =>
    have htext := length_textEncode_lt u us
    have hunits := length_encodeUnits_pos u us
    refine ⟨fun hnil => ?_, fun hnil => absurd hnil (List.cons_ne_nil u us)⟩
    cases hasTextEncoder with
    | true =>
      have hzero : textEncode (u :: us) = [] := hnil
      rw [hzero, List.length_nil] at htext
      omega
    | false =>
      have hzero : encodeUnits (u :: us) = [] := hnil
      rw [hzero, List.length_nil] at hunits
      omega

/-- The statements of the caller free what the code of the wrapper allocated. -/
theorem freedExactlyIf {code : JsStmt} {reads : List DenoStmt} (hwrites : WritesReturn ir ty l code)
    (hfrees : FreesData ir ty l 0 reads) : FreedExactlyIf ir ty l code reads (Freeable ir ty) := by
  intro w held out result m hw hv hout hlimit
  obtain ⟨env, h, hexec, new, heffect, hreads⟩ :=
    hwrites _ w out result m (ready_encodedBy hw held) hv hout hlimit
  obtain rfl : h.blocks = new := heffect.blocks
  refine ⟨env, h, hexec, fun hapart hheld => ?_⟩
  obtain ⟨data, hdata, hinside⟩ := hreads hapart
  have hnull : ∀ d ∈ data, 0 < d.region.start := by
    intro d hd
    obtain ⟨r, -, hr⟩ := exists_of_forall₂ hinside.flip d hd
    exact hr.notNull
  obtain ⟨cs, hevents, hwhen⟩ := hfrees _ h.memory out result data
    (emptyIff_encodedBy w.hasTextEncoder held) hdata hnull
  rw [hevents]
  exact allFreed_iff hwhen hinside (List.pairwise_cons.mp hapart).2 hheld

/-- **What a call returns is freed exactly once, exactly if** its strings have bytes and its arrays
have none. -/
theorem payloads_freed_iff (hty : Returns ir ty l) (huntaken : Untaken ir ty) :
    ∃ N, ∀ fuel, N ≤ fuel → ∃ code reads, emitJsGuestReturnWrite ir fuel ty = .ok code ∧
      denoReadReturn ir fuel ty = .ok reads ∧
      FreedExactlyIf ir ty l code reads (Freeable ir ty) := by
  obtain ⟨N, hN⟩ := return_emits hty huntaken
  obtain ⟨M, hM⟩ := read_frees hty
  refine ⟨max N M, fun fuel hfuel => ?_⟩
  obtain ⟨code, hcode, hwrites⟩ := hN fuel (by omega)
  obtain ⟨reads, n, hreads, hfrees⟩ := hM fuel (by omega) 0 0 (Nat.dvd_zero _)
  refine ⟨code, reads, hcode, ?_, freedExactlyIf hwrites hfrees⟩
  rw [denoReadReturn, hreads]
  rfl

end

/-! ### A caption -/

/-- A type without fields. -/
def markType : ResolvedType := ⟨"Mark", [], none⟩

/-- A struct of two strings and an array of marks. -/
def captionType : ResolvedType :=
  ⟨"Caption", [⟨"title", .abiType .stringView⟩, ⟨"credit", .abiType .stringView⟩,
    ⟨"marks", .userDefined "ArrayOf_Mark"⟩], none⟩

/-- The caption with the types it needs. -/
def captionIr : ApiIr := ⟨[markType, arrayWrapperType "ArrayOf_Mark", captionType], [], [], []⟩

theorem mark_array : ArrayOf captionIr "ArrayOf_Mark" "Mark" :=
  ⟨by decide, by decide, _, by decide, rfl⟩

theorem not_array_of_plain {ir : ApiIr} {name element : String}
    (hname : arrayElementName name = none) : ¬ ArrayOf ir name element := by
  intro harray
  have hnone := harray.1
  rw [hname] at hnone
  cases hnone

theorem mark_returns : Returns captionIr (.userDefined "Mark") (structLayout []) :=
  .struct (s := markType) (fun _ => viewLayout) (by decide) (by decide)
    (fun _ => not_array_of_plain (by decide)) fun f hf => absurd hf List.not_mem_nil

theorem caption_returns : Returns captionIr (.userDefined "Caption")
    (structLayout [viewLayout, viewLayout, viewLayout]) := by
  refine Returns.struct (s := captionType) (fun _ => viewLayout) (by decide) (by decide)
    (fun _ => not_array_of_plain (by decide)) fun f hf => ?_
  rcases List.mem_cons.mp hf with rfl | hf
  · exact .text
  · rcases List.mem_cons.mp hf with rfl | hf
    · exact .text
    · obtain rfl := List.mem_singleton.mp hf
      exact .array mark_array mark_returns

theorem caption_untaken : Untaken captionIr (.userDefined "Caption") := by
  refine untaken_struct (s := captionType) (by decide) (by decide) fun f hf => ?_
  rcases List.mem_cons.mp hf with rfl | hf
  · exact untaken_abiType .stringView
  · rcases List.mem_cons.mp hf with rfl | hf
    · exact untaken_abiType .stringView
    · obtain rfl := List.mem_singleton.mp hf
      refine untaken_array mark_array (untaken_struct (s := markType) (by decide) (by decide) ?_)
      exact fun f hf => absurd hf List.not_mem_nil

/-- A view of the three bytes from 256 on. -/
def heldView : JsValue := .obj [("ptr_lo", .num 256), ("ptr_hi", .num 0), ("len", .num 3)]

/-- A caption with a title, a credit that the author holds, and two marks. -/
def caption : JsValue :=
  .obj [("title", .str [104, 105]), ("credit", heldView), ("marks", .arr [.obj [], .obj []])]

/-- The memory of the credit. -/
def creditHeld : Region → Prop := fun r => r = ⟨256, 3⟩

theorem caption_value : ReturnOf captionIr (encodedBy true creditHeld) (.userDefined "Caption")
    caption := by
  refine ⟨ValueOf.struct (s := captionType)
    (fun f => if f.name = "title" then .str [104, 105] else
      if f.name = "credit" then heldView else .arr [.obj [], .obj []]) (by decide) (by decide)
    (fun _ => not_array_of_plain (by decide)) (fun f hf => ?_) fun f hf => ?_, fun h => by cases h⟩
  · rcases List.mem_cons.mp hf with rfl | hf
    · rfl
    · rcases List.mem_cons.mp hf with rfl | hf
      · rfl
      · obtain rfl := List.mem_singleton.mp hf
        rfl
  · rcases List.mem_cons.mp hf with rfl | hf
    · exact .text rfl (by decide)
    · rcases List.mem_cons.mp hf with rfl | hf
      · exact .view (p := 256) (n := 3) rfl rfl rfl (by decide) (by decide) rfl
      · obtain rfl := List.mem_singleton.mp hf
        refine .array mark_array mark_returns.hasLayout (by decide) (by decide) fun v hv => ?_
        exact .struct (s := markType) (fun _ => .undefined) (by decide) (by decide)
          (fun _ => not_array_of_plain (by decide)) (fun f hf => absurd hf List.not_mem_nil)
          fun f hf => absurd hf List.not_mem_nil

theorem caption_freeable : Freeable captionIr (.userDefined "Caption") caption := by
  refine .struct (s := captionType)
    (fun f => if f.name = "title" then .str [104, 105] else
      if f.name = "credit" then heldView else .arr [.obj [], .obj []]) (by decide) (by decide)
    (fun _ => not_array_of_plain (by decide)) (fun f hf => ?_) fun f hf => ?_
  · rcases List.mem_cons.mp hf with rfl | hf
    · rfl
    · rcases List.mem_cons.mp hf with rfl | hf
      · rfl
      · obtain rfl := List.mem_singleton.mp hf
        rfl
  · rcases List.mem_cons.mp hf with rfl | hf
    · exact .text (by decide)
    · rcases List.mem_cons.mp hf with rfl | hf
      · exact .view fun units h => by cases h
      · obtain rfl := List.mem_singleton.mp hf
        exact .array mark_array mark_returns.hasLayout (by decide)

/-- Only the title is allocated. -/
theorem caption_exec {fuel : Nat} {code : JsStmt}
    (hcode : emitJsGuestReturnWrite captionIr (fuel + 4) (.userDefined "Caption") = .ok code) :
    ∃ env h, code.exec pages (returnEnv 64 caption) ⟨fun _ => 0, []⟩ = some (env, h) ∧
      h.blocks = [⟨4096, 2⟩] := by
  have hemitted := Except.ok.inj hcode
  subst hemitted
  exact ⟨_, _, rfl, rfl⟩

/-- The block of the caption is freed once. -/
theorem caption_payloads :
    ∃ N, ∀ fuel, N ≤ fuel → ∃ code reads env h,
      emitJsGuestReturnWrite captionIr fuel (.userDefined "Caption") = .ok code ∧
        denoReadReturn captionIr fuel (.userDefined "Caption") = .ok reads ∧
        code.exec pages (returnEnv 64 caption) ⟨fun _ => 0, []⟩ = some (env, h) ∧
        h.blocks = [⟨4096, 2⟩] ∧ AllFreed (denoEvents h.memory 64 reads) h.blocks := by
  obtain ⟨N, hN⟩ := payloads_freed_iff caption_returns caption_untaken
  refine ⟨N + 4, fun fuel hfuel => ?_⟩
  obtain ⟨fuel, rfl⟩ := Nat.exists_eq_add_of_le' (show 4 ≤ fuel by omega)
  obtain ⟨code, reads, hcode, hreads, hfreed⟩ := hN (fuel + 4) (by omega)
  obtain ⟨env, h, hexec, hiff⟩ := hfreed pages creditHeld 64 caption (fun _ => 0) pages_placed
    caption_value (by decide) (by decide)
  obtain ⟨env', h', hexec', hblocks⟩ := caption_exec hcode
  rw [hexec] at hexec'
  obtain ⟨rfl, rfl⟩ := Prod.mk.inj (Option.some.inj hexec')
  rw [hblocks] at hiff
  have hapart : Apart [⟨64, (structLayout [viewLayout, viewLayout, viewLayout]).size⟩, ⟨4096, 2⟩] :=
    List.pairwise_pair.mpr (Region.disjoint_of_le (by decide))
  have hfreed := (hiff hapart fun r hr b hb => ?_).mpr caption_freeable
  · exact ⟨code, reads, env, h, hcode, hreads, hexec, hblocks, by rw [hblocks]; exact hfreed⟩
  · obtain rfl : r = ⟨256, 3⟩ := hr
    obtain rfl := List.mem_singleton.mp hb
    exact Region.disjoint_of_le (by decide)

/-! ### An empty string -/

/-- Every block is freed once, as it was allocated, and after the last read of it. -/
def PayloadsFreed (ir : ApiIr) (ty : ResolvedTypeRef) (l : Layout) (wrapper : JsStmt)
    (caller : List DenoStmt) : Prop :=
  ∀ w held out result m env h, Placed w → ReturnOf ir (encodedBy w.hasTextEncoder held) ty result →
    0 < out → out + l.size ≤ 2 ^ 53 →
    wrapper.exec w (returnEnv out result) ⟨m, []⟩ = some (env, h) →
    Apart (⟨out, l.size⟩ :: h.blocks) → (∀ r, held r → ∀ b ∈ h.blocks, Disjoint r.span b.span) →
    AllFreed (denoEvents h.memory out caller) h.blocks

/-- Allocations at one address. -/
def onePage : JsWorld := ⟨fun _ _ => 4096, true⟩

/-- The empty string is returned in a block of one byte. -/
theorem empty_string_exec :
    ∃ env h, (emitString ⟨"_retBytes", none⟩ ⟨"_retBuf", none⟩ ⟨"_retPtr", none⟩ ⟨"_i", none⟩
        (.name ⟨"out_ptr", none⟩) 0 (.name ⟨"result", none⟩)).exec onePage
        (returnEnv 64 (.str [])) ⟨fun _ => 0, []⟩ = some (env, h) ∧
      h.blocks = [⟨4096, 1⟩] ∧ h.memory.read (64 + 0 + 8) 8 = 0 :=
  ⟨_, _, rfl, rfl, rfl⟩

/-- **The block of an empty string is never freed.** -/
theorem empty_string_is_kept :
    ¬ ∀ ir ty l, Returns ir ty l → ∃ N, ∀ fuel, N ≤ fuel → ∃ code reads,
      emitJsGuestReturnWrite ir fuel ty = .ok code ∧ denoReadReturn ir fuel ty = .ok reads ∧
        PayloadsFreed ir ty l code reads := by
  intro hall
  obtain ⟨N, hN⟩ := hall ⟨[], [], [], []⟩ _ _ .text
  obtain ⟨code, reads, hcode, hreads, hfreed⟩ := hN (N + 1) (by omega)
  rw [emitJsGuestReturnWrite, if_pos rfl] at hcode
  obtain rfl := Except.ok.inj hcode
  obtain rfl : [.stringView 0 0 true] = reads := Except.ok.inj hreads
  obtain ⟨env, h, hexec, hblocks, hlen⟩ := empty_string_exec
  have hplaced : Placed onePage := fun k n hn =>
    ⟨fun _ => show 0 < 4096 by omega, show 4096 + n ≤ 2 ^ 53 by omega⟩
  have hvalue : ReturnOf ⟨[], [], [], []⟩ (encodedBy true fun _ => False) (.abiType .stringView)
      (.str []) := ⟨.text rfl (by decide), fun _ => ⟨[], rfl⟩⟩
  have hapart : Apart (⟨64, viewLayout.size⟩ :: h.blocks) := by
    rw [hblocks]
    refine List.pairwise_pair.mpr (Region.disjoint_of_le ?_)
    decide
  obtain ⟨before, after, hevents, -⟩ := hfreed onePage (fun _ => False) 64 (.str []) (fun _ => 0)
    env h hplaced hvalue (by decide) (by decide) hexec hapart (fun r hr => absurd hr id) ⟨4096, 1⟩
    (by rw [hblocks]; exact List.mem_cons_self)
  have hnone : denoEvents h.memory 64 [.stringView 0 0 true] = [] := by
    have hevents := denoEvents_stringView h.memory 64 0 0
    rw [hlen, payloadEvents, if_neg (by omega)] at hevents
    exact hevents
  rw [hnone] at hevents
  cases before <;> cases hevents

end PolyPlug.Codegen
