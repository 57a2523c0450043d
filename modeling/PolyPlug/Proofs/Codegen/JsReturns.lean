import PolyPlug.Proofs.Codegen.JsMarshal

/-!
# `PolyPlug.Proofs.Codegen.JsReturns`: returned values decode to what the author returned

The wrapper writes what the author returns into the out slot (`returned_values_decode`), with the
strings and arrays in memory of the call. A struct or an enum whose name is that of an array is
taken for one: the code reads the `length` of an object that has none (`taken_struct_fails`).
-/

set_option autoImplicit false

namespace PolyPlug.Codegen

open PolyPlug.Lib PolyPlug.Js

/-! ### The return value -/

/-- The names that are visible when a wrapper writes what it returns. -/
def returnEnv (out : Nat) (result : JsValue) : Env := fun x =>
  if x = ⟨"out_ptr", none⟩ then some (.num out)
  else if x = ⟨"result", none⟩ then some result else none

/-- The values that an author may return. A string that is returned by itself is encoded, whatever
it is, so it is no view. -/
def ReturnOf (ir : ApiIr) (te : TextEncoding) (ty : ResolvedTypeRef) (v : JsValue) : Prop :=
  ValueOf ir te ty v ∧ (ty = .abiType .stringView → ∃ units, v = .str units)

/-- The code writes every value of the type. It changes the slot and what it allocates; if these do
not overlap, the value is read in the slot with data of its own. -/
def ReturnsDecode (ir : ApiIr) (ty : ResolvedTypeRef) (l : Layout) (code : JsStmt) : Prop :=
  ∀ w out result m, Placed w → ValueOf ir utf8 ty result → 0 < out → out + l.size ≤ 2 ^ 53 →
    ∃ env h, code.exec w (returnEnv out result) ⟨m, []⟩ = some (env, h) ∧
      Effect ⟨out, l.size⟩ h.blocks ⟨m, []⟩ h ∧
      (Apart (⟨out, l.size⟩ :: h.blocks) → ∃ data, ReadsAs ir utf8 h.memory ty l out result data ∧
        List.Forall₂ Inside data h.blocks ∧ Apart (⟨out, l.size⟩ :: data.map Data.region))

section
variable {ir : ApiIr} {ty : ResolvedTypeRef} {l : Layout}

/-- Data inside of blocks that do not overlap does not overlap. -/
theorem Apart.data {slot : Region} {data : List Data} {blocks : List Region}
    (hinside : List.Forall₂ Inside data blocks) (hapart : Apart (slot :: blocks)) :
    Apart (slot :: data.map Data.region) := by
  induction hinside with
  | nil => exact List.pairwise_singleton _ _
  | @cons d r data blocks hd hinside ih =>
    obtain ⟨hslot, hrest⟩ := List.pairwise_cons.mp hapart
    obtain ⟨hr, hblocks⟩ := List.pairwise_cons.mp hrest
    obtain ⟨hslotData, hdata⟩ := List.pairwise_cons.mp
      (ih (List.pairwise_cons.mpr ⟨fun s hs => hslot s (List.mem_cons_of_mem r hs), hblocks⟩))
    refine List.pairwise_cons.mpr ⟨fun s hs => ?_, List.pairwise_cons.mpr ⟨fun s hs => ?_, hdata⟩⟩
    · rcases List.mem_cons.mp hs with rfl | hs
      · exact (hslot r List.mem_cons_self).mono_right hd.subset
      · exact hslotData s hs
    · obtain ⟨e, he, rfl⟩ := List.mem_map.mp hs
      obtain ⟨b, hb, heb⟩ := exists_of_forall₂ hinside.flip e he
      exact ((hr b hb).mono_left hd.subset).mono_right heb.subset

/-- The code that writes what the author returns runs to its end, and puts it into the out slot. -/
def WritesReturn (ir : ApiIr) (ty : ResolvedTypeRef) (l : Layout) (code : JsStmt) : Prop :=
  ∀ te w out result m, Ready te w → ReturnOf ir te ty result → 0 < out → out + l.size ≤ 2 ^ 53 →
    ∃ env h, code.exec w (returnEnv out result) ⟨m, []⟩ = some (env, h) ∧
      Marshalled ir te ty l out result ⟨m, []⟩ h

/-- A string that is returned by itself has names of its own. -/
theorem text_writesReturn (ir : ApiIr) :
    WritesReturn ir (.abiType .stringView) viewLayout
      (emitString ⟨"_retBytes", none⟩ ⟨"_retBuf", none⟩ ⟨"_retPtr", none⟩ ⟨"_i", none⟩
        (.name ⟨"out_ptr", none⟩) 0 (.name ⟨"result", none⟩)) := by
  intro te w out result m hw hv hout hlimit
  obtain ⟨hv, hstring⟩ := hv
  obtain ⟨units, rfl⟩ := hstring rfl
  cases hv with
  | view hlo => cases hlo
  | @text _ enc henc hlt =>
    have hnames : [⟨"_retBytes", none⟩, ⟨"_retBuf", none⟩, ⟨"_retPtr", none⟩,
        (⟨"_i", none⟩ : JsName)].Nodup := by decide
    have hnew : ∀ y ∈ [⟨"_retBytes", none⟩, ⟨"_retBuf", none⟩, ⟨"_retPtr", none⟩,
        (⟨"_i", none⟩ : JsName)], returnEnv out (.str units) y = none := by
      intro y hy
      simp only [List.mem_cons, List.not_mem_nil, or_false] at hy
      rcases hy with rfl | rfl | rfl | rfl <;> simp [returnEnv]
    have hbase : (JsExpr.name ⟨"out_ptr", none⟩).eval (returnEnv out (.str units)) =
        some (.num out) := rfl
    have hresult : (JsExpr.name ⟨"result", none⟩).eval (returnEnv out (.str units)) =
        some (.str units) := rfl
    obtain ⟨env, h, r, hexec, -, -, heffect, hreads⟩ :=
      emitString_exec ir 0 (h := ⟨m, []⟩) hw hnames
      hnew hbase hout hlimit hresult henc hlt
    refine ⟨env, h, hexec, [r], heffect, fun hapart => ?_⟩
    obtain ⟨data, hdata, hinside⟩ := hreads hapart
    exact ⟨[data], hdata, .cons hinside .nil⟩

/-- With enough fuel the generator emits such code. -/
theorem return_emits (hty : Returns ir ty l) (huntaken : Untaken ir ty) :
    ∃ N, ∀ fuel, N ≤ fuel → ∃ code, emitJsGuestReturnWrite ir fuel ty = .ok code ∧
      WritesReturn ir ty l code := by
  by_cases htext : ty = .abiType .stringView
  · subst htext
    cases hty
    exact ⟨0, fun fuel _ => ⟨_, by rw [emitJsGuestReturnWrite, if_pos rfl], text_writesReturn ir⟩⟩
  · obtain ⟨N, hN⟩ := marshal_emits hty huntaken
    refine ⟨N, fun fuel hfuel => ?_⟩
    obtain ⟨code, uid', hcode, -, hwrites⟩ := hN fuel hfuel (.name ⟨"out_ptr", none⟩) 0
      (.name ⟨"result", none⟩) 0 (Nat.dvd_zero _)
    refine ⟨code, ?_, ?_⟩
    · simp only [emitJsGuestReturnWrite, if_neg htext, hcode, bind, Except.bind]
    · intro te w out result m hw hv hout hlimit
      have hfree : Free 0 (returnEnv out result) := fun stem id _ => by simp [returnEnv]
      obtain ⟨env, h, hexec, -, -, hmarshalled⟩ := hwrites te w hw (returnEnv out result) ⟨m, []⟩
        result out hfree rfl rfl hv.1 (fun _ => hout) hlimit
      exact ⟨env, h, hexec, hmarshalled⟩

/-- Strings without unpaired halves are encoded in UTF-8, with `TextEncoder` and without. -/
theorem ready_utf8 {w : JsWorld} (hw : Placed w) : Ready utf8 w where
  placed := hw
  encodes := fun _ _ henc => (ppEncodeUtf8_paired henc.1 w.hasTextEncoder).trans henc.2.symm

/-- **Returned values decode to what the author returned**, unless a struct or an enum is taken for
an array. -/
theorem returned_values_decode (hty : Returns ir ty l) (huntaken : Untaken ir ty) :
    ∃ N, ∀ fuel, N ≤ fuel → ∃ code, emitJsGuestReturnWrite ir fuel ty = .ok code ∧
      ReturnsDecode ir ty l code := by
  obtain ⟨N, hN⟩ := return_emits hty huntaken
  refine ⟨N, fun fuel hfuel => ?_⟩
  obtain ⟨code, hcode, hwrites⟩ := hN fuel hfuel
  refine ⟨code, hcode, fun w out result m hw hv hout hlimit => ?_⟩
  have hreturn : ReturnOf ir utf8 ty result := by
    refine ⟨hv, fun hty => ?_⟩
    subst hty
    cases hv with
    | @text units _ _ _ => exact ⟨units, rfl⟩
    | view _ _ _ _ _ hheld => exact absurd hheld id
  obtain ⟨env, h, hexec, new, heffect, hreads⟩ :=
    hwrites utf8 w out result m (ready_utf8 hw) hreturn hout hlimit
  have hblocks : h.blocks = new := heffect.blocks
  rw [← hblocks] at heffect hreads
  refine ⟨env, h, hexec, heffect, fun hapart => ?_⟩
  obtain ⟨data, hdata, hinside⟩ := hreads hapart
  exact ⟨data, hdata, hinside, hapart.data hinside⟩

end

/-! ### A report -/

/-- A struct of a string and an array of numbers of 16 bits. -/
def reportType : ResolvedType :=
  ⟨"Report", [⟨"title", .abiType .stringView⟩, ⟨"samples", .userDefined "ArrayOf_u16"⟩], none⟩

/-- The report, and the wrapper of its array. -/
def reportIr : ApiIr := ⟨[arrayWrapperType "ArrayOf_u16", reportType], [], [], []⟩

theorem report_array : ArrayOf reportIr "ArrayOf_u16" "u16" :=
  ⟨by decide, by decide, _, by decide, rfl⟩

theorem report_plain : arrayElementName "Report" = none := by decide

theorem report_returns :
    Returns reportIr (.userDefined "Report") (structLayout [viewLayout, viewLayout]) := by
  refine Returns.struct (s := reportType) (fun _ => viewLayout) (by decide) (by decide)
    (fun element harray => ?_) fun f hf => ?_
  · have hnone := harray.1
    rw [report_plain] at hnone
    cases hnone
  · rcases List.mem_cons.mp hf with rfl | hf
    · exact .text
    · obtain rfl := List.mem_singleton.mp hf
      exact .array report_array (.primitive .u16)

theorem report_untaken : Untaken reportIr (.userDefined "Report") := by
  refine untaken_struct (s := reportType) report_plain (by decide) fun f hf => ?_
  rcases List.mem_cons.mp hf with rfl | hf
  · exact untaken_abiType .stringView
  · obtain rfl := List.mem_singleton.mp hf
    exact untaken_array report_array (untaken_primitive .u16)

/-- A report with two samples. -/
def report : JsValue := .obj [("title", .str [104, 105]), ("samples", .arr [.num 1, .num 2])]

/-- A page for each allocation, in turn. -/
def pages : JsWorld := ⟨fun k _ => 4096 * (k % 16 + 1), true⟩

theorem pages_placed : Placed pages := by
  intro k n hn
  show (0 < n → 0 < 4096 * (k % 16 + 1)) ∧ 4096 * (k % 16 + 1) + n ≤ 2 ^ 53
  omega

/-- Two bytes are allocated for the title. The samples take four, and one for their alignment. -/
theorem report_exec {fuel : Nat} {code : JsStmt}
    (hcode : emitJsGuestReturnWrite reportIr (fuel + 4) (.userDefined "Report") = .ok code) :
    ∃ env h, code.exec pages (returnEnv 64 report) ⟨fun _ => 0, []⟩ = some (env, h) ∧
      h.blocks = [⟨4096, 2⟩, ⟨8192, 5⟩] := by
  have hemitted := Except.ok.inj hcode
  subst hemitted
  exact ⟨_, _, rfl, rfl⟩

theorem report_value : ValueOf reportIr utf8 (.userDefined "Report") report := by
  refine ValueOf.struct (s := reportType)
    (fun f => if f.name = "title" then .str [104, 105] else .arr [.num 1, .num 2]) (by decide)
    (by decide) (fun element harray => ?_) (fun f hf => ?_) fun f hf => ?_
  · have hnone := harray.1
    rw [report_plain] at hnone
    cases hnone
  · rcases List.mem_cons.mp hf with rfl | hf
    · rfl
    · obtain rfl := List.mem_singleton.mp hf
      rfl
  · rcases List.mem_cons.mp hf with rfl | hf
    · exact .text ⟨by decide, rfl⟩ (by decide)
    · obtain rfl := List.mem_singleton.mp hf
      refine .array report_array (.primitive .u16) (by decide) (by decide) fun v hv => ?_
      rcases List.mem_cons.mp hv with rfl | hv
      · exact .primitive (p := .u16) (n := 1) ⟨rfl, by decide⟩
      · obtain rfl := List.mem_singleton.mp hv
        exact .primitive (p := .u16) (n := 2) ⟨rfl, by decide⟩

/-- The report is read in the out slot. -/
theorem report_decodes :
    ∃ N, ∀ fuel, N ≤ fuel → ∃ code env h data,
      emitJsGuestReturnWrite reportIr fuel (.userDefined "Report") = .ok code ∧
        code.exec pages (returnEnv 64 report) ⟨fun _ => 0, []⟩ = some (env, h) ∧
        ReadsAs reportIr utf8 h.memory (.userDefined "Report")
          (structLayout [viewLayout, viewLayout]) 64 report data ∧
        List.Forall₂ Inside data h.blocks := by
  obtain ⟨N, hN⟩ := returned_values_decode report_returns report_untaken
  refine ⟨N + 4, fun fuel hfuel => ?_⟩
  obtain ⟨fuel, rfl⟩ := Nat.exists_eq_add_of_le' (show 4 ≤ fuel by omega)
  obtain ⟨code, hcode, hdecodes⟩ := hN (fuel + 4) (by omega)
  obtain ⟨env, h, hexec, -, hreads⟩ := hdecodes pages 64 report (fun _ => 0) pages_placed
    report_value (by decide) (by decide)
  obtain ⟨env', h', hexec', hblocks⟩ := report_exec hcode
  rw [hexec] at hexec'
  obtain ⟨rfl, rfl⟩ := Prod.mk.inj (Option.some.inj hexec')
  have hapart : Apart (⟨64, (structLayout [viewLayout, viewLayout]).size⟩ :: h.blocks) := by
    rw [hblocks]
    refine List.pairwise_cons.mpr ⟨fun r hr => ?_, List.pairwise_pair.mpr ?_⟩
    · rcases List.mem_cons.mp hr with rfl | hr
      · exact Region.disjoint_of_le (by decide)
      · obtain rfl := List.mem_singleton.mp hr
        exact Region.disjoint_of_le (by decide)
    · exact Region.disjoint_of_le (by decide)
  obtain ⟨data, hdata, hinside, -⟩ := hreads hapart
  exact ⟨code, env, h, data, hcode, hexec, hdata, hinside⟩

/-! ### A struct with the name of an array -/

/-- A struct that is declared with the name that an array of bytes would have. -/
def takenType : ResolvedType := ⟨"ArrayOf_u8", [⟨"x", .primitive .u32⟩], none⟩

/-- The struct alone. -/
def takenIr : ApiIr := ⟨[takenType], [], [], []⟩

theorem taken_plain (element : String) : ¬ ArrayOf takenIr "ArrayOf_u8" element := by
  intro harray
  obtain ⟨-, -, s, htype, hfields⟩ := harray
  obtain rfl : takenType = s := Option.some.inj htype
  exact absurd hfields (by decide)

theorem taken_value (n : Nat) (hn : n < 2 ^ 32) :
    ValueOf takenIr utf8 (.userDefined "ArrayOf_u8") (.obj [("x", .num n)]) := by
  refine ValueOf.struct (s := takenType) (fun _ => .num n) (by decide) (by decide) taken_plain
    (fun f hf => ?_) fun f hf => ?_
  · obtain rfl := List.mem_singleton.mp hf
    rfl
  · obtain rfl := List.mem_singleton.mp hf
    exact .primitive (p := .u32) ⟨rfl, hn⟩

/-- The struct is returned, and the code that is emitted for it throws on the value 5: there is no
length, so no bytes are allocated (`NaN` is taken as 0), and `undefined` cannot be written. -/
theorem taken_struct_fails :
    Returns takenIr (.userDefined "ArrayOf_u8") (structLayout [natural 2]) ∧
      ¬ ∃ N, ∀ fuel, N ≤ fuel → ∃ code,
        emitJsGuestReturnWrite takenIr fuel (.userDefined "ArrayOf_u8") = .ok code ∧
          ReturnsDecode takenIr (.userDefined "ArrayOf_u8") (structLayout [natural 2]) code := by
  constructor
  · refine Returns.struct (s := takenType) (fun _ => natural 2) (by decide) (by decide) taken_plain
      fun f hf => ?_
    obtain rfl := List.mem_singleton.mp hf
    exact .primitive .u32
  · intro hmeets
    obtain ⟨N, hN⟩ := hmeets
    obtain ⟨code, hcode, hdecodes⟩ := hN (N + 3) (by omega)
    have hemit : emitJsGuestReturnWrite takenIr (N + 3) (.userDefined "ArrayOf_u8") =
        .ok (emitArray 1 1 (.name ⟨"out_ptr", none⟩) 0 (.name ⟨"result", none⟩) 0
          (emitPrimitive .u8 (temp "_ep" 0) 0 (temp "_el" 0))) := by
      have hcomputed : Computed takenIr (N + 2) (resolvedTypeRefForName "u8") (natural 0) :=
        ⟨rfl, rfl⟩
      have hname : arrayElementName "ArrayOf_u8" = some "u8" := by decide
      have harray : emitJsGuestMarshal takenIr (N + 3) (.userDefined "ArrayOf_u8")
          (.name ⟨"out_ptr", none⟩) 0 (.name ⟨"result", none⟩) 0 =
          .ok (emitArray 1 1 (.name ⟨"out_ptr", none⟩) 0 (.name ⟨"result", none⟩) 0
            (emitPrimitive .u8 (temp "_ep" 0) 0 (temp "_el" 0)), 1) :=
        emitJsGuestMarshal_array hname hcomputed rfl
      rw [emitJsGuestReturnWrite, if_neg (by decide), harray]
      rfl
    rw [hemit] at hcode
    obtain rfl := Except.ok.inj hcode
    obtain ⟨env, h, hexec, -⟩ := hdecodes ⟨fun _ _ => 4096, true⟩ 64 (.obj [("x", .num (5 : Nat))])
      (fun _ => 0)
      (fun k n hn => ⟨fun _ => show 0 < 4096 by omega, show 4096 + n ≤ 2 ^ 53 by omega⟩)
      (taken_value 5 (by decide)) (by decide) (by decide)
    cases hexec

end PolyPlug.Codegen
