import PolyPlug.Lib.Loop
import PolyPlug.Proofs.Codegen.JsUtf8
import PolyPlug.Proofs.Codegen.JsValues
import PolyPlug.Proofs.Codegen.JsWrites

/-!
# `PolyPlug.Proofs.Codegen.JsMarshal`: what the code of a value does

`Marshals` says that code puts a value at an address: it runs to its end, changes the slot of the
value and the blocks it allocates and nothing else, and if these do not overlap the value is read in
the slot. `Writes` says so of every value of a type, and `Emits` of the code that the generator
emits for it.

A struct and an array are parts in a region, put there one after the other. One more part keeps what
was there (`PartsMarshalled.append`), since it writes bytes of its own. `marshal_emits` follows the
type.
-/

set_option autoImplicit false

namespace PolyPlug.Codegen

open PolyPlug.Lib PolyPlug.Js

/-! ### What code does -/

/-- No name that is counted from `uid` on is visible. -/
def Free (uid : Nat) (env : Env) : Prop := ∀ stem id, uid ≤ id → env ⟨stem, some id⟩ = none

/-- No two of the regions overlap. -/
def Apart (rs : List Region) : Prop := rs.Pairwise fun r s => Disjoint r.span s.span

/-- Data lies in a block, at the first multiple of its alignment, which is not null. The block has
room for it there, wherever it starts, and one byte at least. -/
structure Inside (d : Data) (r : Region) : Prop where
  notNull : 0 < d.region.start
  subset : d.region.span ⊆ r.span
  start : d.region.start = roundUp r.start d.align
  size : r.size = max (d.region.size + (d.align - 1)) 1

/-- The memory is changed in a slot and in new blocks only. -/
structure Effect (slot : Region) (new : List Region) (h h' : JsHeap) : Prop where
  blocks : h'.blocks = h.blocks ++ new
  memory : ∀ i, i ∉ slot.span → (∀ r ∈ new, i ∉ r.span) → h'.memory i = h.memory i

/-- Every address that the arena returns for bytes is one, and lies below 2 ^ 53. -/
def Placed (w : JsWorld) : Prop :=
  ∀ k n, n < 2 ^ 32 → (0 < n → 0 < w.arena k n) ∧ w.arena k n + n ≤ 2 ^ 53

/-- What the code runs in: allocations are placed, and the encoder gives the bytes of strings. -/
structure Ready (te : TextEncoding) (w : JsWorld) : Prop where
  placed : Placed w
  encodes : ∀ units bytes, te.bytes units bytes → ppEncodeUtf8 w.hasTextEncoder units = bytes

/-- A value is put at an address: its slot and new blocks are changed, and if these do not overlap,
the value is read there. -/
def Marshalled (ir : ApiIr) (te : TextEncoding) (ty : ResolvedTypeRef) (l : Layout) (a : Nat)
    (v : JsValue) (h h' : JsHeap) : Prop :=
  ∃ new, Effect ⟨a, l.size⟩ new h h' ∧ (Apart (⟨a, l.size⟩ :: new) →
    ∃ data, ReadsAs ir te h'.memory ty l a v data ∧ List.Forall₂ Inside data new)

/-- The code runs to its end and puts the value at the address. -/
def Marshals (ir : ApiIr) (te : TextEncoding) (w : JsWorld) (ty : ResolvedTypeRef) (l : Layout)
    (a : Nat) (v : JsValue) (code : JsStmt) (uid : Nat) (env : Env) (h : JsHeap) : Prop :=
  ∃ env' h', code.exec w env h = some (env', h') ∧ env.Le env' ∧ Free uid env' ∧
    Marshalled ir te ty l a v h h'

/-- The code puts every value of a type at its base and offset. The null pointer will do for a value
without bytes. -/
def Writes (ir : ApiIr) (te : TextEncoding) (w : JsWorld) (ty : ResolvedTypeRef) (l : Layout)
    (base : JsExpr) (off : Nat) (value : JsExpr) (code : JsStmt) (uid uid' : Nat) : Prop :=
  ∀ env h v (b : Nat), Free uid env → base.eval env = some (.num b) → value.eval env = some v →
    ValueOf ir te ty v → (0 < l.size → 0 < b) → b + off + l.size ≤ 2 ^ 53 →
    Marshals ir te w ty l (b + off) v code uid' env h

section
variable {ir : ApiIr} {te : TextEncoding} {w : JsWorld} {env env' : Env} {h : JsHeap}
  {base value : JsExpr} {b off a n x uid : Nat} {v : JsValue} {ty : ResolvedTypeRef} {l : Layout}
  {code : JsStmt}

theorem write_effect {bytes : List UInt8} (hlen : bytes.length = n) :
    Effect ⟨a, n⟩ [] h { h with memory := h.memory.write a bytes } where
  blocks := (List.append_nil _).symm
  memory := fun i hi _ => Memory.write_of_not_mem (by rw [hlen]; exact hi)

/-- Code that writes a number. -/
theorem marshals_of_stores (hcode : Stores w env code a l.size x) (hx : x < 256 ^ l.size)
    (hfree : Free uid env)
    (hreads : ∀ m : Memory, m.read a l.size = x → ReadsAs ir te m ty l a v []) :
    Marshals ir te w ty l a v code uid env h := by
  refine ⟨env, _, hcode h, Env.Le.refl env, hfree, [], write_effect (length_littleEndian _ _), ?_⟩
  exact fun _ => ⟨[], hreads _ (Memory.read_write_of_lt hx), .nil⟩

/-! ### Strings -/

theorem eval_low {e : JsExpr} {p : Nat} (he : e.eval env = some (halves p)) :
    (e.index (.num 0)).eval env = some (.num (p % 2 ^ 32 : Nat)) := eval_elem he rfl rfl

theorem eval_high {e : JsExpr} {p : Nat} (he : e.eval env = some (halves p)) :
    (e.index (.num 1)).eval env = some (.num (p / 2 ^ 32 : Nat)) := eval_elem he rfl rfl

theorem eval_joined {e : JsExpr} {p : Nat} (he : e.eval env = some (halves p)) (hp : p ≤ 2 ^ 53) :
    (joined e).eval env = some (.num p) := by
  have hmul := eval_mul (eval_high he) (b := .num 4294967296) rfl (by omega)
  have hadd := eval_add (eval_low he) hmul (by omega)
  rwa [show p % 2 ^ 32 + p / 2 ^ 32 * 4294967296 = p by omega] at hadd

/-- The loop that writes the bytes of a string. -/
theorem exec_writeBytes {bytes ptr i : JsName} {enc : List UInt8} {p : Nat}
    (hbytes : env bytes = some (.arr (enc.map fun c => .num c.toNat)))
    (hptr : env ptr = some (.num p)) (hi : env i = none) (hp : 0 < p)
    (hfit : p + enc.length ≤ 2 ^ 53) :
    (JsStmt.forLess i (.field (.name bytes) "length")
      (.write .byte (.add (.name ptr) (.name i)) (.index (.name bytes) (.name i)))).exec w env h =
      some (env, { h with memory := h.memory.write p enc }) := by
  have hlength : (JsExpr.field (.name bytes) "length").eval env = some (.num enc.length) := by
    rw [eval_length (eval_name hbytes), List.length_map]
  obtain ⟨h', hexec, hend⟩ := exec_forLess (w := w)
    (fun k g => g = { h with memory := h.memory.write p (enc.take k) }) hlength hi
    (show h = _ by rw [List.take_zero, Memory.write_nil]) fun k g env' hk hle hki _ hg => by
      have haddr : ((JsExpr.name ptr).add (.name i)).eval env' = some (.num (p + k : Nat)) :=
        eval_add (eval_name (hle _ _ hptr)) (eval_name hki) (by omega)
      have helem : (enc.map fun c => JsValue.num c.toNat)[k]? = some (.num (enc[k].toNat)) := by
        rw [List.getElem?_map, List.getElem?_eq_getElem hk]
        rfl
      have hbyte := eval_elem (eval_name (hle _ _ hbytes)) (eval_name hki) helem
      have hlt : enc[k].toNat < 2 ^ 32 := lt_trans enc[k].toNat_lt (by decide)
      refine ⟨_, exec_write haddr (by omega) hbyte (bytes_byte hlt), ?_⟩
      have hone : littleEndian 1 enc[k].toNat = [enc[k]] := by
        rw [littleEndian, UInt8.ofNat_toNat]
        rfl
      have hlen : (enc.take k).length = k := by rw [List.length_take, min_eq_left (le_of_lt hk)]
      rw [hg, hone, List.take_succ_eq_append_getElem hk, Memory.write_append, hlen]
  rw [List.take_length] at hend
  rw [hexec, hend]

/-- The size that a string allocates, one byte at least. -/
theorem eval_size {length : JsExpr} (hlength : length.eval env = some (.num n)) :
    (JsExpr.cond (.greater length (.num 0)) length (.num 1)).eval env =
      some (.num (max n 1 : Nat)) := by
  have hgreater : (length.greater (.num 0)).eval env = some (.bool (decide ((0 : Int) < n))) := by
    simp only [JsExpr.eval, hlength]
    rfl
  rw [JsExpr.eval, hgreater]
  cases n with
  | zero => rfl
  | succ n =>
    rw [decide_eq_true (by omega), max_eq_left (by omega)]
    exact hlength

theorem ppEncodeUtf8_paired {units : List UInt16} (hpaired : Paired units = true)
    (hasTextEncoder : Bool) : ppEncodeUtf8 hasTextEncoder units = textEncode units := by
  cases hasTextEncoder with
  | true => rfl
  | false => exact encodeUnits_eq_textEncode hpaired

/-- The pointer and the length of a view that is in memory. -/
theorem view_read {m : Memory} {p : Nat} (hp : p < 2 ^ 64) (h : m.read a 16 = p + 2 ^ 64 * n) :
    m.read a 8 = p ∧ m.read (a + 8) 8 = n := by
  have hsplit : m.read a 16 = m.read a 8 + 256 ^ 8 * m.read (a + 8) 8 :=
    Memory.read_append (n := 8) 8
  have hlt : m.read a 8 < 256 ^ 8 := Memory.read_lt
  omega

/-- A string is read through its view. -/
theorem ReadsAs.of_view {m : Memory} {p : Nat} {units : List UInt16} (hptr : m.read a 8 = p)
    (hlen : m.read (a + 8) 8 = n) (hbytes : te.bytes units (m.bytes p n)) :
    ReadsAs ir te m (.abiType .stringView) viewLayout a (.str units) [⟨⟨p, n⟩, 1⟩] := by
  subst hptr hlen
  exact .text hbytes

/-- A string is read whose bytes and whose view are written apart. -/
theorem text_reads {m : Memory} {p : Nat} {units : List UInt16} {enc : List UInt8} (hp : p < 2 ^ 64)
    (hlt : enc.length < 2 ^ 32) (henc : te.bytes units enc)
    (hdisjoint : Disjoint (Region.span ⟨a, 16⟩) (Region.span ⟨p, enc.length⟩)) :
    ReadsAs ir te ((m.write p enc).write a
        (littleEndian 16 (p + 2 ^ 64 * enc.length)))
      (.abiType .stringView) viewLayout a (.str units) [⟨⟨p, enc.length⟩, 1⟩] := by
  have hslot : ((m.write p enc).write a
      (littleEndian 16 (p + 2 ^ 64 * enc.length))).read a 16 =
      p + 2 ^ 64 * enc.length := Memory.read_write_of_lt (by omega)
  obtain ⟨hptr, hlen⟩ := view_read hp hslot
  have hbytes : ((m.write p enc).write a
      (littleEndian 16 (p + 2 ^ 64 * enc.length))).bytes p
      enc.length = enc := by
    refine (Memory.bytes_congr fun k hk => Memory.write_of_not_mem fun hk' => ?_).trans
      Memory.bytes_write
    rw [length_littleEndian] at hk'
    exact Set.disjoint_left.mp hdisjoint hk' hk
  exact .of_view hptr hlen (by rw [hbytes]; exact henc)

/-- The code of a string allocates a block, and the string is read in the slot. -/
theorem emitString_exec (ir : ApiIr) (off : Nat) {bytes buf ptr i : JsName} {units : List UInt16}
    {enc : List UInt8} (hw : Ready te w)
    (hnames : [bytes, buf, ptr, i].Nodup) (hnew : ∀ y ∈ [bytes, buf, ptr, i], env y = none)
    (hbase : base.eval env = some (.num b)) (hb : 0 < b) (hoff : b + off + 16 ≤ 2 ^ 53)
    (hvalue : value.eval env = some (.str units)) (henc : te.bytes units enc)
    (hlt : enc.length < 2 ^ 32) :
    ∃ env' h' r, (emitString bytes buf ptr i base off value).exec w env h = some (env', h') ∧
      env.Le env' ∧ (∀ y, y ∉ [bytes, buf, ptr, i] → env' y = env y) ∧
      Effect ⟨b + off, 16⟩ [r] h h' ∧
      (Apart [⟨b + off, 16⟩, r] → ∃ data,
        ReadsAs ir te h'.memory (.abiType .stringView) viewLayout (b + off) (.str units) [data] ∧
          Inside data r) := by
  simp only [List.nodup_cons, List.mem_cons, List.not_mem_nil, or_false, not_or,
    not_false_eq_true, List.nodup_nil, and_true] at hnames
  obtain ⟨⟨hbuf, hptr, hi⟩, ⟨hbufptr, hbufi⟩, hptri⟩ := hnames
  -- The bytes.
  obtain ⟨env₁, hexec₁, hle₁, hbytes₁, hother₁⟩ := exec_encode (w := w) (h := h) hvalue
    (hnew bytes (by simp))
  rw [hw.encodes _ _ henc] at hbytes₁
  have hlength₁ : (JsExpr.field (.name bytes) "length").eval env₁ =
      some (.num enc.length) := by
    rw [eval_length (eval_name hbytes₁), List.length_map]
  -- The block.
  obtain ⟨hpos, hfit⟩ := hw.placed h.blocks.length (max enc.length 1) (by omega)
  have hpos := hpos (by omega)
  obtain ⟨env₂, hexec₂, hle₂, hbuf₂, hother₂⟩ := exec_arenaAlloc (w := w) (h := h) (x := buf)
    (eval_size hlength₁) (by omega) (by rw [hother₁ _ (Ne.symm hbuf), hnew buf (by simp)])
  generalize hsize : max enc.length 1 = size at *
  generalize w.arena h.blocks.length size = p at *
  rw [blockAt, if_neg (by omega)] at hexec₂
  -- Its address.
  obtain ⟨env₃, hexec₃, hle₃, hptr₃, hother₃⟩ := exec_const (w := w)
    (h := ⟨h.memory, h.blocks ++ [⟨p, size⟩]⟩) (x := ptr)
    (eval_joined (eval_name hbuf₂) (by omega))
    (by rw [hother₂ _ (Ne.symm hbufptr), hother₁ _ (Ne.symm hptr), hnew ptr (by simp)])
  have hi₃ : env₃ i = none := by
    rw [hother₃ _ (Ne.symm hptri), hother₂ _ (Ne.symm hbufi), hother₁ _ (Ne.symm hi),
      hnew i (by simp)]
  have hbuf₃ := eval_name (hle₃ _ _ hbuf₂)
  have hle : env.Le env₃ := (hle₁.trans hle₂).trans hle₃
  -- The writes.
  have hwrites := exec_writeBytes (w := w) (h := ⟨h.memory, h.blocks ++ [⟨p, size⟩]⟩)
    (hle₃ _ _ (hle₂ _ _ hbytes₁)) hptr₃ hi₃ hpos (by omega)
  have hview := view_stores (w := w) (eval_mono hle base _ hbase) hb hoff
    (by omega : p < 2 ^ 64) hlt (eval_low hbuf₃) (eval_high hbuf₃)
    (eval_mono (hle₂.trans hle₃) _ _ hlength₁)
  have hinside : Inside ⟨⟨p, enc.length⟩, 1⟩ ⟨p, size⟩ :=
    ⟨hpos, Region.span_subset (le_refl p) (show p + enc.length ≤ p + size by omega),
      (roundUp_one p).symm, hsize.symm⟩
  refine ⟨env₃, ⟨(h.memory.write p enc).write (b + off)
      (littleEndian 16 (p + 2 ^ 64 * enc.length)), h.blocks ++ [⟨p, size⟩]⟩,
    ⟨p, size⟩, exec_seq hexec₁ (exec_seq hexec₂ (exec_seq hexec₃ (exec_seq hwrites (hview _)))),
    hle, fun y hy => ?_, ⟨rfl, fun k hslot hblock => ?_⟩, fun hapart => ?_⟩
  · simp only [List.mem_cons, List.not_mem_nil, or_false, not_or] at hy
    rw [hother₃ y hy.2.2.1, hother₂ y hy.2.1, hother₁ y hy.1]
  · show ((h.memory.write p enc).write (b + off) _) k = h.memory k
    rw [Memory.write_of_not_mem (by rw [length_littleEndian]; exact hslot),
      Memory.write_of_not_mem fun hk => hblock _ List.mem_cons_self (hinside.subset hk)]
  · have hdisjoint := (List.pairwise_cons.mp hapart).1 ⟨p, size⟩ List.mem_cons_self
    exact ⟨_, text_reads (by omega) hlt henc (hdisjoint.mono_right hinside.subset), hinside⟩

theorem exec_ifString {e : JsExpr} {s t : JsStmt} {units : List UInt16} {r : Env × JsHeap}
    (he : e.eval env = some (.str units)) (hs : s.exec w env h = some r) :
    (JsStmt.ifString e s t).exec w env h = some (env, r.2) := by
  simp only [JsStmt.exec, he, Option.bind_eq_bind, Option.bind_some, hs]

theorem exec_ifString_other {e : JsExpr} {s t : JsStmt} {r : Env × JsHeap}
    (he : e.eval env = some v) (hv : ∀ units, v ≠ .str units) (ht : t.exec w env h = some r) :
    (JsStmt.ifString e s t).exec w env h = some (env, r.2) := by
  cases v with
  | str units => exact absurd rfl (hv units)
  | _ => simp only [JsStmt.exec, he, Option.bind_eq_bind, Option.bind_some, ht]

theorem Free.succ (hfree : Free uid env) : Free (uid + 1) env := fun stem id hid =>
  hfree stem id (by omega)

/-- A string in a field or an element. -/
theorem stringView_marshals {units : List UInt16} {enc : List UInt8} (hw : Ready te w)
    (hfree : Free uid env)
    (hbase : base.eval env = some (.num b)) (hb : 0 < b) (hoff : b + off + 16 ≤ 2 ^ 53)
    (hvalue : value.eval env = some (.str units)) (henc : te.bytes units enc)
    (hlt : enc.length < 2 ^ 32) :
    Marshals ir te w (.abiType .stringView) viewLayout (b + off) (.str units)
      (emitJsGuestStringView base off value uid) (uid + 1) env h := by
  have hnew : ∀ y ∈ [⟨"_sb", some uid⟩, ⟨"_sbuf", some uid⟩, ⟨"_sp", some uid⟩,
      (⟨"_i", some uid⟩ : JsName)], env y = none := by
    intro y hy
    simp only [List.mem_cons, List.not_mem_nil, or_false] at hy
    rcases hy with rfl | rfl | rfl | rfl <;> exact hfree _ uid (le_refl uid)
  obtain ⟨env', h', r, hexec, -, -, heffect, hreads⟩ := emitString_exec ir off (h := h) hw
    (by simp) hnew hbase hb hoff hvalue henc hlt
  refine ⟨env, h', exec_ifString hvalue hexec, Env.Le.refl env, hfree.succ, [r], heffect,
    fun hapart => ?_⟩
  obtain ⟨data, hdata, hinside⟩ := hreads hapart
  exact ⟨[data], hdata, .cons hinside .nil⟩

/-- A view in place of a string is copied. -/
theorem view_marshals {p : Nat} (hfree : Free uid env) (hbase : base.eval env = some (.num b))
    (hb : 0 < b) (hoff : b + off + 16 ≤ 2 ^ 53) (hvalue : value.eval env = some v)
    (hlo : v.get "ptr_lo" = some (.num (p % 2 ^ 32 : Nat)))
    (hhi : v.get "ptr_hi" = some (.num (p / 2 ^ 32 : Nat))) (hlen : v.get "len" = some (.num n))
    (hp : p < 2 ^ 64) (hn : n < 2 ^ 32) (hheld : te.held ⟨p, n⟩) :
    Marshals ir te w (.abiType .stringView) viewLayout (b + off) v
      (emitJsGuestStringView base off value uid) (uid + 1) env h := by
  have hstring : ∀ units, v ≠ .str units := by
    intro units hv
    rw [hv] at hlo
    cases hlo
  have hstores : Stores w env (emitView base off value) (b + off) 16 (p + 2 ^ 64 * n) :=
    view_stores hbase hb hoff hp hn (eval_field hvalue hlo) (eval_field hvalue hhi)
      (eval_field hvalue hlen)
  refine ⟨env, _, exec_ifString_other hvalue hstring (hstores h), Env.Le.refl env, hfree.succ, [],
    write_effect (length_littleEndian _ _), fun _ => ⟨[], ?_, .nil⟩⟩
  generalize hm : h.memory.write (b + off) (littleEndian 16 (p + 2 ^ 64 * n)) = m
  have hview : m.read (b + off) 16 = p + 2 ^ 64 * n := by
    rw [← hm]
    exact Memory.read_write_of_lt (by omega)
  obtain ⟨hptr, hcount⟩ := view_read hp hview
  subst hptr hcount
  exact .view hlo hhi hlen hheld

end

/-! ### Parts of a value -/

/-- A value at an address, as part of another. -/
structure Part where
  ty : ResolvedTypeRef
  layout : Layout
  address : Nat
  value : JsValue

namespace Part

/-- The bytes of a part. -/
def slot (p : Part) : Region := ⟨p.address, p.layout.size⟩

/-- The part is read in memory. -/
def Read (ir : ApiIr) (te : TextEncoding) (m : Memory) (p : Part) (data : List Data) : Prop :=
  ReadsAs ir te m p.ty p.layout p.address p.value data

end Part

/-- Parts are put into a region: it and new blocks are changed, and if these do not overlap, the
parts are read there. -/
def PartsMarshalled (ir : ApiIr) (te : TextEncoding) (region : Region) (parts : List Part)
    (h h' : JsHeap) : Prop :=
  ∃ new, Effect region new h h' ∧ (Apart (region :: new) →
    ∃ data, List.Forall₂ (Part.Read ir te h'.memory) parts data ∧
      List.Forall₂ Inside data.flatten new)

section
variable {ir : ApiIr} {te : TextEncoding} {region slot : Region} {new new' : List Region}
  {parts : List Part}
  {h g g' : JsHeap} {p : Part}

theorem Effect.refl (region : Region) (h : JsHeap) : Effect region [] h h :=
  ⟨(List.append_nil _).symm, fun _ _ _ => rfl⟩

theorem Effect.trans (heffect : Effect region new h g) (hnext : Effect slot new' g g')
    (hslot : slot.span ⊆ region.span) : Effect region (new ++ new') h g' where
  blocks := by rw [hnext.blocks, heffect.blocks, List.append_assoc]
  memory := fun i hi hnew => by
    rw [hnext.memory i (fun hmem => hi (hslot hmem)) fun r hr =>
        hnew r (List.mem_append_right new hr),
      heffect.memory i hi fun r hr => hnew r (List.mem_append_left new' hr)]

/-- What is read elsewhere stays. -/
theorem Effect.agree (heffect : Effect slot new g g') {r : Region}
    (hslot : Disjoint r.span slot.span) (hnew : ∀ s ∈ new, Disjoint r.span s.span) :
    g.memory.Agree g'.memory r := fun i hi =>
  heffect.memory i (Set.disjoint_left.mp hslot hi) fun s hs => Set.disjoint_left.mp (hnew s hs) hi

/-- One more part is put into the region, in bytes of its own. -/
theorem PartsMarshalled.append (hparts : PartsMarshalled ir te region parts h g)
    (hpart : Marshalled ir te p.ty p.layout p.address p.value g g')
    (hslot : p.slot.span ⊆ region.span) (hinside : ∀ q ∈ parts, q.slot.span ⊆ region.span)
    (hapart : ∀ q ∈ parts, Disjoint q.slot.span p.slot.span) :
    PartsMarshalled ir te region (parts ++ [p]) h g' := by
  obtain ⟨new, heffect, hreads⟩ := hparts
  obtain ⟨new', heffect', hreads'⟩ := hpart
  refine ⟨new ++ new', heffect.trans heffect' hslot, fun hall => ?_⟩
  obtain ⟨hregion, hnews⟩ := List.pairwise_cons.mp hall
  obtain ⟨hnew, hnew', hcross⟩ := List.pairwise_append.mp hnews
  have hold : ∀ r ∈ new, Disjoint region.span r.span := fun r hr =>
    hregion r (List.mem_append_left new' hr)
  have hfresh : ∀ r ∈ new', Disjoint region.span r.span := fun r hr =>
    hregion r (List.mem_append_right new hr)
  obtain ⟨data, hdata, hin⟩ := hreads (List.pairwise_cons.mpr ⟨hold, hnew⟩)
  obtain ⟨data', hdata', hin'⟩ := hreads' (List.pairwise_cons.mpr
    ⟨fun r hr => (hfresh r hr).mono_left hslot, hnew'⟩)
  refine ⟨data ++ [data'], ?_, ?_⟩
  · refine List.rel_append (List.forall₂_iff_zip.mpr ⟨hdata.length_eq, ?_⟩) (.cons hdata' .nil)
    intro q d hqd
    obtain ⟨hq, hd⟩ := List.of_mem_zip hqd
    -- An older part and its data are read as before.
    refine (List.forall₂_zip hdata hqd).frame ?_ fun r hr => ?_
    · exact heffect'.agree (hapart q hq) fun s hs => (hfresh s hs).mono_left (hinside q hq)
    · obtain ⟨b, hb, hrb⟩ := exists_of_forall₂ hin.flip r (List.mem_flatten.mpr ⟨d, hd, hr⟩)
      refine heffect'.agree ?_ fun s hs => (hcross b hb s hs).mono_left hrb.subset
      exact ((hold b hb).symm.mono_left hrb.subset).mono_right hslot
  · rw [List.flatten_append, List.flatten_singleton]
    exact List.rel_append hin hin'

end

/-! ### Names of an array -/

/-- Names with these texts and a number were declared, and no others. -/
def Taken (uid : Nat) (stems : List String) (env env' : Env) : Prop :=
  ∀ y, (∀ stem ∈ stems, y ≠ ⟨stem, some uid⟩) → env' y = env y

section
variable {uid : Nat} {stem : String} {stems : List String} {env env' env'' : Env}

theorem Taken.refl (uid : Nat) (env : Env) : Taken uid [] env env := fun _ _ => rfl

theorem Taken.cons (h : Taken uid stems env env')
    (hother : ∀ y, y ≠ ⟨stem, some uid⟩ → env'' y = env' y) :
    Taken uid (stem :: stems) env env'' := fun y hy =>
  (hother y (hy stem List.mem_cons_self)).trans
    (h y fun other hstem => hy other (List.mem_cons_of_mem stem hstem))

theorem Taken.new (h : Taken uid stems env env') (hfree : Free uid env) (hstem : stem ∉ stems) :
    env' ⟨stem, some uid⟩ = none := by
  rw [h _ fun other hother heq => hstem (by injection heq with hs; rw [hs]; exact hother)]
  exact hfree stem uid (le_refl uid)

theorem Taken.free (h : Taken uid stems env env') (hfree : Free uid env) : Free (uid + 1) env' := by
  intro stem id hid
  rw [h _ fun other _ heq => by injection heq with _ hn; injection hn; omega]
  exact hfree stem id (by omega)

end

/-! ### Arrays -/

/-- The elements of an array, each at its place. -/
def elementParts (ty : ResolvedTypeRef) (l : Layout) (items : Nat) (elems : List JsValue) :
    List Part :=
  elems.mapIdx fun i v => ⟨ty, l, items + i * l.size, v⟩

section
variable {ir : ApiIr} {te : TextEncoding} {w : JsWorld} {env : Env} {h : JsHeap}
  {base value : JsExpr} {b off n uid uid' items : Nat} {ty : ResolvedTypeRef} {l : Layout}
  {code : JsStmt} {elems : List JsValue}

/-- An address rounded up, as the code computes it. -/
theorem eval_roundUp {e : JsExpr} {p : Nat} (he : e.eval env = some (.num p))
    (hfit : p + (l.align - 1) ≤ 2 ^ 53) :
    (JsExpr.mul (.ceilDiv e (.num l.align)) (.num l.align)).eval env =
      some (.num (roundUp p l.align : Nat)) := by
  obtain ⟨k, hk⟩ := l.pow
  have hle : (p + (l.align - 1)) / l.align * l.align ≤ p + (l.align - 1) := Nat.div_mul_le_self _ _
  have hquot : (p + (l.align - 1)) / l.align ≤ p + (l.align - 1) := Nat.div_le_self _ _
  have halign : (JsExpr.num l.align).eval env = some (.num (2 ^ k : Nat)) := by rw [hk]; rfl
  have hceil := eval_ceilDiv he halign (by rw [← hk]; exact hquot.trans hfit)
  rw [← hk] at hceil
  exact eval_mul hceil rfl (hle.trans hfit)

theorem mem_elementParts {q : Part} (hq : q ∈ elementParts ty l items elems) :
    ∃ i, i < elems.length ∧ q.slot = ⟨items + i * l.size, l.size⟩ := by
  obtain ⟨i, hi, rfl⟩ := List.mem_mapIdx.mp hq
  exact ⟨i, hi, rfl⟩

theorem elementParts_take {k : Nat} (hk : k < elems.length) :
    elementParts ty l items (elems.take (k + 1)) = elementParts ty l items (elems.take k) ++
      [⟨ty, l, items + k * l.size, elems[k]⟩] := by
  rw [List.take_succ_eq_append_getElem hk, elementParts, List.mapIdx_concat, List.length_take,
    min_eq_left (le_of_lt hk)]
  rfl

theorem PartsMarshalled.nil (ir : ApiIr) (region : Region) (h : JsHeap) :
    PartsMarshalled ir te region [] h h :=
  ⟨[], Effect.refl region h, fun _ => ⟨[], .nil, .nil⟩⟩

/-- The loop puts the elements into the region, one after the other. -/
theorem exec_elements (region : Region) {env₀ : Env}
    (htaken : Taken uid ["_bs", "_raddr", "_rb", "_n"] env₀ env) (hfree : Free uid env₀)
    (hn : env ⟨"_n", some uid⟩ = some (.num elems.length))
    (hbs : env ⟨"_bs", some uid⟩ = some (.num items))
    (hvalue : value.eval env = some (.arr elems)) (helems : ∀ v ∈ elems, ValueOf ir te ty v)
    (hcode : Writes ir te w ty l (temp "_ep" uid) 0 (temp "_el" uid) code (uid + 1) uid')
    (hpos : 0 < l.size → 0 < items) (hstart : region.start ≤ items)
    (hend : items + elems.length * l.size ≤ region.start + region.size)
    (hlimit : region.start + region.size ≤ 2 ^ 53) :
    ∃ h', (JsStmt.forLess ⟨"_ix", some uid⟩ (temp "_n" uid)
        (block [.const ⟨"_el", some uid⟩ (.index value (temp "_ix" uid)),
          .const ⟨"_ep", some uid⟩ (.add (temp "_bs" uid) (.mul (temp "_ix" uid) (.num l.size))),
          code])).exec w env h = some (env, h') ∧
      PartsMarshalled ir te region (elementParts ty l items elems) h h' := by
  obtain ⟨h', hexec, hparts⟩ := exec_forLess (w := w) (h := h) (i := ⟨"_ix", some uid⟩)
    (fun k g => PartsMarshalled ir te region (elementParts ty l items (elems.take k)) h g)
    (eval_name hn) (htaken.new hfree (by decide)) (PartsMarshalled.nil ir region h)
    fun k g env₁ hk hle₁ hix₁ hother₁ hg => by
      have hnext := Nat.mul_le_mul_right l.size (show k + 1 ≤ elems.length from hk)
      rw [Nat.add_mul, Nat.one_mul] at hnext
      have htaken₁ := htaken.cons hother₁
      -- The element.
      obtain ⟨env₂, hexec₂, hle₂, hel₂, hother₂⟩ := exec_const (w := w) (h := g)
        (x := ⟨"_el", some uid⟩) (eval_elem (eval_mono hle₁ value _ hvalue) (eval_name hix₁)
          (List.getElem?_eq_getElem hk)) (htaken₁.new hfree (by decide))
      have htaken₂ := htaken₁.cons hother₂
      -- Its address.
      have hmul : (JsExpr.mul (temp "_ix" uid) (.num l.size)).eval env₂ =
          some (.num (k * l.size : Nat)) :=
        eval_mul (eval_name (hle₂ _ _ hix₁)) rfl (by omega)
      obtain ⟨env₃, hexec₃, hle₃, hep₃, hother₃⟩ := exec_const (w := w) (h := g)
        (x := ⟨"_ep", some uid⟩) (eval_add (eval_name (hle₂ _ _ (hle₁ _ _ hbs))) hmul (by omega))
        (htaken₂.new hfree (by decide))
      have htaken₃ := htaken₂.cons hother₃
      obtain ⟨env₄, g', hexec₄, -, -, hmarshalled⟩ := hcode env₃ g elems[k] (items + k * l.size)
        (htaken₃.free hfree) (eval_name hep₃) (eval_name (hle₃ _ _ hel₂))
        (helems _ (List.getElem_mem hk)) (fun hsize => by have := hpos hsize; omega) (by omega)
      refine ⟨(env₄, g'), exec_seq hexec₂ (exec_seq hexec₃ (exec_seq (t := .skip) hexec₄ rfl)), ?_⟩
      rw [elementParts_take hk]
      have hslot : ∀ i, i < elems.length →
          Region.span ⟨items + i * l.size, l.size⟩ ⊆ region.span := fun i hi =>
        (element_subset hi).trans (Region.span_subset hstart hend)
      refine hg.append hmarshalled (hslot k hk) (fun q hq => ?_) fun q hq => ?_
      · obtain ⟨i, hi, hq⟩ := mem_elementParts hq
        rw [hq]
        exact hslot i (lt_of_lt_of_le hi (List.length_take_le' k elems))
      · obtain ⟨i, hi, hq⟩ := mem_elementParts hq
        rw [hq]
        have hik : i + 1 ≤ k := lt_of_lt_of_le hi (List.length_take_le k elems)
        have hbefore := Nat.mul_le_mul_right l.size hik
        rw [Nat.add_mul, Nat.one_mul] at hbefore
        exact Region.disjoint_of_le (show items + i * l.size + l.size ≤ items + k * l.size by omega)
  rw [List.take_length] at hparts
  exact ⟨h', hexec, hparts⟩

theorem exec_ifZero {e : JsExpr} {s t : JsStmt} {r : Env × JsHeap}
    (he : e.eval env = some (.num n)) (hr : (if n = 0 then s else t).exec w env h = some r) :
    (JsStmt.ifZero e s t).exec w env h = some (env, r.2) := by
  simp only [JsStmt.exec, he, Option.bind_eq_bind, Option.bind_some, Int.natCast_eq_zero]
  split
  · next h0 =>
    rw [if_pos h0] at hr
    rw [hr]
    rfl
  · next h0 =>
    rw [if_neg h0] at hr
    rw [hr]
    rfl

/-- What does not overlap a block does not overlap what was asked for. -/
theorem apart_blockAt {slot : Region} {p size : Nat} {new : List Region}
    (h : Apart (slot :: (blockAt p size ++ new))) :
    Disjoint slot.span (Region.span ⟨p, size⟩) ∧ (∀ r ∈ new, Disjoint slot.span r.span) ∧
      Apart (⟨p, size⟩ :: new) := by
  by_cases hsize : size = 0
  · subst hsize
    rw [blockAt, if_pos rfl, List.nil_append] at h
    obtain ⟨hslot, hnew⟩ := List.pairwise_cons.mp h
    exact ⟨Region.disjoint_empty, hslot,
      List.pairwise_cons.mpr ⟨fun _ _ => Region.disjoint_empty.symm, hnew⟩⟩
  · rw [blockAt, if_neg hsize, List.singleton_append] at h
    obtain ⟨hslot, hnew⟩ := List.pairwise_cons.mp h
    exact ⟨hslot _ List.mem_cons_self, fun r hr => hslot r (List.mem_cons_of_mem _ hr), hnew⟩

/-- The block of an array is for its data. -/
theorem arrayData_inside {p size : Nat} (hne : elems ≠ []) (halign : l.size = 0 → l.align = 1)
    (hstart : items = roundUp p l.align) (hsize : size = elems.length * l.size + (l.align - 1))
    (hnull : 0 < size → 0 < p) :
    List.Forall₂ Inside (arrayData items elems l) (blockAt p size) := by
  have hlow : p ≤ items := by rw [hstart]; exact le_roundUp l.align_pos
  have hhigh : items < p + l.align := by rw [hstart]; exact roundUp_lt l.align_pos
  rw [arrayData, blockAt]
  by_cases hbytes : elems.length * l.size = 0
  · -- There are elements, so they have no bytes, and no room is left for an alignment.
    have hzero := (Nat.mul_eq_zero.mp hbytes).resolve_left fun h =>
      hne (List.length_eq_zero_iff.mp h)
    rw [if_pos hbytes, if_pos (by rw [hsize, hbytes, halign hzero])]
    exact .nil
  · rw [if_neg hbytes, if_neg (by omega)]
    have hroom : Region.span ⟨items, elems.length * l.size⟩ ⊆ Region.span ⟨p, size⟩ :=
      Region.span_subset hlow (show items + elems.length * l.size ≤ p + size by omega)
    have hpos := hnull (by omega)
    refine .cons ⟨show 0 < items by omega, hroom, hstart, ?_⟩ .nil
    show size = max (elems.length * l.size + (l.align - 1)) 1
    omega

/-- An array is read whose elements are, and whose view is written apart from them. -/
theorem array_marshalled {name element : String} {a p size : Nat} {g : JsHeap}
    (harray : ArrayOf ir name element) (hl : HasLayout ir (resolvedTypeRefForName element) l)
    (hne : elems ≠ []) (haligned : l.align ∣ items) (hitems : items < 2 ^ 64)
    (hcount : elems.length < 2 ^ 32) (hstart : items = roundUp p l.align)
    (hsize : size = elems.length * l.size + (l.align - 1)) (hnull : 0 < size → 0 < p)
    (hparts : PartsMarshalled ir te ⟨p, size⟩
      (elementParts (resolvedTypeRefForName element) l items elems)
      { h with blocks := h.blocks ++ blockAt p size } g) :
    Marshalled ir te (.userDefined name) viewLayout a (.arr elems) h
      ⟨g.memory.write a (littleEndian 16 (items + 2 ^ 64 * elems.length)), g.blocks⟩ := by
  have hlow : p ≤ items := by rw [hstart]; exact le_roundUp l.align_pos
  have hhigh : items < p + l.align := by rw [hstart]; exact roundUp_lt l.align_pos
  have hroom : Region.span ⟨items, elems.length * l.size⟩ ⊆ Region.span ⟨p, size⟩ :=
    Region.span_subset hlow (show items + elems.length * l.size ≤ p + size by omega)
  obtain ⟨new, heffect, hreads⟩ := hparts
  refine ⟨blockAt p size ++ new, ⟨?_, fun i hslot hnew => ?_⟩, fun hapart => ?_⟩
  · show g.blocks = _
    rw [heffect.blocks, List.append_assoc]
  · show (g.memory.write a _) i = _
    rw [Memory.write_of_not_mem (by rw [length_littleEndian]; exact hslot)]
    refine heffect.memory i (fun hi => ?_) fun r hr => hnew r (List.mem_append_right _ hr)
    have hrange := Region.mem_span.mp hi
    have hblock : ⟨p, size⟩ ∈ blockAt p size := by
      rw [blockAt, if_neg (by omega)]
      exact List.mem_cons_self
    exact hnew _ (List.mem_append_left _ hblock) hi
  · obtain ⟨hblock, hslot, hrest⟩ := apart_blockAt hapart
    obtain ⟨data, hdata, hinside⟩ := hreads hrest
    generalize hm : g.memory.write a (littleEndian 16 (items + 2 ^ 64 * elems.length)) = m
    -- What does not overlap the slot is read as before.
    have hagree : ∀ r : Region, Disjoint r.span (Region.span ⟨a, 16⟩) → g.memory.Agree m r := by
      intro r hr i hi
      rw [← hm]
      exact Memory.write_of_not_mem (by
        rw [length_littleEndian]
        exact Set.disjoint_left.mp hr hi)
    have hview : m.read a 16 = items + 2 ^ 64 * elems.length := by
      rw [← hm]
      exact Memory.read_write_of_lt (by omega)
    obtain ⟨hptr, hlen⟩ := view_read hitems hview
    have hblocks : ∀ d ∈ data.flatten, Disjoint d.region.span (Region.span ⟨a, 16⟩) := by
      intro d hd
      obtain ⟨b, hb, hdb⟩ := exists_of_forall₂ hinside.flip d hd
      exact ((hslot b hb).mono_right hdb.subset).symm
    have hlength : data.length = elems.length := by
      rw [← hdata.length_eq, elementParts, List.length_mapIdx]
    have helems : ∀ (i : Nat) v d, elems[i]? = some v → data[i]? = some d →
        ReadsAs ir te m (resolvedTypeRefForName element) l (m.read a 8 + i * l.size) v d := by
      intro i v d hv hd
      have hi : i < elems.length := (List.getElem?_eq_some_iff.mp hv).1
      have hpart : (elementParts (resolvedTypeRefForName element) l items elems)[i]? =
          some ⟨resolvedTypeRefForName element, l, items + i * l.size, v⟩ := by
        rw [elementParts, List.getElem?_mapIdx, hv]
        rfl
      rw [hptr]
      refine (rel_of_getElem? hdata hpart hd).frame (hagree _ ?_) fun e he => hagree e.region ?_
      · exact (hblock.mono_right ((element_subset hi).trans hroom)).symm
      · exact hblocks e (List.mem_flatten.mpr ⟨d, List.mem_of_getElem? hd, he⟩)
    refine ⟨_, .array harray hl (by rw [hptr]; exact haligned) hlen hlength helems, ?_⟩
    rw [hptr]
    exact List.rel_append (arrayData_inside hne hl.align_eq_one hstart hsize hnull) hinside

/-- The values of an array are the lists of values of its elements. -/
theorem valueOf_array {name element : String} {v : JsValue} (harray : ArrayOf ir name element)
    (hl : HasLayout ir (resolvedTypeRefForName element) l)
    (hv : ValueOf ir te (.userDefined name) v) :
    ∃ elems, v = .arr elems ∧ elems.length < 2 ^ 32 ∧
      elems.length * l.size + (l.align - 1) < 2 ^ 32 ∧
      ∀ x ∈ elems, ValueOf ir te (resolvedTypeRefForName element) x := by
  cases hv with
  | enum henum =>
    rw [harray.2.1] at henum
    cases henum
  | struct _ _ _ hplain => exact absurd harray (hplain element)
  | @array _ element' l' elems harray' hl' hcount hlt helems =>
    have hname := harray'.1
    rw [harray.1] at hname
    obtain rfl := Option.some.inj hname
    obtain rfl := hl.unique hl'
    exact ⟨elems, rfl, hcount, hlt, helems⟩

/-- An array without elements. -/
theorem empty_reads {name element : String} {m : Memory} {a : Nat}
    (harray : ArrayOf ir name element) (hl : HasLayout ir (resolvedTypeRefForName element) l)
    (hptr : m.read a 8 = 0) (hlen : m.read (a + 8) 8 = 0) :
    ReadsAs ir te m (.userDefined name) viewLayout a (.arr []) [] := by
  have haligned : l.align ∣ m.read a 8 := by
    rw [hptr]
    exact Nat.dvd_zero _
  have hreads : ReadsAs ir te m (.userDefined name) viewLayout a (.arr [])
      (arrayData (m.read a 8) [] l ++ ([] : List (List Data)).flatten) :=
    .array harray hl haligned hlen rfl fun i v d hv _ => by cases hv
  have hnone : arrayData (m.read a 8) [] l = [] := if_pos (Nat.zero_mul l.size)
  rw [hnone] at hreads
  exact hreads

/-- The code of an array writes its values, if that of an element does. -/
theorem emitArray_writes {name element : String} (hw : Ready te w)
    (harray : ArrayOf ir name element)
    (hl : HasLayout ir (resolvedTypeRefForName element) l)
    (huid : uid + 1 ≤ uid')
    (hcode : Writes ir te w (resolvedTypeRefForName element) l (temp "_ep" uid) 0 (temp "_el" uid)
      code (uid + 1) uid') :
    Writes ir te w (.userDefined name) viewLayout base off value
      (emitArray l.size l.align base off value uid code) uid uid' := by
  intro env h v b hfree hbase hvalue hv hb hoff
  obtain ⟨elems, rfl, hcount, hlt, helems⟩ := valueOf_array harray hl hv
  have hb : 0 < b := hb (show 0 < 16 by omega)
  have hoff16 : b + off + 16 ≤ 2 ^ 53 := hoff
  -- The length.
  obtain ⟨env₁, hexec₁, hle₁, hn₁, hother₁⟩ := exec_const (w := w) (h := h) (x := ⟨"_n", some uid⟩)
    (eval_length hvalue) (hfree "_n" uid (le_refl uid))
  have htaken₁ := (Taken.refl uid env).cons hother₁
  have hfree₁ : Free uid' env₁ := fun stem id hid => htaken₁.free hfree stem id (by omega)
  have hbase₁ := eval_mono hle₁ base _ hbase
  by_cases hne : elems = []
  · -- Nothing is allocated.
    subst hne
    have hzero : (JsExpr.num 0).eval env₁ = some (.num (0 : Nat)) := rfl
    have hview : Stores w env₁ (writeItemsLen base off (.num 0) (.num 0) (.num 0)) (b + off) 16
        (0 + 2 ^ 64 * 0) :=
      view_stores hbase₁ hb hoff16 (by omega) (by omega) (by rw [Nat.zero_mod]; exact hzero)
        (by rw [Nat.zero_div]; exact hzero) hzero
    refine ⟨env₁, _, exec_seq hexec₁ (exec_ifZero (eval_name hn₁) (hview h)), hle₁, hfree₁, [],
      write_effect (length_littleEndian _ _), fun _ => ⟨[], ?_, .nil⟩⟩
    obtain ⟨hptr, hlen⟩ := view_read (m := h.memory.write (b + off) (littleEndian 16 0))
      (a := b + off) (p := 0) (n := 0) (by omega) (Memory.read_write_of_lt (by omega))
    exact empty_reads harray hl hptr hlen
  · have hcountPos : 0 < elems.length := List.length_pos_iff.mpr hne
    -- The block.
    have hmul : (JsExpr.mul (temp "_n" uid) (.num l.size)).eval env₁ =
        some (.num (elems.length * l.size : Nat)) := eval_mul (eval_name hn₁) rfl (by omega)
    have hsize : (JsExpr.add (.mul (temp "_n" uid) (.num l.size)) (.num (l.align - 1))).eval env₁ =
        some (.num (elems.length * l.size + (l.align - 1) : Nat)) := eval_add hmul rfl (by omega)
    obtain ⟨hposBlock, hfitBlock⟩ := hw.placed h.blocks.length _ hlt
    obtain ⟨env₂, hexec₂, hle₂, hrb₂, hother₂⟩ := exec_arenaAlloc (w := w) (h := h)
      (x := ⟨"_rb", some uid⟩) hsize hlt (htaken₁.new hfree (by decide))
    have htaken₂ := htaken₁.cons hother₂
    generalize hblock : elems.length * l.size + (l.align - 1) = size at *
    generalize w.arena h.blocks.length size = p at *
    -- Its address, and the place of the elements.
    obtain ⟨env₃, hexec₃, hle₃, hraddr₃, hother₃⟩ := exec_const (w := w)
      (h := ⟨h.memory, h.blocks ++ blockAt p size⟩) (x := ⟨"_raddr", some uid⟩)
      (eval_joined (eval_name hrb₂) (by omega)) (htaken₂.new hfree (by decide))
    have htaken₃ := htaken₂.cons hother₃
    obtain ⟨env₄, hexec₄, hle₄, hbs₄, hother₄⟩ := exec_const (w := w)
      (h := ⟨h.memory, h.blocks ++ blockAt p size⟩) (x := ⟨"_bs", some uid⟩)
      (eval_roundUp (l := l) (eval_name hraddr₃) (by omega)) (htaken₃.new hfree (by decide))
    have htaken₄ := htaken₃.cons hother₄
    have hle : env₁.Le env₄ := (hle₂.trans hle₃).trans hle₄
    have hlow : p ≤ roundUp p l.align := le_roundUp l.align_pos
    have hhigh : roundUp p l.align < p + l.align := roundUp_lt l.align_pos
    have haligned : l.align ∣ roundUp p l.align := dvd_roundUp p l.align
    generalize hitems : roundUp p l.align = items at *
    have hposItems : 0 < l.size → 0 < items := by
      intro hbytes
      have hproduct := Nat.mul_pos hcountPos hbytes
      have hp := hposBlock (by omega)
      omega
    -- The elements.
    obtain ⟨g, hexec₅, hparts⟩ := exec_elements ⟨p, size⟩
      (h := ⟨h.memory, h.blocks ++ blockAt p size⟩) htaken₄ hfree (hle _ _ hn₁) hbs₄
      (eval_mono (hle₁.trans hle) value _ hvalue) helems hcode hposItems hlow
      (show items + elems.length * l.size ≤ p + size by omega) hfitBlock
    -- The view.
    have hview := view_stores (w := w) (eval_mono hle base _ hbase₁) hb hoff16
      (by omega : items < 2 ^ 64) (by omega : elems.length < 2 ^ 32)
      (eval_mod (b := .num 4294967296) (eval_name hbs₄) rfl (by omega))
      (eval_floorDiv (b := .num 4294967296) (k := 32) (eval_name hbs₄) rfl (by omega))
      (eval_name (hle _ _ hn₁))
    refine ⟨env₁, ⟨g.memory.write (b + off) (littleEndian 16 (items + 2 ^ 64 * elems.length)),
      g.blocks⟩, exec_seq hexec₁ (exec_ifZero (r := (env₄, _)) (eval_name hn₁) ?_), hle₁, hfree₁,
      ?_⟩
    · rw [if_neg (by omega)]
      exact exec_seq hexec₂ (exec_seq hexec₃ (exec_seq hexec₄ (exec_seq hexec₅
        (exec_seq (t := .skip) (hview g) rfl))))
    · exact array_marshalled harray hl hne haligned (by omega) hcount hitems.symm hblock.symm
        hposBlock hparts

end

/-! ### Structs -/

/-- What the generator emits for a type, at every place and from every number on, writes its
values. -/
def Emits (ir : ApiIr)
    (emit : JsExpr → Nat → JsExpr → Nat → Except JsGenError (JsStmt × Nat)) (ty : ResolvedTypeRef)
    (l : Layout) : Prop :=
  ∀ base off value uid, l.align ∣ off → ∃ code uid', emit base off value uid = .ok (code, uid') ∧
    uid ≤ uid' ∧ ∀ te w, Ready te w → Writes ir te w ty l base off value code uid uid'

/-- The fields of a struct, each at its place. -/
def fieldParts (lay : ResolvedField → Layout) (val : ResolvedField → JsValue) (a start : Nat)
    (fields : List ResolvedField) : List Part :=
  List.zipWith (fun f o => ⟨f.ty, lay f, a + o, val f⟩) fields (place start (fields.map lay))

section
variable {ir : ApiIr} {te : TextEncoding} {fuel off : Nat} {lay : ResolvedField → Layout}
  {fields : List ResolvedField}
  {emit : ResolvedTypeRef → JsExpr → Nat → JsExpr → Nat → Except JsGenError (JsStmt × Nat)}

/-- The code of the fields puts them into the struct, after the parts that are there. -/
theorem emitFields_emits (hcomputed : ∀ f ∈ fields, Computed ir fuel f.ty (lay f))
    (hemit : ∀ f ∈ fields, Emits ir (emit f.ty) f.ty (lay f))
    (halign : ∀ f ∈ fields, (lay f).align ∣ off) (base value : JsExpr) (start uid : Nat) :
    ∃ code uid', emitFields ir fuel emit base value fields (off + start) uid = .ok (code, uid') ∧
      uid ≤ uid' ∧ ∀ te w, Ready te w → ∀ env h₀ h v (b : Nat) region parts val, Free uid env →
        base.eval env = some (.num b) → value.eval env = some v →
        (∀ f ∈ fields, v.get f.name = some (val f)) →
        (∀ f ∈ fields, ValueOf ir te f.ty (val f)) →
        (∀ f ∈ fields, 0 < (lay f).size → 0 < b) → region.start ≤ b + off →
        b + off + stop start (fields.map lay) ≤ region.start + region.size →
        region.start + region.size ≤ 2 ^ 53 → PartsMarshalled ir te region parts h₀ h →
        (∀ q ∈ parts, q.slot.span ⊆ region.span) →
        (∀ q ∈ parts, q.address + q.layout.size ≤ b + off + start) →
        ∃ env' h', code.exec w env h = some (env', h') ∧ env.Le env' ∧ Free uid' env' ∧
          PartsMarshalled ir te region
            (parts ++ fieldParts lay val (b + off) start fields) h₀ h' := by
  induction fields generalizing start uid with
  | nil =>
    refine ⟨.skip, uid, rfl, le_refl uid, ?_⟩
    intro te w hw env h₀ h v b region parts val hfree _ _ _ _ _ _ _ _ hparts _ _
    rw [fieldParts, List.zipWith_nil_left, List.append_nil]
    exact ⟨env, h, rfl, Env.Le.refl env, hfree, hparts⟩
  | cons f fs ih =>
    obtain ⟨halignOk, hsizeOk⟩ := hcomputed f List.mem_cons_self
    have hdvd := halign f List.mem_cons_self
    have hplace : jsAlignUp (off + start) (lay f).align = off + roundUp start (lay f).align := by
      rw [jsAlignUp_eq _ (lay f).align_pos, roundUp_add hdvd]
    obtain ⟨code₁, uid₁, hemit₁, huid₁, hwrites₁⟩ := hemit f List.mem_cons_self base
      (off + roundUp start (lay f).align) (.field value f.name) uid
      (Nat.dvd_add hdvd (dvd_roundUp start _))
    obtain ⟨code₂, uid₂, hemit₂, huid₂, hwrites₂⟩ := ih
      (fun g hg => hcomputed g (List.mem_cons_of_mem f hg))
      (fun g hg => hemit g (List.mem_cons_of_mem f hg))
      (fun g hg => halign g (List.mem_cons_of_mem f hg))
      (roundUp start (lay f).align + (lay f).size) uid₁
    refine ⟨.seq code₁ code₂, uid₂, ?_, huid₁.trans huid₂, ?_⟩
    · simp only [emitFields, halignOk, hplace, hemit₁, hsizeOk, Nat.add_assoc, hemit₂, bind,
        Except.bind]
    · intro te w hw env h₀ h v b region parts val hfree hbase hvalue hget hvals hb
        hstart hend hlimit
        hparts hinside hbefore
      have hlow : start ≤ roundUp start (lay f).align := le_roundUp (lay f).align_pos
      have hstop := le_stop (roundUp start (lay f).align + (lay f).size) (fs.map lay)
      rw [List.map_cons, stop] at hend
      -- The field.
      obtain ⟨env₁, h₁, hexec₁, hle₁, hfree₁, hmarshalled⟩ := hwrites₁ te w hw env h (val f) b hfree
        hbase (eval_field hvalue (hget f List.mem_cons_self)) (hvals f List.mem_cons_self)
        (hb f List.mem_cons_self) (by omega)
      rw [← Nat.add_assoc] at hmarshalled
      have hslot : Region.span ⟨b + off + roundUp start (lay f).align, (lay f).size⟩ ⊆
          region.span := by
        refine Region.span_subset (hstart.trans (Nat.le_add_right _ _)) ?_
        show b + off + roundUp start (lay f).align + (lay f).size ≤ region.start + region.size
        omega
      have hparts₁ := hparts.append
        (p := ⟨f.ty, lay f, b + off + roundUp start (lay f).align, val f⟩) hmarshalled hslot hinside
        fun q hq => Region.disjoint_of_le ((hbefore q hq).trans (Nat.add_le_add_left hlow _))
      -- The fields after it.
      obtain ⟨env₂, h₂, hexec₂, hle₂, hfree₂, hparts₂⟩ :=
        hwrites₂ te w hw env₁ h₀ h₁ v b region _ val
        hfree₁ (eval_mono hle₁ base _ hbase) (eval_mono hle₁ value _ hvalue)
        (fun g hg => hget g (List.mem_cons_of_mem f hg))
        (fun g hg => hvals g (List.mem_cons_of_mem f hg))
        (fun g hg => hb g (List.mem_cons_of_mem f hg)) hstart hend hlimit hparts₁
        (fun q hq => by
          rcases List.mem_append.mp hq with hq | hq
          · exact hinside q hq
          · obtain rfl := List.mem_singleton.mp hq
            exact hslot)
        (fun q hq => by
          rcases List.mem_append.mp hq with hq | hq
          · have hle := hbefore q hq
            omega
          · obtain rfl := List.mem_singleton.mp hq
            dsimp only
            omega)
      refine ⟨env₂, h₂, exec_seq hexec₁ hexec₂, hle₁.trans hle₂, hfree₂, ?_⟩
      rw [List.append_assoc] at hparts₂
      exact hparts₂

/-- The values of an enum are numbers. -/
theorem valueOf_enum {name : String} {e : EnumDef} {v : JsValue}
    (henum : enumNamed ir name = some e) (hv : ValueOf ir te (.userDefined name) v) :
    ∃ x : Nat, v = .num x ∧ x < 256 ^ jsReprSize e.repr ∧ x < 2 ^ 53 := by
  cases hv with
  | @enum _ e' x henum' hlt hexact =>
    rw [henum] at henum'
    obtain rfl := Option.some.inj henum'
    exact ⟨x, rfl, hlt, hexact⟩
  | array harray =>
    rw [harray.2.1] at henum
    cases henum
  | struct _ hnone =>
    rw [hnone] at henum
    cases henum

/-- The values of a struct have its fields. -/
theorem valueOf_struct {name : String} {s : ResolvedType} {v : JsValue}
    (henum : enumNamed ir name = none) (htype : typeNamed ir name = some s)
    (hplain : ∀ element, ¬ ArrayOf ir name element) (hv : ValueOf ir te (.userDefined name) v) :
    ∃ val : ResolvedField → JsValue, (∀ f ∈ s.fields, v.get f.name = some (val f)) ∧
      ∀ f ∈ s.fields, ValueOf ir te f.ty (val f) := by
  cases hv with
  | enum henum' =>
    rw [henum] at henum'
    cases henum'
  | array harray => exact absurd harray (hplain _)
  | struct val _ htype' _ hget hfields =>
    rw [htype] at htype'
    obtain rfl := Option.some.inj htype'
    exact ⟨val, hget, hfields⟩

/-- A struct is read whose fields are. -/
theorem struct_marshalled {name : String} {s : ResolvedType} {v : JsValue} {a : Nat}
    {h h' : JsHeap} {val : ResolvedField → JsValue} (henum : enumNamed ir name = none)
    (htype : typeNamed ir name = some s) (hplain : ∀ element, ¬ ArrayOf ir name element)
    (hget : ∀ f ∈ s.fields, v.get f.name = some (val f))
    (hparts : PartsMarshalled ir te ⟨a, (structLayout (s.fields.map lay)).size⟩
      (fieldParts lay val a 0 s.fields) h h') :
    Marshalled ir te (.userDefined name) (structLayout (s.fields.map lay)) a v h h' := by
  obtain ⟨new, heffect, hreads⟩ := hparts
  refine ⟨new, heffect, fun hapart => ?_⟩
  obtain ⟨data, hdata, hinside⟩ := hreads hapart
  have hlength : data.length = s.fields.length := by
    rw [← hdata.length_eq, fieldParts, List.length_zipWith, length_place, List.length_map,
      min_self]
  refine ⟨data.flatten, .struct lay val henum htype hplain hget hlength ?_, hinside⟩
  intro i f o d hf ho hd
  have hpart : (fieldParts lay val a 0 s.fields)[i]? = some ⟨f.ty, lay f, a + o, val f⟩ := by
    rw [fieldParts, List.getElem?_zipWith, hf, ho]
  have hread := rel_of_getElem? hdata hpart hd
  exact hread

end

/-! ### Every type -/

section
variable {ir : ApiIr}

/-- Scalars are written as they are. -/
theorem emits_of_write {fuel : Nat} {ty : ResolvedTypeRef} {l : Layout} (hsize : 0 < l.size)
    (hemit : ∀ base off value uid, ∃ code,
      emitJsGuestMarshal ir fuel ty base off value uid = .ok (code, uid) ∧
        ∀ te w env v (b : Nat), base.eval env = some (.num b) → value.eval env = some v →
          ValueOf ir te ty v → 0 < b → b + off + l.size ≤ 2 ^ 53 →
          ∃ x, x < 256 ^ l.size ∧ Stores w env code (b + off) l.size x ∧
            ∀ (m : Memory) a, m.read a l.size = x → ReadsAs ir te m ty l a v []) :
    Emits ir (emitJsGuestMarshal ir fuel ty) ty l := by
  intro base off value uid _
  obtain ⟨code, hcode, hwrites⟩ := hemit base off value uid
  refine ⟨code, uid, hcode, le_refl uid, fun te w _ env h v b hfree hbase hvalue hv hb hoff => ?_⟩
  obtain ⟨x, hx, hstores, hreads⟩ := hwrites te w env v b hbase hvalue hv (hb hsize) hoff
  exact marshals_of_stores hstores hx hfree fun m => hreads m (b + off)

section
variable {fuel off uid : Nat} {name : String} {base value : JsExpr}

theorem emitJsGuestMarshal_enum {e : EnumDef} (hname : arrayElementName name = none)
    (henum : enumNamed ir name = some e) :
    emitJsGuestMarshal ir (fuel + 2) (.userDefined name) base off value uid =
      .ok (emitEnum e.repr base off value, uid) := by
  simp only [emitJsGuestMarshal, emitJsWriteValue, hname, henum, bind, Except.bind]

theorem emitJsGuestMarshal_struct {s : ResolvedType} (hname : arrayElementName name = none)
    (henum : enumNamed ir name = none) (htype : typeNamed ir name = some s) :
    emitJsGuestMarshal ir (fuel + 1) (.userDefined name) base off value uid =
      emitFields ir fuel (emitJsGuestMarshal ir fuel) base value s.fields off uid := by
  simp only [emitJsGuestMarshal, hname, henum, htype]

theorem emitJsGuestMarshal_array {element : String} {l : Layout} {code : JsStmt} {uid' : Nat}
    (hname : arrayElementName name = some element)
    (hcomputed : Computed ir fuel (resolvedTypeRefForName element) l)
    (hcode : emitJsGuestMarshal ir fuel (resolvedTypeRefForName element) (temp "_ep" uid) 0
      (temp "_el" uid) (uid + 1) = .ok (code, uid')) :
    emitJsGuestMarshal ir (fuel + 1) (.userDefined name) base off value uid =
      .ok (emitArray l.size l.align base off value uid code, uid') := by
  simp only [emitJsGuestMarshal, hname, hcomputed.1, hcomputed.2, hcode, bind, Except.bind]

end

/-- With enough fuel the generator emits code for every type, and the code writes its values. -/
theorem marshal_emits {ty : ResolvedTypeRef} {l : Layout} (h : Returns ir ty l)
    (huntaken : Untaken ir ty) :
    ∃ N, ∀ fuel, N ≤ fuel → Emits ir (emitJsGuestMarshal ir fuel ty) ty l := by
  -- Along the type. The generator needs fuel for its depth, the code runs without.
  induction h with
  | primitive p =>
    refine ⟨2, fun fuel hfuel => ?_⟩
    obtain ⟨fuel, rfl⟩ := Nat.exists_eq_add_of_le' hfuel
    have hsize : 0 < p.layout.size := by cases p <;> decide
    refine emits_of_write hsize fun base off value uid => ⟨emitPrimitive p base off value, rfl, ?_⟩
    intro te w env v b hbase hvalue hv hb hoff
    cases hv with
    | @primitive _ _ x hbits =>
      rw [p.layout_size] at hoff ⊢
      refine ⟨x, hbits.lt, emitPrimitive_stores hbase hb hoff hvalue hbits, fun m a hm => ?_⟩
      exact .primitive (by rw [hm]; exact hbits)
  | @enum name e henum =>
    have hname := huntaken.plain fun element harray => by
      rw [harray.2.1] at henum
      cases henum
    refine ⟨2, fun fuel hfuel => ?_⟩
    obtain ⟨fuel, rfl⟩ := Nat.exists_eq_add_of_le' hfuel
    have hsize : 0 < e.repr.layout.size := by cases e.repr <;> decide
    refine emits_of_write hsize fun base off value uid =>
      ⟨_, emitJsGuestMarshal_enum hname henum, ?_⟩
    intro te w env v b hbase hvalue hv hb hoff
    obtain ⟨x, rfl, hx, hexact⟩ := valueOf_enum henum hv
    rw [e.repr.layout_size] at hoff ⊢
    refine ⟨x, hx, emitEnum_stores hbase hb hoff hvalue hx hexact, fun m a hm => ?_⟩
    rw [← hm]
    exact .enum henum
  | text =>
    refine ⟨1, fun fuel hfuel => ?_⟩
    obtain ⟨fuel, rfl⟩ := Nat.exists_eq_add_of_le' hfuel
    intro base off value uid _
    refine ⟨_, uid + 1, rfl, Nat.le_succ uid, ?_⟩
    intro te w hw env h v b hfree hbase hvalue hv hb hoff
    have hb : 0 < b := hb (show 0 < 16 by omega)
    cases hv with
    | text henc hlt => exact stringView_marshals hw hfree hbase hb hoff hvalue henc hlt
    | view hlo hhi hlen hp hn hheld =>
      exact view_marshals hfree hbase hb hoff hvalue hlo hhi hlen hp hn hheld
  | @array name element l harray helement ih =>
    -- The elements are written by the code of their type, at names that count on.
    have hl := helement.hasLayout
    obtain ⟨N, hN⟩ := ih (huntaken.element harray)
    obtain ⟨M, hM⟩ := layout_computed hl
    refine ⟨max N M + 1, fun fuel hfuel base off value uid _ => ?_⟩
    obtain ⟨fuel, rfl⟩ := Nat.exists_eq_add_one_of_ne_zero (by omega : fuel ≠ 0)
    obtain ⟨code, uid', hcode, huid, hwrites⟩ := hN fuel (by omega) (temp "_ep" uid) 0
      (temp "_el" uid) (uid + 1) (Nat.dvd_zero _)
    refine ⟨_, uid', emitJsGuestMarshal_array harray.1 (hM fuel (by omega)) hcode, by omega, ?_⟩
    exact fun te w hw => emitArray_writes hw harray hl huid (hwrites te w hw)
  | @struct name s lay henum htype hplain hfields ih =>
    obtain ⟨N, hN⟩ := exists_common_bound fun f hf => ih f hf (huntaken.field htype hf)
    obtain ⟨M, hM⟩ := exists_common_bound fun f hf => layout_computed (hfields f hf).hasLayout
    refine ⟨max N M + 1, fun fuel hfuel base off value uid hdvd => ?_⟩
    obtain ⟨fuel, rfl⟩ := Nat.exists_eq_add_one_of_ne_zero (by omega : fuel ≠ 0)
    have halign : ∀ f ∈ s.fields, (lay f).align ∣ off := fun f hf =>
      (dvd_maxAlign (List.mem_map_of_mem hf)).trans hdvd
    obtain ⟨code, uid', hcode, huid, hwrites⟩ := emitFields_emits (hM fuel (by omega))
      (hN fuel (by omega)) halign base value 0 uid
    refine ⟨code, uid', ?_, huid, fun te w hw env h v b hfree hbase hvalue hv hb hoff => ?_⟩
    · rw [emitJsGuestMarshal_struct (huntaken.plain hplain) henum htype]
      exact hcode
    · obtain ⟨val, hget, hvals⟩ := valueOf_struct henum htype hplain hv
      have hstop := stop_le_size (s.fields.map lay)
      -- A field with bytes makes the struct one with bytes.
      have hbs : ∀ f ∈ s.fields, 0 < (lay f).size → 0 < b := by
        intro f hf hsize
        have hle : (lay f).size ≤ stop 0 (s.fields.map lay) := size_le_stop (List.mem_map_of_mem hf)
        exact hb (by omega)
      obtain ⟨env', h', hexec, hle, hfree', hparts⟩ := hwrites te w hw env h h v b
        ⟨b + off, (structLayout (s.fields.map lay)).size⟩ [] val hfree hbase hvalue hget hvals hbs
        (le_refl _) (Nat.add_le_add_left hstop _) hoff (PartsMarshalled.nil ir _ h)
        (fun q hq => absurd hq List.not_mem_nil) (fun q hq => absurd hq List.not_mem_nil)
      exact ⟨env', h', hexec, hle, hfree', struct_marshalled henum htype hplain hget hparts⟩

end

end PolyPlug.Codegen
