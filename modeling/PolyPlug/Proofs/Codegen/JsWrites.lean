import PolyPlug.Proofs.Codegen.JsUtf8
import PolyPlug.Proofs.Codegen.JsValues
import PolyPlug.Proofs.Js.Script

/-!
# `PolyPlug.Proofs.Codegen.JsWrites`: the writes of the wrapper

`Stores` says that code writes a number at an address and does nothing else: the code of a primitive
writes its bits (`emitPrimitive_stores`), that of an enum its number (`emitEnum_stores`), and the
four writes of a view a pointer and a length (`view_stores`).
-/

set_option autoImplicit false

namespace PolyPlug.Codegen

open PolyPlug.Lib PolyPlug.Js

/-! ### Numbers -/

/-- The code writes a number of `n` bytes at an address, and does nothing else. -/
def Stores (w : JsWorld) (env : Env) (s : JsStmt) (a n x : Nat) : Prop :=
  ∀ h, s.exec w env h = some (env, { h with memory := h.memory.write a (littleEndian n x) })

section
variable {w : JsWorld} {env : Env} {s : JsStmt} {ss : List JsStmt} {base value : JsExpr}
  {b off a n x : Nat} {v : JsValue}

theorem Stores.last (hs : Stores w env s a n x) : Stores w env (block [s]) a n x := fun h =>
  exec_seq (hs h) rfl

/-- Two numbers after each other are one. -/
theorem Stores.append {n' : Nat} (hs : Stores w env s a n x)
    (hss : Stores w env (block ss) (a + n) n' (x / 256 ^ n)) :
    Stores w env (block (s :: ss)) a (n + n') x := by
  intro h
  refine exec_seq (hs h) ?_
  rw [hss, littleEndian_append, Memory.write_append, length_littleEndian]

theorem eval_jsPtrAt (hbase : base.eval env = some (.num b)) (hoff : b + off ≤ 2 ^ 53) :
    (jsPtrAt base off).eval env = some (.num (b + off : Nat)) := by
  rw [jsPtrAt]
  split
  · next h0 => rw [h0, hbase]; rfl
  · exact eval_add hbase rfl hoff

theorem writeAt_stores {fn : WriteFn} (hbase : base.eval env = some (.num b)) (hb : 0 < b)
    (hoff : b + off ≤ 2 ^ 53) (hvalue : value.eval env = some v)
    (hbytes : fn.bytes v = some (littleEndian n x)) :
    Stores w env (writeAt fn base off value) (b + off) n x := fun _ =>
  exec_write (eval_jsPtrAt hbase hoff) (by omega) hvalue hbytes

theorem bytes_byte (hx : x < 2 ^ 32) : WriteFn.byte.bytes (.num x) = some (littleEndian 1 x) := by
  rw [WriteFn.bytes, u32?_num hx, Option.map_some]

theorem bytes_u32 : WriteFn.u32.bytes (.num x) = some (littleEndian 4 x) := by
  rw [WriteFn.bytes, JsValue.address?, Option.map_some, Int.toNat_natCast]

theorem toUint32_natCast {n : Nat} (hn : n < 2 ^ 32) : JsValue.toUint32 (some n) = n := by
  rw [JsValue.toUint32, Option.getD_some]
  omega

theorem toInt32_of_lt {k : Int} (hlow : -2 ^ 31 ≤ k) (hhigh : k < 2 ^ 31) :
    JsValue.toInt32 (some k) = k := by
  rw [JsValue.toInt32, Option.getD_some]
  omega

/-- A number modulo 256, of its low byte. -/
theorem eval_lowByte {k : Int} (hvalue : value.eval env = some (.num k)) :
    (lowByte value).eval env = some (.num (k % 256).toNat) := by
  have hmask : JsValue.toUint32 (some k) &&& 255 = (k % 256).toNat := by
    rw [Nat.and_two_pow_sub_one_eq_mod _ 8, JsValue.toUint32, Option.getD_some]
    omega
  have hbitwise : (lowByte value).eval env = some (.num (JsValue.toInt32
      (some (JsValue.toUint32 (some k) &&& JsValue.toUint32 (some (255 : Nat)) : Nat)))) := by
    simp only [lowByte, JsExpr.eval, hvalue]
    rfl
  rw [hbitwise, toUint32_natCast (by omega), hmask, toInt32_of_lt (by omega) (by omega)]

/-- The second byte of a number of 32 bits. -/
theorem eval_secondByte {k : Int} (hvalue : value.eval env = some (.num k)) (hlow : -2 ^ 31 ≤ k)
    (hhigh : k < 2 ^ 31) : (secondByte value).eval env = some (.num (k / 256 % 256).toNat) := by
  have hbitwise : (value.shr (.num 8)).eval env = some (.num (JsValue.toInt32 (some k) /
      2 ^ (JsValue.toUint32 (some (8 : Nat)) % 32))) := by
    simp only [JsExpr.eval, hvalue]
    rfl
  rw [toUint32_natCast (by omega), toInt32_of_lt hlow hhigh] at hbitwise
  exact eval_lowByte hbitwise

theorem littleEndian_one_mod (n : Nat) : littleEndian 1 (n % 256) = littleEndian 1 n := by
  rw [littleEndian, littleEndian, UInt8.ofNat_mod_size]
  rfl

/-- A number of 8 bits, as the wrapper writes it. -/
theorem lowByte_stores {k : Int} (hbase : base.eval env = some (.num b)) (hb : 0 < b)
    (hoff : b + off ≤ 2 ^ 53) (hvalue : value.eval env = some (.num k))
    (hk : (k % 256).toNat = x % 256) :
    Stores w env (writeAt .byte base off (lowByte value)) (b + off) 1 x := by
  refine writeAt_stores hbase hb hoff (eval_lowByte hvalue) ?_
  rw [hk, bytes_byte (by omega), littleEndian_one_mod]

/-- A number of 16 bits. -/
theorem bytes_stores {k : Int} (hbase : base.eval env = some (.num b)) (hb : 0 < b)
    (hoff : b + off + 2 ≤ 2 ^ 53) (hvalue : value.eval env = some (.num k)) (hlow : -2 ^ 31 ≤ k)
    (hhigh : k < 2 ^ 31) (hk : (k % 2 ^ 16).toNat = x) :
    Stores w env (block [writeAt .byte base off (lowByte value),
      writeAt .byte base (off + 1) (secondByte value)]) (b + off) 2 x := by
  have hfirst : Stores w env (writeAt .byte base off (lowByte value)) (b + off) 1 x :=
    lowByte_stores hbase hb (by omega) hvalue (by omega)
  have hsecond : Stores w env (writeAt .byte base (off + 1) (secondByte value)) (b + off + 1) 1
      (x / 256 ^ 1) := by
    rw [Nat.add_assoc]
    refine writeAt_stores hbase hb (by omega) (eval_secondByte hvalue hlow hhigh) ?_
    rw [show (k / 256 % 256).toNat = x / 256 ^ 1 by omega, bytes_byte (by omega)]
  exact hfirst.append hsecond.last

/-- A number of 32 bits. Its low bits are written. -/
theorem u32_stores {y : Nat} (hbase : base.eval env = some (.num b)) (hb : 0 < b)
    (hoff : b + off ≤ 2 ^ 53) (hvalue : value.eval env = some (.num y))
    (hy : y % 2 ^ 32 = x % 2 ^ 32) : Stores w env (writeAt .u32 base off value) (b + off) 4 x := by
  refine writeAt_stores hbase hb hoff hvalue ?_
  rw [bytes_u32, ← littleEndian_mod 4 y, ← littleEndian_mod 4 x]
  exact congrArg (fun z => some (littleEndian 4 z)) hy

/-- A number of 64 bits, in two halves. -/
theorem halves_stores {lo hi : JsExpr} (hbase : base.eval env = some (.num b)) (hb : 0 < b)
    (hoff : b + off + 8 ≤ 2 ^ 53) (hlo : lo.eval env = some (.num (x % 2 ^ 32 : Nat)))
    (hhi : hi.eval env = some (.num (x / 2 ^ 32 : Nat))) :
    Stores w env (block [writeAt .u32 base off lo, writeAt .u32 base (off + 4) hi]) (b + off) 8
      x := by
  have hlow : Stores w env (writeAt .u32 base off lo) (b + off) 4 x :=
    u32_stores hbase hb (by omega) hlo (by omega)
  have hhigh : Stores w env (writeAt .u32 base (off + 4) hi) (b + off + 4) 4 (x / 256 ^ 4) := by
    rw [Nat.add_assoc]
    exact u32_stores hbase hb (by omega) hhi rfl
  exact hlow.append hhigh.last

/-- A pointer and a length. -/
theorem view_stores {lo hi len : JsExpr} {p n : Nat} (hbase : base.eval env = some (.num b))
    (hb : 0 < b) (hoff : b + off + 16 ≤ 2 ^ 53) (hp : p < 2 ^ 64) (hn : n < 2 ^ 32)
    (hlo : lo.eval env = some (.num (p % 2 ^ 32 : Nat)))
    (hhi : hi.eval env = some (.num (p / 2 ^ 32 : Nat))) (hlen : len.eval env = some (.num n)) :
    Stores w env (block [writeAt .u32 base off lo, writeAt .u32 base (off + 4) hi,
      writeAt .u32 base (off + 8) len, writeAt .u32 base (off + 12) (.num 0)]) (b + off) 16
      (p + 2 ^ 64 * n) := by
  have hfirst : Stores w env (writeAt .u32 base off lo) (b + off) 4 (p + 2 ^ 64 * n) :=
    u32_stores hbase hb (by omega) hlo (by omega)
  have hsecond : Stores w env (writeAt .u32 base (off + 4) hi) (b + off + 4) 4
      ((p + 2 ^ 64 * n) / 256 ^ 4) := by
    rw [Nat.add_assoc]
    exact u32_stores hbase hb (by omega) hhi (by omega)
  have hthird : Stores w env (writeAt .u32 base (off + 8) len) (b + off + 4 + 4) 4
      ((p + 2 ^ 64 * n) / 256 ^ 4 / 256 ^ 4) := by
    rw [Nat.add_assoc, Nat.add_assoc]
    exact u32_stores hbase hb (by omega) hlen (by omega)
  have hfourth : Stores w env (writeAt .u32 base (off + 12) (.num 0)) (b + off + 4 + 4 + 4) 4
      ((p + 2 ^ 64 * n) / 256 ^ 4 / 256 ^ 4 / 256 ^ 4) := by
    rw [Nat.add_assoc, Nat.add_assoc, Nat.add_assoc]
    exact u32_stores hbase hb (by omega) rfl (by omega)
  exact hfirst.append (hsecond.append (hthird.append hfourth.last))

/-- The code of a primitive writes its bits. -/
theorem emitPrimitive_stores {p : PrimitiveType} (hbase : base.eval env = some (.num b))
    (hb : 0 < b) (hoff : b + off + p.jsSize ≤ 2 ^ 53) (hvalue : value.eval env = some v)
    (hbits : p.Bits v x) : Stores w env (emitPrimitive p base off value) (b + off) p.jsSize x := by
  cases p with
  | u8 =>
    obtain ⟨rfl, hx⟩ := hbits
    exact lowByte_stores hbase hb (by omega) hvalue (by omega)
  | i8 =>
    obtain ⟨rfl, hx⟩ := hbits
    refine lowByte_stores hbase hb (by omega) hvalue ?_
    rw [signed]
    split <;> omega
  | bool =>
    obtain ⟨rfl, hx⟩ := hbits
    have hcond : (JsExpr.cond value (.num 1) (.num 0)).eval env = some (.num x) := by
      simp only [JsExpr.eval, hvalue]
      have hcases : x = 0 ∨ x = 1 := by omega
      rcases hcases with rfl | rfl <;> rfl
    exact writeAt_stores hbase hb (by omega) hcond (bytes_byte (by omega))
  | u16 =>
    obtain ⟨rfl, hx⟩ := hbits
    exact bytes_stores hbase hb hoff hvalue (by omega) (by omega) (by omega)
  | i16 =>
    obtain ⟨rfl, hx⟩ := hbits
    refine bytes_stores hbase hb hoff hvalue ?_ ?_ ?_ <;> rw [signed] <;> split <;> omega
  | u32 =>
    obtain ⟨rfl, hx⟩ := hbits
    exact u32_stores hbase hb (by omega) hvalue rfl
  | i32 =>
    obtain ⟨rfl, hx⟩ := hbits
    refine writeAt_stores hbase hb (by omega) hvalue ?_
    have hrange : -2 ^ 31 ≤ signed 32 x ∧ signed 32 x < 2 ^ 31 := by
      rw [signed]
      split <;> omega
    have hmod : (signed 32 x % 2 ^ 32).toNat = x := by
      rw [signed]
      split <;> omega
    rw [WriteFn.bytes, if_pos hrange, hmod]
    rfl
  | f32 =>
    obtain ⟨rfl, hx⟩ := hbits
    exact writeAt_stores hbase hb (by omega) hvalue rfl
  | f64 =>
    obtain ⟨rfl, hx⟩ := hbits
    exact writeAt_stores hbase hb (by omega) hvalue rfl
  | u64 =>
    obtain ⟨hlo, hhi, -⟩ := hbits
    exact halves_stores hbase hb hoff (eval_field hvalue hlo) (eval_field hvalue hhi)
  | i64 =>
    obtain ⟨hlo, hhi, -⟩ := hbits
    exact halves_stores hbase hb hoff (eval_field hvalue hlo) (eval_field hvalue hhi)

theorem eval_number (hvalue : value.eval env = some (.num x)) :
    (JsExpr.number value).eval env = some (.num x) := by
  simp only [JsExpr.eval, hvalue]
  rfl

/-- The code of an enum writes its number. -/
theorem emitEnum_stores {repr : ReprType} (hbase : base.eval env = some (.num b)) (hb : 0 < b)
    (hoff : b + off + jsReprSize repr ≤ 2 ^ 53) (hvalue : value.eval env = some (.num x))
    (hx : x < 256 ^ jsReprSize repr) (hexact : x < 2 ^ 53) :
    Stores w env (emitEnum repr base off value) (b + off) (jsReprSize repr) x := by
  have hnumber := eval_number hvalue
  cases repr with
  | u8 => exact lowByte_stores hbase hb (by omega) hnumber (by omega)
  | u16 =>
    dsimp only [jsReprSize] at hoff hx
    exact bytes_stores hbase hb hoff hnumber (by omega) (by omega) (by omega)
  | u32 => exact u32_stores hbase hb (by omega) hnumber rfl
  | u64 =>
    refine halves_stores hbase hb hoff ?_ (eval_floorDiv (k := 32) hnumber rfl (by omega))
    have hshift : (JsExpr.ushr (.number value) (.num 0)).eval env =
        some (.num (JsValue.toUint32 (some x) / 2 ^ (JsValue.toUint32 (some (0 : Nat)) % 32) :
          Nat)) := by
      simp only [JsExpr.eval, hvalue]
      rfl
    rw [hshift, toUint32_natCast (n := 0) (by omega), Nat.zero_mod, Nat.pow_zero, Nat.div_one,
      JsValue.toUint32, Option.getD_some]
    congr 2

end

end PolyPlug.Codegen
