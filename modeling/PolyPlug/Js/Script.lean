import PolyPlug.Codegen.JsUtf8
import PolyPlug.Lib.Memory

/-!
# `PolyPlug.Js.Script`: the JavaScript of the generated wrappers

The statements and expressions that the generator of the QuickJS wrappers writes, and what they do.
`JsStmt.exec` gives `none` where JavaScript throws. A `const` whose name is visible already is
refused, which is stricter than JavaScript.

A number is a whole number or `NaN`. Arithmetic is exact up to 2 ^ 53, and a result beyond is
refused, as is a division by anything but a power of two. A number that is not whole can only be
passed on to `writeF32` and `writeF64`, and stands as its bits. The bound of a `for` loop is read
once, since no statement changes it.
-/

set_option autoImplicit false

namespace PolyPlug.Js

open PolyPlug.Lib
open PolyPlug.Codegen (ppEncodeUtf8)

/-! ### Values -/

/-- A value. -/
inductive JsValue where
  | undefined
  | nan
  | num (n : Int)
  | float32 (bits : Nat)
  | float64 (bits : Nat)
  | bool (b : Bool)
  | str (units : List UInt16)
  | arr (elems : List JsValue)
  | obj (fields : List (String × JsValue))

namespace JsValue

/-- The property of an object, `undefined` where it has none. -/
def lookup (fields : List (String × JsValue)) (name : String) : JsValue :=
  ((fields.find? fun f => f.1 = name).map Prod.snd).getD .undefined

/-- `v.name`. -/
def get : JsValue → String → Option JsValue
  | .undefined, _   => none
  | .obj fields, name => some (lookup fields name)
  | .arr elems, name  => some (if name = "length" then .num elems.length else .undefined)
  | .str units, name  => some (if name = "length" then .num units.length else .undefined)
  | _, _              => some .undefined

/-- `v[i]`, on an array. -/
def at? : JsValue → JsValue → Option JsValue
  | .arr elems, .num i => some (if 0 ≤ i then (elems[i.toNat]?).getD .undefined else .undefined)
  | _, _               => none

/-- The number that an operator reads, `NaN` as `some none`. -/
def toNumber : JsValue → Option (Option Int)
  | .num n     => some (some n)
  | .nan       => some none
  | .undefined => some none
  | _          => none

/-- A result that is exact. -/
def exact (n : Int) : Option JsValue := if -2 ^ 53 ≤ n ∧ n ≤ 2 ^ 53 then some (.num n) else none

/-- An operator on two numbers, `NaN` if one of them is. -/
def arith (f : Int → Int → Option JsValue) (a b : JsValue) : Option JsValue := do
  let x ← a.toNumber
  let y ← b.toNumber
  (x.bind fun x => y.map fun y => f x y).getD (some .nan)

/-- A quotient by a power of two, rounded. -/
def quotient (round : Int → Int → Int) (x y : Int) : Option JsValue :=
  if y = 2 ^ y.toNat.log2 then exact (round x y) else none

/-- `ToUint32`. -/
def toUint32 (x : Option Int) : Nat := (x.getD 0 % 2 ^ 32).toNat

/-- `ToInt32`. -/
def toInt32 (x : Option Int) : Int := (x.getD 0 + 2 ^ 31) % 2 ^ 32 - 2 ^ 31

/-- An operator on two numbers as 32-bit words. -/
def bitwise (f : Option Int → Option Int → Int) (a b : JsValue) : Option JsValue := do
  let x ← a.toNumber
  let y ← b.toNumber
  some (.num (f x y))

/-- Whether a condition holds. -/
def truthy : JsValue → Option Bool
  | .bool b => some b
  | .num n  => some (n ≠ 0)
  | _       => none

/-- `Number(v)`. -/
def number : JsValue → Option JsValue
  | .num n => some (.num n)
  | _      => none

end JsValue

/-! ### Expressions -/

/-- A name: a text, and the number that the generator counts up. -/
structure JsName where
  stem : String
  number : Option Nat
deriving DecidableEq

/-- An expression. -/
inductive JsExpr where
  | name (x : JsName)
  | num (n : Nat)
  /-- `e.f` -/
  | field (e : JsExpr) (f : String)
  /-- `e[i]` -/
  | index (e i : JsExpr)
  | add (a b : JsExpr)
  | mul (a b : JsExpr)
  | mod (a b : JsExpr)
  /-- `Math.ceil(a / b)` -/
  | ceilDiv (a b : JsExpr)
  /-- `Math.floor(a / b)` -/
  | floorDiv (a b : JsExpr)
  /-- `a & b` -/
  | and (a b : JsExpr)
  /-- `a >> b` -/
  | shr (a b : JsExpr)
  /-- `a >>> b` -/
  | ushr (a b : JsExpr)
  /-- `Number(a)` -/
  | number (a : JsExpr)
  /-- `a > b` -/
  | greater (a b : JsExpr)
  /-- `c ? a : b` -/
  | cond (c a b : JsExpr)

/-- The visible names. -/
abbrev Env := JsName → Option JsValue

open JsValue in
/-- The value of an expression. -/
def JsExpr.eval (env : Env) : JsExpr → Option JsValue
  | .name x       => env x
  | .num n        => some (.num n)
  | .field e f    => do
    let v ← e.eval env
    v.get f
  | .index e i    => do
    let v ← e.eval env
    let k ← i.eval env
    v.at? k
  | .add a b      => do
    let x ← a.eval env
    let y ← b.eval env
    arith (fun x y => exact (x + y)) x y
  | .mul a b      => do
    let x ← a.eval env
    let y ← b.eval env
    arith (fun x y => exact (x * y)) x y
  | .mod a b      => do
    let x ← a.eval env
    let y ← b.eval env
    arith (fun x y => exact (x.tmod y)) x y
  | .ceilDiv a b  => do
    let x ← a.eval env
    let y ← b.eval env
    arith (quotient fun x y => -((-x) / y)) x y
  | .floorDiv a b => do
    let x ← a.eval env
    let y ← b.eval env
    arith (quotient fun x y => x / y) x y
  | .and a b      => do
    let x ← a.eval env
    let y ← b.eval env
    bitwise (fun x y => toInt32 (some (toUint32 x &&& toUint32 y : Nat))) x y
  | .shr a b      => do
    let x ← a.eval env
    let y ← b.eval env
    bitwise (fun x y => toInt32 x / 2 ^ (toUint32 y % 32)) x y
  | .ushr a b     => do
    let x ← a.eval env
    let y ← b.eval env
    bitwise (fun x y => (toUint32 x / 2 ^ (toUint32 y % 32) : Nat)) x y
  | .number a     => do
    let x ← a.eval env
    x.number
  | .greater a b  => do
    let x ← a.eval env
    let y ← b.eval env
    let m ← x.toNumber
    let n ← y.toNumber
    some (.bool (m.any fun m => n.any fun n => decide (n < m)))
  | .cond c a b   => do
    let v ← c.eval env
    let holds ← v.truthy
    if holds then a.eval env else b.eval env

/-! ### Statements -/

/-- The functions of the loader that write memory. -/
inductive WriteFn where
  | byte
  | u32
  | i32
  | f32
  | f64
deriving DecidableEq

/-- A statement. -/
inductive JsStmt where
  | skip
  | seq (s t : JsStmt)
  /-- `const x = e;` -/
  | const (x : JsName) (e : JsExpr)
  /-- `const x = _ppEncodeUtf8(e);` -/
  | encode (x : JsName) (e : JsExpr)
  /-- `const x = polyplug.arenaAlloc(size, arena_ptr);` -/
  | arenaAlloc (x : JsName) (size : JsExpr)
  /-- `polyplug.writeByte(ptr, value);` and its kin. -/
  | write (fn : WriteFn) (ptr value : JsExpr)
  /-- `if (typeof e === "string") s else t` -/
  | ifString (e : JsExpr) (s t : JsStmt)
  /-- `if (e === 0) s else t` -/
  | ifZero (e : JsExpr) (s t : JsStmt)
  /-- `for (let i = 0; i < bound; i++) body` -/
  | forLess (i : JsName) (bound : JsExpr) (body : JsStmt)

/-- What the wrapper runs in: the address of each allocation of the call, by the number of blocks
before it and its size, and whether there is a `TextEncoder`. -/
structure JsWorld where
  arena : Nat → Nat → Nat
  hasTextEncoder : Bool

/-- The memory, and the blocks that were allocated in the call. Without bytes there is no block. -/
structure JsHeap where
  memory : Memory
  blocks : List Region

/-- What an allocation of `n` bytes obtains. -/
def blockAt (p n : Nat) : List Region := if n = 0 then [] else [⟨p, n⟩]

/-- A new name. -/
def Env.declare (env : Env) (x : JsName) (v : JsValue) : Option Env :=
  if (env x).isSome then none else some fun y => if y = x then some v else env y

/-- A `u32` argument. `NaN` is taken as 0. -/
def JsValue.u32? : JsValue → Option Nat
  | .num n => if 0 ≤ n ∧ n < 2 ^ 32 then some n.toNat else none
  | .nan   => some 0
  | _      => none

/-- `ptr_num as u64 as usize`, of an `f64` argument. -/
def JsValue.address? : JsValue → Option Nat
  | .num n => some n.toNat
  | .nan   => some 0
  | _      => none

/-- The bytes that a function of the loader writes. -/
def WriteFn.bytes : WriteFn → JsValue → Option (List UInt8)
  | .byte, v => v.u32?.map fun n => littleEndian 1 n
  | .u32, v  => v.address?.map fun n => littleEndian 4 n
  | .i32, v  =>
    match v with
    | .num n => if -2 ^ 31 ≤ n ∧ n < 2 ^ 31 then some (littleEndian 4 (n % 2 ^ 32).toNat) else none
    | _      => none
  | .f32, v  =>
    match v with
    | .float32 bits => some (littleEndian 4 bits)
    | _             => none
  | .f64, v  =>
    match v with
    | .float64 bits => some (littleEndian 8 bits)
    | _             => none

/-- A write. There is none at the null pointer. -/
def JsHeap.write (h : JsHeap) (a : Nat) (bytes : List UInt8) : JsHeap :=
  if a = 0 then h else { h with memory := h.memory.write a bytes }

/-- The turns of a loop from `i` on. -/
def turns (body : Nat → JsHeap → Option JsHeap) : Nat → Nat → JsHeap → Option JsHeap
  | 0, _, h         => some h
  | count + 1, i, h => do
    let h' ← body i h
    turns body count (i + 1) h'

/-- A statement, run in the visible names and the heap. -/
def JsStmt.exec (w : JsWorld) : JsStmt → Env → JsHeap → Option (Env × JsHeap)
  | .skip, env, h                => some (env, h)
  | .seq s t, env, h             => do
    let r ← s.exec w env h
    t.exec w r.1 r.2
  | .const x e, env, h           => do
    let v ← e.eval env
    let env' ← env.declare x v
    some (env', h)
  | .encode x e, env, h          => do
    let v ← e.eval env
    match v with
    | .str units => do
      let bytes := ppEncodeUtf8 w.hasTextEncoder units
      let env' ← env.declare x (.arr (bytes.map fun b => .num b.toNat))
      some (env', h)
    | _          => none
  | .arenaAlloc x size, env, h   => do
    let v ← size.eval env
    let n ← v.u32?
    let p := w.arena h.blocks.length n
    let halves : JsValue := .arr [.num (p % 2 ^ 32 : Nat), .num (p / 2 ^ 32 : Nat)]
    let env' ← env.declare x halves
    some (env', { h with blocks := h.blocks ++ blockAt p n })
  | .write fn ptr value, env, h  => do
    let p ← ptr.eval env
    let v ← value.eval env
    let a ← p.address?
    let bytes ← fn.bytes v
    some (env, h.write a bytes)
  | .ifString e s t, env, h      => do
    let v ← e.eval env
    let r ←
      match v with
      | .str _ => s.exec w env h
      | _      => t.exec w env h
    some (env, r.2)
  | .ifZero e s t, env, h        => do
    let v ← e.eval env
    let r ←
      match v with
      | .num n => if n = 0 then s.exec w env h else t.exec w env h
      | _      => t.exec w env h
    some (env, r.2)
  | .forLess i bound body, env, h => do
    let v ← bound.eval env
    let n ← v.toNumber
    let h' ← turns (fun k h => do
      let env' ← env.declare i (.num k)
      let r ← body.exec w env' h
      some r.2) (n.getD 0).toNat 0 h
    some (env, h')

end PolyPlug.Js
