import PolyPlug.Js.Script

/-!
# `PolyPlug.Proofs.Js.Script`: rules for the JavaScript of the wrappers

A name stays visible, and an expression keeps its value when more names become visible
(`eval_mono`). The rules of the statements follow: `exec_seq` runs two after each other,
`exec_const` adds a name, and `exec_forLess` is the rule of the loop with its invariant.
-/

set_option autoImplicit false

namespace PolyPlug.Js

open PolyPlug.Lib
open PolyPlug.Codegen (ppEncodeUtf8)

/-! ### Names -/

/-- What is visible stays visible. -/
def Env.Le (env env' : Env) : Prop := ∀ x v, env x = some v → env' x = some v

section
variable {env env' env'' : Env} {x : JsName} {v : JsValue} {e : JsExpr}

theorem Env.Le.refl (env : Env) : env.Le env := fun _ _ h => h

theorem Env.Le.trans (h : env.Le env') (h' : env'.Le env'') : env.Le env'' := fun x v hx =>
  h' x v (h x v hx)

/-- A new name is declared, and the others are kept. -/
theorem declare_new (hx : env x = none) :
    ∃ env', env.declare x v = some env' ∧ env.Le env' ∧ env' x = some v ∧
      ∀ y, y ≠ x → env' y = env y := by
  refine ⟨fun y => if y = x then some v else env y, ?_, ?_, if_pos rfl, fun y hy => if_neg hy⟩
  · rw [Env.declare, hx]
    rfl
  · intro y u hy
    by_cases hyx : y = x
    · rw [hyx, hx] at hy
      cases hy
    · show (if y = x then some v else env y) = some u
      rw [if_neg hyx, hy]

/-! ### Expressions -/

theorem bind_mono {α β : Type} {o o' : Option α} {f g : α → Option β}
    (h : ∀ a, o = some a → o' = some a) (hfg : ∀ a b, f a = some b → g a = some b) :
    ∀ b, (o >>= f) = some b → (o' >>= g) = some b := by
  intro b hb
  cases o with
  | none => cases hb
  | some a =>
    rw [h a rfl]
    exact hfg a b hb

/-- An expression keeps its value when more names are visible. -/
theorem eval_mono (h : env.Le env') (e : JsExpr) :
    ∀ v, e.eval env = some v → e.eval env' = some v := by
  induction e with
  | name x => exact h x
  | num n => exact fun _ hv => hv
  | field e f ih => exact bind_mono ih fun _ _ hv => hv
  | number e ih => exact bind_mono ih fun _ _ hv => hv
  | index a b iha ihb => exact bind_mono iha fun _ => bind_mono ihb fun _ _ hv => hv
  | add a b iha ihb => exact bind_mono iha fun _ => bind_mono ihb fun _ _ hv => hv
  | mul a b iha ihb => exact bind_mono iha fun _ => bind_mono ihb fun _ _ hv => hv
  | mod a b iha ihb => exact bind_mono iha fun _ => bind_mono ihb fun _ _ hv => hv
  | ceilDiv a b iha ihb => exact bind_mono iha fun _ => bind_mono ihb fun _ _ hv => hv
  | floorDiv a b iha ihb => exact bind_mono iha fun _ => bind_mono ihb fun _ _ hv => hv
  | and a b iha ihb => exact bind_mono iha fun _ => bind_mono ihb fun _ _ hv => hv
  | shr a b iha ihb => exact bind_mono iha fun _ => bind_mono ihb fun _ _ hv => hv
  | ushr a b iha ihb => exact bind_mono iha fun _ => bind_mono ihb fun _ _ hv => hv
  | greater a b iha ihb => exact bind_mono iha fun _ => bind_mono ihb fun _ _ hv => hv
  | cond c a b ihc iha ihb =>
    refine bind_mono ihc fun _ => bind_mono (fun _ hv => hv) fun holds => ?_
    cases holds with
    | true => exact iha
    | false => exact ihb

theorem bind_some_some {α β γ : Type} {o : Option α} {o' : Option β} {f : α → β → Option γ} {a : α}
    {b : β} (ha : o = some a) (hb : o' = some b) :
    (o >>= fun x => o' >>= fun y => f x y) = f a b := by
  rw [ha, hb]
  rfl

theorem eval_name (hx : env x = some v) : (JsExpr.name x).eval env = some v := hx

theorem exact_num {n : Nat} (h : n ≤ 2 ^ 53) : JsValue.exact n = some (.num n) :=
  if_pos ⟨by omega, by exact_mod_cast h⟩

theorem eval_add {a b : JsExpr} {m n : Nat} (ha : a.eval env = some (.num m))
    (hb : b.eval env = some (.num n)) (h : m + n ≤ 2 ^ 53) :
    (a.add b).eval env = some (.num (m + n : Nat)) := by
  exact (bind_some_some ha hb).trans (exact_num h)

theorem eval_mul {a b : JsExpr} {m n : Nat} (ha : a.eval env = some (.num m))
    (hb : b.eval env = some (.num n)) (h : m * n ≤ 2 ^ 53) :
    (a.mul b).eval env = some (.num (m * n : Nat)) := by
  exact (bind_some_some ha hb).trans (exact_num h)

theorem eval_mod {a b : JsExpr} {m n : Nat} (ha : a.eval env = some (.num m))
    (hb : b.eval env = some (.num n)) (h : m ≤ 2 ^ 53) :
    (a.mod b).eval env = some (.num (m % n : Nat)) := by
  exact (bind_some_some ha hb).trans (exact_num ((Nat.mod_le m n).trans h))

theorem quotient_pow (round : Int → Int → Int) {m k q : Nat}
    (hround : round m (2 ^ k : Nat) = q) (h : q ≤ 2 ^ 53) :
    JsValue.quotient round m (2 ^ k : Nat) = some (.num q) := by
  have hpow : ((2 ^ k : Nat) : Int) = 2 ^ ((2 ^ k : Nat) : Int).toNat.log2 := by
    rw [Int.toNat_natCast, Nat.log2_two_pow, Int.natCast_pow]
    rfl
  rw [JsValue.quotient, if_pos hpow, hround]
  exact exact_num h

/-- A division by a power of two is exact. -/
theorem eval_floorDiv {a b : JsExpr} {m k : Nat} (ha : a.eval env = some (.num m))
    (hb : b.eval env = some (.num (2 ^ k : Nat))) (h : m ≤ 2 ^ 53) :
    (a.floorDiv b).eval env = some (.num (m / 2 ^ k : Nat)) := by
  have hquot := quotient_pow (fun x y => x / y) (Int.natCast_div m (2 ^ k)).symm
    ((Nat.div_le_self _ _).trans h)
  exact (bind_some_some ha hb).trans hquot

theorem neg_ediv_neg (m : Nat) {d : Nat} (hd : 0 < d) :
    -(-(m : Int) / (d : Int)) = ((m + (d - 1)) / d : Nat) := by
  have hdiv := Nat.div_add_mod (m + (d - 1)) d
  have hmod := Nat.mod_lt (m + (d - 1)) hd
  generalize (m + (d - 1)) / d = q at hdiv ⊢
  generalize (m + (d - 1)) % d = r at hdiv hmod
  have hquot : -(m : Int) / d = -q ∧ -(m : Int) % d = d - 1 - r := by
    refine (Int.ediv_emod_unique (by omega)).mpr ⟨?_, by omega, by omega⟩
    rw [Int.mul_neg, ← Int.natCast_mul]
    omega
  rw [hquot.1, Int.neg_neg]

theorem eval_ceilDiv {a b : JsExpr} {m k : Nat} (ha : a.eval env = some (.num m))
    (hb : b.eval env = some (.num (2 ^ k : Nat))) (h : (m + (2 ^ k - 1)) / 2 ^ k ≤ 2 ^ 53) :
    (a.ceilDiv b).eval env = some (.num ((m + (2 ^ k - 1)) / 2 ^ k : Nat)) := by
  have hquot := quotient_pow (fun x y => -((-x) / y)) (neg_ediv_neg m (Nat.two_pow_pos k)) h
  exact (bind_some_some ha hb).trans hquot

theorem eval_field {a : JsExpr} {u : JsValue} {f : String} (ha : a.eval env = some u)
    (hf : u.get f = some v) : (a.field f).eval env = some v := by
  show (a.eval env >>= fun u => u.get f) = some v
  rw [ha]
  exact hf

theorem eval_elem {a b : JsExpr} {elems : List JsValue} {i : Nat}
    (ha : a.eval env = some (.arr elems)) (hb : b.eval env = some (.num i))
    (hv : elems[i]? = some v) : (a.index b).eval env = some v := by
  have helem : (JsValue.arr elems).at? (.num i) = some v := by
    show some ((elems[i]?).getD .undefined) = some v
    rw [hv]
    rfl
  exact (bind_some_some ha hb).trans helem

theorem eval_length {a : JsExpr} {elems : List JsValue} (ha : a.eval env = some (.arr elems)) :
    (a.field "length").eval env = some (.num elems.length) :=
  eval_field ha rfl

end

/-! ### Statements -/

theorem u32?_num {n : Nat} (hn : n < 2 ^ 32) : (JsValue.num n).u32? = some n := by
  rw [JsValue.u32?, if_pos (by omega), Int.toNat_natCast]

section
variable {w : JsWorld} {env env' : Env} {h h' : JsHeap} {x : JsName} {v : JsValue} {e : JsExpr}
  {s t : JsStmt}

theorem exec_seq {r : Env × JsHeap} (hs : s.exec w env h = some (env', h'))
    (ht : t.exec w env' h' = some r) : (s.seq t).exec w env h = some r := by
  show (s.exec w env h >>= fun r => t.exec w r.1 r.2) = some r
  rw [hs]
  exact ht

/-- A constant is a new name. -/
theorem exec_const (he : e.eval env = some v) (hx : env x = none) :
    ∃ env', (JsStmt.const x e).exec w env h = some (env', h) ∧ env.Le env' ∧ env' x = some v ∧
      ∀ y, y ≠ x → env' y = env y := by
  obtain ⟨env', hdeclare, hspec⟩ := declare_new (v := v) hx
  refine ⟨env', ?_, hspec⟩
  show (e.eval env >>= fun v => env.declare x v >>= fun env' => some (env', h)) = _
  rw [he]
  show (env.declare x v >>= fun env' => some (env', h)) = _
  rw [hdeclare]
  rfl

/-- A write, at an address that is not null. -/
theorem exec_write {fn : WriteFn} {ptr value : JsExpr} {a : Nat} {bytes : List UInt8}
    (hptr : ptr.eval env = some (.num a)) (ha : 0 < a) (hvalue : value.eval env = some v)
    (hbytes : fn.bytes v = some bytes) :
    (JsStmt.write fn ptr value).exec w env h =
      some (env, { h with memory := h.memory.write a bytes }) := by
  have hwrite : (JsStmt.write fn ptr value).exec w env h =
      (some a >>= fun a => fn.bytes v >>= fun bytes => some (env, h.write a bytes)) :=
    bind_some_some hptr hvalue
  rw [hwrite, hbytes]
  show some (env, h.write a bytes) = _
  rw [JsHeap.write, if_neg (by omega)]

/-- The bytes of a string are an array of numbers. -/
theorem exec_encode {units : List UInt16} (he : e.eval env = some (.str units))
    (hx : env x = none) :
    ∃ env', (JsStmt.encode x e).exec w env h = some (env', h) ∧ env.Le env' ∧
      env' x = some (.arr ((ppEncodeUtf8 w.hasTextEncoder units).map fun b => .num b.toNat)) ∧
      ∀ y, y ≠ x → env' y = env y := by
  obtain ⟨env', hdeclare, hspec⟩ := declare_new
    (v := .arr ((ppEncodeUtf8 w.hasTextEncoder units).map fun b => .num b.toNat)) hx
  refine ⟨env', ?_, hspec⟩
  simp only [JsStmt.exec, he]
  show (env.declare x _ >>= fun env' => some (env', h)) = _
  rw [hdeclare]
  rfl

/-- The halves of an address. -/
def halves (p : Nat) : JsValue := .arr [.num (p % 2 ^ 32 : Nat), .num (p / 2 ^ 32 : Nat)]

theorem exec_arenaAlloc_eq {size : JsExpr} {n : Nat} (hsize : size.eval env = some v)
    (hn : v.u32? = some n)
    (hdeclare : env.declare x (halves (w.arena h.blocks.length n)) = some env') :
    (JsStmt.arenaAlloc x size).exec w env h =
      some (env', { h with blocks := h.blocks ++ blockAt (w.arena h.blocks.length n) n }) := by
  rw [halves] at hdeclare
  simp only [JsStmt.exec, hsize, Option.bind_eq_bind, Option.bind_some, hn, hdeclare]

/-- An allocation is a new block if it has bytes, and the halves of its address. -/
theorem exec_arenaAlloc {size : JsExpr} {n : Nat} (hsize : size.eval env = some (.num n))
    (hn : n < 2 ^ 32) (hx : env x = none) :
    ∃ env', (JsStmt.arenaAlloc x size).exec w env h =
        some (env', { h with blocks := h.blocks ++ blockAt (w.arena h.blocks.length n) n }) ∧
      env.Le env' ∧ env' x = some (halves (w.arena h.blocks.length n)) ∧
      ∀ y, y ≠ x → env' y = env y := by
  obtain ⟨env', hdeclare, hspec⟩ := declare_new (v := halves (w.arena h.blocks.length n)) hx
  exact ⟨env', exec_arenaAlloc_eq hsize (u32?_num hn) hdeclare, hspec⟩

theorem turns_rule (body : Nat → JsHeap → Option JsHeap) (P : Nat → JsHeap → Prop)
    {start : Nat} (count : Nat) (hstart : P start h)
    (hstep : ∀ i g, start ≤ i → i < start + count → P i g → ∃ g', body i g = some g' ∧
      P (i + 1) g') :
    ∃ h', turns body count start h = some h' ∧ P (start + count) h' := by
  induction count generalizing start h with
  | zero => exact ⟨h, rfl, hstart⟩
  | succ count ih =>
    obtain ⟨g, hg, hP⟩ := hstep start h (le_refl start) (by omega) hstart
    obtain ⟨h', hh', hend⟩ := ih hP fun i g hle hlt => hstep i g (by omega) (by omega)
    refine ⟨h', ?_, ?_⟩
    · rw [turns, hg]
      exact hh'
    · rw [show start + (count + 1) = start + 1 + count by omega]
      exact hend

/-- The rule of the loop: what one turn preserves. -/
theorem exec_forLess (P : Nat → JsHeap → Prop) {i : JsName} {bound : JsExpr}
    {body : JsStmt} {n : Nat}
    (hbound : bound.eval env = some (.num n)) (hi : env i = none) (hstart : P 0 h)
    (hstep : ∀ k g env', k < n → env.Le env' → env' i = some (.num k) →
      (∀ y, y ≠ i → env' y = env y) → P k g → ∃ r, body.exec w env' g = some r ∧ P (k + 1) r.2) :
    ∃ h', (JsStmt.forLess i bound body).exec w env h = some (env, h') ∧ P n h' := by
  obtain ⟨h', hturns, hend⟩ := turns_rule (fun k g => do
      let env' ← env.declare i (.num k)
      let r ← body.exec w env' g
      some r.2) P n hstart fun k g _ hlt hP => by
    obtain ⟨env', hdeclare, hle, hk, hother⟩ := declare_new (v := .num k) hi
    obtain ⟨r, hr, hP'⟩ := hstep k g env' (by omega) hle hk hother hP
    refine ⟨r.2, ?_, hP'⟩
    show (env.declare i (.num k) >>= fun env' => body.exec w env' g >>= fun r => some r.2) = _
    rw [hdeclare]
    show (body.exec w env' g >>= fun r => some r.2) = _
    rw [hr]
    rfl
  refine ⟨h', ?_, by simpa using hend⟩
  simp only [JsStmt.exec, hbound]
  show (turns _ (n : Int).toNat 0 h >>= fun h' => some (env, h')) = _
  rw [Int.toNat_natCast, hturns]
  rfl

end

end PolyPlug.Js
