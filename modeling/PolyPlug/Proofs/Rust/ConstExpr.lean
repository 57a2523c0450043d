import PolyPlug.Rust.ConstExpr

/-!
# `PolyPlug.Proofs.Rust.ConstExpr`: a text is one expression

* `reads_unique`: a text has at most one tree.
* `arithmetic_lt`: a value fits the width of its type.
-/

set_option autoImplicit false

namespace PolyPlug.Rust

open PolyPlug.Lib

/-! ### One tree for each text -/

theorem grammar_lawful : grammar.Lawful where
  operand_unique := by
    intro ts ts' r r' a a' h h' heq
    cases h with
    | literal text value =>
      cases h' with
      | literal text' value' =>
        obtain ⟨rfl, rfl⟩ := Token.literal.inj (List.cons.inj heq).1
        exact ⟨rfl, rfl⟩
      | constant _ => exact nomatch (List.cons.inj heq).1
      | variant _ => exact nomatch (List.cons.inj heq).1
    | constant hname =>
      cases h' with
      | literal _ _ => exact nomatch (List.cons.inj heq).1
      | constant _ =>
        obtain rfl := Token.word.inj (List.cons.inj heq).1
        exact ⟨rfl, rfl⟩
      | variant _ =>
        obtain rfl := Token.word.inj (List.cons.inj heq).1
        exact absurd hname (by decide)
    | variant _ =>
      cases h' with
      | literal _ _ => exact nomatch (List.cons.inj heq).1
      | constant hname =>
        obtain rfl := Token.word.inj (List.cons.inj heq).1
        exact absurd hname (by decide)
      | variant _ =>
        obtain rfl := Token.word.inj (List.cons.inj (List.cons.inj (List.cons.inj heq).2).2).1
        exact ⟨rfl, rfl⟩
  operand_head := by
    intro ts a h
    cases h with
    | literal text value => exact ⟨_, _, rfl, nofun, nofun⟩
    | constant _ => exact ⟨_, _, rfl, nofun, nofun⟩
    | variant _ => exact ⟨_, _, rfl, nofun, nofun⟩
  suffix_unique := by
    intro ts ts' r r' b b' h h' heq
    cases h with
    | cast _ =>
      cases h' with
      | cast _ =>
        obtain rfl := Token.word.inj (List.cons.inj (List.cons.inj heq).2).1
        exact ⟨rfl, rfl⟩
  suffix_head := by
    intro ts b h
    cases h with
    | cast _ =>
      refine ⟨_, _, rfl, nofun, fun h => ?_⟩
      cases h with
      | tail _ h => cases h with
        | tail _ h => cases h
  negation_ne_opening := nofun
  closing_notMem := by decide
  operators_nodup := by decide

/-- A text has at most one tree. -/
theorem reads_unique {text : String} {e e' : ConstExpr} (h : Reads text e) (h' : Reads text e') :
    e = e' := by
  obtain ⟨ts, hts, htree, -⟩ := h
  obtain ⟨ts', hts', htree', -⟩ := h'
  obtain rfl := Option.some.inj (hts.symm.trans hts')
  exact htree.unique grammar_lawful htree'

/-! ### Arithmetic -/

section
variable {α β : Type*} {amountType : Lib.Expr α β → IntType}

/-- A value fits the width of its type, where those of the operands of the type do. -/
theorem arithmetic_lt {value : IntType → α → Option Nat}
    {cast : IntType → Lib.Expr α β → β → Option Nat} {ty : IntType}
    (hvalue : ∀ a n, value ty a = some n → n < 2 ^ ty.bits)
    (hcast : ∀ e b n, cast ty e b = some n → n < 2 ^ ty.bits)
    {e : Lib.Expr α β} {n : Nat} (h : arithmetic amountType value cast ty e = some n) :
    n < 2 ^ ty.bits := by
  induction e generalizing n with
  | operand a => exact hvalue a n h
  | negate e ih =>
    obtain ⟨m, -, rfl⟩ := Option.map_eq_some_iff.mp h
    have := Nat.two_pow_pos ty.bits
    omega
  | suffix e b ih => exact hcast e b n h
  | binary k l r ihl ihr =>
    rw [arithmetic] at h
    split at h
    · obtain ⟨x, -, h⟩ := Option.bind_eq_some_iff.mp h
      obtain ⟨amount, -, h⟩ := Option.bind_eq_some_iff.mp h
      split at h
      · obtain rfl := Option.some.inj h
        exact Nat.mod_lt _ (Nat.two_pow_pos _)
      · cases h
    · obtain ⟨x, hx, h⟩ := Option.bind_eq_some_iff.mp h
      obtain ⟨y, hy, rfl⟩ := Option.map_eq_some_iff.mp h
      exact Nat.or_lt_two_pow (ihl hx) (ihr hy)

end

end PolyPlug.Rust
