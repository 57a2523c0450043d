import Mathlib.Data.List.Basic

/-!
# `PolyPlug.Lib.Precedence`: expressions read by operator precedence

A grammar has operands, one operator written before its argument, suffixes written
after it, and a list of left-associative operators written between two arguments. The
operator written before binds tighter than a suffix, a suffix tighter than the
operators between, and of these an earlier one tighter than a later one. Parentheses
group and leave no mark on the tree.

`Derives` gives the trees of a list of tokens. `Derives.unique`: where operands and suffixes can
be told apart by their tokens, a list of tokens has at most one tree.
-/

set_option autoImplicit false

namespace PolyPlug.Lib

/-- A tree over operands `α` and suffixes `β`. -/
inductive Expr (α β : Type*) where
  | operand (a : α)
  | negate (e : Expr α β)
  | suffix (e : Expr α β) (b : β)
  | binary (level : Nat) (l r : Expr α β)
deriving DecidableEq

namespace Expr

variable {α β : Type*}

/-- The operands, from left to right. -/
def operands : Expr α β → List α
  | .operand a    => [a]
  | .negate e     => e.operands
  | .suffix e _   => e.operands
  | .binary _ l r => l.operands ++ r.operands

end Expr

/-- The tokens of an expression. -/
structure Grammar (τ α β : Type*) where
  operand : List τ → α → Prop
  suffix : List τ → β → Prop
  negation : τ
  opening : τ
  closing : τ
  operators : List τ

/-- The phrases of the grammar. `suffixes e` and `chain k e` are what may follow a
phrase that was read as `e`. -/
inductive Phrase (α β : Type*) where
  | primary
  | unary
  | suffixes (e : Expr α β)
  | level (k : Nat)
  | chain (k : Nat) (e : Expr α β)

/-- The operands that were read before the phrase. -/
def Phrase.operands {α β : Type*} : Phrase α β → List α
  | .suffixes e => e.operands
  | .chain _ e  => e.operands
  | _           => []

section
variable {τ α β : Type*}

/-- The tree of a phrase. -/
inductive Derives (G : Grammar τ α β) : Phrase α β → List τ → Expr α β → Prop where
  | operand {ts : List τ} {a : α} (h : G.operand ts a) : Derives G .primary ts (.operand a)
  | group {ts : List τ} {e : Expr α β} (h : Derives G (.level G.operators.length) ts e) :
      Derives G .primary (G.opening :: (ts ++ [G.closing])) e
  | plain {ts : List τ} {e : Expr α β} (h : Derives G .primary ts e) : Derives G .unary ts e
  | negate {ts : List τ} {e : Expr α β} (h : Derives G .unary ts e) :
      Derives G .unary (G.negation :: ts) (.negate e)
  | noSuffix {e : Expr α β} : Derives G (.suffixes e) [] e
  | suffix {ts ts' : List τ} {e e' : Expr α β} {b : β} (hb : G.suffix ts b)
      (h : Derives G (.suffixes (.suffix e b)) ts' e') :
      Derives G (.suffixes e) (ts ++ ts') e'
  | bottom {ts ts' : List τ} {e e' : Expr α β} (h : Derives G .unary ts e)
      (hs : Derives G (.suffixes e) ts' e') : Derives G (.level 0) (ts ++ ts') e'
  | level {k : Nat} {ts ts' : List τ} {e e' : Expr α β} (h : Derives G (.level k) ts e)
      (hs : Derives G (.chain k e) ts' e') : Derives G (.level (k + 1)) (ts ++ ts') e'
  | noOperator {k : Nat} {e : Expr α β} : Derives G (.chain k e) [] e
  | operator {k : Nat} {t : τ} {ts ts' : List τ} {e e' f : Expr α β}
      (ht : G.operators[k]? = some t) (h : Derives G (.level k) ts f)
      (hs : Derives G (.chain k (.binary k e f)) ts' e') :
      Derives G (.chain k e) (t :: (ts ++ ts')) e'

/-- The tokens tell the phrases apart. -/
structure Grammar.Lawful (G : Grammar τ α β) : Prop where
  operand_unique : ∀ {ts ts' r r' : List τ} {a a' : α}, G.operand ts a → G.operand ts' a' →
    ts ++ r = ts' ++ r' → ts = ts' ∧ a = a'
  operand_head : ∀ {ts : List τ} {a : α}, G.operand ts a →
    ∃ t rest, ts = t :: rest ∧ t ≠ G.negation ∧ t ≠ G.opening
  suffix_unique : ∀ {ts ts' r r' : List τ} {b b' : β}, G.suffix ts b → G.suffix ts' b' →
    ts ++ r = ts' ++ r' → ts = ts' ∧ b = b'
  suffix_head : ∀ {ts : List τ} {b : β}, G.suffix ts b →
    ∃ t rest, ts = t :: rest ∧ t ≠ G.closing ∧ t ∉ G.operators
  negation_ne_opening : G.negation ≠ G.opening
  closing_notMem : G.closing ∉ G.operators
  operators_nodup : G.operators.Nodup

namespace Derives

variable {G : Grammar τ α β}

/-- A phrase with no suffix is one of the lowest level. -/
theorem of_unary {ts : List τ} {e : Expr α β} (h : Derives G .unary ts e) :
    Derives G (.level 0) ts e := by
  have hbottom := Derives.bottom h .noSuffix
  rwa [List.append_nil] at hbottom

/-- A phrase of a level is one of the next. -/
theorem succ {k : Nat} {ts : List τ} {e : Expr α β} (h : Derives G (.level k) ts e) :
    Derives G (.level (k + 1)) ts e := by
  have hlevel := Derives.level h .noOperator
  rwa [List.append_nil] at hlevel

/-- What follows does not continue a phrase of level `k`. -/
def StopsAt (G : Grammar τ α β) (k : Nat) (rest : List τ) : Prop :=
  (∀ ts b rest', G.suffix ts b → rest ≠ ts ++ rest') ∧
    ∀ j < k, ∀ t, G.operators[j]? = some t → rest.head? ≠ some t

/-- What follows does not continue the phrase. -/
def Stops (G : Grammar τ α β) : Phrase α β → List τ → Prop
  | .primary, _     => True
  | .unary, _       => True
  | .suffixes _, r  => StopsAt G 0 r
  | .level k, r     => StopsAt G k r
  | .chain k _, r   => StopsAt G (k + 1) r

theorem StopsAt.mono {j k : Nat} {rest : List τ} (h : StopsAt G k rest) (hjk : j ≤ k) :
    StopsAt G j rest :=
  ⟨h.1, fun i hi => h.2 i (Nat.lt_of_lt_of_le hi hjk)⟩

/-- A token that starts no suffix and is no operator of a lower level ends a phrase. -/
theorem stopsAt_cons (hG : G.Lawful) {t : τ} {k : Nat} {rest : List τ}
    (hsuffix : t = G.closing ∨ t ∈ G.operators) (hlevel : ∀ j < k, G.operators[j]? ≠ some t) :
    StopsAt G k (t :: rest) := by
  refine ⟨fun ts b rest' hb heq => ?_,
    fun j hj t' ht' h => hlevel j hj (Option.some.inj h ▸ ht')⟩
  obtain ⟨t', ts', rfl, hclosing, hoperator⟩ := hG.suffix_head hb
  have ht : t = t' := (List.cons.inj heq).1
  rcases hsuffix with h | h
  · exact hclosing (ht ▸ h)
  · exact hoperator (ht ▸ h)

theorem stopsAt_closing (hG : G.Lawful) (k : Nat) (rest : List τ) :
    StopsAt G k (G.closing :: rest) :=
  stopsAt_cons hG (Or.inl rfl) fun _ _ h => hG.closing_notMem (List.mem_of_getElem? h)

theorem stopsAt_operator (hG : G.Lawful) {k : Nat} {t : τ} (ht : G.operators[k]? = some t)
    (rest : List τ) : StopsAt G k (t :: rest) := by
  refine stopsAt_cons hG (Or.inr (List.mem_of_getElem? ht)) fun j hj h => ?_
  have hlt : j < G.operators.length := (List.getElem?_eq_some_iff.mp h).1
  exact Nat.ne_of_lt hj ((List.getElem?_inj hlt hG.operators_nodup).mp (h.trans ht.symm))

theorem stopsAt_nil (hG : G.Lawful) (k : Nat) : StopsAt G k [] := by
  refine ⟨fun ts b rest' hb heq => ?_, fun j _ t _ h => nomatch h⟩
  obtain ⟨t, ts', rfl, -⟩ := hG.suffix_head hb
  cases heq

/-- The phrase before a chain of level `k` ends where the chain begins. -/
theorem stops_before_chain (hG : G.Lawful) {k : Nat} {e e' : Expr α β} {ts rest : List τ}
    (h : Derives G (.chain k e) ts e') (hrest : StopsAt G (k + 1) rest) :
    StopsAt G k (ts ++ rest) := by
  cases h with
  | noOperator => exact hrest.mono (Nat.le_succ k)
  | operator ht h hs => exact stopsAt_operator hG ht _

/-- A phrase starts with an operand or an opening parenthesis. -/
theorem primary_ne_negation (hG : G.Lawful) {e : Expr α β} {ts rest rest' : List τ}
    (h : Derives G .primary ts e) (heq : ts ++ rest = G.negation :: rest') : False := by
  cases h with
  | operand h =>
    obtain ⟨t, ts', rfl, hne, -⟩ := hG.operand_head h
    exact hne (List.cons.inj heq).1
  | group h => exact hG.negation_ne_opening (List.cons.inj heq).1.symm

theorem tail_of_cons_append {t : τ} {as bs r as' bs' r' : List τ}
    (h : t :: (as ++ bs) ++ r = t :: (as' ++ bs') ++ r') :
    as ++ (bs ++ r) = as' ++ (bs' ++ r') := by
  simpa [List.append_assoc] using h

/-- The first phrase of a list of tokens is determined by the tokens. -/
theorem unique_before (hG : G.Lawful) {p : Phrase α β} {ts : List τ} {e : Expr α β}
    (h : Derives G p ts e) : ∀ {ts' r r' : List τ} {e' : Expr α β}, Derives G p ts' e' →
      ts ++ r = ts' ++ r' → Stops G p r → Stops G p r' → ts = ts' ∧ e = e' := by
  -- Along the first derivation. What follows a phrase stops it in both readings.
  induction h with
  | operand h =>
    intro ts' r r' e' h' heq _ _
    cases h' with
    | operand h' =>
      obtain ⟨rfl, rfl⟩ := hG.operand_unique h h' heq
      exact ⟨rfl, rfl⟩
    | group h' =>
      obtain ⟨t, rest, rfl, -, hne⟩ := hG.operand_head h
      exact absurd (List.cons.inj heq).1 hne
  | group h ih =>
    intro ts' r r' e' h' heq _ _
    cases h' with
    | operand h' =>
      obtain ⟨t, rest, rfl, -, hne⟩ := hG.operand_head h'
      exact absurd (List.cons.inj heq).1.symm hne
    | group h' =>
      have hinner := tail_of_cons_append heq
      obtain ⟨rfl, rfl⟩ := ih h' hinner (stopsAt_closing hG _ _) (stopsAt_closing hG _ _)
      exact ⟨rfl, rfl⟩
  | plain h ih =>
    intro ts' r r' e' h' heq hr hr'
    cases h' with
    | plain h' => exact ih h' heq hr hr'
    | negate h' => exact absurd heq fun heq => primary_ne_negation hG h heq
  | negate h ih =>
    intro ts' r r' e' h' heq hr hr'
    cases h' with
    | plain h' => exact absurd heq.symm fun heq => primary_ne_negation hG h' heq
    | negate h' =>
      obtain ⟨rfl, rfl⟩ := ih h' (List.cons.inj heq).2 hr hr'
      exact ⟨rfl, rfl⟩
  | noSuffix =>
    intro ts' r r' e' h' heq hr _
    cases h' with
    | noSuffix => exact ⟨rfl, rfl⟩
    | suffix hb h' => exact absurd (heq.trans (List.append_assoc ..)) (hr.1 _ _ _ hb)
  | suffix hb h ih =>
    intro ts' r r' e' h' heq hr hr'
    cases h' with
    | noSuffix => exact absurd (heq.symm.trans (List.append_assoc ..)) (hr'.1 _ _ _ hb)
    | suffix hb' h' =>
      rw [List.append_assoc, List.append_assoc] at heq
      obtain ⟨rfl, rfl⟩ := hG.suffix_unique hb hb' heq
      obtain ⟨rfl, rfl⟩ := ih h' (List.append_cancel_left heq) hr hr'
      exact ⟨rfl, rfl⟩
  | bottom h hs ih ihs =>
    intro ts' r r' e' h' heq hr hr'
    cases h' with
    | bottom h' hs' =>
      rw [List.append_assoc, List.append_assoc] at heq
      obtain ⟨rfl, rfl⟩ := ih h' heq trivial trivial
      obtain ⟨rfl, rfl⟩ := ihs hs' (List.append_cancel_left heq) hr hr'
      exact ⟨rfl, rfl⟩
  | level h hs ih ihs =>
    intro ts' r r' e' h' heq hr hr'
    cases h' with
    | level h' hs' =>
      rw [List.append_assoc, List.append_assoc] at heq
      obtain ⟨rfl, rfl⟩ :=
        ih h' heq (stops_before_chain hG hs hr) (stops_before_chain hG hs' hr')
      obtain ⟨rfl, rfl⟩ := ihs hs' (List.append_cancel_left heq) hr hr'
      exact ⟨rfl, rfl⟩
  | @noOperator k e =>
    intro ts' r r' e' h' heq hr _
    cases h' with
    | noOperator => exact ⟨rfl, rfl⟩
    | operator ht h' hs' =>
      -- One reading ends where the other goes on with an operator.
      exact absurd (congrArg List.head? heq) (hr.2 k (Nat.lt_succ_self k) _ ht)
  | @operator k t ts₁ ts₂ e e₂ f ht h hs ih ihs =>
    intro ts' r r' e' h' heq hr hr'
    cases h' with
    | noOperator =>
      exact absurd (congrArg List.head? heq.symm) (hr'.2 k (Nat.lt_succ_self k) _ ht)
    | operator ht' h' hs' =>
      obtain rfl := Option.some.inj (ht.symm.trans ht')
      have hinner := tail_of_cons_append heq
      obtain ⟨rfl, rfl⟩ :=
        ih h' hinner (stops_before_chain hG hs hr) (stops_before_chain hG hs' hr')
      obtain ⟨rfl, rfl⟩ := ihs hs' (List.append_cancel_left hinner) hr hr'
      exact ⟨rfl, rfl⟩

/-- A list of tokens has at most one tree. -/
theorem unique (hG : G.Lawful) {k : Nat} {ts : List τ} {e e' : Expr α β}
    (h : Derives G (.level k) ts e) (h' : Derives G (.level k) ts e') : e = e' :=
  (unique_before hG h h' rfl (stopsAt_nil hG k) (stopsAt_nil hG k)).2

/-! ### The operands of a phrase -/

/-- Where each token stands for the operands it reads as, the tokens of a phrase hold the
operands of its tree in their order. -/
theorem operands_eq {f : τ → List α} (hoperand : ∀ ts a, G.operand ts a → ts.flatMap f = [a])
    (hsuffix : ∀ ts b, G.suffix ts b → ts.flatMap f = []) (hnegation : f G.negation = [])
    (hopening : f G.opening = []) (hclosing : f G.closing = [])
    (hoperator : ∀ t ∈ G.operators, f t = []) {p : Phrase α β} {ts : List τ} {e : Expr α β}
    (h : Derives G p ts e) : e.operands = p.operands ++ ts.flatMap f := by
  induction h with
  | operand h => exact (hoperand _ _ h).symm
  | group h ih =>
    rw [ih, List.flatMap_cons, hopening, List.flatMap_append, List.flatMap_singleton, hclosing]
    simp [Phrase.operands]
  | plain h ih => exact ih
  | negate h ih =>
    rw [Expr.operands, ih, List.flatMap_cons, hnegation]
    rfl
  | noSuffix => simp [Phrase.operands]
  | suffix hb h ih =>
    rw [ih, List.flatMap_append, hsuffix _ _ hb]
    rfl
  | bottom h hs ih ihs =>
    rw [ihs, List.flatMap_append, Phrase.operands, ih]
    simp [Phrase.operands]
  | level h hs ih ihs =>
    rw [ihs, List.flatMap_append, Phrase.operands, ih]
    simp [Phrase.operands]
  | noOperator => simp [Phrase.operands]
  | operator ht h hs ih ihs =>
    rw [ihs, List.flatMap_cons, hoperator _ (List.mem_of_getElem? ht), List.flatMap_append,
      Phrase.operands, Expr.operands, ih]
    simp [Phrase.operands]

/-- Every operand of a tree was read as one. -/
theorem operand_of_mem {p : Phrase α β} {ts : List τ} {e : Expr α β} (h : Derives G p ts e)
    {a : α} (ha : a ∈ e.operands) : a ∈ p.operands ∨ ∃ us, G.operand us a := by
  induction h with
  | operand h => exact Or.inr ⟨_, List.mem_singleton.mp ha ▸ h⟩
  | group h ih => exact ih ha
  | plain h ih => exact ih ha
  | negate h ih => exact ih ha
  | noSuffix => exact Or.inl ha
  | suffix hb h ih => exact ih ha
  | bottom h hs ih ihs =>
    rcases ihs ha with hbefore | hread
    · exact ih hbefore
    · exact Or.inr hread
  | level h hs ih ihs =>
    rcases ihs ha with hbefore | hread
    · exact ih hbefore
    · exact Or.inr hread
  | noOperator => exact Or.inl ha
  | operator ht h hs ih ihs =>
    rcases ihs ha with hbefore | hread
    · rcases List.mem_append.mp hbefore with hbefore | hbefore
      · exact Or.inl hbefore
      · exact Or.inr ((ih hbefore).resolve_left nofun)
    · exact Or.inr hread

end Derives

end

end PolyPlug.Lib
