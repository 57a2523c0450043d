import Mathlib.Data.Fintype.Card
import Mathlib.Data.Set.Finite.Basic
import Mathlib.Logic.Relation

/-!
# `PolyPlug.Lib.Descent`: a search that keeps no visited set

A descent asks a node, and a node asks the nodes it calls, one after another. Some nodes answer
`true` at once. A node answers `true` at its first call that does, and makes no later call. If no
call does, it answers `false`.

`Descent.search` counts the depth with fuel, and `none` means that the fuel ran out. The calls
that are made are `Descent.Makes`: those that no earlier call ends, which `Descent.Finds` tells
from the graph alone. `answers_iff_acc` says that a node answers exactly if no infinite chain of
made calls begins at it, and `answers_iff_no_cycle` that in a finite graph no made call leads
back to its node.
-/

set_option autoImplicit false

namespace PolyPlug.Lib

open Relation

/-- The calls of a node, in order, and the nodes that answer `true` at once. -/
structure Descent (α : Type*) where
  calls : α → List α
  ends : α → Bool

section
variable {α : Type*}

/-! ### Questions in order -/

/-- A list of questions has no answer if one of them has none and no earlier one ends it. -/
theorem anyM_eq_none_iff {p : α → Option Bool} {l : List α} :
    l.anyM p = none ↔
      ∃ front a back, l = front ++ a :: back ∧ (∀ b ∈ front, p b = some false) ∧ p a = none := by
  induction l with
  | nil => simp
  | cons a rest ih =>
    rw [List.anyM_cons]
    cases ha : p a with
    | none => exact iff_of_true rfl ⟨[], a, rest, rfl, fun b hb => absurd hb List.not_mem_nil, ha⟩
    | some answer =>
      cases answer with
      | true =>
        refine iff_of_false (fun h => by cases h) ?_
        rintro ⟨front, b, back, heq, hfront, hb⟩
        cases front with
        | nil =>
          obtain ⟨rfl, -⟩ := List.cons.inj heq
          rw [ha] at hb
          cases hb
        | cons c front =>
          obtain ⟨rfl, -⟩ := List.cons.inj heq
          have hc := hfront a List.mem_cons_self
          rw [ha] at hc
          cases hc
      | false =>
        refine ih.trans ⟨?_, ?_⟩
        · rintro ⟨front, b, back, rfl, hfront, hb⟩
          refine ⟨a :: front, b, back, rfl, fun c hc => ?_, hb⟩
          rcases List.mem_cons.mp hc with rfl | hc
          · exact ha
          · exact hfront c hc
        · rintro ⟨front, b, back, heq, hfront, hb⟩
          cases front with
          | nil =>
            obtain ⟨rfl, -⟩ := List.cons.inj heq
            rw [ha] at hb
            cases hb
          | cons c front =>
            obtain ⟨rfl, rfl⟩ := List.cons.inj heq
            exact ⟨front, b, back, rfl, fun c hc => hfront c (List.mem_cons_of_mem _ hc), hb⟩

theorem anyM_eq_true {p : α → Option Bool} {l : List α} (h : l.anyM p = some true) :
    ∃ a ∈ l, p a = some true := by
  induction l with
  | nil => cases h
  | cons a rest ih =>
    rw [List.anyM_cons] at h
    cases ha : p a with
    | none =>
      rw [ha] at h
      cases h
    | some answer =>
      cases answer with
      | true => exact ⟨a, List.mem_cons_self, ha⟩
      | false =>
        rw [ha] at h
        obtain ⟨b, hb, hanswer⟩ := ih h
        exact ⟨b, List.mem_cons_of_mem _ hb, hanswer⟩

theorem anyM_eq_false {p : α → Option Bool} {l : List α} (h : l.anyM p = some false) :
    ∀ a ∈ l, p a = some false := by
  induction l with
  | nil => exact fun a ha => absurd ha List.not_mem_nil
  | cons a rest ih =>
    rw [List.anyM_cons] at h
    cases ha : p a with
    | none =>
      rw [ha] at h
      cases h
    | some answer =>
      cases answer with
      | true =>
        rw [ha] at h
        cases h
      | false =>
        rw [ha] at h
        intro b hb
        rcases List.mem_cons.mp hb with rfl | hb
        · exact ha
        · exact ih h b hb

theorem anyM_append {p : α → Option Bool} (l l' : List α) :
    (l ++ l').anyM p = (l.anyM p).bind fun answer => if answer then some true else l'.anyM p := by
  induction l with
  | nil => rfl
  | cons a rest ih =>
    rw [List.cons_append, List.anyM_cons, List.anyM_cons]
    cases p a with
    | none => rfl
    | some answer =>
      cases answer with
      | true => rfl
      | false => exact ih

/-- Questions that are lists of questions. -/
theorem anyM_flatMap {β : Type*} {p : α → Option Bool} (g : β → List α) (l : List β) :
    (l.flatMap g).anyM p = l.anyM fun b => (g b).anyM p := by
  induction l with
  | nil => rfl
  | cons b rest ih =>
    rw [List.flatMap_cons, anyM_append, List.anyM_cons, ih]
    cases (g b).anyM p with
    | none => rfl
    | some answer => cases answer <;> rfl

theorem anyM_map {β : Type*} {p : α → Option Bool} (g : β → α) (l : List β) :
    (l.map g).anyM p = l.anyM fun b => p (g b) := by
  induction l with
  | nil => rfl
  | cons b rest ih =>
    rw [List.map_cons, List.anyM_cons, List.anyM_cons, ih]

theorem anyM_congr {p q : α → Option Bool} {l : List α} (h : ∀ a ∈ l, p a = q a) :
    l.anyM p = l.anyM q := by
  induction l with
  | nil => rfl
  | cons a rest ih =>
    rw [List.anyM_cons, List.anyM_cons, h a List.mem_cons_self,
      ih fun b hb => h b (List.mem_cons_of_mem _ hb)]

/-- Where the questions that are asked keep their answers, so does the list. -/
theorem anyM_eq_of_ne_none {p q : α → Option Bool} {l : List α}
    (hpq : ∀ a, p a ≠ none → q a = p a) (h : l.anyM p ≠ none) : l.anyM q = l.anyM p := by
  induction l with
  | nil => rfl
  | cons a rest ih =>
    rw [List.anyM_cons] at h
    rw [List.anyM_cons, List.anyM_cons]
    cases ha : p a with
    | none =>
      rw [ha] at h
      exact absurd rfl h
    | some answer =>
      rw [ha] at h
      rw [hpq a (by rw [ha]; exact Option.some_ne_none _), ha]
      cases answer with
      | true => rfl
      | false => exact ih h

namespace Descent

variable (d : Descent α)

/-! ### The search -/

/-- The answer of a node, with as many levels of calls as there is fuel. -/
def search : Nat → α → Option Bool
  | 0, _        => none
  | fuel + 1, a => if d.ends a then some true else (d.calls a).anyM (search fuel)

/-- A node that leads to one that answers `true`. -/
def Finds (a : α) : Prop :=
  ∃ b, ReflTransGen (fun x y => y ∈ d.calls x) a b ∧ d.ends b = true

/-- The call is made: its node does not answer at once, and no earlier call ends the list. -/
def Makes (a b : α) : Prop :=
  d.ends a = false ∧
    ∃ front back, d.calls a = front ++ b :: back ∧ ∀ c ∈ front, ¬ d.Finds c

/-- The search ends. -/
def Answers (a : α) : Prop := ∃ fuel, d.search fuel a ≠ none

variable {d}

theorem Makes.mem {a b : α} (h : d.Makes a b) : b ∈ d.calls a := by
  obtain ⟨-, front, back, heq, -⟩ := h
  rw [heq]
  exact List.mem_append_right _ List.mem_cons_self

theorem Finds.of_call {a b : α} (hb : b ∈ d.calls a) (h : d.Finds b) : d.Finds a := by
  obtain ⟨c, hc, hends⟩ := h
  exact ⟨c, ReflTransGen.head hb hc, hends⟩

/-- The answer tells whether a node that answers at once is reached. -/
theorem search_sound {fuel : Nat} {a : α} {answer : Bool} (h : d.search fuel a = some answer) :
    answer = true ↔ d.Finds a := by
  induction fuel generalizing a answer with
  | zero => cases h
  | succ fuel ih =>
    rw [search] at h
    split at h
    · next hends =>
      cases h
      exact iff_of_true rfl ⟨a, .refl, hends⟩
    · next hends =>
      cases answer with
      | true =>
        obtain ⟨b, hb, hanswer⟩ := anyM_eq_true h
        exact iff_of_true rfl (.of_call hb ((ih hanswer).mp rfl))
      | false =>
        refine iff_of_false Bool.false_ne_true ?_
        rintro ⟨c, hc, hcends⟩
        cases hc.cases_head with
        | inl heq => exact hends (heq ▸ hcends)
        | inr hcall =>
          obtain ⟨b, hb, hbc⟩ := hcall
          exact Bool.false_ne_true ((ih (anyM_eq_false h b hb)).mpr ⟨c, hbc, hcends⟩)

/-- More fuel gives the same answer. -/
theorem search_succ {fuel : Nat} {a : α} (h : d.search fuel a ≠ none) :
    d.search (fuel + 1) a = d.search fuel a := by
  induction fuel generalizing a with
  | zero => exact absurd rfl h
  | succ fuel ih =>
    rw [search] at h
    rw [search, search]
    split at h
    · next hends => rw [if_pos hends, if_pos hends]
    · next hends =>
      rw [if_neg hends, if_neg hends]
      exact anyM_eq_of_ne_none (fun b hb => ih hb) h

theorem search_of_le {fuel fuel' : Nat} {a : α} (h : d.search fuel a ≠ none) (hle : fuel ≤ fuel') :
    d.search fuel' a = d.search fuel a := by
  induction hle with
  | refl => rfl
  | step _ ih => rw [search_succ (by rw [ih]; exact h), ih]

/-! ### When a search ends -/

/-- A made call has its answer one level below. -/
theorem search_of_makes {fuel : Nat} {a b : α} (h : d.search (fuel + 1) a ≠ none)
    (hmakes : d.Makes a b) : d.search fuel b ≠ none := by
  obtain ⟨hends, front, back, heq, hfront⟩ := hmakes
  rw [search, if_neg (by rw [hends]; exact Bool.false_ne_true)] at h
  intro hb
  refine h (anyM_eq_none_iff.mpr ?_)
  cases hasked : front.anyM (d.search fuel) with
  | none =>
    -- an earlier call has no answer either
    obtain ⟨front', c, back', rfl, hfront', hc⟩ := anyM_eq_none_iff.mp hasked
    refine ⟨front', c, back' ++ b :: back, ?_, hfront', hc⟩
    rw [heq, List.append_assoc, List.cons_append]
  | some answer =>
    cases answer with
    | true =>
      obtain ⟨c, hc, htrue⟩ := anyM_eq_true hasked
      exact absurd ((search_sound htrue).mp rfl) (hfront c hc)
    | false => exact ⟨front, b, back, heq, anyM_eq_false hasked, hb⟩

/-- A node answers if the nodes of its made calls do. -/
theorem answers_of_makes {a : α} (h : ∀ b, d.Makes a b → d.Answers b) : d.Answers a := by
  cases hends : d.ends a with
  | true =>
    refine ⟨1, ?_⟩
    rw [search, if_pos hends]
    exact Option.some_ne_none _
  | false =>
    -- the calls up to and with the first that ends the list
    have hmade : ∀ l front, d.calls a = front ++ l → (∀ c ∈ front, ¬ d.Finds c) →
        ∃ fuel, l.anyM (d.search fuel) ≠ none := by
      intro l
      induction l with
      | nil => exact fun _ _ _ => ⟨0, Option.some_ne_none _⟩
      | cons b rest ih =>
        intro front heq hfront
        obtain ⟨fuel, hfuel⟩ := h b ⟨hends, front, rest, heq, hfront⟩
        obtain ⟨answer, hanswer⟩ := Option.ne_none_iff_exists'.mp hfuel
        cases answer with
        | true =>
          refine ⟨fuel, ?_⟩
          rw [List.anyM_cons, hanswer]
          exact Option.some_ne_none _
        | false =>
          have hb : ¬ d.Finds b := fun hfinds =>
            Bool.false_ne_true ((search_sound hanswer).mpr hfinds)
          obtain ⟨fuel', hrest⟩ := ih (front ++ [b])
            (by rw [heq, List.append_assoc, List.singleton_append]) fun c hc => by
              rcases List.mem_append.mp hc with hc | hc
              · exact hfront c hc
              · exact List.mem_singleton.mp hc ▸ hb
          refine ⟨max fuel fuel', fun hnone => ?_⟩
          rw [List.anyM_cons, search_of_le hfuel (le_max_left _ _), hanswer] at hnone
          have hmono := anyM_eq_of_ne_none (q := d.search (max fuel fuel'))
            (fun c hc => search_of_le hc (le_max_right _ _)) hrest
          exact hrest (hmono.symm.trans hnone)
    obtain ⟨fuel, hfuel⟩ := hmade (d.calls a) [] rfl fun c hc => absurd hc List.not_mem_nil
    refine ⟨fuel + 1, ?_⟩
    rw [search, if_neg (by rw [hends]; exact Bool.false_ne_true)]
    exact hfuel

/-- A node answers exactly if no infinite chain of made calls begins at it. -/
theorem answers_iff_acc {a : α} : d.Answers a ↔ Acc (fun x y => d.Makes y x) a := by
  constructor
  · rintro ⟨fuel, hfuel⟩
    induction fuel generalizing a with
    | zero => exact absurd rfl hfuel
    | succ fuel ih =>
      exact ⟨a, fun b hb => ih (search_of_makes hfuel hb)⟩
  · intro h
    induction h with
    | intro a _ ih => exact answers_of_makes ih

/-- No chain of made calls comes back to a node that answers. -/
theorem not_cycle_of_acc {a : α} (h : Acc (fun x y => d.Makes y x) a) : ¬ TransGen d.Makes a a := by
  induction h with
  | intro a _ ih =>
    intro hcycle
    obtain ⟨b, hb, hback⟩ := TransGen.head'_iff.mp hcycle
    exact ih b hb (TransGen.tail' hback hb)

/-- **In a finite graph a node answers exactly if no made call below it leads back to its
node.** -/
theorem answers_iff_no_cycle {nodes : Set α} (hfinite : nodes.Finite)
    (hclosed : ∀ a ∈ nodes, ∀ b, d.Makes a b → b ∈ nodes) {a : α} (ha : a ∈ nodes) :
    d.Answers a ↔ ∀ b, ReflTransGen d.Makes a b → ¬ TransGen d.Makes b b := by
  rw [answers_iff_acc]
  constructor
  · intro h b hb
    refine not_cycle_of_acc ?_
    induction hb with
    | refl => exact h
    | tail _ hcall ih => exact ih.inv hcall
  · intro h
    have hbelow : {b | ReflTransGen d.Makes a b}.Finite := by
      refine hfinite.subset fun b (hb : ReflTransGen d.Makes a b) => ?_
      induction hb with
      | refl => exact ha
      | tail _ hcall ih => exact hclosed _ ih _ hcall
    have : Finite {b // ReflTransGen d.Makes a b} := hbelow.to_subtype
    let below : {b // ReflTransGen d.Makes a b} → {b // ReflTransGen d.Makes a b} → Prop :=
      fun x y => TransGen d.Makes y.1 x.1
    have : IsTrans _ below := ⟨fun x y z hxy hyz => hyz.trans hxy⟩
    have : Std.Irrefl below := ⟨fun x => h x.1 x.2⟩
    have hwf : WellFounded below := Finite.wellFounded_of_trans_of_irrefl below
    have hacc : ∀ x : {b // ReflTransGen d.Makes a b}, Acc (fun x y => d.Makes y x) x.1 := by
      intro x
      induction x using hwf.induction with
      | _ x ih => exact ⟨x.1, fun y hy => ih ⟨y, x.2.tail hy⟩ (.single hy)⟩
    exact hacc ⟨a, .refl⟩

end Descent

end

end PolyPlug.Lib
