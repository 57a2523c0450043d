import Mathlib.Data.Finset.Sort
import Mathlib.Logic.Relation
import Mathlib.Order.Extension.Linear

/-!
# `PolyPlug.Lib.Topological`: orders that respect a relation

`Before l a b` says that `a` stands strictly before `b` in a list. A list of distinct
nodes is topological for a relation when every related pair stands in that order. Such
a list puts `a` before `b` whenever `b` can be reached from `a` (`before_of_transGen`),
and of every two nodes that are not so related some topological list has either order
(`exists_topological_before`): what every topological list agrees on is reachability.

The existence is the extension of a partial order to a linear one.
-/

set_option autoImplicit false

namespace PolyPlug.Lib

open Relation

variable {α β : Type}

/-! ### One before another -/

/-- Strictly before in a list. -/
def Before (l : List α) (a b : α) : Prop :=
  ∃ front back, l = front ++ back ∧ a ∈ front ∧ b ∈ back

theorem Before.left_mem {l : List α} {a b : α} (h : Before l a b) : a ∈ l := by
  obtain ⟨front, back, rfl, ha, _⟩ := h
  exact List.mem_append_left _ ha

/-- Nothing stands before itself in a list of distinct values. -/
theorem Before.irrefl {l : List α} (hl : l.Nodup) (a : α) : ¬ Before l a a := by
  rintro ⟨front, back, rfl, ha, hb⟩
  exact (List.nodup_append.1 hl).2.2 a ha a hb rfl

theorem Before.trans {l : List α} (hl : l.Nodup) {a b c : α} (hab : Before l a b)
    (hbc : Before l b c) : Before l a c := by
  obtain ⟨front, back, rfl, ha, hb⟩ := hab
  obtain ⟨front', back', heq, hb', hc⟩ := hbc
  refine ⟨front', back', heq, ?_, hc⟩
  rcases List.append_eq_append_iff.1 heq with ⟨mid, rfl, _⟩ | ⟨mid, rfl, _⟩
  · exact List.mem_append_left _ ha
  · -- then `b` is in both parts
    exact absurd rfl ((List.nodup_append.1 hl).2.2 b (List.mem_append_left _ hb') b hb)

theorem Before.asymm {l : List α} (hl : l.Nodup) {a b : α} (hab : Before l a b) :
    ¬ Before l b a := fun hba => Before.irrefl hl a (hab.trans hl hba)

/-- Reversing a list turns its order round. -/
theorem before_reverse {l : List α} {a b : α} : Before l.reverse a b ↔ Before l b a := by
  have hturn : ∀ {l : List α} {a b : α}, Before l b a → Before l.reverse a b := by
    rintro l a b ⟨front, back, rfl, hb, ha⟩
    exact ⟨back.reverse, front.reverse, by simp, by simpa using ha, by simpa using hb⟩
  refine ⟨fun h => ?_, hturn⟩
  have := hturn h
  rwa [List.reverse_reverse] at this

/-- An injective map keeps the order. -/
theorem before_map {f : α → β} {l : List α} (hf : Set.InjOn f { x | x ∈ l }) {a b : α}
    (ha : a ∈ l) (hb : b ∈ l) : Before (l.map f) (f a) (f b) ↔ Before l a b := by
  constructor
  · rintro ⟨front, back, heq, hfa, hfb⟩
    obtain ⟨front', back', rfl, rfl, rfl⟩ := List.map_eq_append_iff.1 heq
    obtain ⟨a', ha', haa⟩ := List.mem_map.1 hfa
    obtain ⟨b', hb', hbb⟩ := List.mem_map.1 hfb
    obtain rfl := hf (List.mem_append_left _ ha') ha haa
    obtain rfl := hf (List.mem_append_right _ hb') hb hbb
    exact ⟨front', back', rfl, ha', hb'⟩
  · rintro ⟨front, back, rfl, hfa, hfb⟩
    exact ⟨front.map f, back.map f, by simp, List.mem_map.2 ⟨a, hfa, rfl⟩,
      List.mem_map.2 ⟨b, hfb, rfl⟩⟩

/-- In a list that no value precedes against `r`, values that `r` relates stand in its order. -/
theorem before_of_pairwise {r : α → α → Prop} {l : List α} (h : l.Pairwise fun a b => ¬ r b a)
    {a b : α} (ha : a ∈ l) (hb : b ∈ l) (hne : a ≠ b) (hab : r a b) : Before l a b := by
  obtain ⟨front, back, rfl⟩ := List.append_of_mem ha
  refine ⟨front ++ [a], back, by simp, by simp, ?_⟩
  rcases List.mem_append.1 hb with hb | hb
  · exact absurd hab ((List.pairwise_append.1 h).2.2 b hb a (by simp))
  · rcases List.mem_cons.1 hb with rfl | hb
    · exact absurd rfl hne
    · exact hb

/-! ### Topological lists -/

/-- A list of the nodes, each once, in which every edge goes forward. -/
structure Topological (r : α → α → Prop) (nodes order : List α) : Prop where
  perm : order.Perm nodes
  forward : ∀ a ∈ nodes, ∀ b ∈ nodes, r a b → Before order a b

/-- **What can be reached from a node stands behind it.** -/
theorem Topological.before_of_transGen {r : α → α → Prop} {nodes order : List α}
    (h : Topological r nodes order) (hnodes : nodes.Nodup)
    (hr : ∀ a b, r a b → a ∈ nodes ∧ b ∈ nodes) {a b : α} (hab : TransGen r a b) :
    Before order a b := by
  have hnodup : order.Nodup := h.perm.nodup_iff.2 hnodes
  induction hab with
  | single hab => exact h.forward _ (hr _ _ hab).1 _ (hr _ _ hab).2 hab
  | tail _ hbc ih => exact ih.trans hnodup (h.forward _ (hr _ _ hbc).1 _ (hr _ _ hbc).2 hbc)

/-- A relation with a topological list has no cycle. -/
theorem Topological.acyclic {r : α → α → Prop} {nodes order : List α}
    (h : Topological r nodes order) (hnodes : nodes.Nodup)
    (hr : ∀ a b, r a b → a ∈ nodes ∧ b ∈ nodes) (a : α) : ¬ TransGen r a a := fun haa =>
  Before.irrefl (h.perm.nodup_iff.2 hnodes) a (h.before_of_transGen hnodes hr haa)

/-- **A relation without cycles has a topological list.** -/
theorem exists_topological [DecidableEq α] {r : α → α → Prop} (hr : ∀ a, ¬ TransGen r a a)
    {nodes : List α} (hnodes : nodes.Nodup) : ∃ order, Topological r nodes order := by
  have hpartial : IsPartialOrder α (ReflTransGen r) :=
    { refl := fun _ => .refl
      trans := fun _ _ _ => .trans
      antisymm := by
        intro a b hab hba
        rcases reflTransGen_iff_eq_or_transGen.1 hab with heq | hab
        · exact heq.symm
        · exact absurd (hab.trans_left hba) (hr a) }
  obtain ⟨s, hlinear, hle⟩ := extend_partialOrder (ReflTransGen r)
  classical
  let order := nodes.toFinset.sort s
  have hperm : order.Perm nodes := by
    refine (List.perm_ext_iff_of_nodup (Finset.sort_nodup _ _) hnodes).2 fun a => ?_
    rw [Finset.mem_sort, List.mem_toFinset]
  refine ⟨order, hperm, fun a ha b hb hab => ?_⟩
  have hne : a ≠ b := fun heq => hr a (.single (heq ▸ hab))
  have hsorted : order.Pairwise fun a b => ¬ (s b a ∧ a ≠ b) :=
    (Finset.pairwise_sort _ _).imp fun {x y} hxy h => h.2 (hlinear.antisymm _ _ hxy h.1)
  exact before_of_pairwise (r := fun a b => s a b ∧ a ≠ b)
    (hsorted.imp fun {x y} hxy h => hxy ⟨h.1, h.2.symm⟩)
    (hperm.mem_iff.2 ha) (hperm.mem_iff.2 hb) hne ⟨hle _ _ (.single hab), hne⟩

/-- An edge between nodes that are not related the other way round closes no cycle. -/
theorem acyclic_insert {r : α → α → Prop} (hr : ∀ a, ¬ TransGen r a a) {x y : α}
    (hyx : ¬ ReflTransGen r y x) (a : α) :
    ¬ TransGen (fun a b => r a b ∨ (a = x ∧ b = y)) a a := by
  -- a path uses the new edge at most to go from `x` to `y`
  have hpath : ∀ a b, TransGen (fun a b => r a b ∨ (a = x ∧ b = y)) a b →
      TransGen r a b ∨ (ReflTransGen r a x ∧ ReflTransGen r y b) := by
    intro a b hab
    induction hab with
    | single hab =>
        rcases hab with hab | ⟨rfl, rfl⟩
        · exact .inl (.single hab)
        · exact .inr ⟨.refl, .refl⟩
    | tail _ hbc ih =>
        rcases hbc with hbc | ⟨rfl, rfl⟩
        · rcases ih with hab | ⟨hax, hyb⟩
          · exact .inl (hab.tail hbc)
          · exact .inr ⟨hax, hyb.tail hbc⟩
        · rcases ih with hab | ⟨hax, hyb⟩
          · exact .inr ⟨hab.to_reflTransGen, .refl⟩
          · exact absurd hyb hyx
  intro haa
  rcases hpath a a haa with haa | ⟨hax, hya⟩
  · exact hr a haa
  · exact hyx (hya.trans hax)

/-- **Some topological list puts `x` before `y` unless `x` can be reached from `y`.** -/
theorem exists_topological_before [DecidableEq α] {r : α → α → Prop}
    (hr : ∀ a, ¬ TransGen r a a) {nodes : List α} (hnodes : nodes.Nodup) {x y : α}
    (hx : x ∈ nodes) (hy : y ∈ nodes) (hyx : ¬ ReflTransGen r y x) :
    ∃ order, Topological r nodes order ∧ Before order x y := by
  obtain ⟨order, horder⟩ := exists_topological (acyclic_insert hr hyx) hnodes
  exact ⟨order, ⟨horder.perm, fun a ha b hb hab => horder.forward a ha b hb (.inl hab)⟩,
    horder.forward x hx y hy (.inr ⟨rfl, rfl⟩)⟩

end PolyPlug.Lib
