import Mathlib.Data.List.Nodup
import Mathlib.Logic.Function.Basic

/-!
# `PolyPlug.Lib.Exclusive`: what one frame of one stack has

Each thread has a stack of frames, innermost first, and a frame may have a key. `Exclusive`
says that no two frames have the same key, on one stack or on two. A step that changes the top
of one stack keeps this when the new frames have no key, or the key of the old top
(`Exclusive.advance`), or one that no frame has (`Exclusive.enter`).
-/

set_option autoImplicit false

namespace PolyPlug.Lib

section
variable {τ α κ : Type*} (key : α → Option κ) (frames : τ → List α)

/-- No two frames have the same key. -/
structure Exclusive : Prop where
  nodup : ∀ t, ((frames t).filterMap key).Nodup
  apart : ∀ t t' k, k ∈ (frames t).filterMap key → k ∈ (frames t').filterMap key → t = t'

variable {key frames} {t t' : τ} {top a : α} {rest new : List α} {k : κ}

theorem exclusive_empty : Exclusive key fun _ : τ => [] where
  nodup _ := List.nodup_nil
  apart _ _ _ h _ := nomatch h

namespace Exclusive

/-- The key of the top is not found below it. -/
theorem not_below (h : Exclusive key frames) (ht : frames t = top :: rest) (hk : key top = some k)
    (ha : a ∈ rest) : key a ≠ some k := by
  intro heq
  have hnodup := h.nodup t
  rw [ht, List.filterMap_cons_some hk] at hnodup
  exact (List.nodup_cons.1 hnodup).1 (List.mem_filterMap.2 ⟨a, ha, heq⟩)

/-- A key is not found on two stacks. -/
theorem not_beside (h : Exclusive key frames) {b : α} (ha : a ∈ frames t) (hk : key a = some k)
    (hb : b ∈ frames t') (hne : t' ≠ t) : key b ≠ some k := by
  intro heq
  exact hne (h.apart t' t k (List.mem_filterMap.2 ⟨b, hb, heq⟩) (List.mem_filterMap.2 ⟨a, ha, hk⟩))

/-- A key is the key of one frame. -/
theorem unique (h : Exclusive key frames) {b : α} (ha : a ∈ frames t) (hka : key a = some k)
    (hb : b ∈ frames t') (hkb : key b = some k) : a = b := by
  have heq : t' = t :=
    h.apart t' t k (List.mem_filterMap.2 ⟨b, hb, hkb⟩) (List.mem_filterMap.2 ⟨a, ha, hka⟩)
  rw [heq] at hb
  have hnodup := h.nodup t
  generalize frames t = l at ha hb hnodup
  induction l with
  | nil => exact nomatch ha
  | cons x l ih =>
    rcases List.mem_cons.1 ha with rfl | hal
    · rcases List.mem_cons.1 hb with rfl | hbl
      · rfl
      · rw [List.filterMap_cons_some hka, List.nodup_cons] at hnodup
        exact absurd (List.mem_filterMap.2 ⟨b, hbl, hkb⟩) hnodup.1
    · rcases List.mem_cons.1 hb with rfl | hbl
      · rw [List.filterMap_cons_some hkb, List.nodup_cons] at hnodup
        exact absurd (List.mem_filterMap.2 ⟨a, hal, hka⟩) hnodup.1
      · exact ih hal hbl (hnodup.sublist ((List.sublist_cons_self x l).filterMap key))

variable [DecidableEq τ]

/-- The keys on a stack after a step that keeps the key of the top, or drops it. -/
theorem sublist_advance (ht : frames t = top :: rest)
    (hnew : (new.filterMap key).Sublist (key top).toList) (t' : τ) :
    ((Function.update frames t (new ++ rest) t').filterMap key).Sublist
      ((frames t').filterMap key) := by
  by_cases heq : t' = t
  · subst heq
    rw [Function.update_self, ht, List.filterMap_append]
    have htop : (top :: rest).filterMap key = (key top).toList ++ rest.filterMap key := by
      cases hk : key top with
      | none => rw [List.filterMap_cons_none hk]; rfl
      | some k => rw [List.filterMap_cons_some hk]; rfl
    rw [htop]
    exact hnew.append_right _
  · rw [Function.update_of_ne heq]

theorem advance (h : Exclusive key frames) (ht : frames t = top :: rest)
    (hnew : (new.filterMap key).Sublist (key top).toList) :
    Exclusive key (Function.update frames t (new ++ rest)) where
  nodup t' := (h.nodup t').sublist (sublist_advance ht hnew t')
  apart t₁ t₂ k hk₁ hk₂ :=
    h.apart t₁ t₂ k ((sublist_advance ht hnew t₁).subset hk₁)
      ((sublist_advance ht hnew t₂).subset hk₂)

/-- A frame with a key that no frame has. -/
theorem enter (h : Exclusive key frames)
    (hfresh : ∀ k, key a = some k → ∀ t, k ∉ (frames t).filterMap key) :
    Exclusive key (Function.update frames t (a :: frames t)) := by
  have hmem : ∀ t' k, k ∈ (Function.update frames t (a :: frames t) t').filterMap key →
      k ∈ (frames t').filterMap key ∨ (t' = t ∧ key a = some k) := by
    intro t' k hk
    by_cases heq : t' = t
    · subst heq
      rw [Function.update_self, List.mem_filterMap] at hk
      obtain ⟨b, hb, hkb⟩ := hk
      rcases List.mem_cons.1 hb with rfl | hb
      · exact .inr ⟨rfl, hkb⟩
      · exact .inl (List.mem_filterMap.2 ⟨b, hb, hkb⟩)
    · rw [Function.update_of_ne heq] at hk
      exact .inl hk
  refine ⟨fun t' => ?_, fun t₁ t₂ k hk₁ hk₂ => ?_⟩
  · by_cases heq : t' = t
    · subst heq
      rw [Function.update_self]
      cases hk : key a with
      | none =>
        rw [List.filterMap_cons_none hk]
        exact h.nodup t'
      | some k =>
        rw [List.filterMap_cons_some hk]
        exact List.nodup_cons.2 ⟨hfresh k hk t', h.nodup t'⟩
    · rw [Function.update_of_ne heq]
      exact h.nodup t'
  · rcases hmem t₁ k hk₁ with h₁ | ⟨rfl, hka⟩
    · rcases hmem t₂ k hk₂ with h₂ | ⟨rfl, hka⟩
      · exact h.apart t₁ t₂ k h₁ h₂
      · exact absurd h₁ (hfresh k hka t₁)
    · rcases hmem t₂ k hk₂ with h₂ | ⟨rfl, -⟩
      · exact absurd h₂ (hfresh k hka t₂)
      · rfl

end Exclusive

end

end PolyPlug.Lib
