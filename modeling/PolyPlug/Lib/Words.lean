import Mathlib.Data.List.Forall2
import Mathlib.Data.List.Basic

/-!
# `PolyPlug.Lib.Words`: the words of a text

A text is cut at its separators into words. `marked` keeps the letters of the words in order, each
with a mark that says whether it begins a word, so the words with their first letters
capitalised are the marked letters, each rendered by itself (`flatMap_capitalize`). Texts that
are joined by a separator have their marked letters one behind the other.
-/

set_option autoImplicit false

namespace PolyPlug.Lib

variable {α : Type} (sep : α → Bool) (upper : α → List α)

/-- The letters that are no separators, with a mark at the first letter of each word. The flag says
whether a word begins here. -/
def marked : Bool → List α → List (α × Bool)
  | _, []          => []
  | begins, a :: l => if sep a then marked true l else (a, begins) :: marked false l

/-- A word with its first letter as a capital. -/
def capitalizeWord : List α → List α
  | []     => []
  | a :: l => upper a ++ l

/-- A letter, as a capital if it begins a word. -/
def renderLetter (m : α × Bool) : List α := if m.2 then upper m.1 else [m.1]

variable {sep}

theorem marked_append_cons {a : α} (ha : sep a = true) (begins : Bool) (l l' : List α) :
    marked sep begins (l ++ a :: l') = marked sep begins l ++ marked sep true l' := by
  induction l generalizing begins with
  | nil =>
    show (if sep a then marked sep true l' else _) = _
    rw [if_pos ha]
    rfl
  | cons b l ih =>
    rw [List.cons_append, marked, marked]
    split
    · exact ih true
    · rw [ih false]
      rfl

theorem marked_congr {sep' : α → Bool} {l : List α} (h : ∀ a ∈ l, sep a = sep' a)
    (begins : Bool) : marked sep begins l = marked sep' begins l := by
  induction l generalizing begins with
  | nil => rfl
  | cons a l ih =>
    have hrest := ih fun b hb => h b (List.mem_cons_of_mem _ hb)
    rw [marked, marked, h a List.mem_cons_self, hrest true, hrest false]

theorem mem_of_mem_marked {begins : Bool} {l : List α} {m : α × Bool}
    (h : m ∈ marked sep begins l) : m.1 ∈ l := by
  induction l generalizing begins with
  | nil => exact absurd h List.not_mem_nil
  | cons a l ih =>
    rw [marked] at h
    split at h
    · exact List.mem_cons_of_mem _ (ih h)
    · rcases List.mem_cons.mp h with rfl | h
      · exact List.mem_cons_self
      · exact List.mem_cons_of_mem _ (ih h)

/-- The pieces between the separators, the first one as it is or capitalised. -/
theorem splitOnP_rendered (l : List α) :
    ((l.splitOnP sep).flatMap (capitalizeWord upper) =
        (marked sep true l).flatMap (renderLetter upper)) ∧
      ∃ piece pieces, l.splitOnP sep = piece :: pieces ∧
        piece ++ pieces.flatMap (capitalizeWord upper) =
          (marked sep false l).flatMap (renderLetter upper) := by
  induction l with
  | nil => exact ⟨rfl, [], [], rfl, rfl⟩
  | cons a l ih =>
    obtain ⟨hall, piece, pieces, hsplit, hfirst⟩ := ih
    rw [List.splitOnP_cons_eq_if_modifyHead, marked, marked]
    split
    · exact ⟨hall, [], l.splitOnP sep, rfl, hall⟩
    · rw [hsplit, List.modifyHead_cons]
      refine ⟨?_, a :: piece, pieces, rfl, ?_⟩
      · rw [List.flatMap_cons, List.flatMap_cons, ← hfirst, capitalizeWord, List.append_assoc]
        rfl
      · rw [List.flatMap_cons, ← hfirst]
        rfl

/-- **The capitalised words are the marked letters, rendered one by one.** -/
theorem flatMap_capitalize (l : List α) :
    (l.splitOnP sep).flatMap (capitalizeWord upper) =
      (marked sep true l).flatMap (renderLetter upper) :=
  (splitOnP_rendered upper l).1

/-- Empty words add nothing. -/
theorem flatMap_filter_capitalize (words : List (List α)) :
    (words.filter fun word => !word.isEmpty).flatMap (capitalizeWord upper) =
      words.flatMap (capitalizeWord upper) := by
  induction words with
  | nil => rfl
  | cons word words ih =>
    cases word with
    | nil => exact ih
    | cons a word =>
      rw [List.filter_cons_of_pos rfl, List.flatMap_cons, List.flatMap_cons, ih]

/-- Letters that are rendered as one letter each give the same text exactly if they do so one by
one. -/
theorem flatMap_eq_iff {β γ δ : Type} {f : β → List γ} {g : δ → List γ} {f' : β → γ} {g' : δ → γ}
    {R : β → δ → Prop} {l : List β} {l' : List δ} (hf : ∀ a ∈ l, f a = [f' a])
    (hg : ∀ b ∈ l', g b = [g' b]) (hR : ∀ a ∈ l, ∀ b ∈ l', f' a = g' b ↔ R a b) :
    l.flatMap f = l'.flatMap g ↔ List.Forall₂ R l l' := by
  induction l generalizing l' with
  | nil =>
    cases l' with
    | nil => exact iff_of_true rfl .nil
    | cons b l' =>
      rw [List.flatMap_cons, hg b List.mem_cons_self]
      exact iff_of_false (fun h => by cases h) (fun h => by cases h)
  | cons a l ih =>
    rw [List.flatMap_cons, hf a List.mem_cons_self]
    cases l' with
    | nil => exact iff_of_false (fun h => by cases h) (fun h => by cases h)
    | cons b l' =>
      rw [List.flatMap_cons, hg b List.mem_cons_self, List.singleton_append, List.singleton_append,
        List.cons.injEq, List.forall₂_cons, hR a List.mem_cons_self b List.mem_cons_self,
        ih (fun c hc => hf c (List.mem_cons_of_mem _ hc))
          (fun c hc => hg c (List.mem_cons_of_mem _ hc))
          fun c hc d hd => hR c (List.mem_cons_of_mem _ hc) d (List.mem_cons_of_mem _ hd)]

end PolyPlug.Lib
