import Mathlib.Data.List.Sort
import Mathlib.Data.Set.Function

/-!
# `PolyPlug.Lib.Encoding`: encodings that can be read back

An encoding is self-delimiting on a set of values when the end of an encoded value
can be told from the text alone: two encoded values followed by anything are equal
texts only if the values are equal and what follows them is. A list of values written
one after another then has one reading. The rules say which encodings are
self-delimiting: one of a fixed length, one that a mark closes which it does not
contain, and one after another.

The last section is about sorted lists: a list of values with distinct keys,
sorted by key, is determined by its members.
-/

set_option autoImplicit false

namespace PolyPlug.Lib

variable {α β σ : Type}

/-- The end of an encoded value of the set can be told from the text. -/
def SelfDelimitingOn (S : Set α) (enc : α → List σ) : Prop :=
  ∀ x ∈ S, ∀ y ∈ S, ∀ s t, enc x ++ s = enc y ++ t → x = y ∧ s = t

/-- Text up to a mark is determined by what the mark closes. -/
theorem append_mark_inj {mark : σ} : ∀ {u v s t : List σ},
    mark ∉ u → mark ∉ v → u ++ mark :: s = v ++ mark :: t → u = v ∧ s = t := by
  intro u
  induction u with
  | nil =>
      intro v s t _ hv h
      cases v with
      | nil => exact ⟨rfl, (List.cons.inj h).2⟩
      | cons b v => exact absurd (by rw [(List.cons.inj h).1]; simp) hv
  | cons a u ih =>
      intro v s t hu hv h
      cases v with
      | nil => exact absurd (by rw [(List.cons.inj h).1]; simp) hu
      | cons b v =>
          obtain ⟨hab, htail⟩ := List.cons.inj h
          simp only [List.mem_cons, not_or] at hu hv
          obtain ⟨huv, hst⟩ := ih hu.2 hv.2 htail
          exact ⟨by rw [hab, huv], hst⟩

namespace SelfDelimitingOn

/-- An injective encoding of a fixed length. -/
theorem of_length {S : Set α} {enc : α → List σ} {n : Nat} (hlen : ∀ x ∈ S, (enc x).length = n)
    (hinj : Set.InjOn enc S) : SelfDelimitingOn S enc := by
  intro x hx y hy s t h
  obtain ⟨hxy, hst⟩ := List.append_inj h (by rw [hlen x hx, hlen y hy])
  exact ⟨hinj hx hy hxy, hst⟩

/-- An injective encoding closed by a mark it does not contain. -/
theorem terminated {S : Set α} {enc : α → List σ} {mark : σ} (hmark : ∀ x ∈ S, mark ∉ enc x)
    (hinj : Set.InjOn enc S) : SelfDelimitingOn S fun x => enc x ++ [mark] := by
  intro x hx y hy s t h
  simp only [List.append_assoc, List.singleton_append] at h
  obtain ⟨hxy, hst⟩ := append_mark_inj (hmark x hx) (hmark y hy) h
  exact ⟨hinj hx hy hxy, hst⟩

/-- One encoding after another. -/
theorem append {S : Set α} {T : Set β} {enc₁ : α → List σ} {enc₂ : β → List σ}
    (h₁ : SelfDelimitingOn S enc₁) (h₂ : SelfDelimitingOn T enc₂) :
    SelfDelimitingOn (S ×ˢ T) fun p : α × β => enc₁ p.1 ++ enc₂ p.2 := by
  intro x hx y hy s t h
  simp only [List.append_assoc] at h
  obtain ⟨hfst, hrest⟩ := h₁ _ hx.1 _ hy.1 _ _ h
  obtain ⟨hsnd, hst⟩ := h₂ _ hx.2 _ hy.2 _ _ hrest
  exact ⟨Prod.ext hfst hsnd, hst⟩

/-- **Values written one after another have one reading.** -/
theorem flatMap_inj {S : Set α} {enc : α → List σ} (h : SelfDelimitingOn S enc)
    (hne : ∀ x ∈ S, enc x ≠ []) : ∀ {xs ys : List α},
      (∀ x ∈ xs, x ∈ S) → (∀ y ∈ ys, y ∈ S) → xs.flatMap enc = ys.flatMap enc → xs = ys := by
  intro xs
  induction xs with
  | nil =>
      intro ys _ hys heq
      cases ys with
      | nil => rfl
      | cons y ys => simp [hne y (hys y (by simp))] at heq
  | cons x xs ih =>
      intro ys hxs hys heq
      cases ys with
      | nil => simp [hne x (hxs x (by simp))] at heq
      | cons y ys =>
          simp only [List.flatMap_cons] at heq
          obtain ⟨hxy, hrest⟩ := h x (hxs x (by simp)) y (hys y (by simp)) _ _ heq
          rw [hxy, ih (fun z hz => hxs z (List.mem_cons_of_mem _ hz))
            (fun z hz => hys z (List.mem_cons_of_mem _ hz)) hrest]

end SelfDelimitingOn

/-! ### Lists sorted by distinct keys -/

/-- **Two lists with distinct keys and the same members sort to the same list.** -/
theorem insertionSort_eq_of_mem_iff {κ : Type} {key : α → κ} {le : κ → κ → Prop}
    [DecidableRel fun a b => le (key a) (key b)]
    [Std.Total fun a b => le (key a) (key b)] [IsTrans α fun a b => le (key a) (key b)]
    (antisymm : ∀ a b, le a b → le b a → a = b) {xs ys : List α}
    (hxs : (xs.map key).Nodup) (hys : (ys.map key).Nodup) (h : ∀ a, a ∈ xs ↔ a ∈ ys) :
    xs.insertionSort (fun a b => le (key a) (key b)) =
      ys.insertionSort (fun a b => le (key a) (key b)) := by
  have hperm : xs.Perm ys :=
    (List.perm_ext_iff_of_nodup (List.Nodup.of_map _ hxs) (List.Nodup.of_map _ hys)).2 h
  refine @List.Perm.eq_of_pairwise _ (fun a b => le (key a) (key b)) _ _ ?_
    (List.pairwise_insertionSort _ _) (List.pairwise_insertionSort _ _)
    (((List.perm_insertionSort _ _).trans hperm).trans (List.perm_insertionSort _ _).symm)
  intro a b ha hb hab hba
  refine List.inj_on_of_nodup_map hys ?_ ?_ (antisymm _ _ hab hba)
  · exact (h a).1 ((List.perm_insertionSort _ _).subset ha)
  · exact (List.perm_insertionSort _ _).subset hb

end PolyPlug.Lib
