import Mathlib.Data.List.Induction

/-!
# `PolyPlug.Lib.Stack`: a stack searched from its top

A stack is a list with its top first. It is searched for the topmost entry with
a property, and that entry is read (`find?`), removed (`eraseP`) or changed
(`modifyFirst`).

`OneMore p e l l'` says that `l` is `l'` with one more entry `e`, above every other
entry with the property `p`. An operation that looks for anything but `e` does the
same to both, and one that looks for `p` finds `e`.

A program often keeps its stack bottom first and searches from the back. The
last section reads such an index as one from the top.
-/

set_option autoImplicit false

namespace PolyPlug.Lib

section
variable {α : Type*}

/-- Change the topmost entry with a property. -/
def modifyFirst (p : α → Bool) (f : α → α) : List α → List α
  | []     => []
  | x :: l => if p x then f x :: l else x :: modifyFirst p f l

theorem mem_modifyFirst {p : α → Bool} {f : α → α} {l : List α} {y : α}
    (h : y ∈ modifyFirst p f l) : y ∈ l ∨ ∃ x ∈ l, p x = true ∧ y = f x := by
  induction l with
  | nil => cases h
  | cons x l ih =>
    rw [modifyFirst] at h
    split at h
    · rename_i hx
      rcases List.mem_cons.mp h with rfl | hrest
      · exact Or.inr ⟨x, List.mem_cons_self, hx, rfl⟩
      · exact Or.inl (List.mem_cons_of_mem _ hrest)
    · rcases List.mem_cons.mp h with rfl | hrest
      · exact Or.inl List.mem_cons_self
      · rcases ih hrest with hold | ⟨z, hz, hpz, heq⟩
        · exact Or.inl (List.mem_cons_of_mem _ hold)
        · exact Or.inr ⟨z, List.mem_cons_of_mem _ hz, hpz, heq⟩

/-- A stack with one entry `e` more, above every other entry with the property. -/
inductive OneMore (p : α → Bool) (e : α) : List α → List α → Prop where
  | here (l : List α) : OneMore p e (e :: l) l
  | there (x : α) {l l' : List α} (hx : p x = false) (h : OneMore p e l l') :
    OneMore p e (x :: l) (x :: l')

namespace OneMore

variable {e : α} {l l' : List α} {p q : α → Bool}

/-- A search for something else finds the same. -/
theorem find?_other (h : OneMore p e l l') (he : q e = false) : l.find? q = l'.find? q := by
  induction h with
  | here l => rw [List.find?_cons_of_neg (by simp [he])]
  | there x hx h ih => simp only [List.find?_cons, ih]

theorem eraseP_other (h : OneMore p e l l') (he : q e = false) :
    OneMore p e (l.eraseP q) (l'.eraseP q) := by
  induction h with
  | here l =>
    rw [List.eraseP_cons_of_neg (by simp [he])]
    exact .here _
  | there x hx h ih =>
    simp only [List.eraseP_cons]
    cases q x with
    | true => exact h
    | false => exact .there x hx ih

theorem modifyFirst_other (h : OneMore p e l l') (he : q e = false) {f : α → α}
    (hf : ∀ x, p (f x) = p x) : OneMore p e (modifyFirst q f l) (modifyFirst q f l') := by
  induction h with
  | here l =>
    rw [modifyFirst, if_neg (by simp [he])]
    exact .here _
  | there x hx h ih =>
    simp only [modifyFirst]
    split
    · exact .there _ ((hf x).trans hx) h
    · exact .there x hx ih

/-- A search with the property finds `e`. -/
theorem find?_mine (h : OneMore p e l l') (he : p e = true) : l.find? p = some e := by
  induction h with
  | here l => rw [List.find?_cons_of_pos he]
  | there x hx h ih => rw [List.find?_cons_of_neg (by simp [hx]), ih]

theorem eraseP_mine (h : OneMore p e l l') (he : p e = true) : l.eraseP p = l' := by
  induction h with
  | here l => rw [List.eraseP_cons_of_pos he]
  | there x hx h ih => rw [List.eraseP_cons_of_neg (by simp [hx]), ih]

theorem modifyFirst_mine (h : OneMore p e l l') (he : p e = true) (f : α → α) :
    OneMore p (f e) (modifyFirst p f l) l' := by
  induction h with
  | here l =>
    rw [modifyFirst, if_pos he]
    exact .here _
  | there x hx h ih =>
    rw [modifyFirst, if_neg (by simp [hx])]
    exact .there x hx ih

end OneMore

/-! ### Another search -/

/-- A search is not affected by the removal of an entry it does not look for. -/
theorem find?_eraseP_other {p q : α → Bool} {l : List α} {x : α} (hx : l.find? q = some x)
    (hp : p x = false) : (l.eraseP q).find? p = l.find? p := by
  induction l with
  | nil => cases hx
  | cons y l ih =>
    by_cases hq : q y = true
    · rw [List.find?_cons_of_pos hq] at hx
      cases hx
      rw [List.eraseP_cons_of_pos hq, List.find?_cons_of_neg (by simp [hp])]
    · rw [List.find?_cons_of_neg hq] at hx
      rw [List.eraseP_cons_of_neg hq, List.find?_cons, List.find?_cons, ih hx]

/-- Nor by a change of one. -/
theorem find?_modifyFirst_other {p q : α → Bool} {f : α → α} {l : List α}
    (hf : ∀ x, q x = true → p x = false ∧ p (f x) = false) :
    (modifyFirst q f l).find? p = l.find? p := by
  induction l with
  | nil => rfl
  | cons y l ih =>
    rw [modifyFirst]
    split
    · rename_i hq
      rw [List.find?_cons_of_neg (by simp [(hf y hq).2]),
        List.find?_cons_of_neg (by simp [(hf y hq).1])]
    · rw [List.find?_cons, List.find?_cons, ih]

/-! ### The stack as a bag -/

/-- The entry a search finds, and the others. -/
theorem perm_cons_eraseP {p : α → Bool} {l : List α} {x : α} (h : l.find? p = some x) :
    l.Perm (x :: l.eraseP p) := by
  induction l with
  | nil => cases h
  | cons y l ih =>
    by_cases hy : p y = true
    · rw [List.find?_cons_of_pos hy] at h
      cases h
      rw [List.eraseP_cons_of_pos hy]
    · rw [List.find?_cons_of_neg hy] at h
      rw [List.eraseP_cons_of_neg hy]
      exact ((ih h).cons y).trans (List.Perm.swap x y _)

/-- An entry of another kind is there after the change when it was before. -/
theorem mem_modifyFirst_other {p : α → Bool} {f : α → α} {l : List α} {y : α}
    (hf : ∀ x, p (f x) = p x) (hy : p y = false) : y ∈ modifyFirst p f l ↔ y ∈ l := by
  induction l with
  | nil => rfl
  | cons x l ih =>
    rw [modifyFirst]
    by_cases hx : p x = true
    · have hne : y ≠ x := by
        rintro rfl
        rw [hy] at hx
        cases hx
      have hne' : y ≠ f x := by
        rintro rfl
        rw [hf, hx] at hy
        cases hy
      simp [hx, hne, hne']
    · simp [hx, ih]

/-- The changed entry, and the others. -/
theorem modifyFirst_perm {p : α → Bool} {f : α → α} {l : List α} {x : α}
    (h : l.find? p = some x) : (modifyFirst p f l).Perm (f x :: l.eraseP p) := by
  induction l with
  | nil => cases h
  | cons y l ih =>
    by_cases hy : p y = true
    · rw [List.find?_cons_of_pos hy] at h
      cases h
      rw [List.eraseP_cons_of_pos hy, modifyFirst, if_pos hy]
    · rw [List.find?_cons_of_neg hy] at h
      rw [List.eraseP_cons_of_neg hy, modifyFirst, if_neg hy]
      exact ((ih h).cons y).trans (List.Perm.swap (f x) y _)

/-! ### A field of the entries -/

section
variable {β : Type*} {p : α → Bool} {g : α → β}

/-- A change of the topmost entry that keeps a field keeps the list of it. -/
theorem map_modifyFirst {f : α → α} (hf : ∀ x, g (f x) = g x) {l : List α} :
    (modifyFirst p f l).map g = l.map g := by
  induction l with
  | nil => rfl
  | cons x l ih =>
    rw [modifyFirst]
    split
    · rw [List.map_cons, List.map_cons, hf]
    · rw [List.map_cons, List.map_cons, ih]

/-- A search by the field removes the topmost entry with its value. -/
theorem map_eraseP [DecidableEq β] {v : β} (hp : ∀ x, p x = true ↔ g x = v) {l : List α} :
    (l.eraseP p).map g = (l.map g).erase v := by
  induction l with
  | nil => rfl
  | cons x l ih =>
    by_cases hx : p x = true
    · rw [List.eraseP_cons_of_pos hx, List.map_cons, (hp x).mp hx, List.erase_cons_head]
    · have hne : (g x == v) = false := by simpa [← hp x] using hx
      rw [List.eraseP_cons_of_neg hx, List.map_cons, List.map_cons, List.erase_cons, hne,
        if_neg Bool.false_ne_true, ih]

end

/-- The topmost occurrence of a value is the top only if the two are the same. -/
theorem tail_eq_erase_iff [DecidableEq α] {v : α} {l : List α} :
    l.tail = l.erase v ↔ l = [] ∨ l.head? = some v := by
  constructor
  · intro h
    cases l with
    | nil => exact Or.inl rfl
    | cons x l =>
      right
      induction l generalizing x with
      | nil =>
        by_contra hx
        rw [List.erase_cons, if_neg (by simpa using hx)] at h
        cases h
      | cons y l ih =>
        by_contra hx
        rw [List.erase_cons, if_neg (by simpa using hx)] at h
        obtain ⟨rfl, htail⟩ := List.cons.inj h
        exact hx (ih y htail)
  · rintro (rfl | h)
    · rfl
    · obtain ⟨l', rfl⟩ := List.head?_eq_some_iff.mp h
      rw [List.erase_cons_head, List.tail_cons]

/-! ### Bottom first -/

/-- The index of the last entry with a property. -/
def rposition (p : α → Bool) (l : List α) : Option Nat :=
  (l.reverse.findIdx? p).map fun k => l.length - 1 - k

theorem rposition_none {p : α → Bool} {l : List α} :
    rposition p l = none ↔ l.reverse.find? p = none := by
  simp [rposition]

theorem modify_append_of_lt {l m : List α} {i : Nat} (h : i < l.length) (f : α → α) :
    (l ++ m).modify i f = l.modify i f ++ m := by
  simp only [List.modify_eq_take_drop, List.take_append_of_le_length (Nat.le_of_lt h),
    List.drop_append_of_le_length (Nat.le_of_lt h)]
  rw [List.drop_eq_getElem_cons h]
  simp only [List.cons_append, List.modifyHead_cons, List.append_assoc]

/-- The entry at the last index, and the stack without it or with it changed. -/
theorem rposition_some {p : α → Bool} {l : List α} {i : Nat} (h : rposition p l = some i) :
    (∃ x, l[i]? = some x ∧ l.reverse.find? p = some x) ∧
      (l.eraseIdx i).reverse = l.reverse.eraseP p ∧
      ∀ f, (l.modify i f).reverse = modifyFirst p f l.reverse := by
  induction l using List.reverseRecOn generalizing i with
  | nil => simp [rposition] at h
  | append_singleton l x ih =>
    rw [rposition, List.reverse_append, List.reverse_singleton, List.singleton_append,
      List.findIdx?_cons] at h
    by_cases hx : p x = true
    · -- The entry is the last one.
      have hi : i = l.length := by simpa [hx] using h.symm
      subst hi
      refine ⟨⟨x, by simp, by simp [hx]⟩, ?_, fun f => ?_⟩
      · simp [hx, List.eraseIdx_append_of_length_le]
      · simp [modifyFirst, hx, List.modify_eq_take_drop]
    · have hlast : rposition p l = some i := by
        rw [if_neg hx, Option.map_map] at h
        rw [rposition, ← h]
        congr 1
        funext k
        simp only [Function.comp_apply, List.length_append, List.length_singleton]
        omega
      obtain ⟨⟨y, hy, hfind⟩, herase, hmodify⟩ := ih hlast
      have hlt : i < l.length := (List.getElem?_eq_some_iff.mp hy).1
      refine ⟨⟨y, by rw [List.getElem?_append_left hlt, hy], by simp [hx, hfind]⟩, ?_,
        fun f => ?_⟩
      · rw [List.eraseIdx_append_of_lt_length hlt, List.reverse_append, herase]
        simp [hx]
      · rw [modify_append_of_lt hlt, List.reverse_append, hmodify]
        simp [modifyFirst, hx]

end

end PolyPlug.Lib
