import Mathlib.Data.List.Forall2

/-!
# `PolyPlug.Lib.Loop`: loops that can fail

A loop over a list that may stop at an element: when it gets through, and what relates its
results to the elements. `List.Forall₂` is the relation.
-/

set_option autoImplicit false

namespace PolyPlug.Lib

variable {α β γ ε : Type}

/-! ### Related lists -/

theorem exists_of_forall₂ {R : α → β → Prop} {l : List α} {l' : List β}
    (h : List.Forall₂ R l l') : ∀ b ∈ l', ∃ a ∈ l, R a b := by
  induction h with
  | nil => nofun
  | @cons a b l l' hab _ ih =>
    intro b' hb'
    rcases List.mem_cons.1 hb' with rfl | hb'
    · exact ⟨a, List.mem_cons_self .., hab⟩
    · obtain ⟨a', ha', h⟩ := ih b' hb'
      exact ⟨a', List.mem_cons_of_mem _ ha', h⟩

theorem rel_of_getElem? {R : α → β → Prop} {l : List α} {l' : List β} {i : Nat} {a : α} {b : β}
    (h : List.Forall₂ R l l') (ha : l[i]? = some a) (hb : l'[i]? = some b) : R a b := by
  induction h generalizing i with
  | nil => cases ha
  | cons hab _ ih =>
    cases i with
    | zero =>
      obtain rfl := Option.some.inj ha
      obtain rfl := Option.some.inj hb
      exact hab
    | succ i => exact ih ha hb

theorem map_eq_of_forall₂ {f : α → γ} {g : β → γ} {l : List α} {l' : List β}
    (h : List.Forall₂ (fun a b => f a = g b) l l') : l.map f = l'.map g := by
  induction h with
  | nil => rfl
  | cons hab _ ih => rw [List.map_cons, List.map_cons, hab, ih]

theorem forall₂_comp {R : α → β → Prop} {S : β → γ → Prop} {l : List α} {l' : List β}
    {l'' : List γ} (h : List.Forall₂ R l l') (h' : List.Forall₂ S l' l'') :
    List.Forall₂ (fun a c => ∃ b, R a b ∧ S b c) l l'' := by
  induction h generalizing l'' with
  | nil => cases h'; exact .nil
  | cons hab _ ih =>
    cases h' with
    | cons hbc h' => exact .cons ⟨_, hab, hbc⟩ (ih h')

/-- One choice for each element. -/
theorem exists_forall₂ {R : α → β → Prop} :
    ∀ {l : List α}, (∀ a ∈ l, ∃ b, R a b) → ∃ l', List.Forall₂ R l l' := by
  intro l
  induction l with
  | nil => exact fun _ => ⟨[], .nil⟩
  | cons a l ih =>
    intro h
    obtain ⟨b, hb⟩ := h a (List.mem_cons_self ..)
    obtain ⟨l', hl'⟩ := ih fun a' ha' => h a' (List.mem_cons_of_mem a ha')
    exact ⟨b :: l', .cons hb hl'⟩

/-! ### Loops -/

theorem isOk_iff {r : Except ε α} : r.isOk ↔ ∃ x, r = .ok x := by
  cases r <;> simp [Except.isOk, Except.toBool]

theorem isOk_unit_iff {r : Except ε Unit} : r.isOk ↔ r = .ok () := by
  cases r <;> simp [Except.isOk, Except.toBool]

/-- Two steps succeed if the second does on the result of the first. -/
theorem bind_eq_ok {x : Except ε α} {f : α → Except ε β} {b : β} :
    (x >>= f) = .ok b ↔ ∃ a, x = .ok a ∧ f a = .ok b := by
  cases x with
  | error e =>
    refine iff_of_false (fun h => by cases h) ?_
    rintro ⟨a, ha, -⟩
    cases ha
  | ok a =>
    constructor
    · intro h
      exact ⟨a, rfl, h⟩
    · rintro ⟨a', ha, h⟩
      cases ha
      exact h

/-- Another error makes no success. -/
theorem mapError_eq_ok {ε' : Type} {x : Except ε α} {f : ε → ε'} {a : α} :
    x.mapError f = .ok a ↔ x = .ok a := by
  cases x with
  | error e => exact iff_of_false (fun h => by cases h) (fun h => by cases h)
  | ok b => exact ⟨fun h => by cases h; rfl, fun h => by cases h; rfl⟩

/-- A loop without results gets through when its body does on every element. -/
theorem forM_eq_ok_iff {f : α → Except ε Unit} {l : List α} :
    l.forM f = .ok () ↔ ∀ a ∈ l, f a = .ok () := by
  induction l with
  | nil => exact ⟨fun _ _ h => absurd h (by simp), fun _ => rfl⟩
  | cons a l ih =>
      rw [List.forall_mem_cons, ← ih]
      show (f a).bind (fun _ => l.forM f) = _ ↔ _
      cases f a <;> simp [Except.bind]

theorem forM_isOk_iff {f : α → Except ε Unit} {l : List α} :
    (l.forM f).isOk ↔ ∀ a ∈ l, (f a).isOk := by
  simp only [isOk_unit_iff, forM_eq_ok_iff]

/-- The results of a loop are those of its body. -/
theorem forall₂_of_mapM {f : α → Except ε β} :
    ∀ {l : List α} {l' : List β}, l.mapM f = .ok l' →
      List.Forall₂ (fun a b => f a = .ok b) l l' := by
  intro l
  induction l with
  | nil =>
    intro l' h
    obtain rfl : [] = l' := Except.ok.inj h
    exact .nil
  | cons a l ih =>
    intro l' h
    rw [List.mapM_cons] at h
    dsimp only [bind, Except.bind] at h
    cases ha : f a with
    | error e => rw [ha] at h; cases h
    | ok b =>
      rw [ha] at h
      dsimp only at h
      cases hl : l.mapM f with
      | error e => rw [hl] at h; cases h
      | ok bs =>
        rw [hl] at h
        obtain rfl := Except.ok.inj h
        exact .cons ha (ih hl)

/-- A loop whose body is a function where it succeeds. -/
theorem mapM_ok {f : α → Except ε β} {g : α → β} (hf : ∀ x y, f x = .ok y → y = g x)
    {l : List α} {l' : List β} (h : l.mapM f = .ok l') : l' = l.map g := by
  have hmap := map_eq_of_forall₂ (f := g) (g := id)
    ((forall₂_of_mapM h).imp fun a b hab => (hf a b hab).symm)
  rw [hmap, List.map_id]

/-- A loop gets through when its body does on every element. -/
theorem exists_mapM_ok {f : α → Except ε β} {P : α → β → Prop} :
    ∀ {l : List α}, (∀ a ∈ l, ∃ b, f a = .ok b ∧ P a b) →
      ∃ l', l.mapM f = .ok l' ∧ List.Forall₂ P l l' := by
  intro l
  induction l with
  | nil => exact fun _ => ⟨[], rfl, .nil⟩
  | cons a l ih =>
    intro h
    obtain ⟨b, hb, hP⟩ := h a (List.mem_cons_self ..)
    obtain ⟨l', hl', hall⟩ := ih fun a' ha' => h a' (List.mem_cons_of_mem a ha')
    refine ⟨b :: l', ?_, .cons hP hall⟩
    rw [List.mapM_cons, hb, hl']
    rfl

theorem exists_mapM_some {f : α → Option β} {P : α → β → Prop} :
    ∀ {l : List α}, (∀ a ∈ l, ∃ b, f a = some b ∧ P a b) →
      ∃ l', l.mapM f = some l' ∧ List.Forall₂ P l l' := by
  intro l
  induction l with
  | nil => exact fun _ => ⟨[], rfl, .nil⟩
  | cons a l ih =>
    intro h
    obtain ⟨b, hb, hP⟩ := h a (List.mem_cons_self ..)
    obtain ⟨l', hl', hall⟩ := ih fun a' ha' => h a' (List.mem_cons_of_mem a ha')
    refine ⟨b :: l', ?_, .cons hP hall⟩
    rw [List.mapM_cons, hb, hl']
    rfl

theorem mapM_isOk_iff {f : α → Except ε β} {l : List α} :
    (l.mapM f).isOk ↔ ∀ a ∈ l, (f a).isOk := by
  constructor
  · intro h a ha
    obtain ⟨l', hl'⟩ := isOk_iff.1 h
    obtain ⟨b, _, hb⟩ := exists_of_forall₂ (forall₂_of_mapM hl').flip a ha
    exact isOk_iff.2 ⟨b, hb⟩
  · intro h
    obtain ⟨l', hl', _⟩ := @exists_mapM_ok α β ε f (fun _ _ => True) l fun a ha =>
      (isOk_iff.1 (h a ha)).imp fun _ hb => ⟨hb, trivial⟩
    exact isOk_iff.2 ⟨l', hl'⟩

end PolyPlug.Lib
