import PolyPlug.Lib.Reconcile

/-!
# `PolyPlug.Lib.Window`: replacement windows

While an owner replaces its cells it has a window: `w b = some old` says that
the window of `b` is open and that `old` was `held b` when it opened. Cells that
`b` fills inside its window stay unlisted until the window closes.

`Windowed w` is the invariant of a catalogue with windows. A filled cell is
listed unless it was filled inside the open window of its owner (`settled`), the
cells of an owner appear in the same order under a key and in the owner's own
list (`order`), and a window only appends to the owner's list (`opened`). The
lemmas are one per event: a window opens, a cell is filled, an owner without a
window gives cells up, a window is abandoned, a window is reconciled.
-/

set_option autoImplicit false
set_option linter.unusedSectionVars false

namespace PolyPlug.Lib.Catalog

section
variable {ι γ β κ : Type*} [DecidableEq ι] [DecidableEq β] [DecidableEq κ]
variable (key : γ → κ) (owner : γ → β)

/-- A consistent catalogue whose owners have the windows `w`. -/
structure Windowed (w : β → Option (List ι)) (c : Catalog ι γ β κ) : Prop
    extends Consistent key owner c where
  settled : ∀ i g, c.content i = some g →
    (i ∈ c.listed (key g) ↔ ∀ old, w (owner g) = some old → i ∈ old)
  order : ∀ b k, (c.listed k).filter (· ∈ c.held b) = (c.held b).filter (· ∈ c.listed k)
  opened : ∀ b old, w b = some old → old <+: c.held b

variable {key owner} {w : β → Option (List ι)} {c : Catalog ι γ β κ} {b : β} {old : List ι}

/-- The owner of a filled cell holds it. -/
theorem Consistent.held_of_content (h : Consistent key owner c) {i : ι} {g : γ}
    (hi : c.content i = some g) : i ∈ c.held (owner g) :=
  (h.mem_held (owner g) i).mpr (by simp [ownerAt, hi])

/-- A held cell is filled, with a value of its holder. -/
theorem Consistent.content_of_held (h : Consistent key owner c) {x : β} {i : ι}
    (hi : i ∈ c.held x) : ∃ g, c.content i = some g ∧ owner g = x := by
  simpa [ownerAt] using (h.mem_held x i).mp hi

/-- A cell has one holder. -/
theorem Consistent.holder_unique (h : Consistent key owner c) {x y : β} {i : ι}
    (hx : i ∈ c.held x) (hy : i ∈ c.held y) : x = y :=
  Option.some.inj (((h.mem_held x i).mp hx).symm.trans ((h.mem_held y i).mp hy))

/-! ### A window opens -/

/-- The window of `b` opens on the cells `b` holds. -/
theorem windowed_open (h : Windowed key owner w c) (hb : w b = none) :
    Windowed key owner (Function.update w b (some (c.held b))) c where
  toConsistent := h.toConsistent
  settled i g hi := by
    rw [h.settled i g hi]
    by_cases hx : owner g = b
    · have hmem : i ∈ c.held b := hx ▸ h.toConsistent.held_of_content hi
      simp [hx, hb, hmem]
    · rw [Function.update_of_ne hx]
  order := h.order
  opened x old' hx := by
    by_cases hxb : x = b
    · subst hxb
      simp only [Function.update_self, Option.some.injEq] at hx
      exact hx ▸ List.prefix_rfl
    · rw [Function.update_of_ne hxb] at hx
      exact h.opened x old' hx

/-! ### A cell is filled -/

/-- A vacant cell is filled, listed only when its owner has no window. -/
theorem windowed_add (h : Windowed key owner w c) {i : ι} (hi : c.content i = none) (g : γ) :
    Windowed key owner w (c.add key owner i g (w (owner g)).isNone) := by
  have hfresh : ∀ k, i ∉ c.listed k := h.toIndexed.not_listed hi
  have hunheld : ∀ x, i ∉ c.held x := h.toConsistent.not_held hi
  refine
    { toConsistent := consistent_add h.toConsistent hi g _
      settled := ?_
      order := ?_
      opened := ?_ }
  · intro j v hj
    by_cases hji : j = i
    · subst hji
      have hv : g = v := by simpa [add] using hj
      subst hv
      cases hw : w (owner g) with
      | none => simp [add]
      | some old' =>
        -- A cell filled inside a window is not one of the cells it opened on.
        have hnot : j ∉ old' := fun hmem =>
          hunheld (owner g) ((h.opened (owner g) old' hw).subset hmem)
        simp [add, hfresh, hnot]
    · have hj' : c.content j = some v := by simpa [add, hji] using hj
      rw [← h.settled j v hj']
      simp only [add]
      split <;> simp [hji]
  · intro x k
    have hlisted : ((c.listed k).filter fun j => decide (j ∈ c.held x ++ [i]))
        = (c.listed k).filter (· ∈ c.held x) := by
      apply List.filter_congr
      intro j hj
      have hji : j ≠ i := fun he => hfresh k (he ▸ hj)
      simp [hji]
    have hheld : ((c.held x).filter fun j => decide (j ∈ c.listed k ++ [i]))
        = (c.held x).filter (· ∈ c.listed k) := by
      apply List.filter_congr
      intro j hj
      have hji : j ≠ i := fun he => hunheld x (he ▸ hj)
      simp [hji]
    have horder := h.order x k
    by_cases hk : (w (owner g)).isNone = true ∧ k = key g <;> by_cases hx : x = owner g
    · simp only [add, if_pos hk, if_pos hx, List.filter_append]
      rw [hlisted, hheld, horder]
      simp
    · simp only [add, if_pos hk, if_neg hx, List.filter_append]
      rw [hheld, horder]
      simp [hunheld]
    · simp only [add, if_neg hk, if_pos hx, List.filter_append]
      rw [hlisted, horder]
      simp [hfresh]
    · simp only [add, if_neg hk, if_neg hx]
      exact horder
  · intro x old' hx
    simp only [add]
    split
    · exact (h.opened x old' hx).trans (List.prefix_append _ _)
    · exact h.opened x old' hx

/-! ### Cells are withdrawn -/

/-- Filtering the cells of two lists by one predicate keeps their common order. -/
private theorem order_filter {l m : List ι} (h : l.filter (· ∈ m) = m.filter (· ∈ l))
    (p : ι → Bool) :
    (l.filter p).filter (· ∈ m.filter p) = (m.filter p).filter (· ∈ l.filter p) := by
  have hl : (l.filter p).filter (· ∈ m.filter p) = (l.filter (· ∈ m)).filter p := by
    rw [List.filter_filter, List.filter_filter]
    apply List.filter_congr
    intro i _
    by_cases hp : p i <;> simp [hp]
  have hm : (m.filter p).filter (· ∈ l.filter p) = (m.filter (· ∈ l)).filter p := by
    rw [List.filter_filter, List.filter_filter]
    apply List.filter_congr
    intro i _
    by_cases hp : p i <;> simp [hp]
  rw [hl, hm, h]

/-- A withdrawal of cells of `b` filters the list of every owner. -/
theorem withdraw_held (h : Consistent key owner c) {cells : List ι}
    (hcells : ∀ i ∈ cells, i ∈ c.held b) (x : β) :
    (c.withdraw b cells).held x = (c.held x).filter (· ∉ cells) := by
  by_cases hx : x = b
  · simp [withdraw, hx]
  · simp only [withdraw, if_neg hx]
    refine (List.filter_eq_self.mpr fun i hi => ?_).symm
    have hnot : i ∉ cells := fun hmem => hx (h.holder_unique hi (hcells i hmem))
    simpa using hnot

/-- Cells of `b` are withdrawn, with all windows but that of `b` as before. The
cells `b` keeps must be listed when its window is closed by the withdrawal. -/
private theorem windowed_withdraw_of (h : Windowed key owner w c) {w' : β → Option (List ι)}
    {cells : List ι} (hcells : ∀ i ∈ cells, i ∈ c.held b)
    (hother : ∀ x, x ≠ b → w' x = w x) (hb : w' b = none)
    (hkept : ∀ old', w b = some old' → ∀ i ∈ c.held b, i ∉ cells → i ∈ old') :
    Windowed key owner w' (c.withdraw b cells) := by
  have hheld := withdraw_held h.toConsistent hcells
  refine
    { toConsistent := consistent_withdraw h.toConsistent hcells
      settled := ?_
      order := ?_
      opened := ?_ }
  · intro i g hi
    have hnot : i ∉ cells := by
      intro hmem
      simp [withdraw, hmem] at hi
    have hg : c.content i = some g := by simpa [withdraw, hnot] using hi
    have hmem : i ∈ (c.withdraw b cells).listed (key g) ↔ i ∈ c.listed (key g) := by
      simp [withdraw, hnot]
    rw [hmem, h.settled i g hg]
    by_cases hx : owner g = b
    · have hib : i ∈ c.held b := hx ▸ h.toConsistent.held_of_content hg
      rw [hx, hb]
      exact ⟨fun _ old' hold => by simp at hold, fun _ old' hold => hkept old' hold i hib hnot⟩
    · rw [hother _ hx]
  · intro x k
    rw [hheld x]
    exact order_filter (h.order x k) fun i => decide (i ∉ cells)
  · intro x old' hx
    have hxb : x ≠ b := by
      rintro rfl
      simp [hb] at hx
    rw [hother x hxb] at hx
    simpa [withdraw, hxb] using h.opened x old' hx

/-- An owner without a window gives up cells. -/
theorem windowed_withdraw (h : Windowed key owner w c) (hb : w b = none) {cells : List ι}
    (hcells : ∀ i ∈ cells, i ∈ c.held b) : Windowed key owner w (c.withdraw b cells) :=
  windowed_withdraw_of h hcells (fun _ _ => rfl) hb (by simp [hb])

/-- The window of `b` is abandoned: the cells filled inside it are withdrawn. -/
theorem windowed_abandon (h : Windowed key owner w c) (hb : w b = some old) :
    Windowed key owner (Function.update w b none)
      (c.withdraw b ((c.held b).filter (· ∉ old))) := by
  refine windowed_withdraw_of h (by simp +contextual) (fun x hx => Function.update_of_ne hx _ _)
    (Function.update_self ..) ?_
  intro old' hold i hi hnot
  rw [hb] at hold
  cases hold
  by_contra hout
  exact hnot (List.mem_filter.mpr ⟨hi, by simpa using hout⟩)

/-! ### A window is reconciled -/

/-- The cells filled inside the window are the rest of the owner's list. -/
theorem Windowed.pending_eq (h : Windowed key owner w c) (hb : w b = some old) :
    c.held b = old ++ (c.held b).filter (· ∉ old) := by
  obtain ⟨news, hnews⟩ := h.opened b old hb
  have hnodup := h.held_nodup b
  rw [← hnews] at hnodup ⊢
  have hdisj : ∀ i ∈ news, i ∉ old := fun i hi hmem =>
    (List.nodup_append.mp hnodup).2.2 i hmem i hi rfl
  have hold : old.filter (· ∉ old) = [] := List.filter_eq_nil_iff.mpr (by simp)
  have hnew : news.filter (· ∉ old) = news :=
    List.filter_eq_self.mpr fun i hi => by simpa using hdisj i hi
  rw [List.filter_append, hold, hnew, List.nil_append]

/-- A pending cell is listed nowhere. -/
theorem Windowed.pending_not_listed (h : Windowed key owner w c) (hb : w b = some old) {i : ι}
    (hi : i ∈ c.held b) (hnew : i ∉ old) (k : κ) : i ∉ c.listed k := by
  intro hmem
  obtain ⟨g, hg, howner⟩ := h.toConsistent.content_of_held hi
  have hk : key g = k := by simpa [keyAt, hg] using h.listed_key k i hmem
  subst hk
  exact hnew ((h.settled i g hg).mp hmem old (howner ▸ hb))

/-- The window of `b` is reconciled and its pending cells are published. -/
theorem windowed_reconcile (h : Windowed key owner w c) (hb : w b = some old)
    {c' : Catalog ι γ β κ}
    (hr : Reconciling key owner c b old [] c') :
    Windowed key owner (Function.update w b none)
      (c'.publish key ((c.held b).filter (· ∉ old))) := by
  set news := (c.held b).filter (· ∉ old) with hnews
  have hsplit : c.held b = old ++ news := h.pending_eq hb
  have hnodup : news.Nodup := (h.held_nodup b).filter _
  have hmem_news : ∀ i, i ∈ news ↔ i ∈ c.held b ∧ i ∉ old := by simp [hnews]
  have hpublished := mem_publish key c' news hnodup
  -- The loop lists nothing, so a pending cell is still unlisted after it.
  have hunlisted : ∀ i ∈ news, ∀ k, i ∉ c'.listed k := by
    intro i hi k hmem
    rw [hr.listed_eq] at hmem
    have hin := (hmem_news i).mp hi
    exact h.pending_not_listed hb hin.1 hin.2 k (List.mem_filter.mp hmem).1
  have hheld : ∀ x, c'.held x = (c.held x).filter fun i => (c'.content i).isSome := by
    intro x
    by_cases hx : x = b
    · rw [hx, hr.held_eq]
    · rw [hr.held_foreign x hx]
      refine (List.filter_eq_self.mpr fun i hi => ?_).symm
      obtain ⟨g, hg, howner⟩ := h.toConsistent.content_of_held hi
      have hforeign : c.ownerAt owner i ≠ some b := by simp [ownerAt, hg, howner, hx]
      simp [hr.foreign i hforeign, hg]
  have horder : ∀ x k,
      (c'.listed k).filter (· ∈ c'.held x) = (c'.held x).filter (· ∈ c'.listed k) := by
    intro x k
    rw [hheld x, hr.listed_eq k]
    exact order_filter (h.order x k) fun i => (c'.content i).isSome
  refine
    { toConsistent := consistent_publish hr.consistent news
      settled := ?_
      order := ?_
      opened := ?_ }
  · intro i g hi
    rw [publish_content] at hi
    have hkey : c'.keyAt key i = some (key g) := by simp [keyAt, hi]
    obtain ⟨g₀, hg₀, hk₀, ho₀⟩ := hr.origin i g hi
    have hold := h.settled i g₀ hg₀
    rw [hk₀, ho₀] at hold
    have hlisted : i ∈ c'.listed (key g) ↔ i ∈ c.listed (key g) := by
      rw [hr.listed_eq]
      simp [hi]
    rw [hpublished, hlisted]
    by_cases hx : owner g = b
    · have hheldb : i ∈ c.held b := hx ▸ ho₀ ▸ h.toConsistent.held_of_content hg₀
      have hin : i ∈ c.listed (key g) ∨ i ∈ news := by
        by_cases hio : i ∈ old
        · refine Or.inl (hold.mpr fun old' hw => ?_)
          rw [hx, hb] at hw
          exact Option.some.inj hw ▸ hio
        · exact Or.inr ((hmem_news i).mpr ⟨hheldb, hio⟩)
      simp [hx, hkey, hin]
    · rw [Function.update_of_ne hx, ← hold]
      have hnot : i ∉ news := by
        intro hin
        exact hx (ho₀ ▸ h.toConsistent.holder_unique
          (h.toConsistent.held_of_content hg₀) ((hmem_news i).mp hin).1)
      simp [hnot]
  · intro x k
    rw [publish_held, publish_listed key c' news hnodup, List.filter_append, horder]
    by_cases hx : x = b
    · -- The old cells of `b` come first in both lists, the pending ones after them.
      subst hx
      rw [hheld x, hsplit]
      simp only [List.filter_append, List.filter_filter]
      have hdisj : ∀ i ∈ old, i ∉ news := fun i hi hin => ((hmem_news i).mp hin).2 hi
      have hpend : (news.filter fun i => decide (i ∈ c'.listed k) && (c'.content i).isSome)
          = [] := List.filter_eq_nil_iff.mpr fun i hi => by simp [hunlisted i hi k]
      rw [hpend, List.append_nil]
      congr 1
      · apply List.filter_congr
        intro i hi
        simp [hdisj i hi]
      · apply List.filter_congr
        intro i hi
        cases hg : c'.content i <;> simp [hi, hunlisted i hi k, keyAt, hg]
    · have hforeign : ∀ i ∈ c'.held x, i ∉ news := by
        intro i hi hin
        rw [hr.held_foreign x hx] at hi
        exact hx (h.toConsistent.holder_unique hi ((hmem_news i).mp hin).1)
      have hnone : ((news.filter fun i => c'.keyAt key i = some k ∧ i ∉ c'.listed k).filter
          (· ∈ c'.held x)) = [] := by
        refine List.filter_eq_nil_iff.mpr fun i hi => ?_
        have hin := (List.mem_filter.mp hi).1
        simpa using fun hmem => hforeign i hmem hin
      rw [hnone, List.append_nil]
      apply List.filter_congr
      intro i hi
      simp [hforeign i hi]
  · intro x old' hx
    have hxb : x ≠ b := by
      rintro rfl
      simp at hx
    rw [Function.update_of_ne hxb] at hx
    rw [publish_held, hr.held_foreign x hxb]
    exact h.opened x old' hx

/-! ### Which filled cells may be unlisted -/

/-- Every filled cell is listed, but those that meet `p`. Less than `Windowed`: a
window may open on fewer cells than its owner holds. -/
def ListedBut (key : γ → κ) (p : ι → γ → Prop) (c : Catalog ι γ β κ) : Prop :=
  ∀ i g, c.content i = some g → i ∈ c.listed (key g) ∨ p i g

variable {p : ι → γ → Prop}

theorem ListedBut.mono (h : ListedBut key p c) {q : ι → γ → Prop}
    (hpq : ∀ i g, c.content i = some g → p i g → q i g) : ListedBut key q c := by
  intro i g hg
  rcases h i g hg with hlisted | hp
  · exact Or.inl hlisted
  · exact Or.inr (hpq i g hg hp)

theorem listedBut_add (h : ListedBut key p c) {i : ι} {g : γ} {listing : Bool}
    (hnew : listing = false → p i g) : ListedBut key p (c.add key owner i g listing) := by
  intro j v hj
  by_cases hji : j = i
  · subst hji
    have hv : g = v := by simpa [add] using hj
    subst hv
    cases listing with
    | false => exact Or.inr (hnew rfl)
    | true => exact Or.inl (by simp [add])
  · have hold : c.content j = some v := by simpa [add, hji] using hj
    rcases h j v hold with hlisted | hp
    · refine Or.inl ?_
      simp only [add]
      split
      · exact List.mem_append_left _ hlisted
      · exact hlisted
    · exact Or.inr hp

theorem listedBut_withdraw (h : ListedBut key p c) (cells : List ι) :
    ListedBut key p (c.withdraw b cells) := by
  intro i g hg
  have hi : i ∉ cells := by
    intro hi
    simp [withdraw, hi] at hg
  have hold : c.content i = some g := by simpa [withdraw, hi] using hg
  rcases h i g hold with hlisted | hp
  · exact Or.inl (List.mem_filter.mpr ⟨hlisted, by simpa using hi⟩)
  · exact Or.inr hp

/-- When only the new cells of `b` were unlisted, the loop with the publication
of the new cells leaves nothing unlisted. -/
theorem listedBut_reconcile (hc : Consistent key owner c)
    (h : ListedBut key (fun i g => owner g = b ∧ i ∉ old) c) {c' : Catalog ι γ β κ}
    (hr : Reconciling key owner c b old [] c') :
    ListedBut key (fun _ _ => False) (c'.publish key ((c.held b).filter (· ∉ old))) := by
  intro i g hg
  rw [publish_content] at hg
  refine Or.inl ((mem_publish key c' _ ((hc.held_nodup b).filter _) (key g) i).mpr ?_)
  obtain ⟨g₀, hg₀, hkey, howner⟩ := hr.origin i g hg
  rcases h i g₀ hg₀ with hlisted | ⟨hb, hnew⟩
  · refine Or.inl ?_
    rw [hr.listed_eq]
    exact List.mem_filter.mpr ⟨hkey ▸ hlisted, by simp [hg]⟩
  · have hheld : i ∈ c.held b := hb ▸ hc.held_of_content hg₀
    exact Or.inr ⟨List.mem_filter.mpr ⟨hheld, by simpa using hnew⟩, by simp [keyAt, hg]⟩

end

end PolyPlug.Lib.Catalog
