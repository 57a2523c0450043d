import Mathlib.Data.List.Nodup
import Mathlib.Logic.Function.Basic

/-!
# `PolyPlug.Lib.Catalog`: a keyed catalogue of owned cells

A catalogue has cells `ι`. A cell is vacant or holds a value `γ`, and a value
has a key `κ` and an owner `β`. Two redundant lists are kept next to the cells:
`listed k` is the ordered list of the cells offered under a key, `held b` the
ordered list of the cells of an owner.

The operations are the ways a cell changes. `add` fills a vacant cell.
`withdraw` vacates a list of cells. `move` puts the value of one cell into
another one. `publish` offers cells that are filled and not yet listed.

`Indexed` relates `listed` to the cells, `Consistent` also relates `held` to
them. Each operation has one preservation lemma per invariant, with the side
condition under which it holds.
-/

set_option autoImplicit false
set_option linter.unusedSectionVars false

namespace PolyPlug.Lib

/-- Cells with their contents, the cells listed under each key and the cells
held by each owner. -/
@[ext] structure Catalog (ι γ β κ : Type*) where
  content : ι → Option γ
  listed : κ → List ι
  held : β → List ι

namespace Catalog

section
variable {ι γ β κ : Type*} [DecidableEq ι] [DecidableEq β] [DecidableEq κ]
variable (key : γ → κ) (owner : γ → β)

/-! ### Readings -/

/-- The key of the value in a cell. -/
def keyAt (c : Catalog ι γ β κ) (i : ι) : Option κ := (c.content i).map key

/-- The owner of the value in a cell. -/
def ownerAt (c : Catalog ι γ β κ) (i : ι) : Option β := (c.content i).map owner

/-! ### Operations -/

/-- Fill cell `i` with `g`, and list it when `listing`. -/
def add (c : Catalog ι γ β κ) (i : ι) (g : γ) (listing : Bool) : Catalog ι γ β κ where
  content := fun j => if j = i then some g else c.content j
  listed := fun k => if listing = true ∧ k = key g then c.listed k ++ [i] else c.listed k
  held := fun x => if x = owner g then c.held x ++ [i] else c.held x

/-- Vacate the cells of a list, unlist them, and take them from the owner `b`. -/
def withdraw (c : Catalog ι γ β κ) (b : β) (cells : List ι) : Catalog ι γ β κ where
  content := fun j => if j ∈ cells then none else c.content j
  listed := fun k => (c.listed k).filter (· ∉ cells)
  held := fun x => if x = b then (c.held x).filter (· ∉ cells) else c.held x

/-- Move the value of cell `n` into cell `o`. Cell `n` is vacated, unlisted and
taken from the owner `b`. -/
def move (c : Catalog ι γ β κ) (b : β) (n o : ι) : Catalog ι γ β κ where
  content := fun j => if j = n then none else if j = o then c.content n else c.content j
  listed := fun k => (c.listed k).filter (· ∉ [n])
  held := fun x => if x = b then (c.held x).filter (· ∉ [n]) else c.held x

/-- List cell `i` under its key, unless it is vacant or already listed. -/
def offer (c : Catalog ι γ β κ) (i : ι) : Catalog ι γ β κ :=
  { c with
      listed := fun k =>
        if c.keyAt key i = some k ∧ i ∉ c.listed k then c.listed k ++ [i] else c.listed k }

/-- Offer the cells of a list, in order. -/
def publish (c : Catalog ι γ β κ) (cells : List ι) : Catalog ι γ β κ :=
  cells.foldl (offer key) c

/-! ### Equations -/

/-- Two withdrawals from one owner are the withdrawal of the concatenation. -/
theorem withdraw_withdraw (c : Catalog ι γ β κ) (b : β) (cells more : List ι) :
    (c.withdraw b cells).withdraw b more = c.withdraw b (cells ++ more) := by
  ext1
  · funext j
    by_cases h : j ∈ cells <;> simp [withdraw, h]
  · funext k
    simp only [withdraw, List.filter_filter, List.mem_append]
    grind
  · funext x
    simp only [withdraw, List.mem_append]
    split
    · rw [List.filter_filter]
      grind
    · rfl

/-- A withdrawal of no cell changes nothing. -/
@[simp] theorem withdraw_nil (c : Catalog ι γ β κ) (b : β) : c.withdraw b [] = c := by
  ext1 <;> funext x <;> simp [withdraw]

@[simp] theorem publish_content (c : Catalog ι γ β κ) (cells : List ι) :
    (c.publish key cells).content = c.content := by
  unfold publish
  induction cells generalizing c with
  | nil => rfl
  | cons i rest ih => exact ih (c.offer key i)

@[simp] theorem publish_held (c : Catalog ι γ β κ) (cells : List ι) :
    (c.publish key cells).held = c.held := by
  unfold publish
  induction cells generalizing c with
  | nil => rfl
  | cons i rest ih => exact ih (c.offer key i)

theorem publish_cons (c : Catalog ι γ β κ) (i : ι) (rest : List ι) :
    c.publish key (i :: rest) = (c.offer key i).publish key rest := rfl

theorem offer_keyAt (c : Catalog ι γ β κ) (i j : ι) :
    (c.offer key i).keyAt key j = c.keyAt key j := rfl

/-- `publish` appends to each list the cells with that key that are not listed
yet, in order. -/
theorem publish_listed (c : Catalog ι γ β κ) (cells : List ι) (hnodup : cells.Nodup) (k : κ) :
    (c.publish key cells).listed k
      = c.listed k ++ cells.filter fun i => c.keyAt key i = some k ∧ i ∉ c.listed k := by
  induction cells generalizing c with
  | nil => simp [publish]
  | cons i rest ih =>
    obtain ⟨hi, hrest⟩ := List.nodup_cons.mp hnodup
    rw [publish_cons, ih _ hrest]
    -- A later cell differs from `i`, so the offer of `i` does not list it.
    have hsame : (rest.filter fun j => (c.offer key i).keyAt key j = some k ∧
          j ∉ (c.offer key i).listed k)
        = rest.filter fun j => c.keyAt key j = some k ∧ j ∉ c.listed k := by
      apply List.filter_congr
      intro j hj
      have hne : j ≠ i := fun h => hi (h ▸ hj)
      rw [offer_keyAt]
      simp only [offer]
      split <;> simp [hne]
    rw [hsame]
    by_cases h : c.keyAt key i = some k ∧ i ∉ c.listed k
    · simp [offer, h]
    · rw [List.filter_cons_of_neg (by simpa using h)]
      simp only [offer, h, if_false]

/-- A cell is listed after `publish` when it was listed before or is one of the
cells, under its own key. -/
theorem mem_publish (c : Catalog ι γ β κ) (cells : List ι) (hnodup : cells.Nodup) (k : κ)
    (i : ι) :
    i ∈ (c.publish key cells).listed k ↔
      i ∈ c.listed k ∨ i ∈ cells ∧ c.keyAt key i = some k := by
  rw [publish_listed key c cells hnodup]
  simp only [List.mem_append, List.mem_filter, decide_eq_true_eq]
  tauto

/-! ### The index invariant -/

/-- Every listed cell holds a value of that key, and is listed once. -/
structure Indexed (c : Catalog ι γ β κ) : Prop where
  listed_key : ∀ k i, i ∈ c.listed k → c.keyAt key i = some k
  listed_nodup : ∀ k, (c.listed k).Nodup

variable {key owner} {c : Catalog ι γ β κ}

/-- A vacant cell is listed nowhere. -/
theorem Indexed.not_listed (h : Indexed key c) {i : ι} (hi : c.content i = none) (k : κ) :
    i ∉ c.listed k := by
  intro hmem
  have hkey := h.listed_key k i hmem
  simp [keyAt, hi] at hkey

/-- A cell is listed under its own key only. -/
theorem Indexed.key_unique (h : Indexed key c) {i : ι} {k k' : κ} (hk : i ∈ c.listed k)
    (hk' : i ∈ c.listed k') : k = k' :=
  Option.some.inj ((h.listed_key k i hk).symm.trans (h.listed_key k' i hk'))

/-- Dropping a cell from the list of another key changes nothing. -/
theorem Indexed.filter_of_key_ne (h : Indexed key c) {i : ι} {k : κ}
    (hk : c.keyAt key i ≠ some k) : (c.listed k).filter (· ∉ [i]) = c.listed k := by
  refine List.filter_eq_self.mpr fun j hj => ?_
  have hji : j ≠ i := by
    rintro rfl
    exact hk (h.listed_key k j hj)
  simpa using hji

theorem indexed_withdraw (h : Indexed key c) (b : β) (cells : List ι) :
    Indexed key (c.withdraw b cells) where
  listed_key k i hi := by
    simp only [withdraw, List.mem_filter, decide_eq_true_eq] at hi
    simpa [keyAt, withdraw, hi.2] using h.listed_key k i hi.1
  listed_nodup k := (h.listed_nodup k).filter _

theorem indexed_move (h : Indexed key c) (b : β) {n o : ι}
    (hkey : c.keyAt key n = c.keyAt key o) : Indexed key (c.move b n o) where
  listed_key k i hi := by
    simp only [move, List.mem_filter, List.mem_singleton, decide_eq_true_eq] at hi
    have hk := h.listed_key k i hi.1
    by_cases ho : i = o
    · subst ho
      rw [← hkey] at hk
      simpa [keyAt, move, hi.2] using hk
    · simpa [keyAt, move, hi.2, ho] using hk
  listed_nodup k := (h.listed_nodup k).filter _

theorem indexed_add (h : Indexed key c) {i : ι} (hi : c.content i = none) (g : γ)
    (listing : Bool) : Indexed key (c.add key owner i g listing) where
  listed_key k j hj := by
    by_cases hji : j = i
    · subst hji
      simp only [add] at hj
      split at hj
      · rename_i hk
        simp [keyAt, add, hk.2]
      · exact absurd hj (h.not_listed hi k)
    · have hold : j ∈ c.listed k := by
        simp only [add] at hj
        split at hj
        · simpa [hji] using hj
        · exact hj
      simpa [keyAt, add, hji] using h.listed_key k j hold
  listed_nodup k := by
    simp only [add]
    split
    · exact List.nodup_append.mpr ⟨h.listed_nodup k, List.nodup_singleton i, by
        intro a ha b hb
        rw [List.mem_singleton.mp hb]
        rintro rfl
        exact h.not_listed hi k ha⟩
    · exact h.listed_nodup k

theorem indexed_offer (h : Indexed key c) (i : ι) : Indexed key (c.offer key i) where
  listed_key k j hj := by
    rw [offer_keyAt]
    simp only [offer] at hj
    split at hj
    · rename_i hk
      rcases List.mem_append.mp hj with hold | hnew
      · exact h.listed_key k j hold
      · rw [List.mem_singleton.mp hnew]
        exact hk.1
    · exact h.listed_key k j hj
  listed_nodup k := by
    simp only [offer]
    split
    · rename_i hk
      exact List.nodup_append.mpr ⟨h.listed_nodup k, List.nodup_singleton i, by
        intro a ha b hb
        rw [List.mem_singleton.mp hb]
        rintro rfl
        exact hk.2 ha⟩
    · exact h.listed_nodup k

theorem indexed_publish (h : Indexed key c) (cells : List ι) :
    Indexed key (c.publish key cells) := by
  unfold publish
  induction cells generalizing c with
  | nil => exact h
  | cons i rest ih => exact ih (indexed_offer h i)

/-! ### The ownership invariant -/

/-- The index invariant, and `held` lists for each owner exactly its cells,
each once. -/
structure Consistent (key : γ → κ) (owner : γ → β) (c : Catalog ι γ β κ) : Prop
    extends Indexed key c where
  mem_held : ∀ b i, i ∈ c.held b ↔ c.ownerAt owner i = some b
  held_nodup : ∀ b, (c.held b).Nodup

/-- A vacant cell is held by nobody. -/
theorem Consistent.not_held (h : Consistent key owner c) {i : ι} (hi : c.content i = none)
    (b : β) : i ∉ c.held b := by
  rw [h.mem_held, ownerAt, hi]
  simp

theorem consistent_withdraw (h : Consistent key owner c) {b : β} {cells : List ι}
    (hcells : ∀ i ∈ cells, i ∈ c.held b) : Consistent key owner (c.withdraw b cells) where
  toIndexed := indexed_withdraw h.toIndexed b cells
  mem_held x i := by
    by_cases hi : i ∈ cells
    · have howner := (h.mem_held b i).mp (hcells i hi)
      have hx : ¬ (x ≠ b ∧ i ∈ c.held x) := by
        rintro ⟨hne, hmem⟩
        exact hne (Option.some.inj (((h.mem_held x i).mp hmem).symm.trans howner))
      by_cases hxb : x = b <;> simp_all [withdraw, ownerAt]
    · by_cases hxb : x = b <;> simp [withdraw, ownerAt, hi, hxb, h.mem_held]
  held_nodup x := by
    simp only [withdraw]
    split
    · exact (h.held_nodup x).filter _
    · exact h.held_nodup x

theorem consistent_move (h : Consistent key owner c) {b : β} {n o : ι} (hne : n ≠ o)
    (hn : n ∈ c.held b) (ho : o ∈ c.held b) (hkey : c.keyAt key n = c.keyAt key o) :
    Consistent key owner (c.move b n o) where
  toIndexed := indexed_move h.toIndexed b hkey
  mem_held x i := by
    have hnb := (h.mem_held b n).mp hn
    have hob := (h.mem_held b o).mp ho
    -- Only the cells `n` and `o` change: `n` becomes vacant, `o` keeps its owner.
    by_cases hin : i = n
    · subst hin
      have hx : x ≠ b → i ∉ c.held x := fun hxb hmem =>
        hxb (Option.some.inj (((h.mem_held x i).mp hmem).symm.trans hnb))
      by_cases hxb : x = b <;> simp_all [move, ownerAt]
    · have hmem : i ∈ (c.move b n o).held x ↔ i ∈ c.held x := by
        by_cases hxb : x = b <;> simp [move, hxb, hin]
      rw [hmem, h.mem_held x i]
      by_cases hio : i = o
      · subst hio
        simp only [move, ownerAt, hin, if_false, if_true]
        rw [show (c.content i).map owner = some b from hob,
          show (c.content n).map owner = some b from hnb]
      · simp [move, ownerAt, hin, hio]
  held_nodup x := by
    simp only [move]
    split
    · exact (h.held_nodup x).filter _
    · exact h.held_nodup x

theorem consistent_add (h : Consistent key owner c) {i : ι} (hi : c.content i = none) (g : γ)
    (listing : Bool) : Consistent key owner (c.add key owner i g listing) where
  toIndexed := indexed_add h.toIndexed hi g listing
  mem_held x j := by
    by_cases hji : j = i
    · subst hji
      by_cases hx : x = owner g
      · simp [add, ownerAt, hx]
      · simp [add, ownerAt, hx, h.not_held hi, Ne.symm hx]
    · have hmem : j ∈ (c.add key owner i g listing).held x ↔ j ∈ c.held x := by
        by_cases hx : x = owner g <;> simp [add, hx, hji]
      rw [hmem, h.mem_held]
      simp [add, ownerAt, hji]
  held_nodup x := by
    simp only [add]
    split
    · exact List.nodup_append.mpr ⟨h.held_nodup x, List.nodup_singleton i, by
        intro a ha b hb
        rw [List.mem_singleton.mp hb]
        rintro rfl
        exact h.not_held hi x ha⟩
    · exact h.held_nodup x

theorem consistent_publish (h : Consistent key owner c) (cells : List ι) :
    Consistent key owner (c.publish key cells) where
  toIndexed := indexed_publish h.toIndexed cells
  mem_held b i := by
    rw [publish_held]
    simpa [ownerAt] using h.mem_held b i
  held_nodup b := by
    rw [publish_held]
    exact h.held_nodup b

end

end Catalog

end PolyPlug.Lib
