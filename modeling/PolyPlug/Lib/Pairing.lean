import PolyPlug.Lib.Reconcile

/-!
# `PolyPlug.Lib.Pairing`: which new value an old cell takes over

The loop of `Lib.Reconcile` may take any new cell with the key of the visited cell. Here it takes
the first one that is still filled (`FirstReplace`, `FirstReconcile`). The new cells of a
key are then used up in order: the i-th old cell of a key takes over the value of its i-th new
cell, old cells without one are vacated, and new cells without an old one stay
(`FirstReconcile.paired`).
-/

set_option autoImplicit false
set_option linter.unusedSectionVars false

namespace PolyPlug.Lib.Catalog

section
variable {ι γ β κ : Type*} [DecidableEq ι] [DecidableEq β] [DecidableEq κ]
variable (key : γ → κ)

/-- The cells of a list that hold a value of the key, in order. -/
def ofKey (c : Catalog ι γ β κ) (cells : List ι) (k : κ) : List ι :=
  cells.filter fun i => c.keyAt key i = some k

/-- One visit of an old cell `o`, which takes the first new cell of its key. -/
inductive FirstReplace (b : β) (news : List ι) :
    Catalog ι γ β κ → ι → Catalog ι γ β κ → Prop
  | drop {c : Catalog ι γ β κ} {o : ι} {k : κ} (hold : c.keyAt key o = some k)
      (hnone : (news.find? fun n => c.keyAt key n = some k) = none) :
      FirstReplace b news c o (c.withdraw b [o])
  | replace {c : Catalog ι γ β κ} {o n : ι} {k : κ} (hold : c.keyAt key o = some k)
      (hfirst : (news.find? fun n => c.keyAt key n = some k) = some n) :
      FirstReplace b news c o (c.move b n o)

/-- The visits of a list of old cells, in order. -/
inductive FirstReconcile (b : β) (news : List ι) :
    Catalog ι γ β κ → List ι → Catalog ι γ β κ → Prop
  | nil {c : Catalog ι γ β κ} : FirstReconcile b news c [] c
  | cons {c c' c'' : Catalog ι γ β κ} {o : ι} {rest : List ι}
      (hhead : FirstReplace key b news c o c') (htail : FirstReconcile b news c' rest c'') :
      FirstReconcile b news c (o :: rest) c''

/-- The old cells and the new cells of each key are paired in order. -/
structure Paired (news old : List ι) (c c' : Catalog ι γ β κ) : Prop where
  old_cell : ∀ (k : κ) (i : ℕ) (o : ι), (ofKey key c old k)[i]? = some o →
    c'.content o = (ofKey key c news k)[i]?.bind c.content
  new_cell : ∀ (k : κ) (i : ℕ) (n : ι), (ofKey key c news k)[i]? = some n →
    c'.content n = if i < (ofKey key c old k).length then none else c.content n
  /-- A new cell that is vacant stays so. -/
  vacant : ∀ n ∈ news, c.content n = none → c'.content n = none
  other : ∀ j, j ∉ old → j ∉ news → c'.content j = c.content j

variable {key} {b : β} {news : List ι} {c c' : Catalog ι γ β κ} {o : ι} {rest : List ι}

theorem mem_ofKey {cells : List ι} {k : κ} {i : ι} :
    i ∈ ofKey key c cells k ↔ i ∈ cells ∧ c.keyAt key i = some k := by
  simp [ofKey]

/-- A cell has one key, so the lists of two keys have no cell in common. -/
theorem key_of_ofKey {cells : List ι} {k : κ} {i : ℕ} {x : ι}
    (h : (ofKey key c cells k)[i]? = some x) : x ∈ cells ∧ c.keyAt key x = some k :=
  mem_ofKey.mp (List.mem_of_getElem? h)

/-- The list of a key where the cells keep theirs. -/
theorem ofKey_congr {cells : List ι} (h : ∀ i ∈ cells, c'.content i = c.content i) (k : κ) :
    ofKey key c' cells k = ofKey key c cells k := by
  apply List.filter_congr
  intro i hi
  rw [keyAt, keyAt, h i hi]

/-- The first cell with a property stands at the front of those that have it. -/
theorem filter_eq_cons_of_find {p : ι → Bool} {cells : List ι} {n : ι} (hnodup : cells.Nodup)
    (hfirst : cells.find? p = some n) :
    cells.filter p = n :: cells.filter fun i => p i && decide (i ≠ n) := by
  induction cells with
  | nil => cases hfirst
  | cons x cells ih =>
    obtain ⟨hx, hrest⟩ := List.nodup_cons.mp hnodup
    by_cases hp : p x
    · rw [List.find?_cons_of_pos hp] at hfirst
      obtain rfl := Option.some.inj hfirst
      rw [List.filter_cons_of_pos hp, List.filter_cons_of_neg (by simp)]
      congr 1
      apply List.filter_congr
      intro i hi
      have hne : i ≠ x := fun he => hx (he ▸ hi)
      simp [hne]
    · rw [List.find?_cons_of_neg hp] at hfirst
      rw [List.filter_cons_of_neg hp, List.filter_cons_of_neg (by simp [hp])]
      exact ih hrest hfirst

/-- A visit is one of `Lib.Reconcile`. -/
theorem FirstReplace.replace_any (h : FirstReplace key b news c o c') :
    Replace key b news c o c' := by
  cases h with
  | drop hold hnone =>
    refine .drop hold fun n hn hkey => ?_
    have hnot := List.find?_eq_none.mp hnone n hn
    exact hnot (by simpa using hkey)
  | replace hold hfirst =>
    exact .replace hold (List.mem_of_find?_eq_some hfirst) (by simpa using List.find?_some hfirst)

/-- The visit of a cell without a new one. -/
theorem paired_drop {k : κ} (hold : c.keyAt key o = some k)
    (hnone : (news.find? fun n => c.keyAt key n = some k) = none) (horest : o ∉ rest)
    (honews : o ∉ news) (hrest : Paired key news rest (c.withdraw b [o]) c') :
    Paired key news (o :: rest) c c' := by
  have hother : ∀ i, i ≠ o → (c.withdraw b [o]).content i = c.content i := by
    intro i hi
    simp [withdraw, hi]
  have hkeep : ∀ cells : List ι, o ∉ cells → ∀ k, ofKey key (c.withdraw b [o]) cells k
      = ofKey key c cells k :=
    fun cells ho => ofKey_congr fun i hi => hother i fun he => ho (he ▸ hi)
  have hempty : ofKey key c news k = [] :=
    List.filter_eq_nil_iff.mpr fun n hn => List.find?_eq_none.mp hnone n hn
  have hself : c'.content o = none := by
    rw [hrest.other o horest honews]
    simp [withdraw]
  constructor
  · intro k' i x hx
    by_cases hk : k' = k
    · subst hk
      rw [ofKey, List.filter_cons_of_pos (by simpa using hold)] at hx
      rw [hempty]
      cases i with
      | zero =>
        obtain rfl := Option.some.inj hx
        exact hself
      | succ i =>
        have hcell := hrest.old_cell k' i x (by rw [hkeep rest horest]; exact hx)
        rw [hkeep news honews, hempty] at hcell
        exact hcell
    · rw [ofKey, List.filter_cons_of_neg (by simp [hold, Ne.symm hk])] at hx
      have hcell := hrest.old_cell k' i x (by rw [hkeep rest horest]; exact hx)
      rw [hkeep news honews] at hcell
      rw [hcell]
      cases hn : (ofKey key c news k')[i]? with
      | none => rfl
      | some n => exact hother n fun he => honews (he ▸ (key_of_ofKey hn).1)
  · intro k' i n hn
    have hk : k' ≠ k := by
      rintro rfl
      rw [hempty] at hn
      cases hn
    have hcell := hrest.new_cell k' i n (by rw [hkeep news honews]; exact hn)
    rw [hkeep rest horest, hother n fun he => honews (he ▸ (key_of_ofKey hn).1)] at hcell
    rw [hcell, ofKey, ofKey, List.filter_cons_of_neg (by simp [hold, Ne.symm hk])]
  · intro n hn hvacant
    exact hrest.vacant n hn ((hother n fun he => honews (he ▸ hn)).trans hvacant)
  · intro j hj hjnews
    rw [List.mem_cons, not_or] at hj
    exact (hrest.other j hj.2 hjnews).trans (hother j hj.1)

/-- The visit of a cell that takes over a value. -/
theorem paired_move {k : κ} {n : ι} (hold : c.keyAt key o = some k)
    (hfirst : (news.find? fun n => c.keyAt key n = some k) = some n) (hnodup : news.Nodup)
    (horest : o ∉ rest) (honews : o ∉ news) (hdisjoint : ∀ i ∈ rest, i ∉ news)
    (hrest : Paired key news rest (c.move b n o) c') : Paired key news (o :: rest) c c' := by
  have hn : n ∈ news := List.mem_of_find?_eq_some hfirst
  have hne : o ≠ n := fun he => honews (he ▸ hn)
  have hother : ∀ i, i ≠ n → i ≠ o → (c.move b n o).content i = c.content i := by
    intro i hin hio
    simp [move, hin, hio]
  have hgone : (c.move b n o).content n = none := by simp [move]
  have hgonekey : (c.move b n o).keyAt key n = none := by simp [keyAt, hgone]
  have hkeyn : c.keyAt key n = some k := by simpa using List.find?_some hfirst
  -- Later old cells keep their keys, and the new cells lose the first of the key.
  have hrestkey : ∀ k', ofKey key (c.move b n o) rest k' = ofKey key c rest k' :=
    ofKey_congr fun i hi => hother i (fun he => hdisjoint i hi (he ▸ hn)) fun he => horest (he ▸ hi)
  have hkeyother : ∀ i ∈ news, i ≠ n → (c.move b n o).keyAt key i = c.keyAt key i := by
    intro i hi hin
    rw [keyAt, keyAt, hother i hin fun he => honews (he ▸ hi)]
  have hnewskey : ofKey key c news k = n :: ofKey key (c.move b n o) news k := by
    rw [ofKey, filter_eq_cons_of_find hnodup hfirst, ofKey]
    congr 1
    apply List.filter_congr
    intro i hi
    by_cases hin : i = n
    · simp [hin, hgonekey]
    · simp [hin, hkeyother i hi hin]
  have hnewsother : ∀ k', k' ≠ k → ofKey key (c.move b n o) news k' = ofKey key c news k' := by
    intro k' hk
    apply List.filter_congr
    intro i hi
    by_cases hin : i = n
    · subst hin
      simp [hkeyn, Ne.symm hk, hgonekey]
    · simp [hkeyother i hi hin]
  -- A new cell that is still filled after the move has its old value.
  have hcontent : ∀ (k' : κ) (i : ℕ) (x : ι), (ofKey key (c.move b n o) news k')[i]? = some x →
      (c.move b n o).content x = c.content x := by
    intro k' i x hx
    obtain ⟨hxnews, hxkey⟩ := key_of_ofKey hx
    refine hother x ?_ fun he => honews (he ▸ hxnews)
    rintro rfl
    rw [hgonekey] at hxkey
    cases hxkey
  have hself : c'.content o = c.content n := by
    rw [hrest.other o horest honews]
    simp [move, hne]
  constructor
  · intro k' i x hx
    by_cases hk : k' = k
    · subst hk
      rw [ofKey, List.filter_cons_of_pos (by simpa using hold)] at hx
      rw [hnewskey]
      cases i with
      | zero =>
        obtain rfl := Option.some.inj hx
        exact hself
      | succ i =>
        rw [List.getElem?_cons_succ, hrest.old_cell k' i x (by rw [hrestkey]; exact hx)]
        cases hy : (ofKey key (c.move b n o) news k')[i]? with
        | none => rfl
        | some y => exact hcontent k' i y hy
    · rw [ofKey, List.filter_cons_of_neg (by simp [hold, Ne.symm hk])] at hx
      have hcell := hrest.old_cell k' i x (by rw [hrestkey]; exact hx)
      rw [hcell, hnewsother k' hk]
      cases hy : (ofKey key c news k')[i]? with
      | none => rfl
      | some y => exact hcontent k' i y (by rw [hnewsother k' hk]; exact hy)
  · intro k' i x hx
    by_cases hk : k' = k
    · subst hk
      rw [hnewskey] at hx
      rw [ofKey, List.filter_cons_of_pos (by simpa using hold), List.length_cons]
      cases i with
      | zero =>
        obtain rfl := Option.some.inj hx
        rw [if_pos (Nat.zero_lt_succ _)]
        exact hrest.vacant n hn hgone
      | succ i =>
        rw [List.getElem?_cons_succ] at hx
        rw [hrest.new_cell k' i x hx, hrestkey, hcontent k' i x hx]
        simp only [Nat.succ_lt_succ_iff]
        rfl
    · have hx' : (ofKey key (c.move b n o) news k')[i]? = some x := by rwa [hnewsother k' hk]
      rw [hrest.new_cell k' i x hx', hrestkey, hcontent k' i x hx', ofKey, ofKey,
        List.filter_cons_of_neg (by simp [hold, Ne.symm hk])]
  · intro x hx hvacant
    refine hrest.vacant x hx ?_
    by_cases hxn : x = n
    · rw [hxn, hgone]
    · exact (hother x hxn fun he => honews (he ▸ hx)).trans hvacant
  · intro j hj hjnews
    rw [List.mem_cons, not_or] at hj
    exact (hrest.other j hj.2 hjnews).trans (hother j (fun he => hjnews (he ▸ hn)) hj.1)

/-- **The old and the new cells of each key are paired in order.** -/
theorem FirstReconcile.paired {old : List ι} (h : FirstReconcile key b news c old c')
    (hnews : news.Nodup) (hold : old.Nodup) (hdisjoint : ∀ i ∈ old, i ∉ news) :
    Paired key news old c c' := by
  induction h with
  | nil => exact ⟨nofun, fun k i n hn => (if_neg (Nat.not_lt_zero i)).symm, fun _ _ hv => hv,
      fun _ _ _ => rfl⟩
  | @cons c mid c' o rest hhead _ ih =>
    obtain ⟨horest, hrest⟩ := List.nodup_cons.mp hold
    have honews : o ∉ news := hdisjoint o List.mem_cons_self
    have htail := ih hrest fun i hi => hdisjoint i (List.mem_cons_of_mem _ hi)
    cases hhead with
    | drop hkey hnone => exact paired_drop hkey hnone horest honews htail
    | replace hkey hfirst =>
      exact paired_move hkey hfirst hnews horest honews
        (fun i hi => hdisjoint i (List.mem_cons_of_mem _ hi)) htail

/-- The loop is one of `Lib.Reconcile`. -/
theorem FirstReconcile.reconcile {old : List ι} (h : FirstReconcile key b news c old c') :
    Reconcile key b news c old c' := by
  induction h with
  | nil => exact .nil
  | cons hhead _ ih => exact .cons hhead.replace_any ih

/-! ### The cells that stay filled -/

/-- A predicate that holds of the first `n` entries of a list. -/
theorem filter_eq_take {l : List ι} {p : ι → Bool} {n : ℕ}
    (h : ∀ (i : ℕ) (x : ι), l[i]? = some x → (p x = true ↔ i < n)) : l.filter p = l.take n := by
  induction l generalizing n with
  | nil => simp
  | cons a l ih =>
    have hhead := h 0 a rfl
    cases n with
    | zero =>
      refine List.filter_eq_nil_iff.mpr fun x hx hpx => ?_
      obtain ⟨i, hi⟩ := List.getElem?_of_mem hx
      exact Nat.not_lt_zero i ((h i x hi).mp hpx)
    | succ n =>
      rw [List.filter_cons_of_pos (hhead.mpr (Nat.zero_lt_succ n)), List.take_succ_cons,
        ih fun i x hx => (h (i + 1) x hx).trans Nat.succ_lt_succ_iff]

/-- A predicate that holds of the entries from the `n`-th on. -/
theorem filter_eq_drop {l : List ι} {p : ι → Bool} {n : ℕ}
    (h : ∀ (i : ℕ) (x : ι), l[i]? = some x → (p x = true ↔ n ≤ i)) : l.filter p = l.drop n := by
  induction l generalizing n with
  | nil => simp
  | cons a l ih =>
    have hhead := h 0 a rfl
    cases n with
    | zero =>
      refine List.filter_eq_self.mpr fun x hx => ?_
      obtain ⟨i, hi⟩ := List.getElem?_of_mem hx
      exact (h i x hi).mpr (Nat.zero_le i)
    | succ n =>
      have hnot : ¬ p a = true := fun hp => Nat.not_succ_le_zero n (hhead.mp hp)
      rw [List.filter_cons_of_neg hnot, List.drop_succ_cons,
        ih fun i x hx => (h (i + 1) x hx).trans Nat.succ_le_succ_iff]

/-- The old cells of a key that stay filled are the first ones. -/
theorem Paired.old_filled {old : List ι} (h : Paired key news old c c') (k : κ) :
    ((ofKey key c old k).filter fun i => (c'.content i).isSome)
      = (ofKey key c old k).take (ofKey key c news k).length := by
  refine filter_eq_take fun i o ho => ?_
  rw [h.old_cell k i o ho]
  cases hn : (ofKey key c news k)[i]? with
  | none =>
    exact iff_of_false nofun (Nat.not_lt.mpr (List.getElem?_eq_none_iff.mp hn))
  | some n =>
    obtain ⟨g, hg, -⟩ := Option.map_eq_some_iff.mp (key_of_ofKey hn).2
    exact iff_of_true (by simp [hg]) (List.getElem?_eq_some_iff.mp hn).1

/-- The new cells of a key that stay filled are the last ones. -/
theorem Paired.new_filled {old : List ι} (h : Paired key news old c c') (k : κ) :
    ((ofKey key c news k).filter fun i => (c'.content i).isSome)
      = (ofKey key c news k).drop (ofKey key c old k).length := by
  refine filter_eq_drop fun i n hn => ?_
  obtain ⟨g, hg, -⟩ := Option.map_eq_some_iff.mp (key_of_ofKey hn).2
  rw [h.new_cell k i n hn]
  by_cases hi : i < (ofKey key c old k).length
  · rw [if_pos hi]
    exact iff_of_false nofun (Nat.not_le.mpr hi)
  · rw [if_neg hi, hg]
    exact iff_of_true rfl (Nat.le_of_not_lt hi)

/-- A cell keeps its key as long as it is filled. -/
theorem Reconciling.ofKey_eq {owner : γ → β} {c₀ : Catalog ι γ β κ} {old rest : List ι}
    (h : Reconciling key owner c₀ b old rest c) (cells : List ι) (k : κ) :
    ofKey key c cells k = (ofKey key c₀ cells k).filter fun i => (c.content i).isSome := by
  rw [ofKey, ofKey, List.filter_filter]
  apply List.filter_congr
  intro i _
  cases hi : c.content i with
  | none => simp [keyAt, hi]
  | some g =>
    obtain ⟨g₀, hg₀, hkey, -⟩ := h.origin i g hi
    simp [keyAt, hi, hg₀, hkey]

/-- The cells of the owner for a key, at the end: the first old ones and the last new ones. -/
theorem Paired.held_ofKey {owner : γ → β} {old : List ι} (h : Paired key news old c c')
    (hr : Reconciling key owner c b old [] c') (hheld : c.held b = old ++ news) (k : κ) :
    ofKey key c' (c'.held b) k
      = (ofKey key c old k).take (ofKey key c news k).length
        ++ (ofKey key c news k).drop (ofKey key c old k).length := by
  have hsome : ofKey key c' (c'.held b) k = ofKey key c' (c.held b) k := by
    rw [hr.held_eq, ofKey, ofKey, List.filter_filter]
    apply List.filter_congr
    intro i _
    cases hi : c'.content i <;> simp [keyAt, hi]
  rw [hsome, hr.ofKey_eq, hheld, ofKey, List.filter_append, List.filter_append]
  exact congrArg₂ (· ++ ·) (h.old_filled k) (h.new_filled k)

/-- The list of a key, when the new cells are published: the cells that stay, and then the
last new ones. -/
theorem Paired.publish_listed {owner : γ → β} {old : List ι} (h : Paired key news old c c')
    (hr : Reconciling key owner c b old [] c') (hnodup : news.Nodup) (k : κ)
    (hpending : ∀ n ∈ news, n ∉ c.listed k) :
    (c'.publish key news).listed k
      = ((c.listed k).filter fun i => (c'.content i).isSome)
        ++ (ofKey key c news k).drop (ofKey key c old k).length := by
  rw [Catalog.publish_listed key c' news hnodup, ← h.new_filled, ← hr.ofKey_eq, ← hr.listed_eq]
  congr 1
  apply List.filter_congr
  intro n hn
  have hunlisted : n ∉ c'.listed k := by
    rw [hr.listed_eq]
    exact fun hmem => hpending n hn (List.mem_filter.mp hmem).1
  simp [hunlisted]

end

end PolyPlug.Lib.Catalog
