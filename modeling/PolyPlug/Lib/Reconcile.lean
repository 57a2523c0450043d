import PolyPlug.Lib.Catalog

/-!
# `PolyPlug.Lib.Reconcile`: replacing the cells of one owner

An owner `b` replaces its cells in two phases. It first fills new cells `news`
next to the old ones. Then its old cells are visited in order: an old cell takes
over the value of a new cell with the same key (`Replace.replace`), or is
vacated when no new cell has its key (`Replace.drop`). `Reconcile` is the run of
this loop.

The relation asks nothing of the visited cells but that they are filled.
`Reconciling` is what holds along a loop that visits cells of `b` only, each
once: the other owners see no change, a cell keeps its key and its owner as long
as it is filled, and every new value stays in the catalogue.
-/

set_option autoImplicit false
set_option linter.unusedSectionVars false

namespace PolyPlug.Lib.Catalog

section
variable {ι γ β κ : Type*} [DecidableEq ι] [DecidableEq β] [DecidableEq κ]
variable (key : γ → κ) (owner : γ → β)

/-- One visit of an old cell `o`. -/
inductive Replace (b : β) (news : List ι) : Catalog ι γ β κ → ι → Catalog ι γ β κ → Prop
  | drop {c : Catalog ι γ β κ} {o : ι} {k : κ} (hold : c.keyAt key o = some k)
      (hnone : ∀ n ∈ news, c.keyAt key n ≠ some k) : Replace b news c o (c.withdraw b [o])
  | replace {c : Catalog ι γ β κ} {o n : ι} {k : κ} (hold : c.keyAt key o = some k)
      (hmem : n ∈ news) (hnew : c.keyAt key n = some k) : Replace b news c o (c.move b n o)

/-- The visits of a list of old cells, in order. -/
inductive Reconcile (b : β) (news : List ι) :
    Catalog ι γ β κ → List ι → Catalog ι γ β κ → Prop
  | nil {c : Catalog ι γ β κ} : Reconcile b news c [] c
  | cons {c c' c'' : Catalog ι γ β κ} {o : ι} {rest : List ι} (hhead : Replace key b news c o c')
      (htail : Reconcile b news c' rest c'') : Reconcile b news c (o :: rest) c''

/-- A visit keeps the index invariant, whoever owns the cells. -/
theorem Replace.indexed {b : β} {news : List ι} {c c' : Catalog ι γ β κ} {o : ι}
    (h : Replace key b news c o c') (hc : Indexed key c) : Indexed key c' := by
  cases h with
  | drop => exact indexed_withdraw hc b [o]
  | replace hold _ hnew => exact indexed_move hc b (hnew.trans hold.symm)

/-- So does the loop. -/
theorem Reconcile.indexed {b : β} {news old : List ι} {c c' : Catalog ι γ β κ}
    (h : Reconcile key b news c old c') (hc : Indexed key c) : Indexed key c' := by
  induction h with
  | nil => exact hc
  | cons hhead _ ih => exact ih (hhead.indexed key hc)

/-- A visit lists no cell. -/
theorem Replace.listed_subset {b : β} {news : List ι} {c c' : Catalog ι γ β κ} {o : ι}
    (h : Replace key b news c o c') (k : κ) {i : ι} (hi : i ∈ c'.listed k) :
    i ∈ c.listed k := by
  cases h with
  | drop => exact (List.mem_filter.mp hi).1
  | replace => exact (List.mem_filter.mp hi).1

/-! ### The loop over the cells of one owner -/

/-- The state `c` of a loop that started in `c₀` and has the cells `rest` still
to visit, where the new cells of `b` are those outside `old`. -/
structure Reconciling (c₀ : Catalog ι γ β κ) (b : β) (old rest : List ι)
    (c : Catalog ι γ β κ) : Prop where
  consistent : Consistent key owner c
  rest_held : ∀ o ∈ rest, o ∈ c.held b
  rest_old : ∀ o ∈ rest, o ∈ old
  rest_nodup : rest.Nodup
  /-- A filled cell was filled before, with a value of the same key and owner. -/
  origin : ∀ i g, c.content i = some g →
    ∃ g₀, c₀.content i = some g₀ ∧ key g₀ = key g ∧ owner g₀ = owner g
  /-- Every value was there before. -/
  source : ∀ i g, c.content i = some g → ∃ j, c₀.content j = some g
  foreign : ∀ i, c₀.ownerAt owner i ≠ some b → c.content i = c₀.content i
  held_foreign : ∀ x, x ≠ b → c.held x = c₀.held x
  held_eq : c.held b = (c₀.held b).filter fun i => (c.content i).isSome
  listed_eq : ∀ k, c.listed k = (c₀.listed k).filter fun i => (c.content i).isSome
  /-- A new value is in a new cell, or in an old cell that is not visited again. -/
  survives : ∀ n ∈ c₀.held b, n ∉ old → ∀ g, c₀.content n = some g →
    ∃ i ∈ c₀.held b, c.content i = some g ∧ i ∉ rest
  /-- An old cell that is visited has a value of a new cell, or none. -/
  moved : ∀ i ∈ c₀.held b, i ∉ rest → ∀ g, c.content i = some g →
    ∃ n ∈ c₀.held b, n ∉ old ∧ c₀.content n = some g

variable {key owner} {c₀ c : Catalog ι γ β κ} {b : β} {old rest : List ι}

/-- The loop starts with the catalogue as it is. -/
theorem Reconciling.start (hc : Consistent key owner c) (hheld : ∀ o ∈ old, o ∈ c.held b)
    (hnodup : old.Nodup) : Reconciling key owner c b old old c where
  consistent := hc
  rest_held := hheld
  rest_old := fun _ ho => ho
  rest_nodup := hnodup
  origin := fun _ g hg => ⟨g, hg, rfl, rfl⟩
  source := fun i _ hg => ⟨i, hg⟩
  foreign := fun _ _ => rfl
  held_foreign := fun _ _ => rfl
  held_eq := by
    refine (List.filter_eq_self.mpr fun i hi => ?_).symm
    have howner := (hc.mem_held b i).mp hi
    cases h : c.content i <;> simp_all [ownerAt]
  listed_eq k := by
    refine (List.filter_eq_self.mpr fun i hi => ?_).symm
    have hkey := hc.listed_key k i hi
    cases h : c.content i <;> simp_all [keyAt]
  survives := fun n hn hnew g hg => ⟨n, hn, hg, hnew⟩
  moved := fun i hi hnew g hg => ⟨i, hi, hnew, hg⟩

/-- A cell that is filled along the loop belongs to `b` exactly if it did at the
start. -/
theorem Reconciling.owner_eq (h : Reconciling key owner c₀ b old rest c) {i : ι}
    (hi : c.content i ≠ none) : c.ownerAt owner i = c₀.ownerAt owner i := by
  obtain ⟨g, hg⟩ := Option.ne_none_iff_exists'.mp hi
  obtain ⟨g₀, hg₀, -, howner⟩ := h.origin i g hg
  simp [ownerAt, hg, hg₀, howner]

/-- Filtering out one more cell that becomes vacant, all other cells being as
filled as before. -/
private theorem filter_isSome_step {c' : Catalog ι γ β κ} {n : ι} {l : List ι}
    (hn : c'.content n = none)
    (hother : ∀ i, i ≠ n → (c'.content i).isSome = (c.content i).isSome) :
    (l.filter fun i => (c.content i).isSome).filter (· ∉ [n])
      = l.filter fun i => (c'.content i).isSome := by
  rw [List.filter_filter]
  apply List.filter_congr
  intro i _
  by_cases hi : i = n
  · simp [hi, hn]
  · simp [hi, hother i hi]

/-- The drop of the next cell. -/
theorem Reconciling.drop {o : ι} (h : Reconciling key owner c₀ b old (o :: rest) c) :
    Reconciling key owner c₀ b old rest (c.withdraw b [o]) := by
  obtain ⟨hfresh, hrest⟩ := List.nodup_cons.mp h.rest_nodup
  have ho : o ∈ c.held b := h.rest_held o List.mem_cons_self
  have hother : ∀ i, i ≠ o → (c.withdraw b [o]).content i = c.content i := by
    intro i hi
    simp [withdraw, hi]
  have hvacant : (c.withdraw b [o]).content o = none := by simp [withdraw]
  have hfilled : ∀ i, i ≠ o →
      ((c.withdraw b [o]).content i).isSome = (c.content i).isSome := by
    intro i hi
    rw [hother i hi]
  have hold : ∀ i g, (c.withdraw b [o]).content i = some g → c.content i = some g := by
    intro i g hg
    by_cases hi : i = o
    · simp [hi, hvacant] at hg
    · rwa [hother i hi] at hg
  have hob := (h.consistent.mem_held b o).mp ho
  refine
    { consistent := consistent_withdraw h.consistent (by simpa using ho)
      rest_held := ?_
      rest_old := fun x hx => h.rest_old x (List.mem_cons_of_mem _ hx)
      rest_nodup := hrest
      origin := fun i g hg => h.origin i g (hold i g hg)
      source := fun i g hg => h.source i g (hold i g hg)
      foreign := ?_
      held_foreign := ?_
      held_eq := ?_
      listed_eq := ?_
      survives := ?_
      moved := ?_ }
  · intro x hx
    have hne : x ≠ o := fun he => hfresh (he ▸ hx)
    simpa [withdraw, hne] using h.rest_held x (List.mem_cons_of_mem _ hx)
  · intro i hi
    by_cases hio : i = o
    · subst hio
      have hlive : c.content i ≠ none := by
        intro hn
        simp [ownerAt, hn] at hob
      exact absurd ((h.owner_eq hlive).symm.trans hob) hi
    · rw [hother i hio, h.foreign i hi]
  · intro x hx
    simpa [withdraw, hx] using h.held_foreign x hx
  · rw [← filter_isSome_step hvacant hfilled, ← h.held_eq]
    simp [withdraw]
  · intro k
    rw [← filter_isSome_step hvacant hfilled, ← h.listed_eq]
    rfl
  · intro n hn hnew g hg
    obtain ⟨i, hheld, hi, hnot⟩ := h.survives n hn hnew g hg
    rw [List.mem_cons, not_or] at hnot
    exact ⟨i, hheld, (hother i hnot.1).trans hi, hnot.2⟩
  · intro i hi hnot g hg
    have hio : i ≠ o := by
      rintro rfl
      rw [hvacant] at hg
      cases hg
    exact h.moved i hi (by simp [hio, hnot]) g (hold i g hg)

/-- The replacement of the next cell by a new one. -/
theorem Reconciling.replace {o n : ι} {k : κ}
    (h : Reconciling key owner c₀ b old (o :: rest) c) (hn : n ∈ c₀.held b) (hnew : n ∉ old)
    (hkn : c.keyAt key n = some k) (hko : c.keyAt key o = some k) :
    Reconciling key owner c₀ b old rest (c.move b n o) := by
  obtain ⟨hfresh, hrest⟩ := List.nodup_cons.mp h.rest_nodup
  have ho : o ∈ c.held b := h.rest_held o List.mem_cons_self
  have hoo : o ∈ old := h.rest_old o List.mem_cons_self
  have hne : n ≠ o := fun he => hnew (he ▸ hoo)
  obtain ⟨g, hg, hgk⟩ : ∃ g, c.content n = some g ∧ key g = k := by
    simpa [keyAt] using hkn
  obtain ⟨g', hg', hgk'⟩ : ∃ g', c.content o = some g' ∧ key g' = k := by
    simpa [keyAt] using hko
  have hnmem : n ∈ c.held b := by
    rw [h.held_eq, List.mem_filter]
    exact ⟨hn, by simp [hg]⟩
  have hnb := (h.consistent.mem_held b n).mp hnmem
  have hob := (h.consistent.mem_held b o).mp ho
  -- Only the two cells change: `o` takes the value of `n`, and `n` is left empty.
  have hother : ∀ i, i ≠ n → i ≠ o → (c.move b n o).content i = c.content i := by
    intro i hin hio
    simp [move, hin, hio]
  have hvacant : (c.move b n o).content n = none := by simp [move]
  have hmoved : (c.move b n o).content o = some g := by simp [move, hne.symm, hg]
  have hfilled : ∀ i, i ≠ n →
      ((c.move b n o).content i).isSome = (c.content i).isSome := by
    intro i hin
    by_cases hio : i = o
    · subst hio
      rw [hmoved, hg']
      rfl
    · rw [hother i hin hio]
  refine
    { consistent := consistent_move h.consistent hne hnmem ho (hkn.trans hko.symm)
      rest_held := ?_
      rest_old := fun x hx => h.rest_old x (List.mem_cons_of_mem _ hx)
      rest_nodup := hrest
      origin := ?_
      source := ?_
      foreign := ?_
      held_foreign := ?_
      held_eq := ?_
      listed_eq := ?_
      survives := ?_
      moved := ?_ }
  · intro x hx
    have hxn : x ≠ n := fun he => hnew (he ▸ h.rest_old x (List.mem_cons_of_mem _ hx))
    simpa [move, hxn] using h.rest_held x (List.mem_cons_of_mem _ hx)
  · intro i v hv
    by_cases hin : i = n
    · simp [hin, hvacant] at hv
    · by_cases hio : i = o
      · subst hio
        obtain ⟨g₀, hg₀, hk₀, ho₀⟩ := h.origin i g' hg'
        rw [hmoved] at hv
        cases hv
        refine ⟨g₀, hg₀, hk₀.trans (hgk'.trans hgk.symm), ho₀.trans ?_⟩
        have := hob.trans hnb.symm
        simpa [ownerAt, hg, hg'] using this
      · exact h.origin i v ((hother i hin hio).symm.trans hv)
  · intro i v hv
    by_cases hin : i = n
    · simp [hin, hvacant] at hv
    · by_cases hio : i = o
      · subst hio
        exact h.source n v (hg.trans (hmoved.symm.trans hv))
      · exact h.source i v ((hother i hin hio).symm.trans hv)
  · intro i hi
    have hforeign : ∀ j, c.content j ≠ none → c.ownerAt owner j = some b → i ≠ j := by
      rintro j hj hjb rfl
      exact hi ((h.owner_eq hj).symm.trans hjb)
    rw [hother i (hforeign n (by simp [hg]) hnb) (hforeign o (by simp [hg']) hob),
      h.foreign i hi]
  · intro x hx
    simpa [move, hx] using h.held_foreign x hx
  · rw [← filter_isSome_step hvacant hfilled, ← h.held_eq]
    simp [move]
  · intro k
    rw [← filter_isSome_step hvacant hfilled, ← h.listed_eq]
    rfl
  · intro m hm hmnew v hv
    obtain ⟨i, hheld, hi, hnot⟩ := h.survives m hm hmnew v hv
    rw [List.mem_cons, not_or] at hnot
    by_cases hin : i = n
    · subst hin
      refine ⟨o, ?_, ?_, hfresh⟩
      · have := h.held_eq ▸ ho
        exact (List.mem_filter.mp this).1
      · rw [hmoved, ← hg, hi]
    · exact ⟨i, hheld, (hother i hin hnot.1).trans hi, hnot.2⟩
  · intro i hi hnot v hv
    by_cases hin : i = n
    · rw [hin, hvacant] at hv
      cases hv
    · by_cases hio : i = o
      · -- The visited cell takes over the value of the new one.
        have hrest : n ∉ o :: rest := fun hmem => hnew (h.rest_old n hmem)
        refine h.moved n hn hrest v ?_
        rw [hg, ← hmoved, ← hv, hio]
      · exact h.moved i hi (by simp [hio, hnot]) v ((hother i hin hio).symm.trans hv)

/-- One visit of the next cell. -/
theorem Replace.reconciling {news : List ι} {o : ι} {c' : Catalog ι γ β κ}
    (hvisit : Replace key b news c o c') (hnews : ∀ n ∈ news, n ∈ c₀.held b ∧ n ∉ old)
    (h : Reconciling key owner c₀ b old (o :: rest) c) :
    Reconciling key owner c₀ b old rest c' := by
  cases hvisit with
  | drop => exact h.drop
  | replace hold hmem hnew => exact h.replace (hnews _ hmem).1 (hnews _ hmem).2 hnew hold

/-- The whole loop, visiting cells of `b` only and each once. -/
theorem Reconcile.reconciling {news : List ι} {c' : Catalog ι γ β κ}
    (hloop : Reconcile key b news c rest c')
    (hnews : ∀ n ∈ news, n ∈ c₀.held b ∧ n ∉ old)
    (h : Reconciling key owner c₀ b old rest c) : Reconciling key owner c₀ b old [] c' := by
  induction hloop with
  | nil => exact h
  | cons hhead _ ih => exact ih (hhead.reconciling hnews h)

/-! ### Values that must not meet

The loop over any cells, of any owner and with repetitions. A value of a new
cell goes to one cell at most, so a relation that holds between the values to be
listed holds between them afterwards. -/

variable (key) in
/-- The values of different cells of `p` with the same key are related by `R`. -/
def Apart (R : γ → γ → Prop) (c : Catalog ι γ β κ) (p : ι → Prop) : Prop :=
  ∀ i j g g', i ≠ j → p i → p j → c.content i = some g → c.content j = some g' →
    key g = key g' → R g g'

/-- The cell is listed under some key. -/
def Listed (c : Catalog ι γ β κ) (i : ι) : Prop := ∃ k, i ∈ c.listed k

/-- The cells that are listed when the loop has visited `rest` and the new cells
are published: the listed ones that are not to be visited, and the new ones. -/
def Upcoming (c : Catalog ι γ β κ) (news rest : List ι) (i : ι) : Prop :=
  (c.Listed i ∧ i ∉ rest) ∨ i ∈ news

/-- One visit keeps the upcoming values apart. -/
theorem Replace.apart {R : γ → γ → Prop} {news : List ι}
    {o : ι} {c' : Catalog ι γ β κ} (hvisit : Replace key b news c o c')
    (h : Apart key R c (c.Upcoming news (o :: rest))) :
    Apart key R c' (c'.Upcoming news rest) := by
  have hup : ∀ i, i ≠ o → c'.Upcoming news rest i → c.Upcoming news (o :: rest) i := by
    rintro i hne (⟨⟨k, hk⟩, hrest⟩ | hnew)
    · exact Or.inl ⟨⟨k, hvisit.listed_subset key k hk⟩, by simp [hne, hrest]⟩
    · exact Or.inr hnew
  cases hvisit with
  | drop =>
    intro i j g g' hne hi hj hg hg' hkey
    have hio : i ≠ o := by
      rintro rfl
      simp [withdraw] at hg
    have hjo : j ≠ o := by
      rintro rfl
      simp [withdraw] at hg'
    exact h i j g g' hne (hup i hio hi) (hup j hjo hj) (by simpa [withdraw, hio] using hg)
      (by simpa [withdraw, hjo] using hg') hkey
  | @replace n k _ hmem _ =>
    -- The visited cell stands for the new cell whose value it took over.
    have hstand : ∀ i g, (c.move b n o).content i = some g →
        (c.move b n o).Upcoming news rest i →
        ∃ i', c.content i' = some g ∧ c.Upcoming news (o :: rest) i' ∧
          (i' = i ∧ i ≠ o ∧ i ≠ n ∨ i' = n ∧ i = o) := by
      intro i g hg hi
      by_cases hin : i = n
      · simp [move, hin] at hg
      · by_cases hio : i = o
        · subst hio
          exact ⟨n, by simpa [move, hin] using hg, Or.inr hmem, Or.inr ⟨rfl, rfl⟩⟩
        · exact ⟨i, by simpa [move, hin, hio] using hg, hup i hio hi, Or.inl ⟨rfl, hio, hin⟩⟩
    intro i j g g' hne hi hj hg hg' hkey
    obtain ⟨i', hgi, hui, hci⟩ := hstand i g hg hi
    obtain ⟨j', hgj, huj, hcj⟩ := hstand j g' hg' hj
    have hne' : i' ≠ j' := by
      rcases hci with ⟨rfl, -, hin⟩ | ⟨rfl, rfl⟩ <;> rcases hcj with ⟨rfl, -, hjn⟩ | ⟨rfl, rfl⟩
      · exact hne
      · exact hin
      · exact fun he => hjn he.symm
      · exact absurd rfl hne
    exact h i' j' g g' hne' hui huj hgi hgj hkey

/-- The whole loop. -/
theorem Reconcile.apart {R : γ → γ → Prop} {news : List ι}
    {c' : Catalog ι γ β κ} (hloop : Reconcile key b news c rest c')
    (h : Apart key R c (c.Upcoming news rest)) : Apart key R c' (c'.Upcoming news []) := by
  induction hloop with
  | nil => exact h
  | cons hhead _ ih => exact ih (hhead.apart h)

/-- Publishing lists upcoming cells only. -/
theorem apart_publish {R : γ → γ → Prop} {news : List ι}
    (h : Apart key R c (c.Upcoming news [])) :
    Apart key R (c.publish key news) (c.publish key news).Listed := by
  have hlisted : ∀ (cells : List ι) (c : Catalog ι γ β κ) (i : ι),
      (c.publish key cells).Listed i → c.Listed i ∨ i ∈ cells := by
    intro cells
    induction cells with
    | nil => exact fun c i hi => Or.inl hi
    | cons a more ih =>
      intro c i hi
      rcases ih (c.offer key a) i hi with ⟨k, hk⟩ | hmore
      · simp only [offer] at hk
        split at hk
        · rcases List.mem_append.mp hk with hold | hnew
          · exact Or.inl ⟨k, hold⟩
          · exact Or.inr (List.mem_singleton.mp hnew ▸ List.mem_cons_self)
        · exact Or.inl ⟨k, hk⟩
      · exact Or.inr (List.mem_cons_of_mem _ hmore)
  intro i j g g' hne hi hj hg hg' hkey
  rw [publish_content] at hg hg'
  have hup : ∀ i, (c.publish key news).Listed i → c.Upcoming news [] i := by
    intro i hi
    rcases hlisted news c i hi with hold | hnew
    · exact Or.inl ⟨hold, List.not_mem_nil⟩
    · exact Or.inr hnew
  exact h i j g g' hne (hup i hi) (hup j hj) hg hg' hkey

/-- Filling and listing a cell whose value is apart from the listed ones. -/
theorem apart_add {R : γ → γ → Prop} (hsymm : ∀ g g', R g g' → R g' g) {i : ι} {g : γ}
    {listing : Bool} (hc : Indexed key c) (hi : c.content i = none)
    (h : Apart key R c c.Listed)
    (hnew : listing = true → ∀ j g', c.Listed j → c.content j = some g' → key g' = key g → R g' g) :
    Apart key R (c.add key owner i g listing) (c.add key owner i g listing).Listed := by
  -- Another cell is listed as before, with its value; `i` itself only when `listing`.
  have hother : ∀ j, j ≠ i → (c.add key owner i g listing).Listed j → c.Listed j := by
    rintro j hj ⟨k, hk⟩
    simp only [add] at hk
    split at hk
    · exact ⟨k, by simpa [hj] using hk⟩
    · exact ⟨k, hk⟩
  have hself : (c.add key owner i g listing).Listed i → listing = true := by
    rintro ⟨k, hk⟩
    simp only [add] at hk
    split at hk
    · rename_i hl
      exact hl.1
    · exact absurd hk (hc.not_listed hi k)
  have hcontent : ∀ j, j ≠ i → (c.add key owner i g listing).content j = c.content j := by
    intro j hj
    simp [add, hj]
  have hfilled : (c.add key owner i g listing).content i = some g := by simp [add]
  intro a a' v v' hne ha ha' hv hv' hkey
  by_cases hai : a = i
  · subst hai
    rw [hfilled] at hv
    cases hv
    rw [hcontent a' hne.symm] at hv'
    exact hsymm _ _ (hnew (hself ha) a' v' (hother a' hne.symm ha') hv' hkey.symm)
  · by_cases hai' : a' = i
    · subst hai'
      rw [hfilled] at hv'
      cases hv'
      rw [hcontent a hai] at hv
      exact hnew (hself ha') a v (hother a hai ha) hv hkey
    · rw [hcontent a hai] at hv
      rw [hcontent a' hai'] at hv'
      exact h a a' v v' hne (hother a hai ha) (hother a' hai' ha') hv hv' hkey

/-- Withdrawing cells. -/
theorem apart_withdraw {R : γ → γ → Prop} (h : Apart key R c c.Listed) (cells : List ι) :
    Apart key R (c.withdraw b cells) (c.withdraw b cells).Listed := by
  have hlisted : ∀ i, (c.withdraw b cells).Listed i → c.Listed i := by
    rintro i ⟨k, hk⟩
    exact ⟨k, (List.mem_filter.mp hk).1⟩
  have hcontent : ∀ i g, (c.withdraw b cells).content i = some g → c.content i = some g := by
    intro i g hg
    simp only [withdraw] at hg
    split at hg
    · cases hg
    · exact hg
  intro i j g g' hne hi hj hg hg' hkey
  exact h i j g g' hne (hlisted i hi) (hlisted j hj) (hcontent i g hg) (hcontent j g' hg') hkey

end

end PolyPlug.Lib.Catalog
