import Mathlib.Data.Finset.Card

/-!
# `PolyPlug.Lib.Visit`: a depth-first visit with a visited set

A visit enters a node, visits the nodes the entry names, then leaves the node.
Leaving changes the state and can fail, and the first error ends the whole visit. A
visited node is not entered again. The entry reads the state and the visited set of
its moment, so the children of a node can depend on what was left before.

`Visitor.visit` counts the depth with fuel, and `none` means that the fuel ran out.
`visit_isSome` says how much is enough, and `visit_invariant` is the rule for what
every leaving keeps. `Visitor.logged` is the visitor that keeps a log of its leavings
beside the state. It makes the same visit (`visit_logged`).
-/

set_option autoImplicit false

namespace PolyPlug.Lib

/-- How a visit enters and leaves a node. The value read at the entry is handed to
the leaving. -/
structure Visitor (σ α β ε : Type*) where
  enter : σ → Finset α → α → Except ε (β × List α)
  leave : β → α → σ → Except ε Unit × σ

section
variable {σ α β ε : Type*}

/-- Visit the nodes of a list, up to the first error. -/
def visitAll (visit : σ → Finset α → α → Option (Except ε Unit × σ × Finset α)) :
    List α → σ → Finset α → Option (Except ε Unit × σ × Finset α)
  | [], s, visited        => some (.ok (), s, visited)
  | a :: rest, s, visited =>
    match visit s visited a with
    | none                        => none
    | some (.error e, s, visited) => some (.error e, s, visited)
    | some (.ok (), s, visited)   => visitAll visit rest s visited

namespace Visitor

variable {v : Visitor σ α β ε} {I : σ → Prop}

/-- The state keeps the invariant, and no node is forgotten. -/
def Keeps (I : σ → Prop) (visit : σ → Finset α → α → Option (Except ε Unit × σ × Finset α)) :
    Prop :=
  ∀ s visited a result s' visited', I s → visit s visited a = some (result, s', visited') →
    I s' ∧ visited ⊆ visited'

theorem Keeps.visitAll {visit : σ → Finset α → α → Option (Except ε Unit × σ × Finset α)}
    (h : Keeps I visit) (children : List α) {s s' : σ} {visited visited' : Finset α}
    {result : Except ε Unit} (hs : I s)
    (heq : visitAll visit children s visited = some (result, s', visited')) :
    I s' ∧ visited ⊆ visited' := by
  induction children generalizing s visited with
  | nil =>
    cases heq
    exact ⟨hs, Finset.Subset.rfl⟩
  | cons a rest ih =>
    rw [Lib.visitAll] at heq
    cases hvisit : visit s visited a with
    | none => simp [hvisit] at heq
    | some t =>
      obtain ⟨step, s₁, visited₁⟩ := t
      obtain ⟨hs₁, hsub⟩ := h s visited a step s₁ visited₁ hs hvisit
      rw [hvisit] at heq
      cases step with
      | error e =>
        cases heq
        exact ⟨hs₁, hsub⟩
      | ok u =>
        obtain ⟨hs', hsub'⟩ := ih hs₁ heq
        exact ⟨hs', hsub.trans hsub'⟩

section
variable {γ : Type*} (v : Visitor σ α β ε) (log : σ → β → α → List γ)

/-- The visitor with a log of its leavings. -/
def logged : Visitor (σ × List γ) α β ε where
  enter s visited a := v.enter s.1 visited a
  leave x a s := ((v.leave x a s.1).1, (v.leave x a s.1).2, s.2 ++ log s.1 x a)

/-- The result of a visit without its log. -/
def forget : Except ε Unit × (σ × List γ) × Finset α → Except ε Unit × σ × Finset α
  | (result, (s, _), visited) => (result, s, visited)

/-- A list is visited as without the log, if its nodes are. -/
theorem visitAll_forget
    {visitLogged : σ × List γ → Finset α → α → Option (Except ε Unit × (σ × List γ) × Finset α)}
    {visit : σ → Finset α → α → Option (Except ε Unit × σ × Finset α)}
    (h : ∀ s visited a, (visitLogged s visited a).map forget = visit s.1 visited a)
    (children : List α) (s : σ × List γ) (visited : Finset α) :
    (visitAll visitLogged children s visited).map forget
      = visitAll visit children s.1 visited := by
  induction children generalizing s visited with
  | nil => rfl
  | cons a rest ih =>
    rw [Lib.visitAll, Lib.visitAll, ← h s visited a]
    cases visitLogged s visited a with
    | none => rfl
    | some t =>
      obtain ⟨_ | _, s₁, visited₁⟩ := t
      · rfl
      · exact ih s₁ visited₁

end

variable [DecidableEq α]

/-- Visit one node. -/
def visit (v : Visitor σ α β ε) :
    Nat → σ → Finset α → α → Option (Except ε Unit × σ × Finset α)
  | 0, _, _, _              => none
  | fuel + 1, s, visited, a =>
    if a ∈ visited then some (.ok (), s, visited)
    else
      match v.enter s (insert a visited) a with
      | .error e          => some (.error e, s, insert a visited)
      | .ok (x, children) =>
        match visitAll (v.visit fuel) children s (insert a visited) with
        | none                        => none
        | some (.error e, s, visited) => some (.error e, s, visited)
        | some (.ok (), s, visited)   => some ((v.leave x a s).1, (v.leave x a s).2, visited)

/-! ### A log of the leavings -/

/-- The log changes nothing else of a visit. -/
theorem visit_logged (fuel : Nat) {γ : Type*} (log : σ → β → α → List γ)
    (s : σ × List γ) (visited : Finset α) (a : α) :
    ((v.logged log).visit fuel s visited a).map forget = v.visit fuel s.1 visited a := by
  induction fuel generalizing s visited a with
  | zero => rfl
  | succ fuel ih =>
    rw [visit, visit]
    by_cases hvisited : a ∈ visited
    · rw [if_pos hvisited, if_pos hvisited]
      rfl
    · rw [if_neg hvisited, if_neg hvisited]
      rw [show (v.logged log).enter s (insert a visited) a
        = v.enter s.1 (insert a visited) a from rfl]
      cases v.enter s.1 (insert a visited) a with
      | error e => rfl
      | ok entered =>
        obtain ⟨x, children⟩ := entered
        dsimp only
        rw [← visitAll_forget ih children s (insert a visited)]
        cases Lib.visitAll ((v.logged log).visit fuel) children s (insert a visited) with
        | none => rfl
        | some t =>
          obtain ⟨_ | _, s₁, visited₁⟩ := t <;> rfl

/-! ### What every visit keeps -/

/-- An invariant that every leaving keeps is kept by a visit. -/
theorem visit_invariant (hleave : ∀ x a s, I s → I (v.leave x a s).2) (fuel : Nat) :
    Keeps I (v.visit fuel) := by
  induction fuel with
  | zero =>
    intro s visited a result s' visited' _ heq
    cases heq
  | succ fuel ih =>
    intro s visited a result s' visited' hs heq
    rw [visit] at heq
    by_cases hvisited : a ∈ visited
    · rw [if_pos hvisited] at heq
      cases heq
      exact ⟨hs, Finset.Subset.rfl⟩
    · rw [if_neg hvisited] at heq
      cases henter : v.enter s (insert a visited) a with
      | error e =>
        rw [henter] at heq
        cases heq
        exact ⟨hs, Finset.subset_insert a visited⟩
      | ok entered =>
        obtain ⟨x, children⟩ := entered
        rw [henter] at heq
        dsimp only at heq
        cases hall : Lib.visitAll (v.visit fuel) children s (insert a visited) with
        | none => simp [hall] at heq
        | some t =>
          obtain ⟨step, s₁, visited₁⟩ := t
          obtain ⟨hs₁, hsub⟩ := ih.visitAll children hs hall
          have hgrown := (Finset.subset_insert a visited).trans hsub
          rw [hall] at heq
          cases step with
          | error e =>
            cases heq
            exact ⟨hs₁, hgrown⟩
          | ok u =>
            cases heq
            exact ⟨hleave x a s₁ hs₁, hgrown⟩

/-- A visit of a new node that succeeds ends with the leaving of the node. -/
theorem visit_ok (hleave : ∀ x a s, I s → I (v.leave x a s).2) {fuel : Nat} {s s' : σ}
    {visited visited' : Finset α} {a : α} (hs : I s) (ha : a ∉ visited)
    (heq : v.visit fuel s visited a = some (.ok (), s', visited')) :
    ∃ x s₁, I s₁ ∧ v.leave x a s₁ = (.ok (), s') := by
  cases fuel with
  | zero => cases heq
  | succ fuel =>
    rw [visit, if_neg ha] at heq
    cases henter : v.enter s (insert a visited) a with
    | error e =>
      rw [henter] at heq
      cases heq
    | ok entered =>
      obtain ⟨x, children⟩ := entered
      rw [henter] at heq
      dsimp only at heq
      cases hall : Lib.visitAll (v.visit fuel) children s (insert a visited) with
      | none => simp [hall] at heq
      | some t =>
        obtain ⟨step, s₁, visited₁⟩ := t
        rw [hall] at heq
        cases step with
        | error e => cases heq
        | ok u =>
          simp only [Option.some.injEq, Prod.mk.injEq] at heq
          obtain ⟨hok, hstate, -⟩ := heq
          exact ⟨x, s₁, ((visit_invariant hleave fuel).visitAll children hs hall).1,
            Prod.ext hok hstate⟩

/-! ### Enough fuel -/

section
variable (nodes : Finset α)

theorem visitAll_isSome {visit : σ → Finset α → α → Option (Except ε Unit × σ × Finset α)}
    (hkeeps : Keeps I visit) {bound : Nat}
    (hvisit : ∀ s visited a, I s → a ∈ nodes → (nodes \ visited).card < bound →
      (visit s visited a).isSome) (children : List α) {s : σ} {visited : Finset α} (hs : I s)
    (hchildren : ∀ c ∈ children, c ∈ nodes) (hbound : (nodes \ visited).card < bound) :
    (visitAll visit children s visited).isSome := by
  induction children generalizing s visited with
  | nil => rfl
  | cons a rest ih =>
    rw [Lib.visitAll]
    cases heq : visit s visited a with
    | none =>
      have hsome := hvisit s visited a hs (hchildren a List.mem_cons_self) hbound
      rw [heq] at hsome
      cases hsome
    | some t =>
      obtain ⟨step, s₁, visited₁⟩ := t
      obtain ⟨hs₁, hsub⟩ := hkeeps s visited a step s₁ visited₁ hs heq
      cases step with
      | error e => rfl
      | ok u =>
        refine ih hs₁ (fun c hc => hchildren c (List.mem_cons_of_mem a hc)) ?_
        exact Nat.lt_of_le_of_lt (Finset.card_le_card (Finset.sdiff_subset_sdiff subset_rfl hsub))
          hbound

/-- The fuel is enough when it exceeds the number of nodes that are not visited. -/
theorem visit_isSome (hleave : ∀ x a s, I s → I (v.leave x a s).2)
    (henter : ∀ s visited a x children, I s → v.enter s visited a = .ok (x, children) →
      ∀ c ∈ children, c ∈ nodes) (fuel : Nat) (s : σ) (visited : Finset α) (a : α) (hs : I s)
    (ha : a ∈ nodes) (hfuel : (nodes \ visited).card < fuel) :
    (v.visit fuel s visited a).isSome := by
  induction fuel generalizing s visited a with
  | zero => cases hfuel
  | succ fuel ih =>
    rw [visit]
    by_cases hvisited : a ∈ visited
    · rw [if_pos hvisited]
      rfl
    · rw [if_neg hvisited]
      cases hentered : v.enter s (insert a visited) a with
      | error e => rfl
      | ok entered =>
        obtain ⟨x, children⟩ := entered
        -- One node less is left.
        have hless : (nodes \ insert a visited).card < (nodes \ visited).card := by
          refine Finset.card_lt_card ⟨?_, fun hsub => ?_⟩
          · exact Finset.sdiff_subset_sdiff subset_rfl (Finset.subset_insert a visited)
          · have hmem := hsub (Finset.mem_sdiff.mpr ⟨ha, hvisited⟩)
            exact (Finset.mem_sdiff.mp hmem).2 (Finset.mem_insert_self a visited)
        have hbound : (nodes \ insert a visited).card < fuel := by omega
        have hall := visitAll_isSome nodes (visit_invariant hleave fuel) ih children hs
          (henter s _ a x children hs hentered) hbound
        dsimp only
        cases heq : Lib.visitAll (v.visit fuel) children s (insert a visited) with
        | none =>
          rw [heq] at hall
          cases hall
        | some t =>
          obtain ⟨step, s₁, visited₁⟩ := t
          cases step <;> rfl

end

end Visitor

end

end PolyPlug.Lib
