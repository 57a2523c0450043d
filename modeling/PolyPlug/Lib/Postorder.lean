import Mathlib.Data.List.Nodup
import Mathlib.Logic.Relation
import PolyPlug.Lib.Visit

/-!
# `PolyPlug.Lib.Postorder`: the order in which a visit leaves the nodes

`Walk children visited cs new` says that a depth-first visit of the nodes `cs`, which
finds the nodes `visited` already marked, leaves the nodes `new`, in this order.

* `exists_walk`: in a finite graph there is such an order.
* `Walk.mem_iff`, `Walk.nodup`: from an empty set, the nodes left are the reachable
  ones, once each.
* `Walk.before`: a child is left before its parent, or the parent can be reached from
  the child.
* `Walk.sublist_iff_metFirst`: of two nodes of an acyclic graph without a path between them, the
  one that the search meets first (`MetFirst`) is left first.
* `Walk.visitAll_leaves`: a `Visitor` whose entries succeed, and name the children that
  are not left yet, does what `leaveAll` does on this order: it leaves one node after
  the other, up to the first error.
* `Walk.visitAll_enters`, `Walk.visitAll_refuses`: a `Visitor` that changes nothing
  succeeds exactly if it can enter every node of the order.
-/

set_option autoImplicit false

namespace PolyPlug.Lib

section
variable {α : Type*} [DecidableEq α]

/-! ### The order -/

/-- A node can be reached from another one. -/
def Below (children : α → List α) : α → α → Prop :=
  Relation.ReflTransGen fun a c => c ∈ children a

/-- A visit of the nodes of a list, with a set of marked nodes, and the nodes it leaves. -/
inductive Walk (children : α → List α) : Finset α → List α → List α → Prop
  | nil (visited : Finset α) : Walk children visited [] []
  | skip {visited : Finset α} {a : α} {rest new : List α} (ha : a ∈ visited)
      (hrest : Walk children visited rest new) : Walk children visited (a :: rest) new
  | enter {visited : Finset α} {a : α} {rest below new : List α} (ha : a ∉ visited)
      (hbelow : Walk children (insert a visited) (children a) below)
      (hrest : Walk children (insert a visited ∪ below.toFinset) rest new) :
      Walk children visited (a :: rest) (below ++ a :: new)

variable {children : α → List α} {visited : Finset α} {cs new : List α}

/-- In a finite graph every visit comes to an end. -/
theorem exists_walk (nodes : Finset α) (hclosed : ∀ a ∈ nodes, ∀ c ∈ children a, c ∈ nodes)
    (visited : Finset α) (cs : List α) (hcs : ∀ c ∈ cs, c ∈ nodes) :
    ∃ new, Walk children visited cs new := by
  -- The number of unmarked nodes falls at every entry.
  induction hn : (nodes \ visited).card using Nat.strong_induction_on generalizing visited cs with
  | _ n ihn =>
    induction cs generalizing visited n with
    | nil => exact ⟨[], .nil visited⟩
    | cons a rest ih =>
      have hrest : ∀ c ∈ rest, c ∈ nodes := fun c hc => hcs c (List.mem_cons_of_mem a hc)
      by_cases ha : a ∈ visited
      · obtain ⟨new, hnew⟩ := ih n ihn visited hrest hn
        exact ⟨new, .skip ha hnew⟩
      · have hnode := hcs a List.mem_cons_self
        have hless : ∀ marked : Finset α, insert a visited ⊆ marked →
            (nodes \ marked).card < n := by
          intro marked hsub
          rw [← hn]
          refine Finset.card_lt_card ⟨?_, fun h => ?_⟩
          · exact Finset.sdiff_subset_sdiff subset_rfl
              ((Finset.subset_insert a visited).trans hsub)
          · exact (Finset.mem_sdiff.mp (h (Finset.mem_sdiff.mpr ⟨hnode, ha⟩))).2
              (hsub (Finset.mem_insert_self a visited))
        obtain ⟨below, hbelow⟩ := ihn _ (hless _ subset_rfl) (insert a visited) (children a)
          (hclosed a hnode) rfl
        obtain ⟨new, hnew⟩ := ihn _ (hless _ Finset.subset_union_left)
          (insert a visited ∪ below.toFinset) rest hrest rfl
        exact ⟨below ++ a :: new, .enter ha hbelow hnew⟩

/-! ### What is left -/

namespace Walk

/-- A marked node is not left again. -/
theorem fresh (h : Walk children visited cs new) : ∀ n ∈ new, n ∉ visited := by
  induction h with
  | nil visited => exact fun n hn => absurd hn List.not_mem_nil
  | skip ha hrest ih => exact ih
  | enter ha hbelow hrest ihb ihr =>
    intro n hn hvisited
    rcases List.mem_append.mp hn with hn | hn
    · exact ihb n hn (Finset.mem_insert_of_mem hvisited)
    · rcases List.mem_cons.mp hn with rfl | hn
      · exact ha hvisited
      · exact ihr n hn (Finset.mem_union_left _ (Finset.mem_insert_of_mem hvisited))

theorem nodup (h : Walk children visited cs new) : new.Nodup := by
  induction h with
  | nil visited => exact List.nodup_nil
  | skip ha hrest ih => exact ih
  | @enter visited a rest below new ha hbelow hrest ihb ihr =>
    have hfresh := hrest.fresh
    refine List.nodup_append.mpr ⟨ihb, List.nodup_cons.mpr ⟨fun hmem => ?_, ihr⟩, ?_⟩
    · exact hfresh a hmem (Finset.mem_union_left _ (Finset.mem_insert_self a visited))
    · rintro n hn m hm rfl
      rcases List.mem_cons.mp hm with rfl | hm
      · exact hbelow.fresh n hn (Finset.mem_insert_self n visited)
      · exact hfresh n hm (Finset.mem_union_right _ (List.mem_toFinset.mpr hn))

/-- Every node of the list is marked in the end. -/
theorem covers (h : Walk children visited cs new) : ∀ c ∈ cs, c ∈ visited ∨ c ∈ new := by
  induction h with
  | nil visited => exact fun c hc => absurd hc List.not_mem_nil
  | skip ha hrest ih =>
    intro c hc
    rcases List.mem_cons.mp hc with rfl | hc
    · exact Or.inl ha
    · exact ih c hc
  | enter ha hbelow hrest ihb ihr =>
    intro c hc
    rcases List.mem_cons.mp hc with rfl | hc
    · exact Or.inr (by simp)
    · rcases ihr c hc with hmem | hmem
      · simp only [Finset.mem_union, Finset.mem_insert, List.mem_toFinset] at hmem
        rcases hmem with (rfl | hmem) | hmem
        · exact Or.inr (by simp)
        · exact Or.inl hmem
        · exact Or.inr (List.mem_append_left _ hmem)
      · exact Or.inr (by simp [hmem])

/-- A node that is left can be reached from the list. -/
theorem reached (h : Walk children visited cs new) :
    ∀ n ∈ new, ∃ c ∈ cs, Below children c n := by
  induction h with
  | nil visited => exact fun n hn => absurd hn List.not_mem_nil
  | skip ha hrest ih =>
    intro n hn
    obtain ⟨c, hc, hreach⟩ := ih n hn
    exact ⟨c, List.mem_cons_of_mem _ hc, hreach⟩
  | @enter visited a rest below new ha hbelow hrest ihb ihr =>
    intro n hn
    rcases List.mem_append.mp hn with hn | hn
    · obtain ⟨c, hc, hreach⟩ := ihb n hn
      exact ⟨a, List.mem_cons_self, Relation.ReflTransGen.head hc hreach⟩
    · rcases List.mem_cons.mp hn with rfl | hn
      · exact ⟨n, List.mem_cons_self, .refl⟩
      · obtain ⟨c, hc, hreach⟩ := ihr n hn
        exact ⟨c, List.mem_cons_of_mem _ hc, hreach⟩

/-- A child of a node that is left was marked, or is left earlier, or the node can be
reached from it. -/
theorem before_or (h : Walk children visited cs new) :
    ∀ n ∈ new, ∀ c ∈ children n, [c, n].Sublist new ∨ c ∈ visited ∨ Below children c n := by
  induction h with
  | nil visited => exact fun n hn => absurd hn List.not_mem_nil
  | skip ha hrest ih => exact ih
  | @enter visited a rest below new ha hbelow hrest ihb ihr =>
    intro n hn c hc
    rcases List.mem_append.mp hn with hn | hn
    · rcases ihb n hn c hc with hsub | hmem | hreach
      · exact Or.inl (hsub.trans (List.sublist_append_left _ _))
      · rcases Finset.mem_insert.mp hmem with rfl | hmem
        · obtain ⟨c', hc', hreach⟩ := hbelow.reached n ‹_›
          exact Or.inr (Or.inr (Relation.ReflTransGen.head hc' hreach))
        · exact Or.inr (Or.inl hmem)
      · exact Or.inr (Or.inr hreach)
    · rcases List.mem_cons.mp hn with rfl | hn
      · rcases hbelow.covers c hc with hmem | hmem
        · rcases Finset.mem_insert.mp hmem with rfl | hmem
          · exact Or.inr (Or.inr .refl)
          · exact Or.inr (Or.inl hmem)
        · refine Or.inl ?_
          have hc' : [c].Sublist below := List.singleton_sublist.mpr hmem
          exact hc'.append (List.singleton_sublist.mpr List.mem_cons_self)
      · have hn' : [n].Sublist new := List.singleton_sublist.mpr hn
        rcases ihr n hn c hc with hsub | hmem | hreach
        · exact Or.inl ((hsub.trans (List.sublist_cons_self _ _)).trans
            (List.sublist_append_right _ _))
        · simp only [Finset.mem_union, Finset.mem_insert, List.mem_toFinset] at hmem
          rcases hmem with (rfl | hmem) | hmem
          · exact Or.inl ((hn'.cons_cons c).trans (List.sublist_append_right _ _))
          · exact Or.inr (Or.inl hmem)
          · exact Or.inl ((List.singleton_sublist.mpr hmem).append
              (hn'.trans (List.sublist_cons_self _ _)))
        · exact Or.inr (Or.inr hreach)

/-- The children of a node that is left are marked in the end. -/
theorem closed (h : Walk children visited cs new) :
    ∀ n ∈ new, ∀ c ∈ children n, c ∈ visited ∨ c ∈ new := by
  induction h with
  | nil visited => exact fun n hn => absurd hn List.not_mem_nil
  | skip ha hrest ih => exact ih
  | @enter visited a rest below new ha hbelow hrest ihb ihr =>
    intro n hn c hc
    have hinner : c ∈ insert a visited ∨ c ∈ below → c ∈ visited ∨ c ∈ below ++ a :: new := by
      rintro (hmem | hmem)
      · rcases Finset.mem_insert.mp hmem with rfl | hmem
        · exact Or.inr (by simp)
        · exact Or.inl hmem
      · exact Or.inr (List.mem_append_left _ hmem)
    rcases List.mem_append.mp hn with hn | hn
    · exact hinner (ihb n hn c hc)
    · rcases List.mem_cons.mp hn with rfl | hn
      · exact hinner (hbelow.covers c hc)
      · rcases ihr n hn c hc with hmem | hmem
        · refine hinner ?_
          rcases Finset.mem_union.mp hmem with hmem | hmem
          · exact Or.inl hmem
          · exact Or.inr (List.mem_toFinset.mp hmem)
        · exact Or.inr (by simp [hmem])

/-- Two visits one after the other are one. -/
theorem append {cs' new' : List α} (h : Walk children visited cs new)
    (h' : Walk children (visited ∪ new.toFinset) cs' new') :
    Walk children visited (cs ++ cs') (new ++ new') := by
  induction h with
  | nil visited =>
    rw [List.toFinset_nil, Finset.union_empty] at h'
    exact h'
  | skip ha hrest ih => exact .skip ha (ih h')
  | @enter visited a rest below new ha hbelow hrest _ ihr =>
    rw [List.append_assoc]
    refine .enter ha hbelow (ihr ?_)
    have hmarked : insert a visited ∪ below.toFinset ∪ new.toFinset
        = visited ∪ (below ++ a :: new).toFinset := by
      ext n
      simp only [Finset.mem_union, Finset.mem_insert, List.mem_toFinset, List.mem_append,
        List.mem_cons]
      grind
    rw [hmarked]
    exact h'

section
variable {b : α} (h : Walk children ∅ [b] new)
include h

/-- From one node and nothing marked, the nodes that are left are those below it. -/
theorem mem_iff (n : α) : n ∈ new ↔ Below children b n := by
  constructor
  · intro hn
    obtain ⟨c, hc, hreach⟩ := h.reached n hn
    rwa [List.mem_singleton.mp hc] at hreach
  · intro hreach
    induction hreach with
    | refl => exact (h.covers b List.mem_cons_self).resolve_left (Finset.notMem_empty b)
    | tail _ hc ih => exact (h.closed _ ih _ hc).resolve_left (Finset.notMem_empty _)

/-- A child is left before its parent, unless both lie on a cycle. -/
theorem before {n c : α} (hn : n ∈ new) (hc : c ∈ children n) :
    [c, n].Sublist new ∨ Below children c n := by
  rcases h.before_or n hn c hc with hsub | hmem | hreach
  · exact Or.inl hsub
  · exact absurd hmem (Finset.notMem_empty c)
  · exact Or.inr hreach

end

end Walk

/-! ### Which of two nodes is left first -/

section
variable {children : α → List α} {visited : Finset α} {cs new : List α}

omit [DecidableEq α] in
/-- Two values of a list without repetitions stand in one order. -/
theorem not_sublist_swap {l : List α} {a b : α} (hl : l.Nodup) (hab : [a, b].Sublist l) :
    ¬ [b, a].Sublist l := by
  induction l with
  | nil => cases hab
  | cons x l ih =>
    obtain ⟨hx, hl⟩ := List.nodup_cons.mp hl
    intro hba
    rcases List.sublist_cons_iff.mp hab with htail | ⟨r, hr, htail⟩
    · rcases List.sublist_cons_iff.mp hba with htail' | ⟨r, hr, htail'⟩
      · exact ih hl htail htail'
      · cases hr
        exact hx (htail.subset (List.mem_cons_of_mem a List.mem_cons_self))
    · cases hr
      have hb : b ∈ l := htail.subset List.mem_cons_self
      rcases List.sublist_cons_iff.mp hba with htail' | ⟨r, hr, htail'⟩
      · exact hx (htail'.subset (List.mem_cons_of_mem b List.mem_cons_self))
      · cases hr
        exact hx hb

omit [DecidableEq α] in
/-- One value stands before another. -/
theorem pair_sublist_iff {l : List α} {a b : α} :
    [a, b].Sublist l ↔ ∃ i j : Nat, i < j ∧ l[i]? = some a ∧ l[j]? = some b := by
  induction l with
  | nil =>
    refine iff_of_false (fun h => by cases h) ?_
    rintro ⟨i, j, -, hi, -⟩
    cases hi
  | cons x l ih =>
    rw [List.sublist_cons_iff, ih]
    constructor
    · rintro (⟨i, j, hij, hi, hj⟩ | ⟨r, hr, htail⟩)
      · exact ⟨i + 1, j + 1, Nat.succ_lt_succ hij, hi, hj⟩
      · cases hr
        obtain ⟨j, hj⟩ := List.mem_iff_getElem?.mp (List.singleton_sublist.mp htail)
        exact ⟨0, j + 1, Nat.succ_pos j, rfl, hj⟩
    · rintro ⟨i, j, hij, hi, hj⟩
      cases j with
      | zero => omega
      | succ j =>
        cases i with
        | zero =>
          cases hi
          exact .inr ⟨[b], rfl, List.singleton_sublist.mpr (List.mem_of_getElem? hj)⟩
        | succ i => exact .inl ⟨i, j, by omega, hi, hj⟩

/-- Where a value stands in a list without repetitions. -/
theorem idxOf_of_getElem? {l : List α} (hl : l.Nodup) {i : Nat} {a : α} (h : l[i]? = some a) :
    l.idxOf a = i := by
  obtain ⟨hi, rfl⟩ := List.getElem?_eq_some_iff.mp h
  exact hl.idxOf_getElem i hi

omit [DecidableEq α] in
/-- The search of the list meets `b` before `a`: the first node above one of them is only above
`b`, or the search of its children meets `b` before `a`. -/
inductive MetFirst (children : α → List α) (b a : α) : List α → Prop
  | here {c : α} {cs : List α} (hb : Below children c b) (ha : ¬ Below children c a) :
      MetFirst children b a (c :: cs)
  | inside {c : α} {cs : List α} (hb : Below children c b) (ha : Below children c a)
      (h : MetFirst children b a (children c)) : MetFirst children b a (c :: cs)
  | later {c : α} {cs : List α} (hb : ¬ Below children c b) (ha : ¬ Below children c a)
      (h : MetFirst children b a cs) : MetFirst children b a (c :: cs)

/-- A proper descendant. -/
def ProperlyBelow (children : α → List α) : α → α → Prop :=
  Relation.TransGen fun a c => c ∈ children a

namespace Walk

/-- What can be reached from the list is left, or reached from a marked node. -/
theorem below_mem (h : Walk children visited cs new) {c n : α} (hc : c ∈ cs)
    (hreach : Below children c n) :
    n ∈ new ∨ ∃ v ∈ visited, Below children c v ∧ Below children v n := by
  induction hreach with
  | refl =>
    rcases h.covers c hc with hv | hn
    · exact .inr ⟨c, hv, .refl, .refl⟩
    · exact .inl hn
  | @tail m n hcm hmn ih =>
    rcases ih with hm | ⟨v, hv, hcv, hvm⟩
    · rcases h.closed m hm n hmn with hv | hn
      · exact .inr ⟨n, hv, hcm.tail hmn, .refl⟩
      · exact .inl hn
    · exact .inr ⟨v, hv, hcv, hvm.tail hmn⟩

/-- Marked nodes are above the whole list, or above neither of two nodes. -/
def Aside (children : α → List α) (visited : Finset α) (cs : List α) (a b : α) : Prop :=
  ∀ v ∈ visited, (∀ c ∈ cs, ProperlyBelow children v c) ∨
    (¬ Below children v a ∧ ¬ Below children v b)

variable {a b : α}

/-- Of two nodes without a path between them, the one that is met first is left first. -/
theorem metFirst_left (h : Walk children visited cs new)
    (hacyclic : ∀ n, ¬ ProperlyBelow children n n)
    (hab : ¬ Below children a b) (hba : ¬ Below children b a)
    (haside : Aside children visited cs a b) :
    (MetFirst children b a cs → b ∈ new ∧ (a ∈ new → [b, a].Sublist new)) ∧
    (¬ MetFirst children b a cs → b ∈ new → a ∈ new ∧ [a, b].Sublist new) := by
  induction h with
  | nil visited =>
    refine ⟨fun hmet => ?_, fun _ hb => absurd hb List.not_mem_nil⟩
    cases hmet
  | @skip visited c rest new hc hrest ih =>
    have hrestAside : Aside children visited rest a b := fun v hv =>
      (haside v hv).imp_left fun hall d hd => hall d (List.mem_cons_of_mem c hd)
    obtain ⟨hleft, hright⟩ := ih hrestAside
    -- A marked node of the list would be above itself.
    have hneither : ¬ Below children c a ∧ ¬ Below children c b :=
      (haside c hc).resolve_left fun hall => hacyclic c (hall c List.mem_cons_self)
    constructor
    · intro hmet
      cases hmet with
      | here hb _ => exact absurd hb hneither.2
      | inside hb _ _ => exact absurd hb hneither.2
      | later _ _ hmet => exact hleft hmet
    · intro hmet hb
      exact hright (fun hmet' => hmet (.later hneither.2 hneither.1 hmet')) hb
  | @enter visited c rest below new hc hbelow hrest ihbelow ihrest =>
    -- What is below `c` is left with it.
    have hleft : ∀ n, (n = a ∨ n = b) → Below children c n → n ∈ below ++ [c] := by
      intro n hn hreach
      have hone : Walk children visited [c] (below ++ [c]) := .enter hc hbelow (.nil _)
      rcases hone.below_mem List.mem_cons_self hreach with hmem | ⟨v, hv, hcv, hvn⟩
      · exact hmem
      · rcases haside v hv with hall | ⟨hva, hvb⟩
        · exact absurd ((hall c List.mem_cons_self).trans_left hcv) (hacyclic v)
        · rcases hn with rfl | rfl
          · exact absurd hvn hva
          · exact absurd hvn hvb
    have hreached : ∀ n ∈ below ++ [c], Below children c n := by
      intro n hn
      have hone : Walk children visited [c] (below ++ [c]) := .enter hc hbelow (.nil _)
      obtain ⟨d, hd, hreach⟩ := hone.reached n hn
      rw [List.mem_singleton.mp hd] at hreach
      exact hreach
    have hsplit : below ++ c :: new = (below ++ [c]) ++ new := by simp
    have hbelowAside : Aside children (insert c visited) (children c) a b := by
      intro v hv
      rcases Finset.mem_insert.mp hv with rfl | hv
      · exact .inl fun d hd => .single hd
      · refine (haside v hv).imp_left fun hall d hd => ?_
        exact (hall c List.mem_cons_self).tail hd
    constructor
    · intro hmet
      cases hmet with
      | here hb ha =>
        have hbmem := hleft b (.inr rfl) hb
        refine ⟨by rw [hsplit]; exact List.mem_append_left _ hbmem, fun hamem => ?_⟩
        rw [hsplit] at hamem ⊢
        have hanew : a ∈ new := (List.mem_append.mp hamem).resolve_left
          fun hmem => ha (hreached a hmem)
        exact (List.singleton_sublist.mpr hbmem).append (List.singleton_sublist.mpr hanew)
      | inside hb ha hmet =>
        obtain ⟨hbmem, hsub⟩ := (ihbelow hbelowAside).1 hmet
        have hamem : a ∈ below := by
          rcases List.mem_append.mp (hleft a (.inl rfl) ha) with hmem | hmem
          · exact hmem
          · rw [List.mem_singleton.mp hmem] at hab
            exact absurd hb hab
        exact ⟨List.mem_append_left _ hbmem,
          fun _ => (hsub hamem).trans (List.sublist_append_left _ _)⟩
      | later hb ha hmet =>
        have hrestAside : Aside children (insert c visited ∪ below.toFinset) rest a b := by
          intro v hv
          rw [Finset.mem_union, Finset.mem_insert, List.mem_toFinset] at hv
          rcases hv with (rfl | hv) | hv
          · exact .inr ⟨ha, hb⟩
          · exact (haside v hv).imp_left fun hall d hd => hall d (List.mem_cons_of_mem c hd)
          · have hcv := hreached v (List.mem_append_left _ hv)
            exact .inr ⟨fun hva => ha (hcv.trans hva), fun hvb => hb (hcv.trans hvb)⟩
        obtain ⟨hbmem, hsub⟩ := (ihrest hrestAside).1 hmet
        refine ⟨by rw [hsplit]; exact List.mem_append_right _ hbmem, fun hamem => ?_⟩
        rw [hsplit] at hamem ⊢
        have hanew : a ∈ new := (List.mem_append.mp hamem).resolve_left
          fun hmem => ha (hreached a hmem)
        exact (hsub hanew).trans (List.sublist_append_right _ _)
    · intro hmet hb
      rw [hsplit] at hb ⊢
      by_cases hcb : Below children c b
      · by_cases hca : Below children c a
        · have hmet' : ¬ MetFirst children b a (children c) := fun h => hmet (.inside hcb hca h)
          have hbmem : b ∈ below := by
            rcases List.mem_append.mp (hleft b (.inr rfl) hcb) with hmem | hmem
            · exact hmem
            · rw [List.mem_singleton.mp hmem] at hba
              exact absurd hca hba
          obtain ⟨hamem, hsub⟩ := (ihbelow hbelowAside).2 hmet' hbmem
          exact ⟨List.mem_append_left _ (List.mem_append_left _ hamem),
            (hsub.trans (List.sublist_append_left _ _)).trans (List.sublist_append_left _ _)⟩
        · exact absurd (.here hcb hca) hmet
      · have hbnew : b ∈ new := (List.mem_append.mp hb).resolve_left
          fun hmem => hcb (hreached b hmem)
        by_cases hca : Below children c a
        · have hamem := hleft a (.inl rfl) hca
          exact ⟨List.mem_append_left _ hamem,
            (List.singleton_sublist.mpr hamem).append (List.singleton_sublist.mpr hbnew)⟩
        · have hrestAside : Aside children (insert c visited ∪ below.toFinset) rest a b := by
            intro v hv
            rw [Finset.mem_union, Finset.mem_insert, List.mem_toFinset] at hv
            rcases hv with (rfl | hv) | hv
            · exact .inr ⟨hca, hcb⟩
            · exact (haside v hv).imp_left fun hall d hd => hall d (List.mem_cons_of_mem c hd)
            · have hcv := hreached v (List.mem_append_left _ hv)
              exact .inr ⟨fun hva => hca (hcv.trans hva), fun hvb => hcb (hcv.trans hvb)⟩
          obtain ⟨hamem, hsub⟩ := (ihrest hrestAside).2
            (fun hmet' => hmet (.later hcb hca hmet')) hbnew
          exact ⟨List.mem_append_right _ hamem, hsub.trans (List.sublist_append_right _ _)⟩

/-- **From nothing marked, of two nodes without a path between them the one that is met first is
left first.** -/
theorem sublist_iff_metFirst (h : Walk children ∅ cs new)
    (hacyclic : ∀ n, ¬ ProperlyBelow children n n)
    (hab : ¬ Below children a b) (hba : ¬ Below children b a) (ha : a ∈ new) (hb : b ∈ new) :
    [a, b].Sublist new ↔ ¬ MetFirst children b a cs := by
  obtain ⟨hleft, hright⟩ := h.metFirst_left hacyclic hab hba
    fun v hv => absurd hv (Finset.notMem_empty v)
  constructor
  · intro hsub hmet
    exact not_sublist_swap h.nodup hsub ((hleft hmet).2 ha)
  · intro hmet
    exact (hright hmet hb).2

end Walk

end

/-! ### A visitor that follows the order -/

section
variable {σ β ε : Type*} {v : Visitor σ α β ε} {x : α → β}

section
omit [DecidableEq α]

/-- Leave the nodes of a list, up to the first error. `x` is what their entries read. -/
def Visitor.leaveAll (v : Visitor σ α β ε) (x : α → β) : List α → σ → Except ε Unit × σ
  | [], s        => (.ok (), s)
  | a :: rest, s =>
    match v.leave (x a) a s with
    | (.error e, s) => (.error e, s)
    | (.ok (), s)   => v.leaveAll x rest s

namespace Visitor

theorem leaveAll_cons_error {a : α} {rest : List α} {s s' : σ} {e : ε}
    (h : v.leave (x a) a s = (.error e, s')) :
    v.leaveAll x (a :: rest) s = (.error e, s') := by
  rw [leaveAll, h]

theorem leaveAll_cons_ok {a : α} {rest : List α} {s s' : σ}
    (h : v.leave (x a) a s = (.ok (), s')) :
    v.leaveAll x (a :: rest) s = v.leaveAll x rest s' := by
  rw [leaveAll, h]

theorem leaveAll_append_error {l : List α} {s s' : σ} {e : ε}
    (h : v.leaveAll x l s = (.error e, s')) (l' : List α) :
    v.leaveAll x (l ++ l') s = (.error e, s') := by
  induction l generalizing s with
  | nil => cases h
  | cons a rest ih =>
    rw [List.cons_append, leaveAll]
    rw [leaveAll] at h
    cases hleave : v.leave (x a) a s with
    | mk result s₁ =>
      rw [hleave] at h
      cases result with
      | error e' => exact h
      | ok u => exact ih h

theorem leaveAll_append_ok {l : List α} {s s' : σ} (h : v.leaveAll x l s = (.ok (), s'))
    (l' : List α) : v.leaveAll x (l ++ l') s = v.leaveAll x l' s' := by
  induction l generalizing s with
  | nil =>
    cases h
    rfl
  | cons a rest ih =>
    rw [List.cons_append, leaveAll]
    rw [leaveAll] at h
    cases hleave : v.leave (x a) a s with
    | mk result s₁ =>
      rw [hleave] at h
      cases result with
      | error e' => cases h
      | ok u => exact ih h

/-- What every leaving keeps. -/
theorem leaveAll_invariant {J : σ → Prop} (hleave : ∀ y a s, J s → J (v.leave y a s).2)
    (l : List α) {s : σ} (hs : J s) : J (v.leaveAll x l s).2 := by
  induction l generalizing s with
  | nil => exact hs
  | cons a rest ih =>
    have hnext := hleave (x a) a s hs
    rw [leaveAll]
    cases hleave : v.leave (x a) a s with
    | mk result s₁ =>
      rw [hleave] at hnext
      cases result with
      | error e => exact hnext
      | ok u => exact ih hnext

end Visitor

/-- What a visitor does to follow a walk. `I s log` is what holds of the state when the
nodes `log` are left. An entry succeeds and names the children, except some that are
left already; a leaving that succeeds keeps `I`. -/
structure Visitor.Follows (v : Visitor σ α β ε) (children : α → List α) (x : α → β)
    (I : σ → List α → Prop) (R : α → Prop) : Prop where
  region : ∀ a, R a → ∀ c ∈ children a, R c
  enter : ∀ s log visited a, I s log → R a → a ∉ log → ∃ p : α → Bool,
    v.enter s visited a = .ok (x a, (children a).filter p) ∧
      ∀ c ∈ children a, p c = false → c ∈ log
  leave : ∀ s log a s', I s log → R a → a ∉ log → v.leave (x a) a s = (.ok (), s') →
    I s' (log ++ [a])

theorem Visitor.Follows.leaveAll {I : σ → List α → Prop} {R : α → Prop}
    (hv : v.Follows children x I R) {log new : List α} {s s' : σ} (hs : I s log)
    (hnew : ∀ n ∈ new, R n) (hnodup : (log ++ new).Nodup)
    (h : v.leaveAll x new s = (.ok (), s')) : I s' (log ++ new) := by
  induction new generalizing s log with
  | nil =>
    cases h
    rwa [List.append_nil]
  | cons a rest ih =>
    rw [Visitor.leaveAll] at h
    cases hleave : v.leave (x a) a s with
    | mk result s₁ =>
      rw [hleave] at h
      cases result with
      | error e => cases h
      | ok u =>
        have ha : a ∉ log := fun hmem =>
          (List.nodup_append.mp hnodup).2.2 a hmem a List.mem_cons_self rfl
        have hs₁ := hv.leave s log a s₁ hs (hnew a List.mem_cons_self) ha hleave
        have heq : log ++ a :: rest = (log ++ [a]) ++ rest := by simp
        rw [heq] at hnodup ⊢
        exact ih hs₁ (fun n hn => hnew n (List.mem_cons_of_mem a hn)) hnodup h

/-- The leavings succeed if none of them is one that fails. -/
theorem Visitor.Follows.leaveAll_ok_iff {I : σ → List α → Prop} {R : α → Prop}
    (hv : v.Follows children x I R) (fails : List α → α → Prop)
    (hfails : ∀ s log a, I s log → R a → a ∉ log →
      ((v.leave (x a) a s).1 = .ok () ↔ ¬fails log a))
    {log new : List α} {s : σ} (hs : I s log) (hnew : ∀ n ∈ new, R n)
    (hnodup : (log ++ new).Nodup) :
    (v.leaveAll x new s).1 = .ok () ↔
      ∀ before a after, new = before ++ a :: after → ¬fails (log ++ before) a := by
  induction new generalizing s log with
  | nil => simp [Visitor.leaveAll]
  | cons a rest ih =>
    have hR := hnew a List.mem_cons_self
    have ha : a ∉ log := fun hmem =>
      (List.nodup_append.mp hnodup).2.2 a hmem a List.mem_cons_self rfl
    have hfirst := hfails s log a hs hR ha
    have happend : ∀ before, log ++ a :: before = (log ++ [a]) ++ before := by simp
    rw [Visitor.leaveAll]
    cases hleave : v.leave (x a) a s with
    | mk result s₁ =>
      rw [hleave] at hfirst
      cases result with
      | error e =>
        refine iff_of_false nofun fun hall => ?_
        have hnot := hall [] a rest rfl
        rw [List.append_nil] at hnot
        exact nomatch hfirst.mpr hnot
      | ok u =>
        have hs₁ := hv.leave s log a s₁ hs hR ha hleave
        have hrest := ih hs₁ (fun n hn => hnew n (List.mem_cons_of_mem a hn))
          (happend rest ▸ hnodup)
        refine hrest.trans ⟨fun hall before c after heq => ?_, fun hall before c after heq => ?_⟩
        · cases before with
          | nil =>
            cases heq
            rw [List.append_nil]
            exact hfirst.mp rfl
          | cons a' before =>
            obtain ⟨rfl, hrest⟩ := List.cons.inj heq
            rw [happend]
            exact hall before c after hrest
        · rw [← happend]
          exact hall (a :: before) c after (by rw [heq]; rfl)

end

/-! ### One node of a list -/

section
variable {visit : σ → Finset α → α → Option (Except ε Unit × σ × Finset α)} {s s' : σ}
  {visited marked : Finset α} {a : α} {rest : List α} {e : ε}

omit [DecidableEq α] in
theorem visitAll_cons_of_error (h : visit s visited a = some (.error e, s', marked)) :
    visitAll visit (a :: rest) s visited = some (.error e, s', marked) := by
  rw [visitAll, h]

omit [DecidableEq α] in
theorem visitAll_cons_of_ok (h : visit s visited a = some (.ok (), s', marked)) :
    visitAll visit (a :: rest) s visited = visitAll visit rest s' marked := by
  rw [visitAll, h]

omit [DecidableEq α] in
theorem visitAll_singleton (visit : σ → Finset α → α → Option (Except ε Unit × σ × Finset α))
    (a : α) (s : σ) (visited : Finset α) : visitAll visit [a] s visited = visit s visited a := by
  rw [visitAll]
  rcases visit s visited a with _ | ⟨_ | _, _⟩ <;> rfl

variable {fuel : Nat} {y : β} {cs : List α}

theorem Visitor.visit_of_error (ha : a ∉ visited)
    (henter : v.enter s (insert a visited) a = .ok (y, cs))
    (hall : visitAll (v.visit fuel) cs s (insert a visited) = some (.error e, s', marked)) :
    v.visit (fuel + 1) s visited a = some (.error e, s', marked) := by
  rw [visit, if_neg ha, henter]
  dsimp only
  rw [hall]

theorem Visitor.visit_of_ok (ha : a ∉ visited)
    (henter : v.enter s (insert a visited) a = .ok (y, cs))
    (hall : visitAll (v.visit fuel) cs s (insert a visited) = some (.ok (), s', marked)) :
    v.visit (fuel + 1) s visited a
      = some ((v.leave y a s').1, (v.leave y a s').2, marked) := by
  rw [visit, if_neg ha, henter]
  dsimp only
  rw [hall]

theorem Visitor.visit_of_mem (ha : a ∈ visited) :
    v.visit (fuel + 1) s visited a = some (.ok (), s, visited) := by
  rw [visit, if_pos ha]

end

/-- What is marked when a node is left and the rest of its list is visited. -/
theorem marked_enter (a : α) (visited : Finset α) (below new : List α) :
    insert a visited ∪ below.toFinset ∪ new.toFinset
      = visited ∪ (below ++ a :: new).toFinset := by
  simp [Finset.insert_union, Finset.union_insert, Finset.union_assoc]

namespace Walk

/-- A visitor that follows the walk leaves its nodes one after the other. The nodes of
the list that `p` drops are marked. -/
theorem visitAll_leaves {I : σ → List α → Prop} {R : α → Prop}
    (hv : v.Follows children x I R) (h : Walk children visited cs new) (p : α → Bool)
    (hp : ∀ c ∈ cs, p c = false → c ∈ visited) (hcs : ∀ c ∈ cs, R c) {s : σ} {l : List α}
    (hs : I s l) (hlog : ∀ n ∈ l, n ∈ visited) (hnodup : l.Nodup) :
    ∃ k, ∀ fuel ≥ k, ∃ marked,
      visitAll (v.visit fuel) (cs.filter p) s visited
          = some ((v.leaveAll x new s).1, (v.leaveAll x new s).2, marked) ∧
        ((v.leaveAll x new s).1 = .ok () → marked = visited ∪ new.toFinset) := by
  induction h generalizing s l p with
  | nil visited => exact ⟨0, fun fuel _ => ⟨visited, rfl, fun _ => by simp⟩⟩
  | @skip visited a rest new ha hrest ih =>
    have hp' : ∀ c ∈ rest, p c = false → c ∈ visited := fun c hc =>
      hp c (List.mem_cons_of_mem a hc)
    obtain ⟨k, hk⟩ := ih p hp' (fun c hc => hcs c (List.mem_cons_of_mem a hc)) hs hlog hnodup
    refine ⟨k + 1, fun fuel hfuel => ?_⟩
    rw [List.filter_cons]
    split
    · -- The node is marked: its visit does nothing.
      obtain ⟨fuel, rfl⟩ : ∃ f, fuel = f + 1 := ⟨fuel - 1, by omega⟩
      rw [visitAll_cons_of_ok (Visitor.visit_of_mem ha)]
      exact hk (fuel + 1) (by omega)
    · exact hk fuel (by omega)
  | @enter visited a rest below new ha hbelow hrest ihb ihr =>
    have hR := hcs a List.mem_cons_self
    have hlogs : ∀ n ∈ l, n ∈ insert a visited := fun n hn =>
      Finset.mem_insert_of_mem (hlog n hn)
    have halog : a ∉ l := fun hmem => ha (hlog a hmem)
    have hpa : p a = true := by
      rw [← Bool.not_eq_false]
      exact fun hfalse => ha (hp a List.mem_cons_self hfalse)
    have hregion : ∀ n ∈ below, R n := by
      intro n hn
      obtain ⟨c, hc, hreach⟩ := hbelow.reached n hn
      have hstart := hv.region a hR c hc
      clear hn hc
      induction hreach with
      | refl => exact hstart
      | tail _ hstep ih => exact hv.region _ ih _ hstep
    have hbnodup : (l ++ below).Nodup :=
      List.nodup_append.mpr ⟨hnodup, hbelow.nodup, fun n hn m hm heq =>
        hbelow.fresh m hm (heq ▸ hlogs n hn)⟩
    obtain ⟨q, hq, hqlog⟩ := hv.enter s l (insert a visited) a hs hR halog
    obtain ⟨k₁, hk₁⟩ := ihb q (fun c hc hfalse => hlogs c (hqlog c hc hfalse))
      (hv.region a hR) hs hlogs hnodup
    rw [List.filter_cons, if_pos hpa]
    cases hall : v.leaveAll x below s with
    | mk result s₁ =>
      rw [hall] at hk₁
      cases result with
      | error e =>
        -- A node below `a` fails.
        rw [Visitor.leaveAll_append_error hall]
        refine ⟨k₁ + 1, fun fuel hfuel => ?_⟩
        obtain ⟨fuel, rfl⟩ : ∃ f, fuel = f + 1 := ⟨fuel - 1, by omega⟩
        obtain ⟨marked, hmarked, -⟩ := hk₁ fuel (by omega)
        exact ⟨marked, visitAll_cons_of_error (Visitor.visit_of_error ha hq hmarked), nofun⟩
      | ok u =>
        have hs₁ := hv.leaveAll hs hregion hbnodup hall
        have halog₁ : a ∉ l ++ below := fun hmem =>
          (List.mem_append.mp hmem).elim halog fun hmem =>
            hbelow.fresh a hmem (Finset.mem_insert_self a visited)
        rw [Visitor.leaveAll_append_ok hall, Visitor.leaveAll]
        cases hleave : v.leave (x a) a s₁ with
        | mk result s₂ =>
          cases result with
          | error e =>
            -- The leaving of `a` fails.
            refine ⟨k₁ + 1, fun fuel hfuel => ?_⟩
            obtain ⟨fuel, rfl⟩ : ∃ f, fuel = f + 1 := ⟨fuel - 1, by omega⟩
            obtain ⟨marked, hmarked, -⟩ := hk₁ fuel (by omega)
            have hvisit := Visitor.visit_of_ok ha hq hmarked
            rw [hleave] at hvisit
            exact ⟨marked, visitAll_cons_of_error hvisit, nofun⟩
          | ok u =>
            have hs₂ := hv.leave s₁ (l ++ below) a s₂ hs₁ hR halog₁ hleave
            obtain ⟨k₂, hk₂⟩ := ihr p
              (fun c hc hfalse => Finset.mem_union_left _ (Finset.mem_insert_of_mem
                (hp c (List.mem_cons_of_mem a hc) hfalse)))
              (fun c hc => hcs c (List.mem_cons_of_mem a hc)) hs₂
              (fun n hn => by
                rcases List.mem_append.mp hn with hn | hn
                · rcases List.mem_append.mp hn with hn | hn
                  · exact Finset.mem_union_left _ (hlogs n hn)
                  · exact Finset.mem_union_right _ (List.mem_toFinset.mpr hn)
                · rw [List.mem_singleton.mp hn]
                  exact Finset.mem_union_left _ (Finset.mem_insert_self a visited))
              (List.nodup_append.mpr ⟨hbnodup, List.nodup_singleton a, fun n hn m hm heq =>
                halog₁ (List.mem_singleton.mp hm ▸ heq ▸ hn)⟩)
            refine ⟨max k₁ k₂ + 1, fun fuel hfuel => ?_⟩
            obtain ⟨fuel, rfl⟩ : ∃ f, fuel = f + 1 := ⟨fuel - 1, by omega⟩
            obtain ⟨marked₁, hmarked₁, hfull⟩ := hk₁ fuel (by omega)
            obtain rfl := hfull rfl
            obtain ⟨marked₂, hmarked₂, hrest₂⟩ := hk₂ (fuel + 1) (by omega)
            have hvisit := Visitor.visit_of_ok ha hq hmarked₁
            rw [hleave] at hvisit
            refine ⟨marked₂, ?_, fun hok => ?_⟩
            · rw [visitAll_cons_of_ok hvisit]
              exact hmarked₂
            · rw [hrest₂ hok, marked_enter]

section
variable {s : σ} (enters : α → Prop)
  (henter : ∀ visited a, enters a → ∃ y, v.enter s visited a = .ok (y, children a))
  (hleave : ∀ y a, v.leave y a s = (.ok (), s))
include henter hleave

/-- A visitor that changes nothing and enters every node of the walk succeeds. -/
theorem visitAll_enters (h : Walk children visited cs new) (hall : ∀ n ∈ new, enters n) :
    ∃ k, ∀ fuel ≥ k,
      visitAll (v.visit fuel) cs s visited = some (.ok (), s, visited ∪ new.toFinset) := by
  induction h with
  | nil visited => exact ⟨0, fun fuel _ => by simp [visitAll]⟩
  | @skip visited a rest new ha hrest ih =>
    obtain ⟨k, hk⟩ := ih hall
    refine ⟨k + 1, fun fuel hfuel => ?_⟩
    obtain ⟨fuel, rfl⟩ : ∃ f, fuel = f + 1 := ⟨fuel - 1, by omega⟩
    rw [visitAll_cons_of_ok (Visitor.visit_of_mem ha)]
    exact hk (fuel + 1) (by omega)
  | @enter visited a rest below new ha hbelow hrest ihb ihr =>
    obtain ⟨k₁, hk₁⟩ := ihb fun n hn => hall n (by simp [hn])
    obtain ⟨k₂, hk₂⟩ := ihr fun n hn => hall n (by simp [hn])
    obtain ⟨y, hentered⟩ := henter (insert a visited) a (hall a (by simp))
    refine ⟨max k₁ k₂ + 1, fun fuel hfuel => ?_⟩
    obtain ⟨fuel, rfl⟩ : ∃ f, fuel = f + 1 := ⟨fuel - 1, by omega⟩
    have hvisit := Visitor.visit_of_ok ha hentered (hk₁ fuel (by omega))
    rw [hleave] at hvisit
    rw [visitAll_cons_of_ok hvisit, hk₂ (fuel + 1) (by omega), marked_enter]

/-- A visitor that changes nothing and cannot enter some node of the walk fails. -/
theorem visitAll_refuses (hrefuse : ∀ visited a, ¬enters a → ∃ e, v.enter s visited a = .error e)
    (h : Walk children visited cs new) (hsome : ∃ n ∈ new, ¬enters n) :
    ∃ k e marked, ∀ fuel ≥ k,
      visitAll (v.visit fuel) cs s visited = some (.error e, s, marked) := by
  induction h with
  | nil visited => simp at hsome
  | @skip visited a rest new ha hrest ih =>
    obtain ⟨k, e, marked, hk⟩ := ih hsome
    refine ⟨k + 1, e, marked, fun fuel hfuel => ?_⟩
    obtain ⟨fuel, rfl⟩ : ∃ f, fuel = f + 1 := ⟨fuel - 1, by omega⟩
    rw [visitAll_cons_of_ok (Visitor.visit_of_mem ha)]
    exact hk (fuel + 1) (by omega)
  | @enter visited a rest below new ha hbelow hrest ihb ihr =>
    by_cases hself : enters a
    · obtain ⟨y, hentered⟩ := henter (insert a visited) a hself
      by_cases hinner : ∃ n ∈ below, ¬enters n
      · obtain ⟨k, e, marked, hk⟩ := ihb hinner
        refine ⟨k + 1, e, marked, fun fuel hfuel => ?_⟩
        obtain ⟨fuel, rfl⟩ : ∃ f, fuel = f + 1 := ⟨fuel - 1, by omega⟩
        exact visitAll_cons_of_error (Visitor.visit_of_error ha hentered (hk fuel (by omega)))
      · -- The node that cannot be entered is after `a`.
        push Not at hinner
        obtain ⟨n, hn, hnot⟩ := hsome
        have hn' : n ∈ new := by
          rcases List.mem_append.mp hn with hn | hn
          · exact absurd (hinner n hn) hnot
          · rcases List.mem_cons.mp hn with rfl | hn
            · exact absurd hself hnot
            · exact hn
        obtain ⟨k₁, hk₁⟩ := visitAll_enters enters henter hleave hbelow hinner
        obtain ⟨k₂, e, marked, hk₂⟩ := ihr ⟨n, hn', hnot⟩
        refine ⟨max k₁ k₂ + 1, e, marked, fun fuel hfuel => ?_⟩
        obtain ⟨fuel, rfl⟩ : ∃ f, fuel = f + 1 := ⟨fuel - 1, by omega⟩
        have hvisit := Visitor.visit_of_ok ha hentered (hk₁ fuel (by omega))
        rw [hleave] at hvisit
        rw [visitAll_cons_of_ok hvisit]
        exact hk₂ (fuel + 1) (by omega)
    · obtain ⟨e, he⟩ := hrefuse (insert a visited) a hself
      refine ⟨1, e, insert a visited, fun fuel hfuel => ?_⟩
      obtain ⟨fuel, rfl⟩ : ∃ f, fuel = f + 1 := ⟨fuel - 1, by omega⟩
      refine visitAll_cons_of_error ?_
      rw [Visitor.visit, if_neg ha, he]

end

end Walk

end

end

end PolyPlug.Lib
