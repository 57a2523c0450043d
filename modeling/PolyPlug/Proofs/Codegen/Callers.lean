import PolyPlug.Codegen.Callers
import PolyPlug.Lib.Run

/-!
# `PolyPlug.Proofs.Codegen.Callers`: which caller keeps its instance

Two method calls of a caller use one instance if its handle resolves to one interface all the time
between them, and an instance is destroyed at most once, through an interface that the handle still
resolves to (`Lawful`). `lawful_run` proves it for runs in which a revision that is the cached one
means that nothing changed, and in which no peer caller revalidates where nothing did. A host
caller keeps an instance whose interface is still the same, and a peer caller makes a new one
(`peer_loses_instance`).

Without a wrap of the revision a host caller meets the condition (`meets_of_noWrap`). The last
section shows that the operations of the Rust host caller are the host calls of
`PolyPlug.Codegen.HostCaller`, with no publish between them.
-/

set_option autoImplicit false

namespace PolyPlug.Codegen

open PolyPlug.Abi
open PolyPlug.Lib
open PolyPlug.Registry

/-! ### What an operation can do -/

section
variable {kind : CallerKind} {h : HostSide} {c : Caller} {data : Nat}

theorem interface_of_isValid (hvalid : kind.isValid c = true) : ∃ i, c.interface = some i := by
  refine Option.isSome_iff_exists.mp ?_
  cases kind with
  | rustHost => exact hvalid
  | luaHost => exact (Bool.and_eq_true .. ▸ hvalid : _ ∧ _).1
  | luaPeer => exact hvalid

theorem not_isValid_of_none (hnone : c.interface = none) : kind.isValid c = false := by
  cases kind <;> simp [CallerKind.isValid, hnone]

@[simp] theorem isValid_stamp (revision : Nat) :
    kind.isValid { c with cachedRevision := revision } = kind.isValid c := by
  cases kind <;> rfl

/-- A caller of a live interface stays one with another instance of one. -/
theorem isValid_of_some {i : Nat} (hi : c.interface = some i) (hlive : c.destroyed = false) :
    kind.isValid c = true := by
  cases kind <;> simp [CallerKind.isValid, hi, hlive]

/-- The Lua host caller is not destroyed where it is valid. -/
theorem live_of_isValid (hvalid : CallerKind.luaHost.isValid c = true) :
    ¬ (c.destroyed = true ∨ c.interface = none) := by
  obtain ⟨i, hi⟩ := interface_of_isValid hvalid
  simpa [CallerKind.isValid, hi] using hvalid

/-- A caller that lost its contract. -/
structure Lost (c c' : Caller) : Prop where
  handle : c'.handle = c.handle
  interface : c'.interface = none
  inst : c'.inst = .null

theorem revalidate_gone (hvalid : kind.isValid c = true) (hres : h.resolve c.handle = none) :
    ∃ c', Lost c c' ∧ kind.revalidate h c data = ((h, c'), false) := by
  cases kind with
  | rustHost =>
    refine ⟨c.gone h.revision, ⟨rfl, rfl, rfl⟩, ?_⟩
    simp [CallerKind.revalidate, rustRevalidate, hres]
  | luaHost =>
    refine ⟨{ c.gone h.revision with destroyed := true }, ⟨rfl, rfl, rfl⟩, ?_⟩
    simp [CallerKind.revalidate, luaRevalidate, live_of_isValid hvalid, hres]
  | luaPeer =>
    refine ⟨c.gone h.revision, ⟨rfl, rfl, rfl⟩, ?_⟩
    simp [CallerKind.revalidate, peerRevalidate, hres]

/-- A host caller keeps its instance for the interface it has. -/
theorem revalidate_same (hkind : kind ≠ .luaPeer) (hvalid : kind.isValid c = true)
    (hres : h.resolve c.handle = c.interface) :
    kind.revalidate h c data = ((h, { c with cachedRevision := h.revision }), true) := by
  obtain ⟨i, hi⟩ := interface_of_isValid hvalid
  cases kind with
  | rustHost => simp [CallerKind.revalidate, rustRevalidate, hres, hi]
  | luaHost =>
    have hlive : c.destroyed = false := by simpa [hi] using live_of_isValid hvalid
    simp [CallerKind.revalidate, luaRevalidate, hlive, hres, hi]
  | luaPeer => exact absurd rfl hkind

/-- For another interface every caller makes an instance, and the peer caller for any. -/
theorem revalidate_renews (hvalid : kind.isValid c = true) {i : Nat}
    (hres : h.resolve c.handle = some i) (hnew : kind = .luaPeer ∨ some i ≠ c.interface) :
    kind.revalidate h c data = (renew h c (some i) data, true) := by
  cases kind with
  | rustHost => simp [CallerKind.revalidate, rustRevalidate, hres, hnew.resolve_left (by simp)]
  | luaHost =>
    simp [CallerKind.revalidate, luaRevalidate, live_of_isValid hvalid, hres,
      hnew.resolve_left (by simp)]
  | luaPeer => simp [CallerKind.revalidate, peerRevalidate, hres]

/-- A method call fails, keeps the instance of the caller, or makes one. -/
theorem call_cases (kind : CallerKind) (h : HostSide) (c : Caller) (data : Nat) :
    (kind.isValid c = false ∧ kind.call h c data = ((h, c), none)) ∨
      (kind.isValid c = true ∧ ∃ c', Lost c c' ∧ h.resolve c.handle = none ∧
        kind.call h c data = ((h, c'), none)) ∨
      (kind.isValid c = true ∧
        (h.revision = c.cachedRevision ∨ h.resolve c.handle = c.interface ∧ kind ≠ .luaPeer) ∧
        kind.call h c data = ((h, { c with cachedRevision := h.revision }), some c.inst)) ∨
      (kind.isValid c = true ∧ h.revision ≠ c.cachedRevision ∧ ∃ i, h.resolve c.handle = some i ∧
        (kind = .luaPeer ∨ some i ≠ c.interface) ∧
        kind.call h c data = (renew h c (some i) data, some (renew h c (some i) data).2.inst)) := by
  rw [CallerKind.call]
  cases hvalid : kind.isValid c with
  | false => exact .inl ⟨rfl, if_pos rfl⟩
  | true =>
    rw [if_neg (by simp)]
    right
    by_cases hrev : h.revision = c.cachedRevision
    · rw [if_neg (not_not.mpr hrev), hrev]
      exact .inr (.inl ⟨rfl, .inl rfl, rfl⟩)
    · rw [if_pos hrev]
      dsimp only
      cases hres : h.resolve c.handle with
      | none =>
        obtain ⟨c', hlost, heq⟩ := @revalidate_gone kind h c data hvalid hres
        exact .inl ⟨rfl, c', hlost, rfl, by rw [heq]; rfl⟩
      | some i =>
        by_cases hnew : kind = .luaPeer ∨ some i ≠ c.interface
        · rw [revalidate_renews hvalid hres hnew]
          exact .inr (.inr ⟨rfl, hrev, i, rfl, hnew, rfl⟩)
        · obtain ⟨hkind, hsame⟩ := not_or.mp hnew
          rw [revalidate_same hkind hvalid (hres.trans (not_not.mp hsame))]
          exact .inr (.inl ⟨rfl, .inr ⟨not_not.mp hsame, hkind⟩, rfl⟩)

/-- The instance of a caller is left as it is, or destroyed through the interface of the caller. -/
inductive Ends (kind : CallerKind) (h : HostSide) (c : Caller) : HostSide → Prop
  | left : Ends kind h c h
  | destroyed (hvalid : kind.isValid c = true)
      (hsame : h.revision = c.cachedRevision ∨ h.resolve c.handle = c.interface) :
      Ends kind h c (h.destroy c)

/-- A reset leaves a caller as it is or without an interface, or ends its instance and makes
one. -/
theorem reset_cases (kind : CallerKind) (h : HostSide) (c : Caller) (data : Nat) :
    (∃ c', (c' = c ∨ Lost c c') ∧ kind.reset h c data = (h, c')) ∨
      ∃ h' i, Ends kind h c h' ∧
        (h.resolve c.handle = some i ∨ h.revision = c.cachedRevision ∧ c.interface = some i ∧
          kind.isValid c = true) ∧ kind.reset h c data = renew h' c (some i) data := by
  cases kind with
  | rustHost =>
    rw [CallerKind.reset, rustReset]
    by_cases hlook : h.revision ≠ c.cachedRevision ∨ c.interface = none
    · rw [if_pos hlook]
      cases hres : h.resolve c.handle with
      | none => exact .inl ⟨c.gone h.revision, .inr ⟨rfl, rfl, rfl⟩, rfl⟩
      | some i =>
        refine .inr ⟨_, i, ?_, .inl rfl, rfl⟩
        split
        · next hsame =>
          have hvalid : CallerKind.rustHost.isValid c = true := by
            rw [CallerKind.isValid, ← hsame.1]
            rfl
          exact .destroyed hvalid (.inr (hres.trans hsame.1))
        · exact .left
    · rw [if_neg hlook]
      obtain ⟨hrev, hnone⟩ := not_or.mp hlook
      obtain ⟨i, hi⟩ := Option.ne_none_iff_exists'.mp hnone
      have hvalid : CallerKind.rustHost.isValid c = true := by
        rw [CallerKind.isValid, hi]
        rfl
      refine .inr ⟨_, i, ?_, .inr ⟨not_not.mp hrev, hi, hvalid⟩, by rw [hi]⟩
      split
      · exact .destroyed hvalid (.inl (not_not.mp hrev))
      · exact .left
  | luaHost =>
    rw [CallerKind.reset, luaReset]
    by_cases hgone : c.interface = none ∨ c.destroyed = true
    · exact .inl ⟨c, .inl rfl, if_pos hgone⟩
    · rw [if_neg hgone]
      obtain ⟨hnone, hlive⟩ := not_or.mp hgone
      obtain ⟨i, hi⟩ := Option.ne_none_iff_exists'.mp hnone
      have hvalid : CallerKind.luaHost.isValid c = true :=
        isValid_of_some hi (Bool.eq_false_iff.mpr hlive)
      by_cases hrev : h.revision = c.cachedRevision
      · rw [if_neg (not_not.mpr hrev), hi]
        exact .inr ⟨_, i, .destroyed hvalid (.inl hrev), .inr ⟨hrev, rfl, hvalid⟩, rfl⟩
      · rw [if_pos hrev]
        cases hres : h.resolve c.handle with
        | none =>
          exact .inl ⟨{ c.gone h.revision with destroyed := true }, .inr ⟨rfl, rfl, rfl⟩, rfl⟩
        | some j =>
          refine .inr ⟨_, j, ?_, .inl rfl, rfl⟩
          split
          · next hsame => exact .destroyed hvalid (.inr (hres.trans hsame))
          · exact .left
  | luaPeer => exact .inl ⟨c, .inl rfl, rfl⟩

/-- The end of a caller ends its instance. -/
theorem destroy_ends (kind : CallerKind) (h : HostSide) (c : Caller)
    (hempty : c.interface = none → c.inst = .null) : Ends kind h c (kind.destroy h c).1 := by
  cases kind with
  | rustHost =>
    show Ends .rustHost h c (rustDrop h c)
    rw [rustDrop]
    split
    · exact .left
    · next hsame =>
      split
      · next hdata =>
        -- A caller without an interface holds the null instance.
        have hvalid : CallerKind.rustHost.isValid c = true := by
          rw [CallerKind.isValid, Option.isSome_iff_ne_none]
          intro hnone
          rw [hempty hnone] at hdata
          exact hdata rfl
        refine .destroyed hvalid ?_
        rcases not_and_or.mp hsame with hrev | hres
        · exact .inl (not_not.mp hrev)
        · exact .inr (not_not.mp hres)
      · exact .left
  | luaHost =>
    show Ends .luaHost h c (luaDestroy h c).1
    rw [luaDestroy]
    split
    · exact .left
    · next hgone =>
      obtain ⟨hnone, hlive⟩ := not_or.mp hgone
      obtain ⟨i, hi⟩ := Option.ne_none_iff_exists'.mp hnone
      have hvalid : CallerKind.luaHost.isValid c = true :=
        isValid_of_some hi (Bool.eq_false_iff.mpr hlive)
      split
      · exact .left
      · next hsame =>
        refine .destroyed hvalid ?_
        rcases not_and_or.mp hsame with hrev | hres
        · exact .inl (not_not.mp hrev)
        · exact .inr (not_not.mp (not_or.mp hres).2)
  | luaPeer => exact .left

/-- What is left of a caller holds nothing, unless it stays as it is. -/
theorem destroy_leaves (kind : CallerKind) (h : HostSide) (c : Caller) :
    kind.destroy h c = (h, some c) ∨ ∀ c' ∈ (kind.destroy h c).2, Lost c c' := by
  cases kind with
  | rustHost => exact .inr fun c' hc' => by cases hc'
  | luaHost =>
    rw [CallerKind.destroy, luaDestroy]
    have hlost : ∀ c' ∈ some c.destroy, Lost c c' := by
      intro c' hc'
      obtain rfl := Option.mem_some_iff.mp hc'
      exact ⟨rfl, rfl, rfl⟩
    split
    · exact .inl rfl
    · split
      · exact .inr hlost
      · exact .inr hlost
  | luaPeer => exact .inl rfl

end

/-! ### The property -/

/-- The steps that may lie between two method calls of a caller whose instance is kept. -/
def CallerAct.between : CallerAct → Bool
  | .publish _ => true
  | .call _    => true
  | _          => false

open CallerRun in
/-- Two method calls with no reset and no end of the caller between them use the same instance if
the handle resolves to the same interface all the time. Each instance is destroyed at most once, and
through an interface that the handle resolves to. -/
structure Lawful (kind : CallerKind) (acts : List CallerAct) : Prop where
  keeps : ∀ j k d e, j < k → acts[j]? = some (.call d) → acts[k]? = some (.call e) →
    (∀ l, j < l → l < k → ∀ act, acts[l]? = some act → act.between = true) →
    (∀ l, j < l → l ≤ k →
      (stateAt (exec kind) new acts l).resolved = (stateAt (exec kind) new acts j).resolved) →
    uses kind (stateAt (exec kind) new acts j) d = uses kind (stateAt (exec kind) new acts k) e
  once : ((run (exec kind) new acts).host.destroyed.map fun x => x.inst.made).Nodup
  live : ∀ x ∈ (run (exec kind) new acts).host.destroyed, x.interface = x.resolved

namespace CallerRun

/-- A valid caller whose revision is the current one has the interface that its handle resolves
to. -/
def StampRight (kind : CallerKind) (s : CallerRun) : Prop :=
  ∀ c ∈ s.caller, kind.isValid c = true → s.host.revision = c.cachedRevision →
    s.host.resolve c.handle = c.interface

/-- If the handle has resolved to one interface ever since the last method call, the revision is
the cached one. -/
def Unmoved (kind : CallerKind) (s : CallerRun) : Prop :=
  ∀ c ∈ s.caller, kind.isValid c = true → s.steady.isSome = true →
    s.host.revision = c.cachedRevision

/-- The condition of a step. -/
def Meets (kind : CallerKind) (s : CallerRun) : CallerAct → Prop
  | .call _  => s.StampRight kind ∧ (kind = .luaPeer → s.Unmoved kind)
  | .reset _ => s.StampRight kind
  | .destroy => s.StampRight kind
  | _        => True

instance (kind : CallerKind) (s : CallerRun) : Decidable (s.StampRight kind) :=
  inferInstanceAs (Decidable (∀ c ∈ s.caller, kind.isValid c = true →
    s.host.revision = c.cachedRevision → s.host.resolve c.handle = c.interface))

instance (kind : CallerKind) (s : CallerRun) : Decidable (s.Unmoved kind) :=
  inferInstanceAs (Decidable (∀ c ∈ s.caller, kind.isValid c = true → s.steady.isSome = true →
    s.host.revision = c.cachedRevision))

instance (kind : CallerKind) (s : CallerRun) : ∀ act, Decidable (s.Meets kind act)
  | .call _     =>
    inferInstanceAs (Decidable (s.StampRight kind ∧ (kind = .luaPeer → s.Unmoved kind)))
  | .reset _    => inferInstanceAs (Decidable (s.StampRight kind))
  | .destroy    => inferInstanceAs (Decidable (s.StampRight kind))
  | .publish _  => inferInstanceAs (Decidable True)
  | .create _ _ => inferInstanceAs (Decidable True)

end CallerRun

/-! ### The instances that are destroyed -/

/-- The instances that were made and destroyed. -/
structure Books (h : HostSide) : Prop where
  past : ∀ x ∈ h.destroyed, ∃ m < h.made, x.inst.made = some m
  once : (h.destroyed.map fun x => x.inst.made).Nodup
  live : ∀ x ∈ h.destroyed, x.interface = x.resolved

/-- The instance of a caller was made and not destroyed, and without an interface there is none. -/
structure Held (kind : CallerKind) (h : HostSide) (c : Caller) : Prop where
  empty : c.interface = none → c.inst = .null
  held : kind.isValid c = true →
    ∃ m < h.made, c.inst.made = some m ∧ ∀ x ∈ h.destroyed, x.inst.made ≠ some m

section
variable {kind : CallerKind} {h h' : HostSide} {c c' : Caller}

theorem Held.lost (hlost : Lost c c') : Held kind h c' where
  empty _ := hlost.inst
  held hvalid := by
    rw [not_isValid_of_none hlost.interface] at hvalid
    cases hvalid

theorem Held.stamp (hheld : Held kind h c) (revision : Nat) :
    Held kind h { c with cachedRevision := revision } where
  empty := hheld.empty
  held hvalid := hheld.held ((isValid_stamp revision).symm.trans hvalid)

theorem Books.renew (hbooks : Books h) (interface : Option Nat) (data : Nat) :
    Books (renew h c interface data).1 where
  past x hx := by
    obtain ⟨m, hm, hmade⟩ := hbooks.past x hx
    exact ⟨m, Nat.lt_succ_of_lt hm, hmade⟩
  once := hbooks.once
  live := hbooks.live

theorem Held.renew (hbooks : Books h) (i data : Nat) :
    Held kind (renew h c (some i) data).1 (renew h c (some i) data).2 where
  empty hnone := by cases hnone
  held _ := by
    refine ⟨h.made, Nat.lt_succ_self _, rfl, fun x hx hmade => ?_⟩
    obtain ⟨m, hm, hmade'⟩ := hbooks.past x hx
    obtain rfl := Option.some.inj (hmade'.symm.trans hmade)
    exact lt_irrefl _ hm

/-- A held instance may be destroyed through an interface that the handle resolves to. -/
theorem Books.destroy (hbooks : Books h) (hheld : Held kind h c) (hvalid : kind.isValid c = true)
    (hsame : h.resolve c.handle = c.interface) : Books (h.destroy c) where
  past x hx := by
    rcases List.mem_append.mp hx with hx | hx
    · exact hbooks.past x hx
    · obtain rfl := List.mem_singleton.mp hx
      obtain ⟨m, hm, hmade, -⟩ := hheld.held hvalid
      exact ⟨m, hm, hmade⟩
  once := by
    obtain ⟨m, -, hmade, hnew⟩ := hheld.held hvalid
    rw [HostSide.destroy, List.map_append]
    refine List.nodup_append.mpr ⟨hbooks.once, List.nodup_singleton _, fun a ha b hb => ?_⟩
    obtain ⟨x, hx, rfl⟩ := List.mem_map.mp ha
    obtain rfl := List.mem_singleton.mp hb
    show x.inst.made ≠ c.inst.made
    rw [hmade]
    exact hnew x hx
  live x hx := by
    rcases List.mem_append.mp hx with hx | hx
    · exact hbooks.live x hx
    · obtain rfl := List.mem_singleton.mp hx
      exact hsame.symm

theorem Books.ends (hbooks : Books h) (hheld : Held kind h c)
    (hstamp : kind.isValid c = true → h.revision = c.cachedRevision →
      h.resolve c.handle = c.interface) (hends : Ends kind h c h') : Books h' := by
  cases hends with
  | left => exact hbooks
  | destroyed hvalid hsame =>
    refine hbooks.destroy hheld hvalid ?_
    rcases hsame with hrev | hres
    · exact hstamp hvalid hrev
    · exact hres

end

namespace CallerRun

/-- The invariant of the instances. -/
structure Sound (kind : CallerKind) (s : CallerRun) : Prop where
  books : Books s.host
  held : ∀ c ∈ s.caller, Held kind s.host c

theorem Sound.of_caller {kind : CallerKind} {h : HostSide} {c : Caller} (hbooks : Books h)
    (hheld : Held kind h c) (steady : Option (Option Nat)) : Sound kind ⟨h, some c, steady⟩ where
  books := hbooks
  held c' hc' := by
    obtain rfl := Option.mem_some_iff.mp hc'
    exact hheld

theorem sound_new (kind : CallerKind) : new.Sound kind where
  books := ⟨fun x hx => absurd hx List.not_mem_nil, List.nodup_nil,
    fun x hx => absurd hx List.not_mem_nil⟩
  held c hc := by cases hc

section
variable {kind : CallerKind} {s : CallerRun}

theorem exec_publish_host (view : ReadView) :
    (s.exec kind (.publish view)).host = s.host.publish view := by
  rw [exec]
  split <;> rfl

theorem exec_publish_caller (view : ReadView) :
    (s.exec kind (.publish view)).caller = s.caller := by
  rw [exec]
  split <;> rfl

/-- Every step that meets the condition keeps the instances sound. -/
theorem sound_exec (h : s.Sound kind) {act : CallerAct} (hmeets : s.Meets kind act) :
    (s.exec kind act).Sound kind := by
  cases act with
  | publish view =>
    refine ⟨?_, fun c hc => ?_⟩
    · rw [exec_publish_host]
      exact ⟨h.books.past, h.books.once, h.books.live⟩
    · rw [exec_publish_caller] at hc
      rw [exec_publish_host]
      exact ⟨(h.held c hc).empty, (h.held c hc).held⟩
  | create handle data =>
    rw [exec]
    split
    · rw [makeCaller]
      cases s.host.resolve handle with
      | none => exact ⟨h.books, fun c hc => by cases hc⟩
      | some i => exact .of_caller (h.books.renew (some i) data) (.renew h.books i data) none
    · exact h
  | reset data =>
    cases hcaller : s.caller with
    | none =>
      simp only [exec, hcaller]
      exact h
    | some c =>
      have hheld := h.held c hcaller
      simp only [exec, hcaller]
      rcases reset_cases kind s.host c data with ⟨c', hc', heq⟩ | ⟨h', i, hends, -, heq⟩
      · rw [heq]
        refine .of_caller h.books ?_ none
        rcases hc' with rfl | hlost
        · exact hheld
        · exact .lost hlost
      · rw [heq]
        -- The instance is ended on the interface that made it, by the condition.
        have hbooks := h.books.ends hheld (hmeets c hcaller) hends
        exact .of_caller (hbooks.renew (some i) data) (.renew hbooks i data) none
  | call data =>
    cases hcaller : s.caller with
    | none =>
      simp only [exec, hcaller]
      exact h
    | some c =>
      have hheld := h.held c hcaller
      simp only [exec, hcaller]
      rcases call_cases kind s.host c data with ⟨-, heq⟩ | ⟨-, c', hlost, -, heq⟩ | ⟨-, -, heq⟩ |
        ⟨-, -, i, -, -, heq⟩
      · rw [heq]
        exact .of_caller h.books hheld _
      · rw [heq]
        exact .of_caller h.books (.lost hlost) _
      · rw [heq]
        exact .of_caller h.books (hheld.stamp _) _
      · rw [heq]
        exact .of_caller (h.books.renew (some i) data) (.renew h.books i data) _
  | destroy =>
    cases hcaller : s.caller with
    | none =>
      simp only [exec, hcaller]
      exact h
    | some c =>
      have hheld := h.held c hcaller
      simp only [exec, hcaller]
      rcases destroy_leaves kind s.host c with heq | hlost
      · rw [heq]
        exact .of_caller h.books hheld none
      · exact ⟨h.books.ends hheld (hmeets c hcaller) (destroy_ends kind s.host c hheld.empty),
          fun c' hc' => .lost (hlost c' hc')⟩

/-! ### The instance that is kept -/

/-- The caller uses `u` as long as its handle resolves to `r`, which it has done ever since the last
method call. -/
structure Keeps (kind : CallerKind) (u : Option Instance) (r : Option Nat) (s : CallerRun) :
    Prop where
  caller : ∃ c, s.caller = some c ∧
    (kind.isValid c = true → c.interface = r ∧ u = some c.inst) ∧
      (kind.isValid c = false → u = none)
  resolved : s.resolved = r
  steady : s.steady = some r

theorem uses_eq {c : Caller} (hcaller : s.caller = some c) (data : Nat) :
    s.uses kind data = (kind.call s.host c data).2 := by
  rw [uses, hcaller]
  rfl

/-- After a method call the caller keeps what it used. -/
theorem keeps_call {data : Nat} {c : Caller} (hcaller : s.caller = some c)
    (hstamp : s.StampRight kind) :
    Keeps kind (s.uses kind data) s.resolved (s.exec kind (.call data)) := by
  have hresolved : s.resolved = s.host.resolve c.handle := by
    rw [resolved, hcaller]
    rfl
  rw [hresolved, uses_eq hcaller]
  simp only [exec, hcaller]
  rcases call_cases kind s.host c data with ⟨hvalid, heq⟩ | ⟨-, c', hlost, hres, heq⟩ |
    ⟨hvalid, hsame, heq⟩ | ⟨-, -, i, hres, -, heq⟩
  · rw [heq]
    refine ⟨⟨c, rfl, fun htrue => ?_, fun _ => rfl⟩, rfl, rfl⟩
    rw [hvalid] at htrue
    cases htrue
  · rw [heq]
    refine ⟨⟨c', rfl, fun htrue => ?_, fun _ => rfl⟩, ?_, rfl⟩
    · rw [not_isValid_of_none hlost.interface] at htrue
      cases htrue
    · show s.host.resolve c'.handle = _
      rw [hlost.handle]
  · rw [heq]
    refine ⟨⟨_, rfl, fun _ => ⟨?_, rfl⟩, fun hfalse => ?_⟩, rfl, rfl⟩
    · rcases hsame with hrev | ⟨hres, -⟩
      · exact (hstamp c hcaller hvalid hrev).symm
      · exact hres.symm
    · have htrue := (isValid_stamp s.host.revision).trans hvalid
      rw [htrue] at hfalse
      cases hfalse
  · rw [heq]
    refine ⟨⟨_, rfl, fun _ => ⟨hres.symm, rfl⟩, fun hfalse => ?_⟩, rfl, rfl⟩
    rw [isValid_of_some rfl rfl] at hfalse
    cases hfalse

theorem keeps_publish {u : Option Instance} {r : Option Nat} (h : Keeps kind u r s)
    {view : ReadView} (hresolved : (s.exec kind (.publish view)).resolved = r) :
    Keeps kind u r (s.exec kind (.publish view)) where
  caller := by
    rw [exec_publish_caller]
    exact h.caller
  resolved := hresolved
  steady := by
    have hsame : ({ s with host := s.host.publish view } : CallerRun).resolved = s.resolved := by
      rw [h.resolved, ← hresolved, resolved, resolved, exec_publish_caller, exec_publish_host]
    simp only [exec]
    rw [if_pos hsame]
    exact h.steady

/-- A method call uses what the caller keeps. -/
theorem uses_of_keeps {u : Option Instance} {r : Option Nat} (h : Keeps kind u r s) {data : Nat}
    (hmeets : s.Meets kind (.call data)) : s.uses kind data = u := by
  obtain ⟨c, hcaller, hkept, hnone⟩ := h.caller
  have hr : s.host.resolve c.handle = r := by
    rw [← h.resolved, resolved, hcaller]
    rfl
  rw [uses_eq hcaller]
  rcases call_cases kind s.host c data with ⟨hvalid, heq⟩ | ⟨hvalid, c', -, hres, heq⟩ |
    ⟨hvalid, -, heq⟩ | ⟨hvalid, hrev, i, hres, hnew, heq⟩
  · rw [heq, hnone hvalid]
  · obtain ⟨i, hi⟩ := interface_of_isValid hvalid
    rw [← hr, hres] at hkept
    exact absurd ((hkept hvalid).1.symm.trans hi) (by simp)
  · rw [heq, (hkept hvalid).2]
  · -- Only a peer caller makes an instance for the interface it has, and its revision moved.
    rcases hnew with hpeer | hother
    · exact absurd (hmeets.2 hpeer c hcaller hvalid (by rw [h.steady]; rfl)) hrev
    · exact absurd (hres.symm.trans (hr.trans (hkept hvalid).1.symm)) hother

end

end CallerRun

/-! ### Whole runs -/

section
variable {kind : CallerKind} {acts : List CallerAct}

open CallerRun

/-- A step between two method calls keeps what the first one used. -/
theorem keeps_exec {u : Option Instance} {r : Option Nat} {s : CallerRun} (h : Keeps kind u r s)
    {act : CallerAct} (hbetween : act.between = true) (hmeets : s.Meets kind act)
    (hresolved : (s.exec kind act).resolved = r) : Keeps kind u r (s.exec kind act) := by
  cases act with
  | publish view => exact keeps_publish h hresolved
  | call data =>
    obtain ⟨c, hcaller, -⟩ := h.caller
    have hkeeps : Keeps kind (s.uses kind data) s.resolved (s.exec kind (.call data)) :=
      keeps_call hcaller hmeets.1
    rw [uses_of_keeps h hmeets, h.resolved] at hkeeps
    exact hkeeps
  | create handle data => cases hbetween
  | reset data => cases hbetween
  | destroy => cases hbetween

/-- Without a caller such a step makes none. -/
theorem caller_none_exec {s : CallerRun} (h : s.caller = none) {act : CallerAct}
    (hbetween : act.between = true) : (s.exec kind act).caller = none := by
  cases act with
  | publish view => rw [exec_publish_caller, h]
  | call data => simp only [exec, h]
  | create handle data => cases hbetween
  | reset data => cases hbetween
  | destroy => cases hbetween

/-- **A caller keeps its instance, and destroys it at most once and through a live interface,** in
every run whose steps meet the condition. -/
theorem lawful_run (kind : CallerKind) (acts : List CallerAct)
    (hsteps : Steps (exec kind) (Meets kind) CallerRun.new acts) : Lawful kind acts := by
  have hsound : (run (exec kind) CallerRun.new acts).Sound kind :=
    hsteps.invariant (sound_new kind) fun _ _ h hmeets => sound_exec h hmeets
  refine ⟨fun j k d e hjk hj hk hbetween hresolved => ?_, hsound.books.once, hsound.books.live⟩
  have hbound : k < acts.length := (List.getElem?_eq_some_iff.mp hk).1
  have hact : ∀ l, l < k → ∃ act, acts[l]? = some act := fun l hl =>
    ⟨_, List.getElem?_eq_getElem (hl.trans hbound)⟩
  cases hcaller : (stateAt (exec kind) CallerRun.new acts j).caller with
  | none =>
    have hnone : ∀ l, j ≤ l → l ≤ k →
        (stateAt (exec kind) CallerRun.new acts l).caller = none := by
      intro l hjl
      induction hjl with
      | refl => exact fun _ => hcaller
      | @step l hjl ih =>
        intro hlk
        obtain ⟨act, hl⟩ := hact l hlk
        rw [stateAt_succ hl]
        refine caller_none_exec (ih (Nat.le_of_succ_le hlk)) ?_
        rcases Nat.eq_or_lt_of_le hjl with rfl | hlt
        · obtain rfl := Option.some.inj (hj.symm.trans hl)
          rfl
        · exact hbetween l hlt hlk act hl
    rw [uses, uses, hcaller, hnone k hjk.le (le_refl k)]
    rfl
  | some c =>
    have hkeeps : ∀ l, j < l → l ≤ k →
        Keeps kind (uses kind (stateAt (exec kind) CallerRun.new acts j) d)
          (stateAt (exec kind) CallerRun.new acts j).resolved
          (stateAt (exec kind) CallerRun.new acts l) := by
      intro l hjl
      induction hjl with
      | refl =>
        intro _
        rw [stateAt_succ hj]
        exact keeps_call hcaller (hsteps.step_at hj).1
      | @step l hjl ih =>
        intro hlk
        obtain ⟨act, hl⟩ := hact l hlk
        have hafter := hresolved (l + 1) (Nat.lt_succ_of_lt hjl) hlk
        rw [stateAt_succ hl] at hafter ⊢
        exact keeps_exec (ih (Nat.le_of_succ_le hlk)) (hbetween l hjl hlk act hl)
          (hsteps.step_at hl) hafter
    exact (uses_of_keeps (hkeeps k hjk (le_refl k)) (hsteps.step_at hk)).symm

end

/-- The view after these steps of the registry. -/
def viewOf (ops : List StoreOp) : ReadView := (run RuntimeStore.exec RuntimeStore.new ops).published

/-- A caller over a reload of its contract and, after a reset, a registration of another. -/
def reloadActs : List CallerAct :=
  let registered : List StoreOp := [.register ⟨1⟩ ⟨10⟩ "log" 100]
  let reloaded := registered ++
    [.beginReload ⟨1⟩, .register ⟨1⟩ ⟨10⟩ "log" 101, .swap ⟨1⟩ [0]]
  let unrelated := reloaded ++ [.register ⟨2⟩ ⟨11⟩ "kv" 102]
  [.publish (viewOf registered), .create ⟨0, 0⟩ 7, .call 0, .publish (viewOf reloaded), .call 8,
    .call 0, .reset 9, .publish (viewOf unrelated), .call 10, .destroy]

/-- Over a reload all three callers do. -/
theorem lawful_reload :
    Lawful .rustHost reloadActs ∧ Lawful .luaHost reloadActs ∧
      Lawful .luaPeer (reloadActs.take 6) :=
  ⟨lawful_run .rustHost reloadActs (by decide +kernel),
    lawful_run .luaHost reloadActs (by decide +kernel),
    lawful_run .luaPeer (reloadActs.take 6) (by decide +kernel)⟩

/-- A peer caller over a registration of another contract. -/
def unrelatedActs : List CallerAct :=
  let registered : List StoreOp := [.register ⟨1⟩ ⟨10⟩ "log" 100]
  [.publish (viewOf registered), .create ⟨0, 0⟩ 7, .call 0,
    .publish (viewOf (registered ++ [.register ⟨2⟩ ⟨11⟩ "kv" 102])), .call 8]

/-- The peer caller makes a new instance for the interface it has. -/
theorem peer_loses_instance :
    ¬ ∀ (kind : CallerKind) (acts : List CallerAct), Lawful kind acts := by
  intro hall
  have hkeeps := (hall .luaPeer unrelatedActs).keeps 2 4 0 8 (by decide) rfl rfl
    (fun l hl hlk act hact => ?_) (fun l hl hlk => ?_)
  · have hfirst : CallerRun.uses .luaPeer
        (stateAt (CallerRun.exec .luaPeer) CallerRun.new unrelatedActs 2) 0 = some ⟨7, some 0⟩ := by
      decide +kernel
    have hsecond : CallerRun.uses .luaPeer
        (stateAt (CallerRun.exec .luaPeer) CallerRun.new unrelatedActs 4) 8 = some ⟨8, some 1⟩ := by
      decide +kernel
    rw [hfirst, hsecond] at hkeeps
    exact absurd hkeeps (by decide)
  · obtain rfl : l = 3 := by omega
    obtain rfl := Option.some.inj hact
    rfl
  · obtain rfl | rfl : l = 3 ∨ l = 4 := by omega
    · decide +kernel
    · decide +kernel

/-! ### Runs without a wrap -/

/-- The revision does not wrap. -/
def CallerRun.NoWrap (s : CallerRun) : CallerAct → Prop
  | .publish _ => s.host.revision + 1 < 2 ^ 64
  | _          => True

namespace CallerRun

/-- No stamp of a valid caller is ahead, and a current one is right. -/
structure StampSound (kind : CallerKind) (s : CallerRun) : Prop where
  le : ∀ c ∈ s.caller, kind.isValid c = true → c.cachedRevision ≤ s.host.revision
  right : s.StampRight kind

section
variable {kind : CallerKind} {s : CallerRun} {h : HostSide} {c : Caller}

/-- A caller that is stamped with what its handle resolves to. -/
theorem StampSound.of_stamped (hrev : c.cachedRevision = h.revision)
    (hres : h.resolve c.handle = c.interface) (steady : Option (Option Nat)) :
    StampSound kind ⟨h, some c, steady⟩ where
  le c' hc' _ := by
    obtain rfl := Option.mem_some_iff.mp hc'
    exact hrev.le
  right c' hc' _ _ := by
    obtain rfl := Option.mem_some_iff.mp hc'
    exact hres

/-- A caller that is not valid has no stamp. -/
theorem StampSound.of_invalid {o : Option Caller} (hinvalid : ∀ c ∈ o, kind.isValid c = false)
    (steady : Option (Option Nat)) : StampSound kind ⟨h, o, steady⟩ where
  le c hc hvalid := by
    rw [hinvalid c hc] at hvalid
    cases hvalid
  right c hc hvalid := by
    rw [hinvalid c hc] at hvalid
    cases hvalid

theorem invalid_of_lost {o : Option Caller} (hlost : ∀ c' ∈ o, Lost c c') :
    ∀ c' ∈ o, kind.isValid c' = false :=
  fun c' hc' => not_isValid_of_none (hlost c' hc').interface

theorem StampSound.same (hs : s.StampSound kind) (hcaller : s.caller = some c)
    (steady : Option (Option Nat)) : StampSound kind ⟨s.host, some c, steady⟩ where
  le c' hc' := hs.le c' (hcaller.trans hc')
  right c' hc' := hs.right c' (hcaller.trans hc')

theorem stampSound_exec (hs : s.StampSound kind) {act : CallerAct} (hstep : s.NoWrap act) :
    (s.exec kind act).StampSound kind := by
  cases act with
  | publish view =>
    have hrev : (s.host.publish view).revision = s.host.revision + 1 := Nat.mod_eq_of_lt hstep
    refine ⟨fun c hc hvalid => ?_, fun c hc hvalid hstamp => ?_⟩
    · rw [exec_publish_caller] at hc
      rw [exec_publish_host, hrev]
      exact Nat.le_succ_of_le (hs.le c hc hvalid)
    · -- No stamp is the new revision.
      rw [exec_publish_caller] at hc
      rw [exec_publish_host, hrev] at hstamp
      have hle := hs.le c hc hvalid
      omega
  | create handle data =>
    rw [exec]
    split
    · rw [makeCaller]
      cases hres : s.host.resolve handle with
      | none => exact .of_invalid (fun c hc => by cases hc) none
      | some i => exact .of_stamped rfl hres none
    · exact hs
  | reset data =>
    cases hcaller : s.caller with
    | none =>
      simp only [exec, hcaller]
      exact hs
    | some c =>
      simp only [exec, hcaller]
      -- A reset that keeps the stamp has either kept the caller or lost it.
      rcases reset_cases kind s.host c data with ⟨c', hc', heq⟩ | ⟨h', i, hends, hfound, heq⟩
      · rw [heq]
        rcases hc' with rfl | hlost
        · exact hs.same hcaller none
        · refine .of_invalid (invalid_of_lost (c := c) fun c'' hc'' => ?_) none
          obtain rfl := Option.mem_some_iff.mp hc''
          exact hlost
      · rw [heq]
        have hres : s.host.resolve c.handle = some i := by
          rcases hfound with hres | ⟨hrev, hi, hvalid⟩
          · exact hres
          · rw [hs.right c hcaller hvalid hrev, hi]
        refine .of_stamped rfl ?_ none
        cases hends with
        | left => exact hres
        | destroyed => exact hres
  | call data =>
    cases hcaller : s.caller with
    | none =>
      simp only [exec, hcaller]
      exact hs
    | some c =>
      simp only [exec, hcaller]
      rcases call_cases kind s.host c data with ⟨-, heq⟩ | ⟨-, c', hlost, -, heq⟩ |
        ⟨hvalid, hsame, heq⟩ | ⟨-, -, i, hres, -, heq⟩
      · rw [heq]
        exact hs.same hcaller _
      · rw [heq]
        refine .of_invalid (invalid_of_lost (c := c) fun c'' hc'' => ?_) _
        obtain rfl := Option.mem_some_iff.mp hc''
        exact hlost
      · rw [heq]
        refine .of_stamped rfl ?_ _
        -- The stamp is the revision, or the call has resolved the handle again.
        rcases hsame with hrev | ⟨hres, -⟩
        · exact hs.right c hcaller hvalid hrev
        · exact hres
      · rw [heq]
        exact .of_stamped rfl hres _
  | destroy =>
    cases hcaller : s.caller with
    | none =>
      simp only [exec, hcaller]
      exact hs
    | some c =>
      simp only [exec, hcaller]
      rcases destroy_leaves kind s.host c with heq | hlost
      · rw [heq]
        exact hs.same hcaller none
      · exact .of_invalid (invalid_of_lost hlost) none

theorem stampSound_new (kind : CallerKind) : StampSound kind new :=
  .of_invalid (fun c hc => by cases hc) none

end

/-- A host caller meets the condition in every run in which the revision does not wrap. -/
theorem meets_of_noWrap {kind : CallerKind} (hkind : kind ≠ .luaPeer) {acts : List CallerAct}
    (hsteps : Steps (exec kind) NoWrap new acts) : Steps (exec kind) (Meets kind) new acts := by
  refine hsteps.mono (stampSound_new kind) (fun _ _ hs hstep => stampSound_exec hs hstep)
    fun s act hs _ => ?_
  cases act with
  | call data => exact ⟨hs.right, fun hpeer => absurd hpeer hkind⟩
  | reset data => exact hs.right
  | destroy => exact hs.right
  | publish view => trivial
  | create handle data => trivial

end CallerRun

/-! ### The host calls of the Rust host caller -/

/-- The fields of the emitted struct. -/
def Caller.toHostCaller (c : Caller) : HostCaller :=
  ⟨c.handle, c.interface, c.inst.data, c.cachedRevision⟩

/-- The host with a Rust host caller between two operations. -/
def HostSide.toSystem (h : HostSide) (c : Option Caller) : CallerSystem :=
  ⟨h.view, h.revision, false, c.map Caller.toHostCaller, .idle⟩

section
variable (h : HostSide) (c : Caller) (data : Nat)

open CallerSystem (goto finish)

/-- The host calls of `new`, without a publish between them, are one step. -/
theorem hostCalls_new (handle : GuestContractHandle) :
    run CallerSystem.exec (h.toSystem none) (.callNew handle :: List.replicate 3 (.hostCall data)) =
      (makeCaller h handle data).1.toSystem (makeCaller h handle data).2 := by
  rw [makeCaller, HostSide.resolve]
  cases hres : resolveIn h.view handle with
  | none => simp [HostSide.toSystem, CallerSystem.exec, CallerSystem.hostCall, goto, hres]
  | some i =>
    simp [HostSide.toSystem, CallerSystem.exec, CallerSystem.hostCall, goto, finish, hres, renew,
      Caller.toHostCaller]

/-- So are those of `reset`. -/
theorem hostCalls_reset :
    run CallerSystem.exec (h.toSystem (some c)) (.callReset :: List.replicate 5 (.hostCall data)) =
      (rustReset h c data).1.toSystem (some (rustReset h c data).2) := by
  obtain ⟨handle, interface, inst, stamp, destroyed⟩ := c
  rw [rustReset, HostSide.resolve]
  by_cases hlook : h.revision ≠ stamp ∨ interface = none
  · rw [if_pos hlook]
    cases hres : resolveIn h.view handle with
    | none =>
      simp [HostSide.toSystem, CallerSystem.exec, CallerSystem.hostCall, goto, finish, hres, hlook,
        Caller.toHostCaller, Caller.gone, Instance.null]
    | some i =>
      dsimp only
      by_cases hsame : some i = interface
      · subst hsame
        have hrev : h.revision ≠ stamp := hlook.resolve_right (by simp)
        by_cases hdata : inst.data = 0 <;>
          simp [HostSide.toSystem, CallerSystem.exec, CallerSystem.hostCall, goto, finish, hres,
            hrev, hdata, renew, HostSide.destroy, Caller.toHostCaller]
      · simp [HostSide.toSystem, CallerSystem.exec, CallerSystem.hostCall, goto, finish, hres,
          hlook, hsame, renew, Caller.toHostCaller]
  · rw [if_neg hlook]
    obtain ⟨hrev, hnone⟩ := not_or.mp hlook
    obtain rfl := not_not.mp hrev
    by_cases hdata : inst.data ≠ 0 <;>
      simp [HostSide.toSystem, CallerSystem.exec, CallerSystem.hostCall, goto, finish, hnone, hdata,
        renew, HostSide.destroy, Caller.toHostCaller]

/-- So are those of a method, up to its dispatch. -/
theorem hostCalls_call :
    run CallerSystem.exec (h.toSystem (some c))
        (.callDispatch :: List.replicate 4 (.hostCall data)) =
      (CallerKind.rustHost.call h c data).1.1.toSystem
        (some (CallerKind.rustHost.call h c data).1.2) := by
  obtain ⟨handle, interface, inst, stamp, destroyed⟩ := c
  rw [CallerKind.call, CallerKind.isValid]
  cases interface with
  | none => simp [HostSide.toSystem, CallerSystem.exec, CallerSystem.hostCall, Caller.toHostCaller]
  | some j =>
    rw [if_neg (by simp)]
    by_cases hrev : h.revision ≠ stamp
    · rw [if_pos hrev, CallerKind.revalidate, rustRevalidate, HostSide.resolve]
      cases hres : resolveIn h.view handle with
      | none =>
        simp [HostSide.toSystem, CallerSystem.exec, CallerSystem.hostCall, goto, finish, hres, hrev,
          Caller.toHostCaller, Caller.gone, Instance.null]
      | some i =>
        by_cases hsame : i = j
        · subst hsame
          simp [HostSide.toSystem, CallerSystem.exec, CallerSystem.hostCall, goto, finish, hres,
            hrev, Caller.toHostCaller]
        · simp [HostSide.toSystem, CallerSystem.exec, CallerSystem.hostCall, goto, finish, hres,
            hrev, hsame, renew, Caller.toHostCaller]
    · rw [if_neg hrev]
      obtain rfl := not_not.mp hrev
      simp [HostSide.toSystem, CallerSystem.exec, CallerSystem.hostCall, goto, Caller.toHostCaller]

end

end PolyPlug.Codegen
