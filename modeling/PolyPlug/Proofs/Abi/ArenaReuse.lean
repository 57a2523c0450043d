import Mathlib.Algebra.BigOperators.Group.Finset.Basic
import Mathlib.Algebra.Order.BigOperators.Group.Finset
import PolyPlug.Proofs.Abi.CallArena

/-!
# `PolyPlug.Proofs.Abi.ArenaReuse`: the host allocations of a repeated workload

An arena keeps its overflow blocks across resets. `repetitions` resets it and makes the
same requests, again and again. The reuse pass is first-fit, so a later repetition can
still ask the host: a small request took the block a large one would need.

It asks only when every block with room for the request has served in this repetition
(`used_of_no_room`). Each of these blocks took an overflowing request, so there are less
of them than such requests, and `Reuse` keeps that for each capacity. The capacities come
from the workload, so the host is asked a bounded number of times
(`repeated_workload_bounded`).
-/

set_option autoImplicit false

namespace PolyPlug.Abi

open PolyPlug.Lib

/-! ### The workload -/

/-- What a request needs of a fresh block: the header, the alignment and the size. -/
def needOf (request : UInt64 × UInt64) : Nat :=
  overflowHeader + request.2.toNat + request.1.toNat

/-- The requests, a size and an alignment each, that do not fit in the primary region,
when its cursor stands at `cur`. -/
def overflowing (stop : Nat) : Nat → List (UInt64 × UInt64) → List (UInt64 × UInt64)
  | _, []                => []
  | cur, request :: rest =>
    if request.1.toNat = 0 ∨ ¬request.2.toNat.isPowerOfTwo then overflowing stop cur rest
    else
      match bump cur stop request.1.toNat request.2.toNat with
      | some ptr => overflowing stop ((ptr + request.1.toNat) % 2 ^ 64) rest
      | none     => request :: overflowing stop cur rest

/-- The calls for the requests. `host` is the host at each of them. -/
def requests (host : Nat → HostAlloc) : Nat → List (UInt64 × UInt64) → List ArenaCall
  | _, []              => []
  | i, request :: rest => .alloc request.1 request.2 (host i) :: requests host (i + 1) rest

/-- A reset and the whole workload, `n` times. -/
def repetitions (workload : List (UInt64 × UInt64)) (hosts : Nat → Nat → HostAlloc) :
    Nat → List ArenaCall
  | 0     => []
  | n + 1 => repetitions workload hosts n ++ .reset :: requests (hosts n) 0 workload

/-! ### The calls of the host -/

/-- The capacity the arena asks the host for, when a request gets to that point. -/
def CallArena.asks (a : CallArena) (size align : Nat) : Option Nat :=
  if size = 0 ∨ ¬align.isPowerOfTwo then none
  else
    match bump a.cur a.stop size align with
    | some _ => none
    | none   =>
      if a.host = 0 ∨ (serveFromChain size align a.firstOverflow).1 ≠ 0 then none
      else
        ((checkedAdd overflowHeader align).bind fun v => checkedAdd v size).map fun needed =>
          max needed overflowBlockMin

/-- The arena asks for what the request needs, or for the least capacity. -/
theorem CallArena.asks_eq {a : CallArena} {size align capacity : Nat}
    (h : a.asks size align = some capacity) :
    capacity = max (overflowHeader + align + size) overflowBlockMin := by
  unfold asks at h
  split at h
  · cases h
  · split at h
    · cases h
    · split at h
      · cases h
      · obtain ⟨needed, hneeded, rfl⟩ := Option.map_eq_some_iff.mp h
        unfold checkedAdd at hneeded
        obtain ⟨v, hv, hneeded⟩ := Option.bind_eq_some_iff.mp hneeded
        split at hv <;> cases hv
        split at hneeded <;> cases hneeded
        rfl

namespace ArenaState

/-- The capacity a call asks the host for. -/
def asks (σ : ArenaState) : ArenaCall → Option Nat
  | .alloc size align _ => σ.arena.asks size.toNat align.toNat
  | .reset              => none

/-- The number of `host.alloc` calls of a run. -/
def hostCalls : ArenaState → List ArenaCall → Nat
  | _, []           => 0
  | σ, call :: rest => (if (σ.asks call).isSome then 1 else 0) + hostCalls (σ.exec call) rest

/-- When the host is asked, it answers with a block that ends before the last address. -/
def HostSucceeds (σ : ArenaState) : ArenaCall → Prop
  | .alloc size align hostAlloc => ∀ capacity,
      σ.arena.asks size.toNat align.toNat = some capacity →
      hostAlloc capacity overflowBlockAlign ≠ 0 ∧
        hostAlloc capacity overflowBlockAlign + capacity < 2 ^ 64
  | .reset => True

theorem hostCalls_append (σ : ArenaState) (before after : List ArenaCall) :
    hostCalls σ (before ++ after) = hostCalls σ before + hostCalls (run exec σ before) after := by
  induction before generalizing σ with
  | nil => simp [hostCalls]
  | cons call rest ih => rw [List.cons_append, hostCalls, hostCalls, run_cons, ih, Nat.add_assoc]

end ArenaState

/-! ### A chain without room -/

section
variable {size align : Nat}

/-- A multiple of the alignment is not far. -/
theorem exists_aligned (x : Nat) (halign : 0 < align) :
    ∃ p, x ≤ p ∧ p ≤ x + (align - 1) ∧ align ∣ p := by
  refine ⟨(x + (align - 1)) / align * align, ?_, Nat.div_mul_le_self _ _, Nat.dvd_mul_left _ _⟩
  have h := Nat.lt_div_mul_add (a := x + (align - 1)) halign
  omega

/-- A rewound block serves every request it was large enough for. -/
theorem serveFromBlock_rewound {b : ArenaOverflowBlock} (hb : b.Valid)
    (halign : align.isPowerOfTwo) (hword : align < 2 ^ 64)
    (hroom : overflowHeader + align + size ≤ b.capacity) (hrewound : b.used = overflowHeader) :
    (serveFromBlock b size align).1 ≠ 0 := by
  rcases @serveFromBlock_cases size _ b hb halign hword with ⟨-, hfull⟩ | ⟨p, used, heq, hp, -⟩
  · have hpos : 0 < align := Nat.pos_of_isPowerOfTwo halign
    obtain ⟨p, hle, hle', hdvd⟩ := exists_aligned (b.ptr + b.used) hpos
    have hover := hfull p hle hdvd
    omega
  · rw [heq]
    exact hp

/-- Serving from a block moves its cursor only. -/
theorem serveFromBlock_keeps {b : ArenaOverflowBlock} (hb : b.Valid)
    (halign : align.isPowerOfTwo) (hword : align < 2 ^ 64) :
    (serveFromBlock b size align).2.Valid ∧
      (serveFromBlock b size align).2.capacity = b.capacity := by
  rcases @serveFromBlock_cases size _ b hb halign hword with
    ⟨heq, -⟩ | ⟨p, used, heq, -, -, hle, hend, hused⟩
  · rw [heq]
    exact ⟨hb, rfl⟩
  · rw [heq]
    have hheader := hb.header
    exact ⟨⟨hb.ptr, by show overflowHeader ≤ used; omega, hused, hb.word⟩, rfl⟩

/-- When no block of the chain serves a request, every block that was large enough for it
has served another one. -/
theorem used_of_no_room {chain : List ArenaOverflowBlock} (hchain : ∀ b ∈ chain, b.Valid)
    (halign : align.isPowerOfTwo) (hword : align < 2 ^ 64)
    (hfull : (serveFromChain size align chain).1 = 0) :
    ∀ b ∈ chain, overflowHeader + align + size ≤ b.capacity → b.used ≠ overflowHeader := by
  induction chain with
  | nil => exact fun b hb => absurd hb List.not_mem_nil
  | cons b rest ih =>
    rw [serveFromChain] at hfull
    split at hfull
    · rename_i hserved
      exact absurd hfull hserved
    · rename_i hrefused
      intro b' hb' hroom hrewound
      rcases List.mem_cons.mp hb' with rfl | hb'
      · exact hrefused (serveFromBlock_rewound (hchain b' List.mem_cons_self) halign hword hroom
          hrewound)
      · exact ih (fun b hb => hchain b (List.mem_cons_of_mem _ hb)) hfull b' hb' hroom hrewound

end

/-! ### The invariant -/

/-- The chain after `j` of the `k` overflowing requests of a repetition, when the host was
asked `calls` times so far. -/
structure Reuse (k j : Nat) (capacities : Finset Nat) (calls : Nat)
    (chain : List ArenaOverflowBlock) : Prop where
  valid : ∀ b ∈ chain, b.Valid
  /-- A block that served in this repetition took one of the requests. -/
  used : chain.countP (fun b => b.used ≠ overflowHeader) ≤ j
  /-- No capacity has more blocks than there are such requests. -/
  capacity : ∀ c, chain.countP (fun b => b.capacity = c) ≤ k
  known : ∀ b ∈ chain, b.capacity ∈ capacities
  calls : chain.length = calls

namespace Reuse

variable {k j calls : Nat} {capacities : Finset Nat} {chain chain' : List ArenaOverflowBlock}

theorem nil (k : Nat) (capacities : Finset Nat) : Reuse k 0 capacities 0 [] where
  valid := by simp
  used := by simp
  capacity := by simp
  known := by simp
  calls := rfl

theorem mono {j' : Nat} (h : Reuse k j capacities calls chain) (hj : j ≤ j') :
    Reuse k j' capacities calls chain :=
  { h with used := h.used.trans hj }

/-- A block of the chain serves. -/
theorem serves {size align ptr : Nat} (h : Reuse k j capacities calls chain)
    (hserves : Serves size align ptr chain chain') :
    Reuse k (j + 1) capacities calls chain' := by
  obtain ⟨front, b, rest, used, rfl, rfl, -, -, hle, hend, hcap⟩ := hserves
  have hb := h.valid b (by simp)
  refine ⟨fun b' hb' => ?_, ?_, fun c => ?_, fun b' hb' => ?_, ?_⟩
  · rcases List.mem_append.mp hb' with hmem | hmem
    · exact h.valid b' (by simp [hmem])
    · rcases List.mem_cons.mp hmem with rfl | hmem
      · have hheader := hb.header
        exact ⟨hb.ptr, by show overflowHeader ≤ used; omega, hcap, hb.word⟩
      · exact h.valid b' (by simp [hmem])
  · have hbefore := h.used
    simp only [List.countP_append, List.countP_cons] at hbefore ⊢
    split <;> split at hbefore <;> omega
  · have hbefore := h.capacity c
    simp only [List.countP_append, List.countP_cons] at hbefore ⊢
    exact hbefore
  · rcases List.mem_append.mp hb' with hmem | hmem
    · exact h.known b' (by simp [hmem])
    · rcases List.mem_cons.mp hmem with rfl | hmem
      · exact h.known b (by simp)
      · exact h.known b' (by simp [hmem])
  · have hbefore := h.calls
    simp only [List.length_append, List.length_cons] at hbefore ⊢
    exact hbefore

/-- A block is added, when all blocks of its capacity have served. -/
theorem add (h : Reuse k j capacities calls chain) (hj : j < k) {b : ArenaOverflowBlock}
    (hb : b.Valid) (hknown : b.capacity ∈ capacities)
    (hused : ∀ b' ∈ chain, b'.capacity = b.capacity → b'.used ≠ overflowHeader) :
    Reuse k (j + 1) capacities (calls + 1) (b :: chain) := by
  refine ⟨fun b' hb' => ?_, ?_, fun c => ?_, fun b' hb' => ?_, ?_⟩
  · rcases List.mem_cons.mp hb' with rfl | hb'
    · exact hb
    · exact h.valid b' hb'
  · have hbefore := h.used
    rw [List.countP_cons]
    split <;> omega
  · rw [List.countP_cons]
    have hbefore := h.capacity c
    split
    · rename_i hc
      -- The blocks of this capacity have served, so they are at most `j`.
      have hserved : chain.countP (fun b' => b'.capacity = c)
          ≤ chain.countP fun b' => b'.used ≠ overflowHeader := by
        refine List.countP_mono_left fun b' hb' hcap => ?_
        simp only [decide_eq_true_eq] at hc hcap ⊢
        exact hused b' hb' (hcap.trans hc.symm)
      have hle := h.used
      omega
    · omega
  · rcases List.mem_cons.mp hb' with rfl | hb'
    · exact hknown
    · exact h.known b' hb'
  · rw [List.length_cons, h.calls]

/-- A reset rewinds every block. -/
theorem reset (h : Reuse k j capacities calls chain) :
    Reuse k 0 capacities calls
      (chain.map fun block => { block with used := overflowHeader }) := by
  refine ⟨fun b hb => ?_, ?_, fun c => ?_, fun b hb => ?_, ?_⟩
  · obtain ⟨b', hb', rfl⟩ := List.mem_map.mp hb
    have hv := h.valid b' hb'
    exact ⟨hv.ptr, le_refl _, hv.header.trans hv.used, hv.word⟩
  · rw [Nat.le_zero, List.countP_eq_zero]
    intro b hb
    obtain ⟨b', -, rfl⟩ := List.mem_map.mp hb
    simp
  · rw [List.countP_map]
    exact h.capacity c
  · obtain ⟨b', hb', rfl⟩ := List.mem_map.mp hb
    exact h.known b' hb'
  · rw [List.length_map, h.calls]

/-- The bound on the calls. -/
theorem calls_le (h : Reuse k j capacities calls chain) : calls ≤ k * capacities.card := by
  set sizes := chain.map ArenaOverflowBlock.capacity with hsizes
  have hsub : sizes.toFinset ⊆ capacities := by
    intro c hc
    obtain ⟨b, hb, rfl⟩ := List.mem_map.mp (List.mem_toFinset.mp hc)
    exact h.known b hb
  have hcount : ∀ c ∈ sizes.toFinset, sizes.count c ≤ k := by
    intro c _
    have hcap := h.capacity c
    rw [hsizes, List.count_eq_countP, List.countP_map]
    refine le_trans (le_of_eq (List.countP_congr fun b _ => ?_)) hcap
    simp
  calc calls = sizes.length := by rw [hsizes, List.length_map, h.calls]
    _ = ∑ c ∈ sizes.toFinset, sizes.count c := (List.sum_toFinset_count_eq_length sizes).symm
    _ ≤ sizes.toFinset.card * k := by
      simpa using Finset.sum_le_card_nsmul _ _ k hcount
    _ ≤ capacities.card * k := Nat.mul_le_mul_right k (Finset.card_le_card hsub)
    _ = k * capacities.card := Nat.mul_comm ..

end Reuse

/-! ### One repetition -/

/-- A state in a repetition, with the requests `rest` to come. -/
structure Midway (k : Nat) (capacities : Finset Nat) (base stop calls : Nat)
    (rest : List (UInt64 × UInt64)) (a : CallArena) : Prop where
  base_eq : a.base = base
  stop_eq : a.stop = stop
  reuse : ∃ j, Reuse k j capacities calls a.firstOverflow ∧
    j + (overflowing stop a.cur rest).length ≤ k
  known : ∀ r ∈ overflowing stop a.cur rest, max (needOf r) overflowBlockMin ∈ capacities

namespace Midway

variable {k calls base stop : Nat} {capacities : Finset Nat} {a : CallArena}
  {request : UInt64 × UInt64} {rest : List (UInt64 × UInt64)}

/-- A request without effect. -/
theorem skip (h : Midway k capacities base stop calls (request :: rest) a)
    (heq : overflowing stop a.cur (request :: rest) = overflowing stop a.cur rest) :
    Midway k capacities base stop calls rest a := by
  obtain ⟨hbase, hstop, hreuse, hknown⟩ := h
  rw [heq] at hreuse hknown
  exact ⟨hbase, hstop, hreuse, hknown⟩

/-- A request that fits in the primary region. -/
theorem primary {cur : Nat} (h : Midway k capacities base stop calls (request :: rest) a)
    (heq : overflowing stop a.cur (request :: rest) = overflowing stop cur rest) :
    Midway k capacities base stop calls rest { a with cur := cur } := by
  obtain ⟨hbase, hstop, hreuse, hknown⟩ := h
  rw [heq] at hreuse hknown
  exact ⟨hbase, hstop, hreuse, hknown⟩

/-- A request that does not, and what it does to the chain. -/
theorem overflow {calls' : Nat} (chain : List ArenaOverflowBlock)
    (h : Midway k capacities base stop calls (request :: rest) a)
    (heq : overflowing stop a.cur (request :: rest)
      = request :: overflowing stop a.cur rest)
    (hchain : ∀ j, Reuse k j capacities calls a.firstOverflow → j < k →
      max (needOf request) overflowBlockMin ∈ capacities →
      Reuse k (j + 1) capacities calls' chain) :
    Midway k capacities base stop calls' rest { a with firstOverflow := chain } := by
  obtain ⟨hbase, hstop, ⟨j, hreuse, hfit⟩, hknown⟩ := h
  rw [heq] at hfit hknown
  rw [List.length_cons] at hfit
  refine ⟨hbase, hstop, ⟨j + 1, hchain j hreuse (by omega) (hknown request (by simp)), ?_⟩,
    fun r hr => hknown r (List.mem_cons_of_mem _ hr)⟩
  show j + 1 + (overflowing stop a.cur rest).length ≤ k
  omega

end Midway

namespace ArenaState

section
variable {σ : ArenaState} {k calls base stop : Nat} {capacities : Finset Nat}

/-- One request. -/
theorem midway_alloc {request : UInt64 × UInt64} {rest : List (UInt64 × UInt64)}
    {hostAlloc : HostAlloc} (h : Midway k capacities base stop calls (request :: rest) σ.arena)
    (hsucceeds : σ.HostSucceeds (.alloc request.1 request.2 hostAlloc)) :
    Midway k capacities base stop
      (calls + if (σ.asks (.alloc request.1 request.2 hostAlloc)).isSome then 1 else 0) rest
      (σ.exec (.alloc request.1 request.2 hostAlloc)).arena := by
  have hword : request.2.toNat < 2 ^ 64 := request.2.toNat_lt
  simp only [HostSucceeds, CallArena.asks] at hsucceeds
  simp only [exec, asks, CallArena.alloc, CallArena.asks]
  by_cases hinvalid : request.1.toNat = 0 ∨ ¬request.2.toNat.isPowerOfTwo
  · -- The request is refused.
    simp only [if_pos hinvalid, Option.isSome_none]
    refine h.skip ?_
    rw [overflowing, if_pos hinvalid]
  simp only [if_neg hinvalid] at hsucceeds ⊢
  have halign : request.2.toNat.isPowerOfTwo := by
    by_contra hnot
    exact hinvalid (Or.inr hnot)
  have hstop := h.stop_eq
  cases hbump : bump σ.arena.cur σ.arena.stop request.1.toNat request.2.toNat with
  | some ptr =>
    simp only [Option.isSome_none]
    refine h.primary ?_
    rw [overflowing, if_neg hinvalid, ← hstop, hbump]
  | none =>
    have hover : overflowing stop σ.arena.cur (request :: rest)
        = request :: overflowing stop σ.arena.cur rest := by
      rw [overflowing, if_neg hinvalid, ← hstop, hbump]
    simp only [hbump] at hsucceeds
    dsimp only
    unfold CallArena.allocOverflow
    by_cases hhost : σ.arena.host = 0
    · simp only [hhost, true_or, if_true, Option.isSome_none]
      exact h.overflow σ.arena.firstOverflow hover fun j hj _ _ => hj.mono (by omega)
    simp only [hhost, false_or] at hsucceeds ⊢
    obtain ⟨j₀, hreuse, -⟩ := h.reuse
    have hvalid := hreuse.valid
    have hserve := @serveFromChain_cases request.1.toNat _ _ hvalid halign hword
    by_cases hserved : (serveFromChain request.1.toNat request.2.toNat σ.arena.firstOverflow).1 ≠ 0
    · -- A block of the chain has room.
      simp only [if_pos hserved, Option.isSome_none]
      refine h.overflow _ hover fun j hj _ _ => hj.serves (hserve.resolve_left fun hnone => ?_)
      rw [hnone] at hserved
      exact hserved rfl
    have hfull : serveFromChain request.1.toNat request.2.toNat σ.arena.firstOverflow
        = (0, σ.arena.firstOverflow) := by
      refine hserve.resolve_right fun hsome => ?_
      obtain ⟨-, -, -, -, -, -, hptr, -⟩ := hsome
      exact hserved hptr
    have hneed : ((checkedAdd overflowHeader request.2.toNat).bind fun v =>
        checkedAdd v request.1.toNat)
          = if needOf request < 2 ^ 64 then some (needOf request) else none := by
      unfold checkedAdd needOf
      split
      · rfl
      · rw [if_neg (by omega)]
        rfl
    simp only [if_neg hserved, hneed] at hsucceeds ⊢
    rw [hfull]
    by_cases hfits : needOf request < 2 ^ 64
    swap
    · simp only [if_neg hfits, Option.map_none, Option.isSome_none]
      exact h.overflow σ.arena.firstOverflow hover fun j hj _ _ => hj.mono (by omega)
    -- The host is asked.
    simp only [if_pos hfits, Option.map_some, Option.some.injEq, forall_eq'] at hsucceeds ⊢
    obtain ⟨hptr, hlast⟩ := hsucceeds
    simp only [if_neg hptr, Option.isSome_some, if_true]
    have hfresh : ArenaOverflowBlock.Valid
        ⟨hostAlloc (max (needOf request) overflowBlockMin) overflowBlockAlign,
          max (needOf request) overflowBlockMin, overflowHeader⟩ := by
      refine ⟨Nat.pos_of_ne_zero hptr, le_refl _, ?_, hlast⟩
      show overflowHeader ≤ max (needOf request) overflowBlockMin
      unfold overflowHeader overflowBlockMin
      omega
    obtain ⟨hkept, hcapacity⟩ := @serveFromBlock_keeps request.1.toNat _ _ hfresh halign hword
    refine h.overflow (_ :: σ.arena.firstOverflow) hover fun j hj hlt hcap =>
      hj.add hlt hkept (hcapacity ▸ hcap) fun b hb hsame => ?_
    refine used_of_no_room hvalid halign hword (congrArg Prod.fst hfull) b hb ?_
    rw [hsame, hcapacity]
    exact le_max_left _ _

/-- The requests of one repetition. -/
theorem midway_requests (host : Nat → HostAlloc) (i : Nat) (workload : List (UInt64 × UInt64))
    (h : Midway k capacities base stop calls workload σ.arena)
    (hsucceeds : Steps exec HostSucceeds σ (requests host i workload)) :
    Midway k capacities base stop (calls + hostCalls σ (requests host i workload)) []
      (run exec σ (requests host i workload)).arena := by
  induction workload generalizing i σ calls with
  | nil => exact h
  | cons request rest ih =>
    rw [requests] at hsucceeds ⊢
    obtain ⟨hfirst, hrest⟩ := hsucceeds
    rw [hostCalls, run_cons, ← Nat.add_assoc]
    exact ih (i + 1) (midway_alloc h hfirst) hrest

/-- The reset between two repetitions. -/
theorem midway_reset {workload : List (UInt64 × UInt64)}
    (h : Midway k capacities base stop calls [] σ.arena)
    (hfit : (overflowing stop base workload).length ≤ k)
    (hknown : ∀ r ∈ overflowing stop base workload,
      max (needOf r) overflowBlockMin ∈ capacities) :
    Midway k capacities base stop calls workload (σ.exec .reset).arena := by
  obtain ⟨hbase, hstop, ⟨j, hreuse, -⟩, -⟩ := h
  have hcur : (σ.exec .reset).arena.cur = base := hbase
  refine ⟨hbase, hstop, ⟨0, hreuse.reset, ?_⟩, ?_⟩
  · rw [hcur]
    omega
  · rw [hcur]
    exact hknown

/-- Any number of repetitions. -/
theorem midway_repetitions {start : ArenaState} (workload : List (UInt64 × UInt64))
    (hosts : Nat → Nat → HostAlloc) (n : Nat)
    (hstart : Midway k capacities base stop 0 [] start.arena)
    (hfit : (overflowing stop base workload).length ≤ k)
    (hknown : ∀ r ∈ overflowing stop base workload,
      max (needOf r) overflowBlockMin ∈ capacities)
    (hsucceeds : Steps exec HostSucceeds start (repetitions workload hosts n)) :
    Midway k capacities base stop (hostCalls start (repetitions workload hosts n)) []
      (run exec start (repetitions workload hosts n)).arena := by
  induction n with
  | zero => exact hstart
  | succ n ih =>
    obtain ⟨hbefore, -, hrequests⟩ := steps_append.mp hsucceeds
    have hreset := midway_reset (ih hbefore) hfit hknown
    rw [repetitions, hostCalls_append, run_append, run_cons, hostCalls]
    simp only [asks, Option.isSome_none, Bool.false_eq_true, if_false, Nat.zero_add]
    exact midway_requests (hosts n) 0 workload hreset hrequests

/-- **The host allocations of a repeated workload.** `k` requests of the workload do not fit
in the primary region, with `d` different needs among them. However often the arena is reset
and the workload repeated, the host is asked at most `k * d` times, so from some repetition
on it is not asked again. -/
theorem repeated_workload_bounded (base len host : Nat) (workload : List (UInt64 × UInt64))
    (hosts : Nat → Nat → HostAlloc)
    (hsucceeds : ∀ n, Steps exec HostSucceeds (new base len host) (repetitions workload hosts n)) :
    (∀ n, hostCalls (new base len host) (repetitions workload hosts n)
      ≤ (overflowing (base + len) base workload).length
        * ((overflowing (base + len) base workload).map needOf).toFinset.card) ∧
    ∃ m, ∀ n ≥ m, hostCalls (new base len host) (repetitions workload hosts n)
      = hostCalls (new base len host) (repetitions workload hosts m) := by
  set above := overflowing (base + len) base workload with hover
  set needs := (above.map needOf).toFinset with hneeds
  set f := fun n => hostCalls (new base len host) (repetitions workload hosts n) with hf
  have hbound : ∀ n, f n ≤ above.length * needs.card := by
    intro n
    have hstart : Midway above.length (needs.image fun need => max need overflowBlockMin) base
        (base + len) 0 [] (new base len host).arena :=
      ⟨rfl, rfl, ⟨0, .nil _ _, Nat.zero_le _⟩, fun r hr => absurd hr List.not_mem_nil⟩
    have hknown : ∀ r ∈ above, max (needOf r) overflowBlockMin
        ∈ needs.image fun need => max need overflowBlockMin := fun r hr =>
      Finset.mem_image_of_mem _ (List.mem_toFinset.mpr (List.mem_map_of_mem hr))
    obtain ⟨-, -, ⟨j, hreuse, -⟩, -⟩ :=
      midway_repetitions workload hosts n hstart (le_refl _) hknown (hsucceeds n)
    exact hreuse.calls_le.trans (Nat.mul_le_mul_left _ Finset.card_image_le)
  have hmono : Monotone f := by
    refine monotone_nat_of_le_succ fun n => ?_
    show hostCalls _ _ ≤ hostCalls _ (repetitions workload hosts n ++ _)
    rw [hostCalls_append]
    omega
  refine ⟨hbound, ?_⟩
  classical
  -- The greatest value is reached, and kept.
  obtain ⟨m, hm⟩ : ∃ m, f m = Nat.findGreatest (fun v => ∃ m, f m = v)
      (above.length * needs.card) :=
    Nat.findGreatest_spec (P := fun v => ∃ m, f m = v) (hbound 0) ⟨0, rfl⟩
  refine ⟨m, fun n hn => Nat.le_antisymm ?_ (hmono hn)⟩
  rw [show hostCalls (new base len host) (repetitions workload hosts m) = f m from rfl, hm]
  exact Nat.le_findGreatest (hbound n) ⟨n, rfl⟩

/-- A small request and a large one, over a buffer of 16 bytes. -/
def smallLarge : List (UInt64 × UInt64) := [(64, 8), (4096, 8)]

/-- A host with room, for the first repetitions. -/
def roomyHost (n i : Nat) : HostAlloc := fun _ _ => 8192 * (1 + i + 2 * min n 3)

theorem smallLarge_bounded :
    (∀ n, hostCalls (new 64 16 1) (repetitions smallLarge roomyHost n)
      ≤ (overflowing (64 + 16) 64 smallLarge).length
        * ((overflowing (64 + 16) 64 smallLarge).map needOf).toFinset.card) ∧
    ∃ m, ∀ n ≥ m, hostCalls (new 64 16 1) (repetitions smallLarge roomyHost n)
      = hostCalls (new 64 16 1) (repetitions smallLarge roomyHost m) := by
  have hroom : ∀ (σ : ArenaState) (n i : Nat) (size align : UInt64), i ≤ 1 →
      max (overflowHeader + align.toNat + size.toNat) overflowBlockMin ≤ 8192 →
      σ.HostSucceeds (.alloc size align (roomyHost n i)) := by
    intro σ n i size align hi hneed capacity hasks
    rw [CallArena.asks_eq hasks]
    unfold roomyHost
    constructor <;> omega
  refine repeated_workload_bounded 64 16 1 smallLarge roomyHost fun n => ?_
  induction n with
  | zero => trivial
  | succ n ih =>
    refine steps_append.mpr ⟨ih, trivial, ?_, ?_, trivial⟩
    · exact hroom _ n 0 64 8 (by decide) (by decide)
    · exact hroom _ n 1 4096 8 (by decide) (by decide)

/-- In the second repetition the small request takes the block of the large one, and the host
is asked again. -/
example : (List.range 4).map (fun n => hostCalls (new 64 16 1) (repetitions smallLarge roomyHost n))
    = [0, 2, 3, 3] := by
  decide +kernel

end

end ArenaState

end PolyPlug.Abi
