import Mathlib.Data.List.Pairwise
import PolyPlug.Abi.CallArena
import PolyPlug.Lib.Run

/-!
# `PolyPlug.Proofs.Abi.CallArena`: memory safety of the call arena

An arena is used for a sequence of `alloc` and `reset` calls, with a host that
answers each allocation with null or with a block of its own (`HostFresh`).
`ArenaState.Valid` is the invariant of such a run: the values handed out since the
last reset stand below the cursor of the region they are in, so the next value, which
starts at a cursor, overlaps none of them.

`bump_some` and `bump_none` say all that the proofs need of the address arithmetic;
`Serves` says what serving from the chain does. `arena_run` is the result.
-/

set_option autoImplicit false

namespace PolyPlug.Abi

open PolyPlug.Lib

/-! ### Address arithmetic -/

section
variable {start stop size align p : Nat}

theorem bump_eq : bump start stop size align =
    if start + (align - 1) < 2 ^ 64 then
      if alignUp 64 start align + size < 2 ^ 64 then
        if alignUp 64 start align + size ≤ stop then some (alignUp 64 start align) else none
      else none
    else none := by
  unfold bump checkedAdd
  by_cases hsum : start + (align - 1) < 2 ^ 64
  · by_cases hnew : alignUp 64 start align + size < 2 ^ 64
    · simp only [hsum, if_true, hnew]
      rw [show (start + (align - 1)) &&& wordNot (align - 1) = alignUp 64 start align from rfl,
        if_pos hnew]
    · simp only [hsum, if_true, hnew, if_false]
      rw [show (start + (align - 1)) &&& wordNot (align - 1) = alignUp 64 start align from rfl,
        if_neg hnew]
  · simp only [hsum, if_false]

theorem bump_some (halign : align.isPowerOfTwo) (hword : align < 2 ^ 64)
    (h : bump start stop size align = some p) : align ∣ p ∧ start ≤ p ∧ p + size ≤ stop := by
  rw [bump_eq] at h
  split at h
  · rename_i hsum
    obtain ⟨hdvd, hle, -, -⟩ := alignUp_spec halign hword hsum
    split at h
    · split at h
      · rename_i hfit
        cases h
        exact ⟨hdvd, hle, hfit⟩
      · cases h
    · cases h
  · cases h

/-- A refusal means that nothing fits. -/
theorem bump_none (halign : align.isPowerOfTwo) (hword : align < 2 ^ 64) (hstop : stop < 2 ^ 64)
    (h : bump start stop size align = none) (hp : start ≤ p) (hdvd : align ∣ p) :
    stop < p + size := by
  rw [bump_eq] at h
  split at h
  · rename_i hsum
    have hleast := (alignUp_spec halign hword hsum).2.2.2 p hp hdvd
    split at h
    · split at h
      · cases h
      · omega
    · omega
  · have := no_multiple_of_overflow halign hword (by omega) hp hdvd
    omega

end

/-! ### Blocks -/

namespace ArenaOverflowBlock

/-- The whole block. -/
def region (b : ArenaOverflowBlock) : Region := ⟨b.ptr, b.capacity⟩

/-- Its header. -/
def header (b : ArenaOverflowBlock) : Region := ⟨b.ptr, overflowHeader⟩

/-- What it serves from. -/
def body (b : ArenaOverflowBlock) : Region :=
  ⟨b.ptr + overflowHeader, b.capacity - overflowHeader⟩

/-- The cursor stands behind the header, and the block ends before the last address. -/
structure Valid (b : ArenaOverflowBlock) : Prop where
  ptr : 0 < b.ptr
  header : overflowHeader ≤ b.used
  used : b.used ≤ b.capacity
  word : b.ptr + b.capacity < 2 ^ 64

end ArenaOverflowBlock

/-- The allocation the host made for a block. -/
def ArenaOverflowBlock.hostBlock (b : ArenaOverflowBlock) : HostBlock :=
  ⟨b.ptr, b.capacity, overflowBlockAlign⟩

section
variable {size align ptr : Nat}

theorem serveFromBlock_cases (b : ArenaOverflowBlock) (hb : b.Valid)
    (halign : align.isPowerOfTwo) (hword : align < 2 ^ 64) :
    (serveFromBlock b size align = (0, b) ∧
      ∀ p, b.ptr + b.used ≤ p → align ∣ p → b.ptr + b.capacity < p + size) ∨
    ∃ p used, serveFromBlock b size align = (p, { b with used := used }) ∧ p ≠ 0 ∧ align ∣ p ∧
      b.ptr + b.used ≤ p ∧ p + size = b.ptr + used ∧ used ≤ b.capacity := by
  have hptr := hb.ptr
  unfold serveFromBlock
  cases hbump : bump (b.ptr + b.used) (b.ptr + b.capacity) size align with
  | none => exact Or.inl ⟨rfl, fun p hp hdvd => bump_none halign hword hb.word hbump hp hdvd⟩
  | some p =>
    obtain ⟨hdvd, hle, hfit⟩ := bump_some halign hword hbump
    exact Or.inr ⟨p, p - b.ptr + size, rfl, by omega, hdvd, hle, by omega, by omega⟩

/-- A value served from the chain: one block advances its cursor over it. -/
def Serves (size align ptr : Nat) (chain chain' : List ArenaOverflowBlock) : Prop :=
  ∃ front b rest used, chain = front ++ b :: rest ∧
    chain' = front ++ { b with used := used } :: rest ∧
    ptr ≠ 0 ∧ align ∣ ptr ∧ b.ptr + b.used ≤ ptr ∧ ptr + size = b.ptr + used ∧
    used ≤ b.capacity

theorem serveFromChain_cases {chain : List ArenaOverflowBlock} (hchain : ∀ b ∈ chain, b.Valid)
    (halign : align.isPowerOfTwo) (hword : align < 2 ^ 64) :
    serveFromChain size align chain = (0, chain) ∨
    Serves size align (serveFromChain size align chain).1 chain
      (serveFromChain size align chain).2 := by
  induction chain with
  | nil => exact Or.inl rfl
  | cons b rest ih =>
    rw [serveFromChain]
    rcases @serveFromBlock_cases size _ b (hchain b List.mem_cons_self) halign hword with
      ⟨heq, -⟩ | ⟨p, used, heq, hp, hdvd, hle, hend, hused⟩
    · rw [heq, if_neg (by simp)]
      rcases ih fun b' hb' => hchain b' (List.mem_cons_of_mem _ hb') with hrest | hserves
      · exact Or.inl (by rw [hrest])
      · obtain ⟨front, b', rest', used, hsplit, hsplit', hserved⟩ := hserves
        refine Or.inr ⟨b :: front, b', rest', used, ?_, ?_, hserved⟩
        · rw [hsplit, List.cons_append]
        · show b :: (serveFromChain size align rest).2 = _
          rw [hsplit', List.cons_append]
    · rw [heq, if_pos hp]
      exact Or.inr ⟨[], b, rest, used, rfl, rfl, hp, hdvd, hle, hend, hused⟩

end

/-! ### Runs -/

/-- A value handed out: where, how long, and the alignment asked for. -/
structure ArenaValue where
  ptr : Nat
  size : Nat
  align : Nat
deriving DecidableEq

def ArenaValue.region (v : ArenaValue) : Region := ⟨v.ptr, v.size⟩

/-- An arena in use, with the values handed out since the last reset, newest first. -/
structure ArenaState where
  arena : CallArena
  log : HostLog
  values : List ArenaValue
deriving DecidableEq

/-- A call on the arena. The arguments are arbitrary words. -/
inductive ArenaCall where
  | alloc (size align : UInt64) (hostAlloc : HostAlloc)
  | reset

namespace ArenaState

/-- A new arena over the `len` bytes at `base`. -/
def new (base len host : Nat) : ArenaState := ⟨.new base len host, ⟨[], []⟩, []⟩

/-- One call. -/
def exec (σ : ArenaState) : ArenaCall → ArenaState
  | .alloc size align hostAlloc =>
    let served := σ.arena.alloc σ.log hostAlloc size.toNat align.toNat
    ⟨served.2.1, served.2.2,
      if served.1 = 0 then σ.values
      else ⟨served.1, size.toNat, align.toNat⟩ :: σ.values⟩
  | .reset => ⟨σ.arena.reset, σ.log, []⟩

/-- The primary region. -/
def primary (σ : ArenaState) : Region := ⟨σ.arena.base, σ.arena.stop - σ.arena.base⟩

/-- The blocks the host has not got back. -/
def outstanding (σ : ArenaState) : List HostBlock :=
  σ.log.allocated.filter fun b => b ∉ σ.log.freed

/-- A block of the host: aligned, not wrapping, and not overlapping the primary region
or an outstanding block. -/
structure FreshBlock (σ : ArenaState) (ptr capacity align : Nat) : Prop where
  aligned : align ∣ ptr
  word : ptr + capacity < 2 ^ 64
  primary : Disjoint (Region.mk ptr capacity).span σ.primary.span
  others : ∀ b ∈ σ.outstanding,
    Disjoint (Region.mk ptr capacity).span (Region.mk b.ptr b.size).span

/-- The host answers each request with null or with a fresh block. -/
def HostFresh (σ : ArenaState) : ArenaCall → Prop
  | .alloc _ _ hostAlloc => ∀ capacity align, hostAlloc capacity align = 0 ∨
      σ.FreshBlock (hostAlloc capacity align) capacity align
  | .reset               => True

/-- The invariant of a run. -/
structure Valid (σ : ArenaState) : Prop where
  base : 0 < σ.arena.base
  cur : σ.arena.base ≤ σ.arena.cur
  stop : σ.arena.cur ≤ σ.arena.stop
  word : σ.arena.stop < 2 ^ 64
  blocks : ∀ b ∈ σ.arena.firstOverflow, b.Valid
  outside : ∀ b ∈ σ.arena.firstOverflow, Disjoint b.region.span σ.primary.span
  apart : σ.arena.firstOverflow.Pairwise fun b b' => Disjoint b.region.span b'.region.span
  allocated : (σ.arena.firstOverflow.map ArenaOverflowBlock.hostBlock).Perm σ.log.allocated
  freed : σ.log.freed = []
  host : σ.arena.host = 0 → σ.arena.firstOverflow = []
  aligned : ∀ v ∈ σ.values, v.align ∣ v.ptr
  placed : ∀ v ∈ σ.values,
    (σ.arena.base ≤ v.ptr ∧ v.ptr + v.size ≤ σ.arena.cur) ∨
    ∃ b ∈ σ.arena.firstOverflow, b.ptr + overflowHeader ≤ v.ptr ∧
      v.ptr + v.size ≤ b.ptr + b.used
  disjoint : σ.values.Pairwise fun v v' => Disjoint v.region.span v'.region.span

theorem valid_new {base len host : Nat} (hbase : 0 < base) (hlen : base + len < 2 ^ 64) :
    (new base len host).Valid where
  base := hbase
  cur := Nat.le_refl _
  stop := Nat.le_add_right _ _
  word := hlen
  blocks := by simp [new, CallArena.new]
  outside := by simp [new, CallArena.new]
  apart := .nil
  allocated := .refl _
  freed := rfl
  host := fun _ => rfl
  aligned := by simp [new]
  placed := by simp [new]
  disjoint := .nil

namespace Valid

variable {σ : ArenaState} {size align ptr : Nat}

/-- A value in the primary region. -/
theorem in_primary (h : σ.Valid) {v : ArenaValue} (hstart : σ.arena.base ≤ v.ptr)
    (hstop : v.ptr + v.size ≤ σ.arena.cur) : v.region.span ⊆ σ.primary.span := by
  have hcur := h.stop
  refine Region.span_subset hstart ?_
  simp only [ArenaValue.region, primary]
  omega

/-- A value in a block. -/
theorem in_block (h : σ.Valid) {v : ArenaValue} {b : ArenaOverflowBlock}
    (hb : b ∈ σ.arena.firstOverflow) (hstart : b.ptr + overflowHeader ≤ v.ptr)
    (hstop : v.ptr + v.size ≤ b.ptr + b.used) :
    v.region.span ⊆ b.region.span ∧ v.region.span ⊆ b.body.span := by
  have hvalid := h.blocks b hb
  have hused := hvalid.used
  have hheader := hvalid.header
  constructor <;> refine Region.span_subset ?_ ?_ <;>
    simp only [ArenaValue.region, ArenaOverflowBlock.region, ArenaOverflowBlock.body] <;> omega

/-- A value in one block overlaps nothing of another one. -/
theorem apart_of_ne (h : σ.Valid) {b b' : ArenaOverflowBlock} (hb : b ∈ σ.arena.firstOverflow)
    (hb' : b' ∈ σ.arena.firstOverflow) (hne : b ≠ b') :
    Disjoint b.region.span b'.region.span := by
  have : Std.Symm fun b b' : ArenaOverflowBlock => Disjoint b.region.span b'.region.span :=
    ⟨fun _ _ hd => hd.symm⟩
  exact h.apart.forall hb hb' hne

/-- A value from the primary region. -/
theorem servePrimary (h : σ.Valid) (hdvd : align ∣ ptr) (hle : σ.arena.cur ≤ ptr)
    (hfit : ptr + size ≤ σ.arena.stop) :
    Valid ⟨{ σ.arena with cur := ptr + size }, σ.log, ⟨ptr, size, align⟩ :: σ.values⟩ := by
  have hbase := h.cur
  have hprimary : (ArenaValue.mk ptr size align).region.span ⊆ σ.primary.span := by
    refine Region.span_subset (Nat.le_trans hbase hle) ?_
    simp only [ArenaValue.region, primary]
    omega
  refine
    { base := h.base, cur := ?_, stop := hfit, word := h.word, blocks := h.blocks,
      outside := h.outside, apart := h.apart, allocated := h.allocated, freed := h.freed,
      host := h.host, aligned := ?_, placed := ?_, disjoint := ?_ }
  · show σ.arena.base ≤ ptr + size
    omega
  · exact List.forall_mem_cons.mpr ⟨hdvd, h.aligned⟩
  · refine List.forall_mem_cons.mpr ⟨Or.inl ⟨Nat.le_trans hbase hle, Nat.le_refl _⟩, fun v hv => ?_⟩
    rcases h.placed v hv with ⟨hstart, hstop⟩ | hblock
    · refine Or.inl ⟨hstart, ?_⟩
      show v.ptr + v.size ≤ ptr + size
      omega
    · exact Or.inr hblock
  · refine List.pairwise_cons.mpr ⟨fun v hv => ?_, h.disjoint⟩
    rcases h.placed v hv with ⟨-, hstop⟩ | ⟨b, hb, hstart, hstop⟩
    · -- Every earlier value ends at the old cursor or before it.
      exact (Region.disjoint_of_le (Nat.le_trans hstop hle)).symm
    · exact ((h.outside b hb).mono (h.in_block hb hstart hstop).1 hprimary).symm

/-- A value from the chain. -/
theorem serveChain (h : σ.Valid) {chain : List ArenaOverflowBlock}
    (hserves : Serves size align ptr σ.arena.firstOverflow chain) :
    Valid ⟨{ σ.arena with firstOverflow := chain }, σ.log, ⟨ptr, size, align⟩ :: σ.values⟩ := by
  obtain ⟨front, b, rest, used, hsplit, rfl, hptr, hdvd, hle, hend, hused⟩ := hserves
  have hmem : b ∈ σ.arena.firstOverflow := by simp [hsplit]
  have hb := h.blocks b hmem
  have hheader := hb.header
  have hnew : ({ b with used := used } : ArenaOverflowBlock).Valid :=
    ⟨hb.ptr, by show overflowHeader ≤ used; omega, hused, hb.word⟩
  -- The blocks of the new chain are those of the old one, up to the cursor of `b`.
  have hold : ∀ c ∈ front ++ { b with used := used } :: rest,
      c = { b with used := used } ∨ c ∈ σ.arena.firstOverflow := by
    intro c hc
    rcases List.mem_append.mp hc with hfront | hrest
    · exact Or.inr (by simp [hsplit, hfront])
    · rcases List.mem_cons.mp hrest with rfl | hrest
      · exact Or.inl rfl
      · exact Or.inr (by simp [hsplit, hrest])
  have hkept : ∀ c ∈ σ.arena.firstOverflow, c = b ∨
    c ∈ front ++ { b with used := used } :: rest := by
    intro c hc
    rw [hsplit] at hc
    rcases List.mem_append.mp hc with hfront | hrest
    · exact Or.inr (List.mem_append_left _ hfront)
    · rcases List.mem_cons.mp hrest with rfl | hrest
      · exact Or.inl rfl
      · exact Or.inr (List.mem_append_right _ (List.mem_cons_of_mem _ hrest))
  have hregion : (ArenaValue.mk ptr size align).region.span ⊆ b.region.span := by
    refine Region.span_subset ?_ ?_ <;>
      simp only [ArenaValue.region, ArenaOverflowBlock.region] <;> omega
  refine
    { base := h.base, cur := h.cur, stop := h.stop, word := h.word, blocks := ?_, outside := ?_,
      apart := ?_, allocated := ?_, freed := h.freed, host := ?_, aligned := ?_, placed := ?_,
      disjoint := ?_ }
  · intro c hc
    rcases hold c hc with rfl | hc
    · exact hnew
    · exact h.blocks c hc
  · intro c hc
    rcases hold c hc with rfl | hc
    · exact h.outside b hmem
    · exact h.outside c hc
  · have happart := h.apart
    rw [hsplit] at happart
    simpa [List.pairwise_append, ArenaOverflowBlock.region] using happart
  · have hperm := h.allocated
    rw [hsplit] at hperm
    simpa [ArenaOverflowBlock.hostBlock] using hperm
  · intro hhost
    rw [h.host hhost] at hmem
    cases hmem
  · exact List.forall_mem_cons.mpr ⟨hdvd, h.aligned⟩
  · refine List.forall_mem_cons.mpr ⟨Or.inr ⟨{ b with used := used }, by simp, ?_, ?_⟩,
      fun v hv => ?_⟩
    · show b.ptr + overflowHeader ≤ ptr
      omega
    · show ptr + size ≤ b.ptr + used
      omega
    · rcases h.placed v hv with hprimary | ⟨c, hc, hstart, hstop⟩
      · exact Or.inl hprimary
      · rcases hkept c hc with rfl | hc
        · refine Or.inr ⟨{ c with used := used }, by simp, hstart, ?_⟩
          show v.ptr + v.size ≤ c.ptr + used
          omega
        · exact Or.inr ⟨c, hc, hstart, hstop⟩
  · refine List.pairwise_cons.mpr ⟨fun v hv => ?_, h.disjoint⟩
    rcases h.placed v hv with ⟨hstart, hstop⟩ | ⟨c, hc, hstart, hstop⟩
    · exact (h.outside b hmem).mono hregion (h.in_primary hstart hstop)
    · by_cases hcb : c = b
      · subst hcb
        exact (Region.disjoint_of_le (Nat.le_trans hstop hle)).symm
      · exact (h.apart_of_ne hmem hc (Ne.symm hcb)).mono hregion (h.in_block hc hstart hstop).1

/-- A block of the host joins the chain. -/
theorem chainBlock (h : σ.Valid) {capacity : Nat} (hhost : σ.arena.host ≠ 0) (hptr : ptr ≠ 0)
    (hcapacity : overflowHeader ≤ capacity)
    (hfresh : σ.FreshBlock ptr capacity overflowBlockAlign) :
    Valid ⟨{ σ.arena with
        firstOverflow := ⟨ptr, capacity, overflowHeader⟩ :: σ.arena.firstOverflow },
      { σ.log with allocated := σ.log.allocated ++ [⟨ptr, capacity, overflowBlockAlign⟩] },
      σ.values⟩ := by
  -- Nothing has been freed, so every block of the chain is outstanding.
  have hothers : ∀ b ∈ σ.arena.firstOverflow,
      Disjoint (Region.mk ptr capacity).span b.region.span := by
    intro b hb
    have hmem : b.hostBlock ∈ σ.log.allocated :=
      h.allocated.mem_iff.mp (List.mem_map_of_mem hb)
    exact hfresh.others b.hostBlock (List.mem_filter.mpr ⟨hmem, by simp [h.freed]⟩)
  refine
    { base := h.base, cur := h.cur, stop := h.stop, word := h.word, blocks := ?_, outside := ?_,
      apart := List.pairwise_cons.mpr ⟨hothers, h.apart⟩, allocated := ?_, freed := h.freed,
      host := fun hnull => absurd hnull hhost, aligned := h.aligned, placed := fun v hv => ?_,
      disjoint := h.disjoint }
  · exact List.forall_mem_cons.mpr
      ⟨⟨Nat.pos_of_ne_zero hptr, Nat.le_refl _, hcapacity, hfresh.word⟩, h.blocks⟩
  · exact List.forall_mem_cons.mpr ⟨hfresh.primary, h.outside⟩
  · exact (h.allocated.cons _).trans (List.perm_append_singleton _ _).symm
  · rcases h.placed v hv with hprimary | ⟨b, hb, hin⟩
    · exact Or.inl hprimary
    · exact Or.inr ⟨b, List.mem_cons_of_mem _ hb, hin⟩

theorem reset (h : σ.Valid) : Valid ⟨σ.arena.reset, σ.log, []⟩ := by
  have hblock : ∀ b ∈ σ.arena.reset.firstOverflow, ∃ c ∈ σ.arena.firstOverflow,
      b = { c with used := overflowHeader } := by
    intro b hb
    obtain ⟨c, hc, rfl⟩ := List.mem_map.mp hb
    exact ⟨c, hc, rfl⟩
  refine
    { base := h.base, cur := Nat.le_refl _, stop := Nat.le_trans h.cur h.stop, word := h.word,
      blocks := ?_, outside := ?_, apart := ?_, allocated := ?_, freed := h.freed,
      host := fun hnull => ?_, aligned := by simp, placed := by simp, disjoint := .nil }
  · intro b hb
    obtain ⟨c, hc, rfl⟩ := hblock b hb
    have hvalid := h.blocks c hc
    exact ⟨hvalid.ptr, Nat.le_refl _, Nat.le_trans hvalid.header hvalid.used, hvalid.word⟩
  · intro b hb
    obtain ⟨c, hc, rfl⟩ := hblock b hb
    exact h.outside c hc
  · exact List.pairwise_map.mpr h.apart
  · show ((σ.arena.firstOverflow.map _).map _).Perm _
    rw [List.map_map]
    exact h.allocated
  · show σ.arena.firstOverflow.map _ = []
    rw [h.host hnull, List.map_nil]

/-- A call on the overflow chain. -/
theorem allocOverflow (h : σ.Valid) {hostAlloc : HostAlloc} (halign : align.isPowerOfTwo)
    (hword : align < 2 ^ 64)
    (hfresh : ∀ capacity align, hostAlloc capacity align = 0 ∨
      σ.FreshBlock (hostAlloc capacity align) capacity align) :
    let served := σ.arena.allocOverflow σ.log hostAlloc size align
    Valid ⟨served.2.1, served.2.2,
      if served.1 = 0 then σ.values else ⟨served.1, size, align⟩ :: σ.values⟩ := by
  intro served
  have hserved : served = σ.arena.allocOverflow σ.log hostAlloc size align := rfl
  unfold CallArena.allocOverflow at hserved
  split at hserved
  · rw [hserved, if_pos rfl]
    exact h
  · rename_i hhost
    rcases @serveFromChain_cases size _ _ h.blocks halign hword with hnone | hsome
    · -- No block has room, and a new one is asked for.
      rw [hnone, if_neg (by simp)] at hserved
      cases hneeded : (checkedAdd overflowHeader align).bind fun v => checkedAdd v size with
      | none =>
        rw [hneeded] at hserved
        rw [hserved, if_pos rfl]
        exact h
      | some needed =>
        rw [hneeded] at hserved
        dsimp only at hserved
        generalize hcap : max needed overflowBlockMin = capacity at hserved
        split at hserved
        · rw [hserved, if_pos rfl]
          exact h
        · rename_i hptr
          have hmin : overflowHeader ≤ capacity := by
            have hle := Nat.le_max_right needed overflowBlockMin
            rw [hcap] at hle
            exact Nat.le_trans (by decide) hle
          have hblock := h.chainBlock hhost hptr hmin
            ((hfresh capacity overflowBlockAlign).resolve_left hptr)
          rcases @serveFromBlock_cases size _ ⟨_, capacity, overflowHeader⟩
              (hblock.blocks _ List.mem_cons_self) halign hword with
            ⟨heq, -⟩ | ⟨p, used, heq, hp, hserves⟩
          · rw [hserved, heq, if_pos rfl]
            exact hblock
          · rw [hserved, heq, if_neg hp]
            exact hblock.serveChain ⟨[], _, _, used, rfl, rfl, hp, hserves⟩
    · have hp : (serveFromChain size align σ.arena.firstOverflow).1 ≠ 0 := by
        obtain ⟨front, b, rest, used, -, -, hp, -⟩ := hsome
        exact hp
      rw [if_pos hp] at hserved
      rw [hserved, if_neg hp]
      exact h.serveChain hsome

/-- A call keeps the invariant. -/
theorem exec (h : σ.Valid) {call : ArenaCall} (hfresh : σ.HostFresh call) :
    (σ.exec call).Valid := by
  cases call with
  | reset => exact h.reset
  | alloc size align hostAlloc =>
    have hword : align.toNat < 2 ^ 64 := align.toNat_lt
    simp only [ArenaState.exec, CallArena.alloc]
    split
    · rw [if_pos rfl]
      exact h
    · rename_i hargs
      rw [not_or, not_not] at hargs
      obtain ⟨-, halign⟩ := hargs
      cases hbump : bump σ.arena.cur σ.arena.stop size.toNat align.toNat with
      | none => exact h.allocOverflow halign hword hfresh
      | some p =>
        obtain ⟨hdvd, hle, hfit⟩ := bump_some halign hword hbump
        have hbase := h.base
        have hcur := h.cur
        have hlast := h.word
        dsimp only
        rw [if_neg (show p ≠ 0 by omega), Nat.mod_eq_of_lt (by omega)]
        exact h.servePrimary hdvd hle hfit

end Valid

/-! ### The properties of a run -/

/-- Memory safety of an arena in use. -/
structure Safe (σ : ArenaState) : Prop where
  /-- No value is null. -/
  nonNull : ∀ v ∈ σ.values, v.ptr ≠ 0
  aligned : ∀ v ∈ σ.values, v.align ∣ v.ptr
  /-- A value is inside the primary region, or inside one block behind its header. -/
  placed : ∀ v ∈ σ.values, v.region.span ⊆ σ.primary.span ∨
    ∃ b ∈ σ.arena.firstOverflow, v.region.span ⊆ b.body.span
  disjoint : σ.values.Pairwise fun v v' => Disjoint v.region.span v'.region.span
  headers : ∀ v ∈ σ.values, ∀ b ∈ σ.arena.firstOverflow,
    Disjoint v.region.span b.header.span
  cursors : ∀ b ∈ σ.arena.firstOverflow, overflowHeader ≤ b.used ∧ b.used ≤ b.capacity
  /-- Dropping the arena gives back every block it obtained, once and as it was
  requested. -/
  dropped : (σ.arena.drop σ.log).freed.Perm (σ.arena.drop σ.log).allocated ∧
    (σ.arena.drop σ.log).allocated = σ.log.allocated ∧
    (σ.log.allocated.map HostBlock.ptr).Nodup

/-- A request that can be served is served. -/
def Total (σ : ArenaState) : Prop :=
  ∀ (size align : UInt64) (hostAlloc : HostAlloc), σ.HostFresh (.alloc size align hostAlloc) →
    size ≠ 0 → align.toNat.isPowerOfTwo → overflowHeader + align.toNat + size.toNat < 2 ^ 64 →
    ((∃ p, σ.arena.cur ≤ p ∧ align.toNat ∣ p ∧ p + size.toNat ≤ σ.arena.stop) ∨
      σ.arena.host ≠ 0 ∧ hostAlloc
        (max (overflowHeader + align.toNat + size.toNat) overflowBlockMin) overflowBlockAlign ≠ 0) →
    (σ.arena.alloc σ.log hostAlloc size.toNat align.toNat).1 ≠ 0

theorem Valid.safe {σ : ArenaState} (h : σ.Valid) : σ.Safe where
  nonNull v hv := by
    have hbase := h.base
    rcases h.placed v hv with ⟨hstart, -⟩ | ⟨b, hb, hstart, -⟩
    · omega
    · have := (h.blocks b hb).ptr
      omega
  aligned := h.aligned
  placed v hv := by
    rcases h.placed v hv with ⟨hstart, hstop⟩ | ⟨b, hb, hstart, hstop⟩
    · exact Or.inl (h.in_primary hstart hstop)
    · exact Or.inr ⟨b, hb, (h.in_block hb hstart hstop).2⟩
  disjoint := h.disjoint
  headers v hv b hb := by
    have hvalid := h.blocks b hb
    have hheader : b.header.span ⊆ b.region.span := by
      refine Region.span_subset (Nat.le_refl _) ?_
      exact Nat.add_le_add_left (Nat.le_trans hvalid.header hvalid.used) _
    rcases h.placed v hv with ⟨hstart, hstop⟩ | ⟨c, hc, hstart, hstop⟩
    · exact ((h.outside b hb).mono hheader (h.in_primary hstart hstop)).symm
    · by_cases hcb : c = b
      · subst hcb
        exact (Region.disjoint_of_le hstart).symm
      · exact (h.apart_of_ne hc hb hcb).mono (h.in_block hc hstart hstop).1 hheader
  cursors b hb := ⟨(h.blocks b hb).header, (h.blocks b hb).used⟩
  dropped := by
    have hfreed : (σ.arena.drop σ.log).freed.Perm σ.log.allocated ∧
        (σ.arena.drop σ.log).allocated = σ.log.allocated := by
      unfold CallArena.drop
      split
      · rename_i hnull
        have hperm := h.allocated
        rw [h.host hnull] at hperm
        exact ⟨by rw [h.freed]; exact hperm, rfl⟩
      · refine ⟨?_, rfl⟩
        show (σ.log.freed ++ σ.arena.firstOverflow.map ArenaOverflowBlock.hostBlock).Perm _
        rw [h.freed]
        exact h.allocated
    refine ⟨by rw [hfreed.2]; exact hfreed.1, hfreed.2, ?_⟩
    -- Blocks that do not overlap start at different addresses.
    have hstarts : (σ.arena.firstOverflow.map ArenaOverflowBlock.ptr).Nodup := by
      refine List.pairwise_map.mpr (h.apart.imp_of_mem fun {b b'} hb hb' hd heq => ?_)
      have hvalid := h.blocks b hb
      have hvalid' := h.blocks b' hb'
      have hsize : 0 < b.capacity :=
        Nat.lt_of_lt_of_le (by decide) (Nat.le_trans hvalid.header hvalid.used)
      have hsize' : 0 < b'.capacity :=
        Nat.lt_of_lt_of_le (by decide) (Nat.le_trans hvalid'.header hvalid'.used)
      have hin : b.ptr ∈ b.region.span := ⟨Nat.le_refl _, Nat.lt_add_of_pos_right hsize⟩
      have hin' : b.ptr ∈ b'.region.span := by
        rw [heq]
        exact ⟨Nat.le_refl _, Nat.lt_add_of_pos_right hsize'⟩
      exact Set.disjoint_left.mp hd hin hin'
    have hperm := h.allocated.map HostBlock.ptr
    rw [List.map_map] at hperm
    exact hperm.nodup_iff.mp hstarts

theorem Valid.total {σ : ArenaState} (h : σ.Valid) : σ.Total := by
  intro size align hostAlloc hfresh hsize halign hsum hroom
  have hword : align.toNat < 2 ^ 64 := align.toNat_lt
  have hbase := h.base
  have hcur := h.cur
  have hsizeNat : size.toNat ≠ 0 := by
    intro hzero
    exact hsize (UInt64.toNat_inj.mp hzero)
  unfold CallArena.alloc
  rw [if_neg (by simp [hsizeNat, halign])]
  cases hbump : bump σ.arena.cur σ.arena.stop size.toNat align.toNat with
  | some p =>
    obtain ⟨-, hle, -⟩ := bump_some halign hword hbump
    show p ≠ 0
    omega
  | none =>
    rcases hroom with ⟨p, hp, hdvd, hfit⟩ | ⟨hhost, hanswer⟩
    · have := bump_none halign hword h.word hbump hp hdvd
      omega
    · dsimp only
      rw [CallArena.allocOverflow, if_neg hhost]
      rcases @serveFromChain_cases size.toNat _ _ h.blocks halign hword with hnone | hsome
      · rw [hnone, if_neg (by simp)]
        have hneeded : ((checkedAdd overflowHeader align.toNat).bind fun v =>
            checkedAdd v size.toNat) = some (overflowHeader + align.toNat + size.toNat) := by
          simp only [checkedAdd]
          rw [if_pos (by omega), Option.bind_some, if_pos hsum]
        rw [hneeded]
        dsimp only
        rw [if_neg hanswer]
        -- The new block has room for the header, the padding and the value.
        have hblock := (hfresh _ overflowBlockAlign).resolve_left hanswer
        have hcapacity := Nat.le_max_left (overflowHeader + align.toNat + size.toNat)
          overflowBlockMin
        generalize max (overflowHeader + align.toNat + size.toNat) overflowBlockMin = capacity
          at hanswer hblock hcapacity ⊢
        generalize hostAlloc capacity overflowBlockAlign = ptr at hanswer hblock ⊢
        have hend := hblock.word
        have hvalid : ArenaOverflowBlock.Valid ⟨ptr, capacity, overflowHeader⟩ :=
          ⟨Nat.pos_of_ne_zero hanswer, Nat.le_refl _, by
            show overflowHeader ≤ capacity
            omega, hend⟩
        rcases @serveFromBlock_cases size.toNat _ _ hvalid halign hword with
          ⟨-, hfull⟩ | ⟨p, used, heq, hp, -⟩
        · obtain ⟨hdvd, hle, hlt, -⟩ := @alignUp_spec 64 (ptr + overflowHeader) _ halign
            hword (by omega)
          have hover := hfull _ hle hdvd
          dsimp only at hover
          omega
        · rw [heq]
          exact hp
      · obtain ⟨front, b, rest, used, -, -, hp, -⟩ := hsome
        rw [if_pos hp]
        exact hp

/-- Every state an arena reaches is safe, and no request is refused that could be
served. -/
theorem arena_run (base len host : Nat) (hbase : 0 < base) (hlen : base + len < 2 ^ 64)
    (calls : List ArenaCall) (hfresh : Steps exec HostFresh (new base len host) calls) :
    (run exec (new base len host) calls).Safe ∧ (run exec (new base len host) calls).Total := by
  have hvalid := hfresh.invariant (valid_new hbase hlen) fun _ _ h hstep => h.exec hstep
  exact ⟨hvalid.safe, hvalid.total⟩

/-- A value that fits a buffer of 16 bytes and one that does not, with a host that has
one block, at 4096. -/
def overflowingCalls : List ArenaCall :=
  [.alloc 8 8 fun _ _ => 0,
    .alloc 16 16 fun capacity align => if capacity = 4096 ∧ align = 8 then 4096 else 0]

theorem arena_run_overflow : (run exec (new 64 16 1) overflowingCalls).Safe := by
  have hfresh : Steps exec HostFresh (new 64 16 1) overflowingCalls := by
    refine ⟨fun _ _ => Or.inl rfl, fun capacity align => ?_, trivial⟩
    by_cases hrequest : capacity = 4096 ∧ align = 8
    · obtain ⟨rfl, rfl⟩ := hrequest
      refine Or.inr ⟨by decide, by decide, ?_, fun b hb => ?_⟩
      · exact (Region.disjoint_of_le (by decide)).symm
      · -- The host has given nothing yet.
        cases hb
    · exact Or.inl (if_neg hrequest)
  exact (arena_run 64 16 1 (by decide) (by decide) overflowingCalls hfresh).1

end ArenaState

end PolyPlug.Abi
