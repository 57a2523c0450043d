import PolyPlug.Lib.Region

/-!
# `PolyPlug.Abi.CallArena`: the per-call bump allocator

`CallArena` serves from a primary region and then from overflow blocks it obtains
from the host. A block starts with its header, which holds the capacity and the
cursor of the block; the chain is kept here as a list, newest block first.

Addresses and sizes are 64-bit words kept as naturals, and a `checked_add` spells
its bound. The null pointer is `0`. `HostLog` records what the host was asked to
allocate and to free.
-/

set_option autoImplicit false

namespace PolyPlug.Abi

open PolyPlug.Lib

/-- `usize::checked_add`. -/
def checkedAdd (a b : Nat) : Option Nat := if a + b < 2 ^ 64 then some (a + b) else none

/-- `!x` on a word. -/
def wordNot (x : Nat) : Nat := 2 ^ 64 - 1 - x

/-! ### The host -/

/-- One allocation of the host: the address, the size and the alignment it was
requested with. -/
structure HostBlock where
  ptr : Nat
  size : Nat
  align : Nat
deriving DecidableEq

/-- The host's `alloc` callback during one call; `0` is a failed allocation. -/
abbrev HostAlloc := Nat → Nat → Nat

/-- What the arena obtained from the host and what it gave back. -/
structure HostLog where
  allocated : List HostBlock
  freed : List HostBlock
deriving DecidableEq

/-! ### The arena -/

/-- `ArenaOverflowBlock`, with the address it stands at. Its `next` is the next
block of the chain. -/
structure ArenaOverflowBlock where
  ptr : Nat
  capacity : Nat
  used : Nat
deriving DecidableEq

/-- `size_of::<ArenaOverflowBlock>()`. -/
def overflowHeader : Nat := 24

/-- `OVERFLOW_BLOCK_MIN`. -/
def overflowBlockMin : Nat := 4096

/-- `OVERFLOW_BLOCK_ALIGN`. -/
def overflowBlockAlign : Nat := 8

/-- `CallArena`. The field `end` of the source is `stop`. -/
structure CallArena where
  cur : Nat
  stop : Nat
  base : Nat
  host : Nat
  firstOverflow : List ArenaOverflowBlock
deriving DecidableEq

/-- `bump`. The pointer is derived as `from` plus an offset, which is the aligned
address. -/
def bump (start stop size align : Nat) : Option Nat :=
  match checkedAdd start (align - 1) with
  | none     => none
  | some sum =>
    -- Up to the next multiple of `align`.
    let alignedAddr := sum &&& wordNot (align - 1)
    match checkedAdd alignedAddr size with
    | none        => none
    | some newCur => if newCur ≤ stop then some alignedAddr else none

/-- `serve_from_block`: the pointer, and the block with its cursor advanced. -/
def serveFromBlock (block : ArenaOverflowBlock) (size align : Nat) : Nat × ArenaOverflowBlock :=
  match bump (block.ptr + block.used) (block.ptr + block.capacity) size align with
  | some ptr => (ptr, { block with used := ptr - block.ptr + size })
  | none     => (0, block)

/-- The reuse pass of `alloc_overflow`: the first block with room serves. -/
def serveFromChain (size align : Nat) :
    List ArenaOverflowBlock → Nat × List ArenaOverflowBlock
  | []            => (0, [])
  | block :: rest =>
    let served := serveFromBlock block size align
    if served.1 ≠ 0 then (served.1, served.2 :: rest)
    else
      let later := serveFromChain size align rest
      (later.1, served.2 :: later.2)

namespace CallArena

/-- `CallArena::new` over the buffer of `len` bytes at `base`. -/
def new (base len host : Nat) : CallArena := ⟨base, base + len, base, host, []⟩

/-- `alloc_overflow`. -/
def allocOverflow (a : CallArena) (log : HostLog) (hostAlloc : HostAlloc) (size align : Nat) :
    Nat × CallArena × HostLog :=
  if a.host = 0 then (0, a, log)
  else
    let reused := serveFromChain size align a.firstOverflow
    if reused.1 ≠ 0 then (reused.1, { a with firstOverflow := reused.2 }, log)
    else
      match (checkedAdd overflowHeader align).bind fun v => checkedAdd v size with
      | none        => (0, { a with firstOverflow := reused.2 }, log)
      | some needed =>
        -- A new block has room for the worst alignment.
        let capacity := max needed overflowBlockMin
        let ptr := hostAlloc capacity overflowBlockAlign
        if ptr = 0 then (0, { a with firstOverflow := reused.2 }, log)
        else
          let served := serveFromBlock ⟨ptr, capacity, overflowHeader⟩ size align
          -- The next search starts at the new block.
          (served.1, { a with firstOverflow := served.2 :: reused.2 },
            { log with allocated := log.allocated ++ [⟨ptr, capacity, overflowBlockAlign⟩] })

/-- `alloc`. -/
def alloc (a : CallArena) (log : HostLog) (hostAlloc : HostAlloc) (size align : Nat) :
    Nat × CallArena × HostLog :=
  if size = 0 ∨ ¬align.isPowerOfTwo then (0, a, log)
  else
    match bump a.cur a.stop size align with
    -- The sum of the source wraps, though it is at most `stop`.
    | some ptr => (ptr, { a with cur := (ptr + size) % 2 ^ 64 }, log)
    | none     => a.allocOverflow log hostAlloc size align

/-- `reset`: every cursor is rewound and no block is freed. -/
def reset (a : CallArena) : CallArena :=
  { a with
      cur := a.base
      firstOverflow := a.firstOverflow.map fun block => { block with used := overflowHeader } }

/-- `drop`: every block of the chain goes back to the host. -/
def drop (a : CallArena) (log : HostLog) : HostLog :=
  if a.host = 0 then log
  else
    { log with
        freed := log.freed
          ++ a.firstOverflow.map fun block => ⟨block.ptr, block.capacity, overflowBlockAlign⟩ }

end CallArena

end PolyPlug.Abi
