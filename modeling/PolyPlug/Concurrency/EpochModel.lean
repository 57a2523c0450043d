import Mathlib.Logic.Function.Basic
import PolyPlug.Lib.Epoch

/-!
# `PolyPlug.Concurrency.EpochModel`: the model of the publish and reclaim protocol

The crate `loom_epoch_model` checks the protocol of the registry's readers and writers on
one reader and one writer. A reader pins a guard, loads the published pointer and follows
it. A writer swaps the pointer and defers the slot it took out. Reclaiming a slot clears
its `alive`, and a reader asserts it.

`Scenario` has any number of readers and writers. A slot pointer is an index into `slots`,
which has a slot for every index where the source has two. One step of a thread is one
atomic access or one critical section of the collector.
-/

set_option autoImplicit false

namespace PolyPlug.Concurrency

/-- `Slot`. -/
structure Slot where
  alive : Bool
deriving DecidableEq

/-- `Collector`. -/
structure Collector where
  nextGuard : Nat
  active : List Nat
  deferred : List (Nat × List Nat)
deriving DecidableEq

/-- `World`. -/
structure World where
  published : Nat
  collector : Collector
  slots : Nat → Slot

namespace World

/-- `World::new`: slot 0 is published. -/
def new : World := ⟨0, ⟨0, [], []⟩, fun _ => ⟨true⟩⟩

/-- `pin`. -/
def pin (w : World) : Nat × World :=
  (w.collector.nextGuard,
    { w with
        collector := { w.collector with
          nextGuard := w.collector.nextGuard + 1
          active := w.collector.active ++ [w.collector.nextGuard] } })

/-- The loop of `reclaim`. The entries before `i` are `kept`. -/
def reclaimLoop (active : List Nat) (kept : List (Nat × List Nat)) :
    List (Nat × List Nat) → (Nat → Slot) → List (Nat × List Nat) × (Nat → Slot)
  | [], slots            => (kept, slots)
  | entry :: rest, slots =>
    let stillPinned := entry.2.any active.contains
    if stillPinned then reclaimLoop active (kept ++ [entry]) rest slots
    else reclaimLoop active kept rest (Function.update slots entry.1 ⟨false⟩)

/-- `reclaim`. -/
def reclaim (w : World) : World :=
  let (deferred, slots) := reclaimLoop w.collector.active [] w.collector.deferred w.slots
  { w with collector := { w.collector with deferred := deferred }, slots := slots }

/-- `unpin`. -/
def unpin (w : World) (id : Nat) : World :=
  { w with
      collector := { w.collector with
        active := w.collector.active.filter (· ≠ id) } }.reclaim

/-- The swap of `publish_swap`. -/
def swap (w : World) (newPtr : Nat) : Nat × World := (w.published, { w with published := newPtr })

/-- The critical section of `publish_swap`. -/
def deferFree (w : World) (oldPtr : Nat) : World :=
  { w with
      collector := { w.collector with
        deferred := w.collector.deferred ++ [(oldPtr, w.collector.active)] } }.reclaim

end World

/-! ### The threads -/

/-- What a thread has done. -/
inductive Thread where
  /-- `reader_pinned`, or `reader_unpinned` with `unpinsEarly`. -/
  | reader (unpinsEarly : Bool)
  | pinned (unpinsEarly : Bool) (id : Nat)
  | loaded (unpinsEarly : Bool) (id ptr : Nat)
  /-- `reader_unpinned` has dropped its guard. -/
  | unpinned (ptr : Nat)
  /-- `reader_pinned` has found the slot alive. -/
  | checked (id : Nat)
  /-- A writer about to call `publish_swap`. -/
  | writer (newPtr : Nat)
  | swapped (oldPtr : Nat)
  | finished
  /-- The assertion has failed, in a reader that holds these guards. -/
  | panicked (held : List Nat)
deriving DecidableEq

/-- The next step of a thread. -/
def Thread.step (w : World) : Thread → Thread × World
  | .reader early        => (.pinned early w.pin.1, w.pin.2)
  | .pinned early id     => (.loaded early id w.published, w)
  | .loaded false id ptr => (if (w.slots ptr).alive then .checked id else .panicked [id], w)
  | .loaded true id ptr  => (.unpinned ptr, w.unpin id)
  | .unpinned ptr        => (if (w.slots ptr).alive then .finished else .panicked [], w)
  | .checked id          => (.finished, w.unpin id)
  | .writer newPtr       => (.swapped (w.swap newPtr).1, (w.swap newPtr).2)
  | .swapped oldPtr      => (.finished, w.deferFree oldPtr)
  | .finished            => (.finished, w)
  | .panicked held       => (.panicked held, w)

/-- The readers of an execution and the slots its writers publish, each a fresh one. -/
structure Scenario where
  /-- Whether each reader drops its guard before it follows the pointer. -/
  readers : List Bool
  writers : List Nat
  fresh : (0 :: writers).Nodup

namespace Scenario

/-- The threads before their first steps. -/
def threads (sc : Scenario) : List Thread := sc.readers.map .reader ++ sc.writers.map .writer

/-- `scenario`: one reader and one writer of slot 1. -/
def scenario (readerUnpinsEarly : Bool) : Scenario := ⟨[readerUnpinsEarly], [1], by decide⟩

end Scenario

/-- The threads of an execution and what they share. -/
structure Execution where
  threads : List Thread
  world : World

namespace Execution

/-- The execution before its first step. -/
def start (sc : Scenario) : Execution := ⟨sc.threads, .new⟩

/-- One step of the thread at an index. -/
def exec (s : Execution) (k : Nat) : Execution :=
  match s.threads[k]? with
  | none        => s
  | some thread => ⟨s.threads.set k (thread.step s.world).1, (thread.step s.world).2⟩

/-- The execution after a schedule. -/
def after (sc : Scenario) (schedule : List Nat) : Execution :=
  Lib.run exec (start sc) schedule

/-- An assertion has failed. -/
def Panicked (s : Execution) : Prop := ∃ held, Thread.panicked held ∈ s.threads

end Execution

end PolyPlug.Concurrency
