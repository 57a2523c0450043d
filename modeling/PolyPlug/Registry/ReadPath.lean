import PolyPlug.Lib.Epoch
import PolyPlug.Registry.Ops

/-!
# `PolyPlug.Registry.ReadPath`: lock-free readers and the publish protocol

`RuntimeStore` takes a call of the registry for one step. Here a call is what the source
does: a lock-free reader pins a guard, loads the pointer to the published view, reads the
view and drops the guard. A mutator changes the data under the write lock, rebuilds the
view, swaps the pointer, defers the destruction of the old view, and bumps the revision
before it drops its guard and the lock.

A view is named by its allocation, so that a pointer to a destroyed view stays wrong when
its address is used again. The collector is an epoch domain that destroys a view in a step
of its own, at any time at which it may.
-/

set_option autoImplicit false

namespace PolyPlug.Registry

open PolyPlug.Abi

/-- A call of a lock-free reader. -/
inductive ReadQuery where
  | findGuestContract (contractId : GuestContractId) (minVersion : Nat)
  | findAllGuestContracts (contractId : GuestContractId) (minVersion : Nat)
      (out : List GuestContractHandle)
  | findAllGuestContractsPacked (contractId : GuestContractId) (minVersion : Nat) (out : List Nat)
  | countGuestContracts (contractId : GuestContractId) (minVersion : Nat)
  | collectGuestContracts (contractId : GuestContractId) (minVersion : Nat)
  | resolveGuestContract (handle : GuestContractHandle)
deriving DecidableEq

/-- What such a call returns or writes. -/
inductive ReadAnswer where
  | handle (answer : Except RegistryError GuestContractHandle)
  | handles (answer : List GuestContractHandle × Nat)
  | packed (answer : List Nat × Nat)
  | count (answer : Nat)
  | collected (answer : List GuestContractHandle)
  | interface (answer : Except RegistryError (Arc GuestContractInterface))

/-- The answer of a lock-free reader in one step. -/
def RuntimeStore.read (s : RuntimeStore) : ReadQuery → ReadAnswer
  | .findGuestContract contractId minVersion => .handle (s.findGuestContract contractId minVersion)
  | .findAllGuestContracts contractId minVersion out =>
    .handles (s.findAllGuestContracts contractId minVersion out)
  | .findAllGuestContractsPacked contractId minVersion out =>
    .packed (s.findAllGuestContractsPacked contractId minVersion out)
  | .countGuestContracts contractId minVersion =>
    .count (s.countGuestContracts contractId minVersion)
  | .collectGuestContracts contractId minVersion =>
    .collected (s.collectGuestContracts contractId minVersion)
  | .resolveGuestContract handle => .interface (s.resolveGuestContract handle)

/-- Where the call of a thread is. -/
inductive ReadPhase where
  | idle
  | pinned (query : ReadQuery) (guard : Nat)
  | loaded (query : ReadQuery) (guard view : Nat)
  /-- The data has changed under the lock. -/
  | mutated (call : StoreCall)
  | rebuilt (call : StoreCall) (view : ReadView) (guard : Nat)
  | swapped (guard old : Nat)
  | deferred (guard : Nat)
  | bumped (guard : Nat)

/-- The store as its threads share it. -/
structure SharedStore where
  /-- What the lock protects. -/
  data : RuntimeStoreData
  /-- The thread that holds the write lock. -/
  writer : Option ThreadId
  /-- The pointer to the published view. -/
  published : Nat
  /-- What each allocation holds. -/
  views : List ReadView
  revision : Nat
  epoch : Lib.Epoch Nat Nat
  nextGuard : Nat
  phase : ThreadId → ReadPhase
  /-- Not in the source: the store that takes each call for one step. -/
  atomic : RuntimeStore

/-- A step of a thread, or of the collector. -/
inductive ReadStep where
  | read (thread : ThreadId) (query : ReadQuery)
  | mutate (thread : ThreadId) (call : StoreCall)
  /-- The next access of the thread's call. -/
  | advance (thread : ThreadId)
  /-- The collector tries to destroy the deferred view at an index. -/
  | collect (k : Nat)

namespace SharedStore

/-- `RuntimeStore::new`. -/
def new : SharedStore :=
  ⟨.new, none, 0, [.empty], 0, .new, 0, fun _ => .idle, .new⟩

/-- The view at an allocation. -/
def viewAt (s : SharedStore) (view : Nat) : ReadView := (s.views[view]?).getD .empty

/-- The store as the holder of the lock finds it. -/
def held (s : SharedStore) : RuntimeStore :=
  { RuntimeStore.new with
      data := s.data, published := s.viewAt s.published, revision := s.revision }

/-- The answer of a reader that follows a pointer to the view. -/
def answer (s : SharedStore) (query : ReadQuery) (view : Nat) : ReadAnswer :=
  { RuntimeStore.new with published := s.viewAt view }.read query

/-- The call of a thread gets to a phase. -/
def setPhase (s : SharedStore) (thread : ThreadId) (phase : ReadPhase) : SharedStore :=
  { s with phase := Function.update s.phase thread phase }

/-- A thread pins a guard. -/
def pin (s : SharedStore) : SharedStore :=
  { s with epoch := s.epoch.pin s.nextGuard, nextGuard := s.nextGuard + 1 }

/-- A thread drops its guard. -/
def unpin (s : SharedStore) (guard : Nat) : SharedStore := { s with epoch := s.epoch.unpin guard }

/-- A mutator gets the lock and changes the data. It publishes unless it returns early. -/
def mutate (s : SharedStore) (thread : ThreadId) (call : StoreCall) : SharedStore :=
  let next := s.held.call call
  if next.revision = s.revision then
    { s with data := next.data, atomic := s.atomic.call call }
  else { s with data := next.data, writer := some thread }.setPhase thread (.mutated call)

/-- The next access of a thread's call. -/
def advance (s : SharedStore) (thread : ThreadId) : SharedStore :=
  match s.phase thread with
  | .idle => s
  | .pinned query guard => s.setPhase thread (.loaded query guard s.published)
  | .loaded _ guard _ => (s.unpin guard).setPhase thread .idle
  | .mutated call =>
    s.pin.setPhase thread (.rebuilt call (ReadView.rebuild s.data) s.nextGuard)
  | .rebuilt call view guard =>
    { s with
        views := s.views ++ [view]
        published := s.views.length
        atomic := s.atomic.call call }.setPhase thread (.swapped guard s.published)
  | .swapped guard old => { s with epoch := s.epoch.defer old }.setPhase thread (.deferred guard)
  | .deferred guard =>
    { s with revision := (s.revision + 1) % 2 ^ 64 }.setPhase thread (.bumped guard)
  | .bumped guard => { s.unpin guard with writer := none }.setPhase thread .idle

/-- One step. A step that is not due does nothing. -/
def exec (s : SharedStore) : ReadStep → SharedStore
  | .read thread query =>
    match s.phase thread with
    | .idle => s.pin.setPhase thread (.pinned query s.nextGuard)
    | _     => s
  | .mutate thread call =>
    match s.phase thread, s.writer with
    | .idle, none => s.mutate thread call
    | _, _        => s
  | .advance thread => s.advance thread
  | .collect k => { s with epoch := s.epoch.reclaim k }

end SharedStore

end PolyPlug.Registry
