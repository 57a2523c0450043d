import PolyPlug.Abi.Types
import PolyPlug.Lib.Map
import PolyPlug.Lib.Run
import PolyPlug.Registry.Store

/-!
# `PolyPlug.Host.Contracts`: host contracts and their instances

A host registers interfaces by contract id. `host_get_host_contract` answers a caller
with an instance. It reads the table of interfaces under one lock and the cache of
singleton instances under another, and drops the first before it takes the second.

`HostSystem` is the two maps and the calls in progress. A step is one critical section
of a thread, the return of a `create_instance`, or the return of a call. The write guard
of the cache is held while `create_instance` runs. A call made from a `create_instance`
is a call of another thread of the model.

The origin of an instance is not in the source. It records which `create_instance`
returned it.
-/

set_option autoImplicit false

namespace PolyPlug.Host

open PolyPlug.Abi
open PolyPlug.Registry

/-- `HostContractInterface`, behind a reference. `ptr` is its address. -/
structure HostContractInterface where
  ptr : Nat
  contractId : UInt64
  contractVersion : Version
  singleton : Bool
deriving DecidableEq

/-- `HostContractInstance`: its data pointer, and the call of `create_instance` it comes
from. -/
structure HostContractInstance where
  data : Nat
  origin : Option (HostContractInterface × Nat)
deriving DecidableEq

/-- `HostContractInstance::null`. -/
def HostContractInstance.null : HostContractInstance := ⟨0, none⟩

/-- `HostContractInstance::is_null`. -/
def HostContractInstance.isNull (inst : HostContractInstance) : Bool := inst.data = 0

/-- The interface whose `create_instance` returned the instance. -/
def HostContractInstance.creator (inst : HostContractInstance) :
    Option HostContractInterface :=
  inst.origin.map Prod.fst

/-- `HostContractError`. -/
inductive HostContractError where
  | duplicateContract (contractId : UInt64)
deriving DecidableEq

/-! ### The table of interfaces -/

/-- `host_contracts`: an interface is registered under its own id. -/
structure HostContracts where
  table : Finmap fun _ : UInt64 => HostContractInterface
  keyed : ∀ c interface, table.lookup c = some interface → interface.contractId = c

namespace HostContracts

def new : HostContracts := ⟨∅, by simp⟩

/-- The interface under an id. -/
def lookup (s : HostContracts) (c : UInt64) : Option HostContractInterface := s.table.lookup c

/-- `host_contract_version_satisfies`. The request packs a major and a minor, and zero is
any version. -/
def versionSatisfies (interface : HostContractInterface) (minVersion : Nat) : Bool :=
  if minVersion = 0 then true
  else
    -- The major stands in the upper half, the minor in the lower.
    let reqMajor := minVersion >>> 16
    let reqMinor := minVersion &&& 0xFFFF
    interface.contractVersion.major = reqMajor && reqMinor ≤ interface.contractVersion.minor

/-- `register_host_contract`. -/
def register (s : HostContracts) (interface : HostContractInterface) :
    Except HostContractError Unit × HostContracts :=
  if (s.lookup interface.contractId).isSome then
    (.error (.duplicateContract interface.contractId), s)
  else
    (.ok (), {
      table := s.table.insert interface.contractId interface
      keyed := by
        intro c i h
        rw [Lib.lookup_insert_eq] at h
        split at h
        · next heq => rw [← Option.some.inj h, heq]
        · exact s.keyed c i h })

/-- `unregister_host_contract`. -/
def unregister (s : HostContracts) (c : UInt64) : Bool × HostContracts :=
  ((s.lookup c).isSome, {
    table := s.table.erase c
    keyed := by
      intro c' i h
      rw [Lib.lookup_erase_eq] at h
      split at h
      · cases h
      · exact s.keyed c' i h })

/-- The test of the `find` over the values. -/
def matchesRequest (c : UInt64) (minVersion : Nat) (interface : HostContractInterface) : Bool :=
  interface.contractId = c && versionSatisfies interface minVersion

/-- The `find` over the values: the entry of the id, if its version satisfies. -/
def find (s : HostContracts) (c : UInt64) (minVersion : Nat) : Option HostContractInterface :=
  (s.lookup c).filter fun interface => versionSatisfies interface minVersion

/-- The order of the values does not matter to the `find`. -/
theorem find?_values (s : HostContracts) (c : UInt64) (minVersion : Nat)
    {values : List HostContractInterface}
    (hvalues : ∀ interface, interface ∈ values ↔ ∃ key, s.lookup key = some interface) :
    values.find? (matchesRequest c minVersion) = s.find c minVersion := by
  have hown : ∀ interface ∈ values, interface.contractId = c → s.lookup c = some interface := by
    intro interface hmem hid
    obtain ⟨key, hkey⟩ := (hvalues interface).1 hmem
    rwa [← s.keyed key interface hkey, hid] at hkey
  cases hfind : values.find? (matchesRequest c minVersion) with
  | some interface =>
    have hmatch := List.find?_some hfind
    simp only [matchesRequest, Bool.and_eq_true, decide_eq_true_eq] at hmatch
    rw [find, hown interface (List.mem_of_find?_eq_some hfind) hmatch.1]
    simp [Option.filter, hmatch.2]
  | none =>
    rw [find]
    cases hlookup : s.lookup c with
    | none => rfl
    | some interface =>
      have hno := List.find?_eq_none.1 hfind interface ((hvalues interface).2 ⟨c, hlookup⟩)
      have hid := s.keyed c interface hlookup
      simp only [matchesRequest, hid, decide_true, Bool.true_and, Bool.not_eq_true] at hno
      simp [Option.filter, hno]

end HostContracts

/-! ### Calls in progress -/

/-- Where a call of `host_get_host_contract` is. -/
inductive CallPhase where
  | called
  /-- The guard of the table is dropped. -/
  | found (interface : HostContractInterface)
  /-- The cache had no instance, and its read guard is dropped. -/
  | missed (interface : HostContractInterface)
  /-- In `create_instance`. -/
  | creating (interface : HostContractInterface)
  | returning (interface : Option HostContractInterface) (result : HostContractInstance)
deriving DecidableEq

/-- The interface the call found. -/
def CallPhase.interface : CallPhase → Option HostContractInterface
  | .called                => none
  | .found interface       => some interface
  | .missed interface      => some interface
  | .creating interface    => some interface
  | .returning interface _ => interface

/-- A call of `host_get_host_contract`. -/
structure HostCall where
  contractId : UInt64
  minVersion : Nat
  phase : CallPhase
deriving DecidableEq

/-- The two maps, and the calls of the threads. -/
structure HostSystem where
  hostContracts : HostContracts
  singletonInstances : Finmap fun _ : UInt64 => HostContractInstance
  /-- The thread with the write guard of `singletonInstances`, between two steps. -/
  writer : Option ThreadId
  calls : ThreadId → Option HostCall
  /-- How often a `create_instance` has returned. -/
  created : Nat

/-- One step of a thread. -/
inductive HostStep where
  | register (interface : HostContractInterface)
  | unregister (contractId : UInt64)
  | call (thread : ThreadId) (contractId : UInt64) (minVersion : Nat)
  /-- The next critical section of the call. -/
  | advance (thread : ThreadId)
  /-- `create_instance` returns with this data pointer. -/
  | created (thread : ThreadId) (data : Nat)
  | ret (thread : ThreadId)
deriving DecidableEq

namespace HostSystem

/-- Nothing is registered. -/
def new : HostSystem := ⟨.new, ∅, none, fun _ => none, 0⟩

/-- The call of a thread changes. -/
def setCall (s : HostSystem) (thread : ThreadId) (call : Option HostCall) : HostSystem :=
  { s with calls := Function.update s.calls thread call }

/-- The next critical section of a call. A thread that waits for the cache stays. -/
def advance (s : HostSystem) (thread : ThreadId) (call : HostCall) : HostSystem :=
  match call.phase with
  | .called =>
    match s.hostContracts.find call.contractId call.minVersion with
    -- Nothing is registered, or its version is too low.
    | none           => s.setCall thread (some { call with phase := .returning none .null })
    | some interface => s.setCall thread (some { call with phase := .found interface })
  | .found interface =>
    if interface.singleton then
      -- the read guard waits for a writer
      if s.writer.isSome then s
      else
        match s.singletonInstances.lookup call.contractId with
        | some cached =>
          s.setCall thread (some { call with phase := .returning (some interface) cached })
        | none => s.setCall thread (some { call with phase := .missed interface })
    else s.setCall thread (some { call with phase := .creating interface })
  | .missed interface =>
    if s.writer.isSome then s
    else
      -- another thread may have created the instance in between
      match s.singletonInstances.lookup call.contractId with
      | some cached =>
        s.setCall thread (some { call with phase := .returning (some interface) cached })
      | none =>
        { s with writer := some thread }.setCall thread
          (some { call with phase := .creating interface })
  | .creating _    => s
  | .returning _ _ => s

/-- `create_instance` of the interface returns on a thread. A singleton is cached unless it
is null, and the write guard is dropped. -/
def finishCreate (s : HostSystem) (thread : ThreadId) (call : HostCall)
    (interface : HostContractInterface) (data : Nat) : HostSystem :=
  let result : HostContractInstance := ⟨data, some (interface, s.created)⟩
  let s := { s with created := s.created + 1 }.setCall thread
    (some { call with phase := .returning (some interface) result })
  if interface.singleton then
    { s with
      writer := none
      singletonInstances :=
        -- A failed creation is not cached, and the next call tries again.
        if result.isNull then s.singletonInstances
        else s.singletonInstances.insert call.contractId result }
  else s

/-- One step. A step that is not due does nothing. -/
def exec (s : HostSystem) : HostStep → HostSystem
  | .register interface => { s with hostContracts := (s.hostContracts.register interface).2 }
  | .unregister c       => { s with hostContracts := (s.hostContracts.unregister c).2 }
  | .call thread c minVersion =>
    match s.calls thread with
    | none   => s.setCall thread (some ⟨c, minVersion, .called⟩)
    | some _ => s
  | .advance thread =>
    match s.calls thread with
    | none      => s
    | some call => s.advance thread call
  | .created thread data =>
    match s.calls thread with
    | some ⟨c, minVersion, .creating interface⟩ =>
      s.finishCreate thread ⟨c, minVersion, .creating interface⟩ interface data
    | _ => s
  | .ret thread =>
    match s.calls thread with
    | some ⟨_, _, .returning _ _⟩ => s.setCall thread none
    | _                           => s

end HostSystem

end PolyPlug.Host
