import Mathlib.Tactic.IntervalCases
import PolyPlug.Host.Contracts

/-!
# `PolyPlug.Proofs.Host.Contracts`: whose instance a caller gets

`HostSystem.Step` says what one step can do. `CallOk` is what a call knows of itself: its
interface serves the request, a singleton it creates is not cached yet, and an instance it
returns is cached or its own. These hold in every run.

Whose instance is in the cache is another matter. Nothing takes an instance out when its
interface is unregistered. `Settled` says that the calls and the cache of a contract with
a singleton belong to one interface, and it is kept as long as no singleton is registered
over the calls or the instance of another interface.
-/

set_option autoImplicit false

namespace PolyPlug.Host

open PolyPlug.Lib
open PolyPlug.Registry

/-! ### The table after an update -/

namespace HostContracts

theorem lookup_register {s : HostContracts} {interface : HostContractInterface}
    (hnew : s.lookup interface.contractId = none) (c : UInt64) :
    (s.register interface).2.lookup c =
      if c = interface.contractId then some interface else s.lookup c := by
  rw [register, hnew]
  exact lookup_insert_eq ..

theorem lookup_unregister (s : HostContracts) (c c' : UInt64) :
    (s.unregister c).2.lookup c' = if c' = c then none else s.lookup c' :=
  lookup_erase_eq ..

/-- An entry is under its own id. -/
theorem contractId_of_lookup {s : HostContracts} {c : UInt64}
    {interface : HostContractInterface} (h : s.lookup c = some interface) :
    interface.contractId = c :=
  s.keyed c interface h

theorem find_eq_some {s : HostContracts} {c : UInt64} {minVersion : Nat}
    {interface : HostContractInterface} :
    s.find c minVersion = some interface ↔
      s.lookup c = some interface ∧ versionSatisfies interface minVersion = true := by
  rw [find, Option.filter_eq_some_iff]

end HostContracts

namespace HostSystem

/-! ### What a step does -/

/-- What a step can do. -/
inductive Step (s : HostSystem) : HostStep → HostSystem → Prop
  | stay (act : HostStep) : Step s act s
  | register (interface : HostContractInterface)
      (hnew : s.hostContracts.lookup interface.contractId = none) :
      Step s (.register interface)
        { s with hostContracts := (s.hostContracts.register interface).2 }
  | unregister (c : UInt64) :
      Step s (.unregister c) { s with hostContracts := (s.hostContracts.unregister c).2 }
  | call (thread : ThreadId) (c : UInt64) (minVersion : Nat) (hidle : s.calls thread = none) :
      Step s (.call thread c minVersion) (s.setCall thread (some ⟨c, minVersion, .called⟩))
  | refuse {thread : ThreadId} {c : UInt64} {minVersion : Nat}
      (hcall : s.calls thread = some ⟨c, minVersion, .called⟩)
      (hfind : s.hostContracts.find c minVersion = none) :
      Step s (.advance thread) (s.setCall thread (some ⟨c, minVersion, .returning none .null⟩))
  | find {thread : ThreadId} {c : UInt64} {minVersion : Nat} {interface : HostContractInterface}
      (hcall : s.calls thread = some ⟨c, minVersion, .called⟩)
      (hfind : s.hostContracts.find c minVersion = some interface) :
      Step s (.advance thread) (s.setCall thread (some ⟨c, minVersion, .found interface⟩))
  | hit {thread : ThreadId} {c : UInt64} {minVersion : Nat} {phase : CallPhase}
      {interface : HostContractInterface} {cached : HostContractInstance}
      (hcall : s.calls thread = some ⟨c, minVersion, phase⟩)
      (hphase : phase = .found interface ∧ interface.singleton ∨ phase = .missed interface)
      (hcached : s.singletonInstances.lookup c = some cached) :
      Step s (.advance thread)
        (s.setCall thread (some ⟨c, minVersion, .returning (some interface) cached⟩))
  | miss {thread : ThreadId} {c : UInt64} {minVersion : Nat} {interface : HostContractInterface}
      (hcall : s.calls thread = some ⟨c, minVersion, .found interface⟩)
      (hsingleton : interface.singleton) :
      Step s (.advance thread) (s.setCall thread (some ⟨c, minVersion, .missed interface⟩))
  | create {thread : ThreadId} {c : UInt64} {minVersion : Nat} {interface : HostContractInterface}
      (hcall : s.calls thread = some ⟨c, minVersion, .found interface⟩)
      (hsingleton : ¬ interface.singleton) :
      Step s (.advance thread) (s.setCall thread (some ⟨c, minVersion, .creating interface⟩))
  | lock {thread : ThreadId} {c : UInt64} {minVersion : Nat} {interface : HostContractInterface}
      (hcall : s.calls thread = some ⟨c, minVersion, .missed interface⟩)
      (hfree : s.writer = none) (hempty : s.singletonInstances.lookup c = none) :
      Step s (.advance thread) ({ s with writer := some thread }.setCall thread
        (some ⟨c, minVersion, .creating interface⟩))
  | finish {thread : ThreadId} {c : UInt64} {minVersion : Nat} {interface : HostContractInterface}
      (data : Nat) (hcall : s.calls thread = some ⟨c, minVersion, .creating interface⟩) :
      Step s (.created thread data)
        (s.finishCreate thread ⟨c, minVersion, .creating interface⟩ interface data)
  | ret {thread : ThreadId} {c : UInt64} {minVersion : Nat}
      {interface : Option HostContractInterface} {result : HostContractInstance}
      (hcall : s.calls thread = some ⟨c, minVersion, .returning interface result⟩) :
      Step s (.ret thread) (s.setCall thread none)

/-- The next section of a call is a step. -/
theorem step_advance {s : HostSystem} {thread : ThreadId} {call : HostCall}
    (hcall : s.calls thread = some call) : s.Step (.advance thread) (s.advance thread call) := by
  obtain ⟨c, minVersion, phase⟩ := call
  cases phase with
  | called =>
    unfold advance
    dsimp only
    split
    · next hfind => exact .refuse hcall hfind
    · next hfind => exact .find hcall hfind
  | found interface =>
    unfold advance
    dsimp only
    split
    · next hsingleton =>
      split
      · exact .stay _
      · split
        · next hcached => exact .hit hcall (.inl ⟨rfl, hsingleton⟩) hcached
        · exact .miss hcall hsingleton
    · next hsingleton => exact .create hcall hsingleton
  | missed interface =>
    unfold advance
    dsimp only
    split
    · exact .stay _
    · next hfree =>
      split
      · next hcached => exact .hit hcall (.inr rfl) hcached
      · next hempty => exact .lock hcall (by simpa using hfree) hempty
  | creating interface => exact .stay _
  | returning interface result => exact .stay _

/-- `exec` takes a step. -/
theorem step_exec (s : HostSystem) (act : HostStep) : s.Step act (s.exec act) := by
  cases act with
  | register interface =>
    by_cases hnew : s.hostContracts.lookup interface.contractId = none
    · exact .register interface hnew
    · have hsame : (s.hostContracts.register interface).2 = s.hostContracts := by
        rw [HostContracts.register, if_pos (Option.isSome_iff_ne_none.2 hnew)]
      show s.Step _ { s with hostContracts := (s.hostContracts.register interface).2 }
      rw [hsame]
      exact .stay _
  | unregister c => exact .unregister c
  | call thread c minVersion =>
    unfold exec
    dsimp only
    split
    · next hidle => exact .call thread c minVersion hidle
    · exact .stay _
  | advance thread =>
    unfold exec
    dsimp only
    split
    · exact .stay _
    · next hcall => exact step_advance hcall
  | created thread data =>
    unfold exec
    dsimp only
    split
    · next hcall => exact .finish data hcall
    · exact .stay _
  | ret thread =>
    unfold exec
    dsimp only
    split
    · next hcall => exact .ret hcall
    · exact .stay _

@[simp] theorem calls_setCall (s : HostSystem) (thread t : ThreadId) (call : Option HostCall) :
    (s.setCall thread call).calls t = if t = thread then call else s.calls t := by
  by_cases h : t = thread
  · subst h
    simp [setCall]
  · simp [setCall, h]

@[simp] theorem hostContracts_setCall (s : HostSystem) (thread : ThreadId)
    (call : Option HostCall) : (s.setCall thread call).hostContracts = s.hostContracts := rfl

@[simp] theorem singletonInstances_setCall (s : HostSystem) (thread : ThreadId)
    (call : Option HostCall) :
    (s.setCall thread call).singletonInstances = s.singletonInstances := rfl

@[simp] theorem writer_setCall (s : HostSystem) (thread : ThreadId) (call : Option HostCall) :
    (s.setCall thread call).writer = s.writer := rfl

/-- A created instance. -/
def createdInstance (s : HostSystem) (interface : HostContractInterface) (data : Nat) :
    HostContractInstance :=
  ⟨data, some (interface, s.created)⟩

/-- The cache after a `create_instance`. -/
theorem singletonInstances_finishCreate (s : HostSystem) (thread : ThreadId) (call : HostCall)
    (interface : HostContractInterface) (data : Nat) :
    (s.finishCreate thread call interface data).singletonInstances =
      if interface.singleton ∧ data ≠ 0 then
        s.singletonInstances.insert call.contractId (s.createdInstance interface data)
      else s.singletonInstances := by
  unfold finishCreate
  cases hsingleton : interface.singleton with
  | false => simp
  | true =>
    by_cases hdata : data = 0
    · simp [hdata, HostContractInstance.isNull]
    · simp [hdata, HostContractInstance.isNull, createdInstance]

theorem calls_finishCreate (s : HostSystem) (thread t : ThreadId) (call : HostCall)
    (interface : HostContractInterface) (data : Nat) :
    (s.finishCreate thread call interface data).calls t =
      if t = thread then
        some { call with phase := .returning (some interface) (s.createdInstance interface data) }
      else s.calls t := by
  unfold finishCreate
  cases interface.singleton <;> exact calls_setCall ..

theorem hostContracts_finishCreate (s : HostSystem) (thread : ThreadId) (call : HostCall)
    (interface : HostContractInterface) (data : Nat) :
    (s.finishCreate thread call interface data).hostContracts = s.hostContracts := by
  unfold finishCreate
  cases interface.singleton <;> rfl

theorem writer_finishCreate (s : HostSystem) (thread : ThreadId) (call : HostCall)
    (interface : HostContractInterface) (data : Nat) :
    (s.finishCreate thread call interface data).writer =
      if interface.singleton then none else s.writer := by
  unfold finishCreate
  cases interface.singleton <;> rfl

/-! ### What a call knows -/

/-- What a call knows of its interface and its instance. -/
structure CallOk (s : HostSystem) (thread : ThreadId) (call : HostCall) : Prop where
  serves : ∀ interface, call.phase.interface = some interface →
    interface.contractId = call.contractId ∧
      HostContracts.versionSatisfies interface call.minVersion = true
  missed : ∀ interface, call.phase = .missed interface → interface.singleton = true
  /-- Whoever creates a singleton has the write guard, and found no instance under it. -/
  creating : ∀ interface, call.phase = .creating interface → interface.singleton = true →
    s.writer = some thread ∧ s.singletonInstances.lookup call.contractId = none
  cached : ∀ interface result, call.phase = .returning (some interface) result →
    interface.singleton = true → result.isNull = false →
      s.singletonInstances.lookup call.contractId = some result
  own : ∀ interface result, call.phase = .returning (some interface) result →
    interface.singleton = false → result.creator = some interface
  null : ∀ result, call.phase = .returning none result → result.isNull = true

/-- Every call knows what it should. -/
def Coherent (s : HostSystem) : Prop := ∀ t call, s.calls t = some call → s.CallOk t call

theorem coherent_new : Coherent new := nofun

/-- A step of one call that touches neither map. -/
theorem Coherent.setCall {s : HostSystem} (h : s.Coherent) {thread : ThreadId}
    {call : Option HostCall} (hcall : ∀ new, call = some new → s.CallOk thread new) :
    (s.setCall thread call).Coherent := by
  intro t old hold
  rw [calls_setCall] at hold
  split at hold
  · next ht =>
    subst ht
    have hok := hcall old hold
    exact ⟨hok.serves, hok.missed, hok.creating, hok.cached, hok.own, hok.null⟩
  · have hok := h t old hold
    exact ⟨hok.serves, hok.missed, hok.creating, hok.cached, hok.own, hok.null⟩

/-- **A step keeps what the calls know.** -/
theorem Coherent.step {s s' : HostSystem} {act : HostStep} (h : s.Coherent)
    (hstep : s.Step act s') : s'.Coherent := by
  cases hstep with
  | stay => exact h
  | register | unregister =>
    intro t call hcall
    have hok := h t call hcall
    exact ⟨hok.serves, hok.missed, hok.creating, hok.cached, hok.own, hok.null⟩
  | call thread c minVersion hidle =>
    refine h.setCall fun new hnew => ?_
    obtain rfl := Option.some.inj hnew
    exact ⟨nofun, nofun, nofun, nofun, nofun, nofun⟩
  | refuse hcall hfind =>
    refine h.setCall fun new hnew => ?_
    obtain rfl := Option.some.inj hnew
    refine ⟨nofun, nofun, nofun, nofun, nofun, fun result hresult => ?_⟩
    cases hresult
    rfl
  | find hcall hfind =>
    obtain ⟨hlookup, hversion⟩ := HostContracts.find_eq_some.1 hfind
    refine h.setCall fun new hnew => ?_
    obtain rfl := Option.some.inj hnew
    refine ⟨fun interface hinterface => ?_, nofun, nofun, nofun, nofun, nofun⟩
    obtain rfl := Option.some.inj hinterface
    exact ⟨HostContracts.contractId_of_lookup hlookup, hversion⟩
  -- The instance comes from the cache, before the write guard or under it.
  | @hit thread c minVersion phase interface cached hcall hphase hcached =>
    have hok := h _ _ hcall
    have hserves : phase.interface = some interface := by
      rcases hphase with ⟨rfl, -⟩ | rfl <;> rfl
    have hsingleton : interface.singleton = true := by
      rcases hphase with ⟨-, hsingleton⟩ | hmissed
      · exact hsingleton
      · exact hok.missed interface hmissed
    refine h.setCall fun new hnew => ?_
    obtain rfl := Option.some.inj hnew
    refine ⟨fun i hi => hok.serves i (hserves.trans hi), nofun, nofun,
      fun i result hresult _ _ => ?_,
      fun i result hresult hmulti => ?_, nofun⟩
    · cases hresult
      exact hcached
    · cases hresult
      rw [hsingleton] at hmulti
      cases hmulti
  | miss hcall hsingleton =>
    have hok := h _ _ hcall
    refine h.setCall fun new hnew => ?_
    obtain rfl := Option.some.inj hnew
    refine ⟨hok.serves, fun i hi => ?_, nofun, nofun, nofun, nofun⟩
    cases hi
    exact hsingleton
  | create hcall hsingleton =>
    have hok := h _ _ hcall
    refine h.setCall fun new hnew => ?_
    obtain rfl := Option.some.inj hnew
    refine ⟨hok.serves, nofun, fun i hi hs => ?_, nofun, nofun, nofun⟩
    cases hi
    exact absurd hs hsingleton
  -- The guard was free, so no other call creates a singleton.
  | @lock thread c minVersion interface hcall hfree hempty =>
    intro t call hnew
    rw [calls_setCall] at hnew
    split at hnew
    · next ht =>
      subst ht
      obtain rfl := Option.some.inj hnew
      exact ⟨(h _ _ hcall).serves, nofun, fun i hi _ => ⟨rfl, hempty⟩, nofun, nofun, nofun⟩
    · have hok := h t call hnew
      refine ⟨hok.serves, hok.missed, fun i hi hs => ?_, hok.cached, hok.own, hok.null⟩
      have hheld := (hok.creating i hi hs).1
      rw [hfree] at hheld
      cases hheld
  | @finish thread c minVersion interface data hcall =>
    have hself := h _ _ hcall
    intro t call hnew
    rw [calls_finishCreate] at hnew
    split at hnew
    · next ht =>
      obtain rfl := Option.some.inj hnew
      refine ⟨hself.serves, nofun, nofun, fun i result hresult hs hnull => ?_,
        fun i result hresult _ => ?_, nofun⟩
      · cases hresult
        have hdata : data ≠ 0 := of_decide_eq_false hnull
        rw [singletonInstances_finishCreate, if_pos ⟨hs, hdata⟩, lookup_insert_eq, if_pos rfl]
      · cases hresult
        rfl
    · next ht =>
      have hok := h t call hnew
      refine ⟨hok.serves, hok.missed, fun i hi hs => ?_, fun i result hresult hs hnull => ?_,
        hok.own, hok.null⟩
      · -- nobody else has the guard while a singleton is created
        obtain ⟨hheld, hempty⟩ := hok.creating i hi hs
        have hmulti : interface.singleton = false := by
          by_contra hsingleton
          have hother := (hself.creating interface rfl (by simpa using hsingleton)).1
          rw [hheld] at hother
          exact ht (Option.some.inj hother)
        rw [writer_finishCreate, singletonInstances_finishCreate, hmulti]
        exact ⟨hheld, by simpa using hempty⟩
      · have hthere := hok.cached i result hresult hs hnull
        rw [singletonInstances_finishCreate]
        split
        · next hinsert =>
          have hempty := (hself.creating interface rfl hinsert.1).2
          rw [lookup_insert_eq, if_neg]
          · exact hthere
          · intro heq
            rw [heq] at hthere
            rw [hthere] at hempty
            cases hempty
        · exact hthere
  | ret hcall => exact h.setCall nofun

/-- A cached instance stays. -/
theorem lookup_step {s s' : HostSystem} {act : HostStep} (h : s.Coherent)
    (hstep : s.Step act s') {c : UInt64} {cached : HostContractInstance}
    (hcached : s.singletonInstances.lookup c = some cached) :
    s'.singletonInstances.lookup c = some cached := by
  cases hstep with
  | @finish thread c' minVersion interface data hcall =>
    rw [singletonInstances_finishCreate]
    split
    · next hinsert =>
      have hempty := ((h _ _ hcall).creating interface rfl hinsert.1).2
      rw [lookup_insert_eq, if_neg]
      · exact hcached
      · rintro rfl
        rw [hcached] at hempty
        cases hempty
    · exact hcached
  | _ => exact hcached

/-! ### One interface to a singleton -/

/-- A call of the contract runs with this interface. -/
def Running (s : HostSystem) (c : UInt64) (interface : HostContractInterface) : Prop :=
  ∃ t call, s.calls t = some call ∧ call.contractId = c ∧ call.phase.interface = some interface

/-- The interface is registered for the contract, or a call of it runs. -/
def Uses (s : HostSystem) (c : UInt64) (interface : HostContractInterface) : Prop :=
  s.Running c interface ∨ s.hostContracts.lookup c = some interface

/-- No call of the contract runs with another interface, and the cached instance is none of
another interface. -/
def Clear (s : HostSystem) (interface : HostContractInterface) : Prop :=
  (∀ cached, s.singletonInstances.lookup interface.contractId = some cached →
    cached.creator = some interface) ∧
  ∀ other, s.Running interface.contractId other → other = interface

/-- A singleton is registered only over a clear contract. -/
def RegistersClear (s : HostSystem) : HostStep → Prop
  | .register interface =>
    interface.singleton = true → s.hostContracts.lookup interface.contractId = none →
      s.Clear interface
  | .unregister .. | .call .. | .advance .. | .created .. | .ret .. => True

/-- The calls and the cached instance of a contract with a singleton are those of one
interface. -/
structure Settled (s : HostSystem) : Prop where
  cache : ∀ c interface cached, s.Uses c interface → interface.singleton = true →
    s.singletonInstances.lookup c = some cached → cached.creator = some interface
  agree : ∀ c interface other, s.Uses c interface → s.Uses c other →
    interface.singleton = true → other.singleton = true → interface = other
  table : ∀ c interface other, s.hostContracts.lookup c = some interface →
    interface.singleton = true → s.Running c other → other = interface

theorem settled_new : Settled new where
  cache := by
    rintro c interface cached (⟨t, call, hcall, -⟩ | hlookup) <;> contradiction
  agree := by
    rintro c interface other (⟨t, call, hcall, -⟩ | hlookup) <;> contradiction
  table := by
    intro c interface other hlookup
    contradiction

/-- A running call of another state is one of this. -/
theorem Settled.of_uses {s s' : HostSystem} (h : s.Settled)
    (hcache : s'.singletonInstances = s.singletonInstances)
    (hlookup : ∀ c interface, s'.hostContracts.lookup c = some interface →
      s.hostContracts.lookup c = some interface)
    (hrunning : ∀ c interface, s'.Running c interface → s.Uses c interface) : s'.Settled := by
  have huses : ∀ c interface, s'.Uses c interface → s.Uses c interface := by
    rintro c interface (hrun | hlook)
    · exact hrunning c interface hrun
    · exact .inr (hlookup c interface hlook)
  refine ⟨fun c interface cached hu hs hc => ?_, fun c interface other hu ho hs hs' => ?_,
    fun c interface other hlook hs hrun => ?_⟩
  · exact h.cache c interface cached (huses c interface hu) hs (hcache ▸ hc)
  · exact h.agree c interface other (huses c interface hu) (huses c other ho) hs hs'
  · have hlook := hlookup c interface hlook
    rcases hrunning c other hrun with hrun | hother
    · exact h.table c interface other hlook hs hrun
    · rw [hlook] at hother
      exact (Option.some.inj hother).symm

/-- A call that goes on keeps its interface, or takes the registered one. -/
theorem running_setCall {s : HostSystem} {thread : ThreadId} {call : Option HostCall}
    (hnew : ∀ new interface, call = some new → new.phase.interface = some interface →
      s.Uses new.contractId interface)
    (c : UInt64) (interface : HostContractInterface)
    (h : (s.setCall thread call).Running c interface) : s.Uses c interface := by
  obtain ⟨t, running, hcall, rfl, hinterface⟩ := h
  rw [calls_setCall] at hcall
  split at hcall
  · exact hnew running interface hcall hinterface
  · exact .inl ⟨t, running, hcall, rfl, hinterface⟩

theorem Settled.setCall {s : HostSystem} (h : s.Settled) {thread : ThreadId}
    {call : Option HostCall}
    (hnew : ∀ new interface, call = some new → new.phase.interface = some interface →
      s.Uses new.contractId interface) : (s.setCall thread call).Settled :=
  h.of_uses rfl (fun _ _ => id) (running_setCall hnew)

/-- The interface of a call is in use. -/
theorem uses_of_call {s : HostSystem} {thread : ThreadId} {call new : HostCall}
    {interface : HostContractInterface} (hcall : s.calls thread = some call)
    (hid : new.contractId = call.contractId) (hinterface : call.phase.interface = some interface) :
    s.Uses new.contractId interface :=
  .inl ⟨thread, call, hcall, hid.symm, hinterface⟩

/-- **A step that registers over a clear contract keeps the singletons settled.** -/
theorem Settled.step {s s' : HostSystem} {act : HostStep} (h : s.Settled)
    (hclear : s.RegistersClear act) (hstep : s.Step act s') : s'.Settled := by
  cases hstep with
  | stay => exact h
  | register interface hnew =>
    have hlookup := HostContracts.lookup_register hnew
    -- the one new use is that of the registered interface
    have huses : ∀ c other, Uses { s with
        hostContracts := (s.hostContracts.register interface).2 } c other →
        s.Uses c other ∨ c = interface.contractId ∧ other = interface := by
      rintro c other (hrun | hlook)
      · exact .inl (.inl hrun)
      · change (s.hostContracts.register interface).2.lookup c = some other at hlook
        rw [hlookup] at hlook
        split at hlook
        · next heq => exact .inr ⟨heq, (Option.some.inj hlook).symm⟩
        · exact .inl (.inr hlook)
    have hother : ∀ other, s.Uses interface.contractId other → interface.singleton = true →
        other = interface := by
      rintro other (hrun | hlook) hs
      · exact (hclear hs hnew).2 other hrun
      · rw [hnew] at hlook
        cases hlook
    refine ⟨fun c other cached hu hs hc => ?_, fun c one other hu ho hs hs' => ?_,
      fun c other running hlook hs hrun => ?_⟩
    · rcases huses c other hu with hu | ⟨rfl, rfl⟩
      · exact h.cache c other cached hu hs hc
      · exact (hclear hs hnew).1 cached hc
    · rcases huses c one hu with hone | ⟨rfl, rfl⟩
      · rcases huses c other ho with hsecond | ⟨rfl, rfl⟩
        · exact h.agree c one other hone hsecond hs hs'
        · exact hother one hone hs'
      · rcases huses _ other ho with hsecond | ⟨-, rfl⟩
        · exact (hother other hsecond hs).symm
        · rfl
    · change (s.hostContracts.register interface).2.lookup c = some other at hlook
      rw [hlookup] at hlook
      split at hlook
      · next heq =>
        obtain rfl := Option.some.inj hlook
        subst heq
        exact (hclear hs hnew).2 running hrun
      · exact h.table c other running hlook hs hrun
  | unregister c =>
    refine h.of_uses rfl (fun c' interface hlook => ?_) fun c' interface hrun => .inl hrun
    change (s.hostContracts.unregister c).2.lookup c' = some interface at hlook
    rw [HostContracts.lookup_unregister] at hlook
    split at hlook
    · cases hlook
    · exact hlook
  | call thread c minVersion hidle =>
    refine h.setCall fun new interface hnew hinterface => ?_
    obtain rfl := Option.some.inj hnew
    cases hinterface
  | refuse hcall hfind =>
    refine h.setCall fun new interface hnew hinterface => ?_
    obtain rfl := Option.some.inj hnew
    cases hinterface
  | find hcall hfind =>
    refine h.setCall fun new interface hnew hinterface => ?_
    obtain rfl := Option.some.inj hnew
    obtain rfl := Option.some.inj hinterface
    exact .inr (HostContracts.find_eq_some.1 hfind).1
  | hit hcall hphase hcached =>
    refine h.setCall fun new interface hnew hinterface => ?_
    obtain rfl := Option.some.inj hnew
    refine uses_of_call hcall rfl ?_
    rcases hphase with ⟨rfl, -⟩ | rfl <;> exact hinterface
  | miss hcall hsingleton | create hcall hsingleton =>
    refine h.setCall fun new interface hnew hinterface => ?_
    obtain rfl := Option.some.inj hnew
    exact uses_of_call hcall rfl hinterface
  | @lock thread c minVersion interface hcall hfree hempty =>
    have hlocked : HostSystem.Settled { s with writer := some thread } :=
      h.of_uses rfl (fun _ _ => id) fun _ _ => .inl
    refine hlocked.setCall fun new interface hnew hinterface => ?_
    obtain rfl := Option.some.inj hnew
    exact uses_of_call hcall rfl hinterface
  | @finish thread c minVersion interface data hcall =>
    have hself : s.Running c interface := ⟨thread, _, hcall, rfl, rfl⟩
    have hrunning : ∀ c' other, Running (s.finishCreate thread
        ⟨c, minVersion, .creating interface⟩ interface data) c' other → s.Running c' other := by
      rintro c' other ⟨t, call, hnew, rfl, hinterface⟩
      rw [calls_finishCreate] at hnew
      split at hnew
      · obtain rfl := Option.some.inj hnew
        exact ⟨thread, _, hcall, rfl, hinterface⟩
      · exact ⟨t, call, hnew, rfl, hinterface⟩
    have huses : ∀ c' other, Uses (s.finishCreate thread
        ⟨c, minVersion, .creating interface⟩ interface data) c' other → s.Uses c' other := by
      rintro c' other (hrun | hlook)
      · exact .inl (hrunning c' other hrun)
      · exact .inr (hostContracts_finishCreate .. ▸ hlook)
    refine ⟨fun c' other cached hu hs hc => ?_, fun c' one other hu ho hs hs' => ?_,
      fun c' other running hlook hs hrun => ?_⟩
    · rw [singletonInstances_finishCreate] at hc
      split at hc
      · next hinsert =>
        rw [lookup_insert_eq] at hc
        split at hc
        · next heq =>
          -- the new instance is of the one interface in use
          obtain rfl := Option.some.inj hc
          have hsame := h.agree c' other interface (huses c' other hu) (.inl (heq ▸ hself)) hs
            hinsert.1
          rw [hsame]
          rfl
        · exact h.cache c' other cached (huses c' other hu) hs hc
      · exact h.cache c' other cached (huses c' other hu) hs hc
    · exact h.agree c' one other (huses c' one hu) (huses c' other ho) hs hs'
    · rw [hostContracts_finishCreate] at hlook
      exact h.table c' other running hlook hs (hrunning c' running hrun)
  | ret hcall => exact h.setCall nofun

/-! ### What happens in a run -/

section Run

variable (acts : List HostStep)

/-- The state before step `k` of the run. -/
abbrev before (k : Nat) : HostSystem := stateAt exec new acts k

/-- Step `k` returns the instance to a caller of the contract. -/
def Returns (k : Nat) (thread : ThreadId) (c : UInt64) (minVersion : Nat)
    (result : HostContractInstance) : Prop :=
  acts[k]? = some (.ret thread) ∧
    ∃ interface, (before acts k).calls thread = some ⟨c, minVersion, .returning interface result⟩

/-- Step `k` is the start of the call that is in progress before step `l`. -/
def Starts (k l : Nat) (thread : ThreadId) (c : UInt64) (minVersion : Nat) : Prop :=
  acts[k]? = some (.call thread c minVersion) ∧ (before acts k).calls thread = none ∧
    ∀ m, k < m → m ≤ l → (before acts m).calls thread ≠ none

/-- In step `k` a `create_instance` of the interface returns an instance that is not null. -/
def Creates (k : Nat) (interface : HostContractInterface) : Prop :=
  ∃ thread data c minVersion, acts[k]? = some (.created thread data) ∧ data ≠ 0 ∧
    (before acts k).calls thread = some ⟨c, minVersion, .creating interface⟩

/-- **Every instance is one of an interface that was registered during the call and
satisfies it.** -/
def InstancesOwned : Prop :=
  ∀ k thread c minVersion result, Returns acts k thread c minVersion result →
    result.isNull = false →
    ∃ start interface l, Starts acts start k thread c minVersion ∧ start < l ∧ l ≤ k ∧
      (before acts l).hostContracts.lookup c = some interface ∧
      HostContracts.versionSatisfies interface minVersion = true ∧
      result.creator = some interface

/-- **While a singleton is registered its callers get one instance, and it is created at
most once.** -/
def SingletonsUnique : Prop :=
  ∀ a b c interface, interface.singleton = true →
    (∀ k, a ≤ k → k ≤ b → (before acts k).hostContracts.lookup c = some interface) →
    (∀ k l thread thread' minVersion minVersion' result result', a ≤ k → k ≤ b → a ≤ l → l ≤ b →
      Returns acts k thread c minVersion result → Returns acts l thread' c minVersion' result' →
      result.isNull = false → result'.isNull = false → result = result') ∧
    ∀ k l, a ≤ k → k ≤ b → a ≤ l → l ≤ b → Creates acts k interface → Creates acts l interface →
      k = l

end Run

/-! ### The steps of one call -/

/-- A step does not change what a call in progress asks for. A call that starts says it. -/
theorem request_step {s s' : HostSystem} {act : HostStep} (hstep : s.Step act s')
    {t : ThreadId} {call' : HostCall} (hcall' : s'.calls t = some call') :
    (∃ call, s.calls t = some call ∧ call.contractId = call'.contractId ∧
        call.minVersion = call'.minVersion) ∨
      s.calls t = none ∧ act = .call t call'.contractId call'.minVersion := by
  cases hstep with
  | stay | register | unregister => exact .inl ⟨call', hcall', rfl, rfl⟩
  | call thread c minVersion hidle =>
    rw [calls_setCall] at hcall'
    split at hcall'
    · next ht =>
      subst ht
      obtain rfl := Option.some.inj hcall'
      exact .inr ⟨hidle, rfl⟩
    · exact .inl ⟨call', hcall', rfl, rfl⟩
  | refuse hcall | find hcall | hit hcall | miss hcall | create hcall | lock hcall =>
    rw [calls_setCall] at hcall'
    split at hcall'
    · next ht =>
      subst ht
      obtain rfl := Option.some.inj hcall'
      exact .inl ⟨_, hcall, rfl, rfl⟩
    · exact .inl ⟨call', hcall', rfl, rfl⟩
  | finish data hcall =>
    rw [calls_finishCreate] at hcall'
    split at hcall'
    · next ht =>
      subst ht
      obtain rfl := Option.some.inj hcall'
      exact .inl ⟨_, hcall, rfl, rfl⟩
    · exact .inl ⟨call', hcall', rfl, rfl⟩
  | ret hcall =>
    rw [calls_setCall] at hcall'
    split at hcall'
    · cases hcall'
    · exact .inl ⟨call', hcall', rfl, rfl⟩

/-- A call that comes to an interface finds it in the table. -/
theorem interface_step {s s' : HostSystem} {act : HostStep} (hstep : s.Step act s')
    {t : ThreadId} {call call' : HostCall} {interface : HostContractInterface}
    (hcall : s.calls t = some call) (hcall' : s'.calls t = some call')
    (hother : call.phase.interface ≠ some interface)
    (hinterface : call'.phase.interface = some interface) :
    s.hostContracts.lookup call.contractId = some interface := by
  cases hstep with
  | stay | register | unregister =>
    obtain rfl := Option.some.inj (hcall.symm.trans hcall')
    exact absurd hinterface hother
  | call thread c minVersion hidle =>
    rw [calls_setCall] at hcall'
    split at hcall'
    · next ht =>
      subst ht
      rw [hidle] at hcall
      cases hcall
    · obtain rfl := Option.some.inj (hcall.symm.trans hcall')
      exact absurd hinterface hother
  -- The one step that looks into the table.
  | find hthere hfind =>
    rw [calls_setCall] at hcall'
    split at hcall'
    · next ht =>
      subst ht
      obtain rfl := Option.some.inj hcall'
      obtain rfl := Option.some.inj (hcall.symm.trans hthere)
      obtain rfl := Option.some.inj hinterface
      exact (HostContracts.find_eq_some.1 hfind).1
    · obtain rfl := Option.some.inj (hcall.symm.trans hcall')
      exact absurd hinterface hother
  | hit hthere hphase =>
    rw [calls_setCall] at hcall'
    split at hcall'
    · next ht =>
      subst ht
      obtain rfl := Option.some.inj hcall'
      obtain rfl := Option.some.inj (hcall.symm.trans hthere)
      refine absurd ?_ hother
      rcases hphase with ⟨rfl, -⟩ | rfl <;> exact hinterface
    · obtain rfl := Option.some.inj (hcall.symm.trans hcall')
      exact absurd hinterface hother
  -- The call stays at its interface.
  | refuse hthere | miss hthere | create hthere | lock hthere =>
    rw [calls_setCall] at hcall'
    split at hcall'
    · next ht =>
      subst ht
      obtain rfl := Option.some.inj hcall'
      obtain rfl := Option.some.inj (hcall.symm.trans hthere)
      exact absurd hinterface hother
    · obtain rfl := Option.some.inj (hcall.symm.trans hcall')
      exact absurd hinterface hother
  | finish data hthere =>
    rw [calls_finishCreate] at hcall'
    split at hcall'
    · next ht =>
      subst ht
      obtain rfl := Option.some.inj hcall'
      obtain rfl := Option.some.inj (hcall.symm.trans hthere)
      exact absurd hinterface hother
    · obtain rfl := Option.some.inj (hcall.symm.trans hcall')
      exact absurd hinterface hother
  | ret hthere =>
    rw [calls_setCall] at hcall'
    split at hcall'
    · cases hcall'
    · obtain rfl := Option.some.inj (hcall.symm.trans hcall')
      exact absurd hinterface hother

/-- An instance that is not null comes with the interface of its call: it is cached, or its
own. -/
theorem CallOk.result {s : HostSystem} {t : ThreadId} {c : UInt64} {minVersion : Nat}
    {found : Option HostContractInterface} {result : HostContractInstance}
    (h : s.CallOk t ⟨c, minVersion, .returning found result⟩) (hnull : result.isNull = false) :
    ∃ interface, found = some interface ∧
      (interface.singleton = true ∧ s.singletonInstances.lookup c = some result ∨
        interface.singleton = false ∧ result.creator = some interface) := by
  cases found with
  | none =>
    rw [h.null result rfl] at hnull
    cases hnull
  | some interface =>
    refine ⟨interface, rfl, ?_⟩
    cases hsingleton : interface.singleton with
    | true => exact .inl ⟨rfl, h.cached interface result rfl hsingleton hnull⟩
    | false => exact .inr ⟨rfl, h.own interface result rfl hsingleton⟩

/-! ### Runs -/

section Run

variable {acts : List HostStep}

theorem coherent_before (k : Nat) : (before acts k).Coherent :=
  (steps_true new acts).invariant_at coherent_new
    (fun s act h _ => h.step (step_exec s act)) k

theorem settled_before (h : Steps exec RegistersClear new acts) (k : Nat) :
    (before acts k).Settled :=
  h.invariant_at settled_new (fun s act hs hclear => hs.step hclear (step_exec s act)) k

/-- A cached instance stays for the rest of the run. -/
theorem cached_mono {c : UInt64} {cached : HostContractInstance} {j k : Nat} (hjk : j ≤ k)
    (h : (before acts j).singletonInstances.lookup c = some cached) :
    (before acts k).singletonInstances.lookup c = some cached :=
  stateAt_mono (Q := fun s => s.singletonInstances.lookup c = some cached) coherent_before
    (fun s act hs hcached => lookup_step hs (step_exec s act) hcached) hjk h

/-- **A call in progress started, with the same request.** -/
theorem exists_start {k : Nat} {t : ThreadId} {call : HostCall}
    (hcall : (before acts k).calls t = some call) :
    ∃ start < k, Starts acts start k t call.contractId call.minVersion := by
  obtain ⟨start, act, -, hlt, hact, hbefore, hafter⟩ := @exists_rise _ _ exec new acts
    (fun s => ∃ running, s.calls t = some running ∧
      running.contractId = call.contractId ∧ running.minVersion = call.minVersion) _ _
    (Nat.zero_le k) (by rintro ⟨running, hrunning, -⟩; cases hrunning) ⟨call, hcall, rfl, rfl⟩
  obtain ⟨next, hnext, hid, hversion⟩ := hafter (start + 1) (by omega) (by omega)
  rw [stateAt_succ hact] at hnext
  refine ⟨start, hlt, ?_⟩
  rcases request_step (step_exec _ act) hnext with
    ⟨running, hrunning, hid', hversion'⟩ | ⟨hidle, rfl⟩
  · exact absurd ⟨running, hrunning, hid'.trans hid, hversion'.trans hversion⟩ hbefore
  · rw [hid, hversion] at hact
    refine ⟨hact, hidle, fun m hm hmk => ?_⟩
    obtain ⟨running, hrunning, -⟩ := hafter m hm hmk
    rw [hrunning]
    nofun

/-- **The interface of a call was registered during the call.** -/
theorem exists_registered {start k : Nat} {t : ThreadId} {c : UInt64} {minVersion : Nat}
    {call : HostCall} {interface : HostContractInterface}
    (hstart : Starts acts start k t c minVersion) (hlt : start < k)
    (hcall : (before acts k).calls t = some call)
    (hinterface : call.phase.interface = some interface) :
    ∃ l, start < l ∧ l ≤ k ∧
      (before acts l).hostContracts.lookup interface.contractId = some interface := by
  obtain ⟨hact, hidle, hduring⟩ := hstart
  have hcalled : (before acts (start + 1)).calls t = some ⟨c, minVersion, .called⟩ := by
    rw [before, stateAt_succ hact, exec, hidle]
    simp
  obtain ⟨l, act, hstartl, hlk, hact', hbefore, hafter⟩ := @exists_rise _ _ exec new acts
    (fun s => ∃ running, s.calls t = some running ∧ running.phase.interface = some interface) _ _
    (show start + 1 ≤ k from hlt)
    (by
      rintro ⟨running, hrunning, hfound⟩
      obtain rfl := Option.some.inj (hcalled.symm.trans hrunning)
      cases hfound)
    ⟨call, hcall, hinterface⟩
  refine ⟨l, by omega, by omega, ?_⟩
  obtain ⟨running, hrunning⟩ := Option.ne_none_iff_exists'.1 (hduring l (by omega) (by omega))
  obtain ⟨next, hnext, hfound⟩ := hafter (l + 1) (by omega) (by omega)
  rw [stateAt_succ hact'] at hnext
  have hlookup := interface_step (step_exec _ act) hrunning hnext
    (fun heq => hbefore ⟨running, hrunning, heq⟩) hfound
  rw [HostContracts.contractId_of_lookup hlookup]
  exact hlookup

/-- Instances are owned in a settled run. -/
theorem instancesOwned_of_clear (h : Steps exec RegistersClear new acts) :
    InstancesOwned acts := by
  rintro k t c minVersion result ⟨-, found, hcall⟩ hnull
  have hok := coherent_before k t _ hcall
  obtain ⟨interface, rfl, hresult⟩ := hok.result hnull
  obtain ⟨start, hlt, hstart⟩ := exists_start hcall
  obtain ⟨l, hl, hlk, hlookup⟩ := exists_registered hstart hlt hcall rfl
  obtain ⟨hid, hversion⟩ := hok.serves interface rfl
  change interface.contractId = c at hid
  refine ⟨start, interface, l, hstart, hl, hlk, hid ▸ hlookup, hversion, ?_⟩
  rcases hresult with ⟨hsingleton, hcached⟩ | ⟨-, hown⟩
  · exact (settled_before h k).cache c interface result
      (.inl ⟨t, _, hcall, rfl, rfl⟩) hsingleton hcached
  · exact hown

/-- What a caller of a registered singleton gets is cached. -/
theorem cached_of_returns (h : Steps exec RegistersClear new acts) {k : Nat} {t : ThreadId}
    {c : UInt64} {minVersion : Nat} {result : HostContractInstance}
    {interface : HostContractInterface} (hsingleton : interface.singleton = true)
    (hlookup : (before acts k).hostContracts.lookup c = some interface)
    (hreturns : Returns acts k t c minVersion result) (hnull : result.isNull = false) :
    (before acts k).singletonInstances.lookup c = some result := by
  obtain ⟨-, found, hcall⟩ := hreturns
  obtain ⟨running, rfl, hresult⟩ := (coherent_before k t _ hcall).result hnull
  obtain rfl := (settled_before h k).table c interface running hlookup hsingleton
    ⟨t, _, hcall, rfl, rfl⟩
  rcases hresult with ⟨-, hcached⟩ | ⟨hmulti, -⟩
  · exact hcached
  · rw [hsingleton] at hmulti
    cases hmulti

/-- The creation of a singleton fills the empty cache. -/
theorem cached_of_creates {k : Nat} {interface : HostContractInterface}
    (hsingleton : interface.singleton = true) (hcreates : Creates acts k interface) :
    (before acts k).singletonInstances.lookup interface.contractId = none ∧
      ∃ cached, (before acts (k + 1)).singletonInstances.lookup interface.contractId
        = some cached := by
  obtain ⟨t, data, c, minVersion, hact, hdata, hcall⟩ := hcreates
  have hok := coherent_before k t _ hcall
  obtain ⟨hid, -⟩ := hok.serves interface rfl
  change interface.contractId = c at hid
  subst hid
  refine ⟨(hok.creating interface rfl hsingleton).2,
    (before acts k).createdInstance interface data, ?_⟩
  rw [before, stateAt_succ hact, exec, hcall]
  show (finishCreate ..).singletonInstances.lookup _ = _
  rw [singletonInstances_finishCreate, if_pos ⟨hsingleton, hdata⟩, lookup_insert_eq, if_pos rfl]

/-- **A singleton is created at most once in a whole run.** -/
theorem creates_unique {k l : Nat} {interface : HostContractInterface}
    (hsingleton : interface.singleton = true) (hk : Creates acts k interface)
    (hl : Creates acts l interface) : k = l := by
  have hearlier : ∀ {j m : Nat}, Creates acts j interface → Creates acts m interface → ¬ j < m := by
    intro j m hj hm hjm
    obtain ⟨cached, hcached⟩ := (cached_of_creates hsingleton hj).2
    have hstays := cached_mono (show j + 1 ≤ m from hjm) hcached
    rw [(cached_of_creates hsingleton hm).1] at hstays
    cases hstays
  have hkl := hearlier hk hl
  have hlk := hearlier hl hk
  omega

/-- Singletons are unique in a settled run. -/
theorem singletonsUnique_of_clear (h : Steps exec RegistersClear new acts) :
    SingletonsUnique acts := by
  intro a b c interface hsingleton hregistered
  refine ⟨fun k l t t' minVersion minVersion' result result' hak hkb hal hlb hk hl hnull
      hnull' => ?_,
    fun k l _ _ _ _ => creates_unique hsingleton⟩
  have hcached := cached_of_returns h hsingleton (hregistered k hak hkb) hk hnull
  have hcached' := cached_of_returns h hsingleton (hregistered l hal hlb) hl hnull'
  rcases Nat.le_total k l with hkl | hlk
  · exact Option.some.inj ((cached_mono hkl hcached).symm.trans hcached')
  · exact Option.some.inj (hcached.symm.trans (cached_mono hlk hcached'))

/-- **Instances belong to the registered interface, in every run that registers singletons
over clear contracts.** -/
theorem instances_of_registered_interface (acts : List HostStep)
    (h : Steps exec RegistersClear new acts) : InstancesOwned acts ∧ SingletonsUnique acts :=
  ⟨instancesOwned_of_clear h, singletonsUnique_of_clear h⟩

end Run

/-! ### A singleton that is replaced -/

/-- A singleton of contract 7 at this address. -/
def singletonAt (ptr : Nat) : HostContractInterface := ⟨ptr, 7, ⟨1, 0, 0⟩, true⟩

/-- A thread gets the instance of contract 7, and creates it. -/
def getFirst (thread : ThreadId) : List HostStep :=
  [.call thread 7 0, .advance thread, .advance thread, .advance thread, .created thread 100,
    .ret thread]

/-- The calls of one singleton are clear. -/
theorem instances_of_registered_interface_instance :
    InstancesOwned (.register (singletonAt 1) :: getFirst 1) ∧
      SingletonsUnique (.register (singletonAt 1) :: getFirst 1) := by
  refine instances_of_registered_interface _
    ⟨fun _ _ => ⟨nofun, ?_⟩, trivial, trivial, trivial, trivial, trivial, trivial, trivial⟩
  rintro other ⟨t, call, hcall, -⟩
  cases hcall

/-- A singleton is replaced by another, and the instance is got again. -/
def replaced : List HostStep :=
  .register (singletonAt 1) :: getFirst 1 ++
    [.unregister 7, .register (singletonAt 2), .call 2 7 0, .advance 2, .advance 2, .ret 2]

/-- **The instance of an unregistered interface is returned.** -/
theorem replaced_singleton_keeps_instance :
    ¬ ∀ acts : List HostStep, InstancesOwned acts ∧ SingletonsUnique acts := by
  intro hall
  have hreturns : Returns replaced 12 2 7 0 ⟨100, some (singletonAt 1, 0)⟩ :=
    ⟨by decide +kernel, some (singletonAt 2), by decide +kernel⟩
  obtain ⟨start, interface, l, ⟨hact, -, -⟩, hstart, hl, hlookup, -, hcreator⟩ :=
    (hall replaced).1 12 2 7 0 _ hreturns (by decide +kernel)
  obtain rfl : singletonAt 1 = interface := Option.some.inj hcreator
  -- the call of the second thread is step 9, and the second interface is registered since
  have hlt : 9 < l := by
    have hnine : start = 9 := by
      have hbound : start < 13 := by omega
      interval_cases start <;> first | rfl | exact absurd hact (by decide +kernel)
    omega
  have hsecond : (before replaced l).hostContracts.lookup 7 = some (singletonAt 2) := by
    interval_cases l <;> decide +kernel
  rw [hsecond] at hlookup
  exact absurd hlookup (by decide +kernel)

end HostSystem

end PolyPlug.Host
