import PolyPlug.Codegen.LuaHostContract

/-!
# `PolyPlug.Proofs.Codegen.LuaHostContract`: what the callers of a host contract see

The virtual machine arm of a method passes a null instance, and `dispatch` serves a null instance
with the default implementation. So the calls of all callers meet in one implementation, and
`callers_isolated_iff` says when they do not notice: when no answer of an implementation depends on
the calls before it, and, whatever the implementations are, when no call with a
result comes after the call of another caller.

The factory and the trampolines are not at fault. `instances_isolated` is the run of
an arm that passes the instance of the caller.
-/

set_option autoImplicit false

namespace PolyPlug.Codegen

open PolyPlug.Host
open PolyPlug.Lib

variable {V W : Type} {setup : HostSetup V W} {factory : LuaFactory V}

/-! ### The locals of the factory -/

namespace FactoryState

variable {S : Type} {s : FactoryState S} {instId other : Nat} {impl state fresh : S}

theorem impl_of_ne (h : instId ≠ 0) : s.impl instId = s.instances instId := if_neg h

@[simp] theorem setImpl_nextId : (s.setImpl instId state).nextId = s.nextId := by
  rw [setImpl]
  split <;> rfl

theorem setImpl_of_ne (h : instId ≠ 0) :
    (s.setImpl instId state).instances = Function.update s.instances instId (some state) := by
  rw [setImpl, if_neg h]

/-- An implementation that has not changed. -/
theorem setImpl_same (h : s.impl instId = some impl) : s.setImpl instId impl = s := by
  rw [setImpl]
  split
  · next hzero =>
    subst hzero
    obtain rfl : s.defaultImpl = impl := Option.some.inj h
    rfl
  · next hne =>
    rw [impl_of_ne hne] at h
    rw [← h, Function.update_eq_self]

end FactoryState

/-! ### One call -/

variable (setup factory)

/-- A method on an implementation of its own: what its caller reads, and the implementation
after it. -/
def methodAnswer (impl : factory.State) (call : Nat × List V) : LuaOutcome V × factory.State :=
  match setup.contract.functions[call.1]? with
  | none      => (.raised, impl)
  | some func =>
    match setup.marshalling.packArgs func call.2 with
    | none        => (.raised, impl)
    | some packed =>
      let result := dispatchBranch setup.marshalling factory func packed impl
      (readReturn setup.marshalling func ⟨result.1.1, ""⟩ result.1.2, result.2)

/-- No answer of an implementation depends on the calls before it. -/
def Stateless : Prop :=
  ∀ calls call,
    (methodAnswer setup factory (run (moved (methodAnswer setup factory)) factory.fresh calls)
      call).1 =
    (methodAnswer setup factory factory.fresh call).1

/-- One operation of the emitted callers. -/
def emittedOp : LuaHostState factory.State → CallerOp V →
    LuaOutcome V × LuaHostState factory.State :=
  operate setup factory nullInstance

/-- The state of the emitted callers after some operations. -/
def reached (ops : List (CallerOp V)) :
    LuaHostState factory.State :=
  run (moved (emittedOp setup factory)) (.start factory) ops

/-- The callers do not see each other's state in a run. -/
def CallersIsolated (ops : List (CallerOp V)) : Prop :=
  Isolated (emittedOp setup factory) CallerOp.caller (.start factory) ops

variable {setup factory}

/-- The trampoline carries a call to the implementation of the instance it is given. -/
theorem hostVmDispatch_interface {s : FactoryState factory.State} {instId fnId : Nat} (args : W)
    {impl : factory.State} {func : ApiFunction} (himpl : s.impl instId = some impl)
    (hfunc : setup.contract.functions[fnId]? = some func) :
    ∃ message, hostVmDispatch (setup.interface factory).userData instId fnId args s =
      ((⟨(dispatchBranch setup.marshalling factory func args impl).1.1, message⟩,
        (dispatchBranch setup.marshalling factory func args impl).1.2),
        s.setImpl instId (dispatchBranch setup.marshalling factory func args impl).2) := by
  have hdispatch : hostDispatch setup.marshalling setup.contract factory instId fnId args s =
      ((dispatchBranch setup.marshalling factory func args impl).1,
        s.setImpl instId (dispatchBranch setup.marshalling factory func args impl).2) := by
    simp only [hostDispatch, himpl, hfunc]
  simp only [HostSetup.interface, hostVmDispatch, hdispatch]
  split
  · next hok => exact ⟨"", by rw [hok]; rfl⟩
  · exact ⟨_, rfl⟩

/-- A call of a caller with an instance is a call of the implementation that the arm reaches. -/
theorem operate_call {vmInstance : Nat → Nat} {s : LuaHostState factory.State}
    {caller fnId instanceData : Nat} {args : List V} {impl : factory.State}
    (hinstance : s.instances caller = some instanceData)
    (himpl : s.locals.impl (vmInstance instanceData) = some impl) :
    operate setup factory vmInstance s (.call caller fnId args) =
      ((methodAnswer setup factory impl (fnId, args)).1,
        { s with
          locals := s.locals.setImpl (vmInstance instanceData)
            (methodAnswer setup factory impl (fnId, args)).2 }) := by
  show callMethod setup factory vmInstance caller fnId args s = _
  rw [callMethod, hinstance, methodAnswer]
  cases hfunc : setup.contract.functions[fnId]? with
  | none => simp only [FactoryState.setImpl_same himpl]
  | some func =>
    cases hpack : setup.marshalling.packArgs func args with
    | none => simp only [hpack, FactoryState.setImpl_same himpl]
    | some packed =>
      obtain ⟨message, hcall⟩ := hostVmDispatch_interface packed himpl hfunc
      have hmethod : dispatchMethod setup vmInstance (setup.interface factory) instanceData fnId
          func packed s.locals =
          (readReturn setup.marshalling func
            ⟨(dispatchBranch setup.marshalling factory func packed impl).1.1, ""⟩
            (dispatchBranch setup.marshalling factory func packed impl).1.2,
          s.locals.setImpl (vmInstance instanceData)
            (dispatchBranch setup.marshalling factory func packed impl).2) := by
        show (readReturn _ func (hostVmDispatch _ _ _ _ _).1.1 (hostVmDispatch _ _ _ _ _).1.2,
          (hostVmDispatch _ _ _ _ _).2) = _
        rw [hcall]
        rfl
      simp only [hpack, hmethod]

/-- Without an object a call raises an error. -/
theorem operate_call_none {vmInstance : Nat → Nat} {s : LuaHostState factory.State}
    {caller fnId : Nat} {args : List V} (hnone : s.instances caller = none) :
    operate setup factory vmInstance s (.call caller fnId args) = (.raised, s) := by
  show callMethod setup factory vmInstance caller fnId args s = _
  rw [callMethod, hnone]

/-! ### Objects -/

variable (setup)

/-- `from_host` returns an object. -/
def resolvesHost (hostGiven : Bool) (minVersion : Option UInt32) : Bool :=
  hostGiven && (setup.resolves (minVersionOf minVersion)).isSome

/-- Who has an object after an operation. -/
def withObject (held : Nat → Bool) : CallerOp V → Nat → Bool
  | .fromHost caller hostGiven minVersion =>
    Function.update held caller (resolvesHost setup hostGiven minVersion)
  | .call _ _ _ => held

/-- Who has an object after the operations. -/
def hasObject (ops : List (CallerOp V)) : Nat → Bool := ops.foldl (withObject setup) fun _ => false

variable {setup}

/-- `get_host_contract` gives no caller an object and leaves the default implementation. -/
theorem getHostContract_keeps (s : LuaHostState factory.State) :
    (getHostContract (setup.interface factory) s).2.instances = s.instances ∧
      (getHostContract (setup.interface factory) s).2.locals.defaultImpl =
        s.locals.defaultImpl := by
  rw [getHostContract]
  split
  · cases s.singletonInstance with
    | some cached => exact ⟨rfl, rfl⟩
    | none =>
      simp only
      split <;> exact ⟨rfl, rfl⟩
  · exact ⟨rfl, rfl⟩

theorem operate_fromHost {vmInstance : Nat → Nat} {s : LuaHostState factory.State} {caller : Nat}
    {hostGiven : Bool} {minVersion : Option UInt32}
    (h : resolvesHost setup hostGiven minVersion = true) :
    operate setup factory vmInstance s (.fromHost caller hostGiven minVersion) =
      (.object,
        { (getHostContract (setup.interface factory) s).2 with
          instances := Function.update s.instances caller
            (some (getHostContract (setup.interface factory) s).1) }) := by
  rw [resolvesHost, Bool.and_eq_true, Option.isSome_iff_exists] at h
  obtain ⟨hgiven, interface, hresolves⟩ := h
  show fromHost setup factory caller hostGiven minVersion s = _
  rw [fromHost, if_neg (by simp [hgiven]), hresolves]
  simp only [(getHostContract_keeps s).1]

theorem operate_fromHost_null {vmInstance : Nat → Nat} {s : LuaHostState factory.State}
    {caller : Nat} {hostGiven : Bool} {minVersion : Option UInt32}
    (h : resolvesHost setup hostGiven minVersion = false) :
    operate setup factory vmInstance s (.fromHost caller hostGiven minVersion) =
      (.null, { s with instances := Function.update s.instances caller none }) := by
  show fromHost setup factory caller hostGiven minVersion s = _
  rw [fromHost]
  split
  · rfl
  · next hgiven =>
    have hresolves : setup.resolves (minVersionOf minVersion) = none := by
      simpa [resolvesHost, Decidable.not_not.1 hgiven] using h
    rw [hresolves]

/-- What `from_host` returns depends on its arguments. -/
theorem operate_fromHost_fst (vmInstance : Nat → Nat) (s : LuaHostState factory.State)
    (caller : Nat) (hostGiven : Bool) (minVersion : Option UInt32) :
    (operate setup factory vmInstance s (.fromHost caller hostGiven minVersion)).1 =
      if resolvesHost setup hostGiven minVersion then .object else .null := by
  cases h : resolvesHost setup hostGiven minVersion with
  | true => rw [operate_fromHost h, if_pos rfl]
  | false => rw [operate_fromHost_null h, if_neg (by simp)]

/-- The request of any version finds the registered interface. -/
theorem resolvesHost_any : resolvesHost setup true none = true := by
  have hfind : setup.resolves 0 = some setup.base := by
    rw [HostSetup.resolves, HostContracts.find, HostSetup.contractId, setup.registered]
    rfl
  rw [resolvesHost, minVersionOf, Option.getD_none, hfind]
  rfl

/-! ### The default implementation -/

/-- A caller with an object calls the default implementation. -/
theorem emittedOp_call {s : LuaHostState factory.State} {caller fnId instanceData : Nat}
    {args : List V} (hinstance : s.instances caller = some instanceData) :
    emittedOp setup factory s (.call caller fnId args) =
      ((methodAnswer setup factory s.locals.defaultImpl (fnId, args)).1,
        { s with
          locals := { s.locals with
            defaultImpl := (methodAnswer setup factory s.locals.defaultImpl (fnId, args)).2 } }) :=
  operate_call hinstance rfl

theorem isSome_update {α : Type} (f : Nat → Option α) (a : Nat) (v : Option α) (k : Nat) :
    (Function.update f a v k).isSome = Function.update (fun k => (f k).isSome) a v.isSome k := by
  rw [Function.update_apply, Function.update_apply]
  split <;> rfl

/-- A caller without an object raises an error. -/
theorem emittedOp_call_none {s : LuaHostState factory.State} {caller fnId : Nat} {args : List V}
    (hnone : s.instances caller = none) :
    emittedOp setup factory s (.call caller fnId args) = (.raised, s) :=
  operate_call_none hnone

/-- An operation makes and drops objects as `withObject` says. -/
theorem isSome_instances (s : LuaHostState factory.State) (op : CallerOp V) (k : Nat) :
    ((moved (emittedOp setup factory) s op).instances k).isSome =
      withObject setup (fun k => (s.instances k).isSome) op k := by
  cases op with
  | fromHost caller hostGiven minVersion =>
    show ((operate setup factory nullInstance s _).2.instances k).isSome = _
    cases h : resolvesHost setup hostGiven minVersion with
    | true =>
      rw [operate_fromHost h, withObject, h]
      exact isSome_update ..
    | false =>
      rw [operate_fromHost_null h, withObject, h]
      exact isSome_update ..
  | call caller fnId args =>
    rw [withObject, moved]
    cases hinstance : s.instances caller with
    | none => rw [emittedOp_call_none hinstance]
    | some instanceData => rw [emittedOp_call hinstance]

/-- The objects after the operations. -/
theorem isSome_reached (setup : HostSetup V W) (factory : LuaFactory V)
    (ops : List (CallerOp V)) (k : Nat) :
    ((reached setup factory ops).instances k).isSome = hasObject setup ops k := by
  induction ops using List.reverseRecOn generalizing k with
  | nil => rfl
  | append_singleton before op ih =>
    rw [reached, run_append, run_cons, run_nil, isSome_instances, hasObject, List.foldl_append]
    exact congrArg (fun held => withObject setup held op k) (funext ih)

/-- `from_host` leaves the default implementation. -/
theorem defaultImpl_fromHost (s : LuaHostState factory.State) (caller : Nat) (hostGiven : Bool)
    (minVersion : Option UInt32) :
    (moved (emittedOp setup factory) s
      (.fromHost caller hostGiven minVersion)).locals.defaultImpl = s.locals.defaultImpl := by
  show (operate setup factory nullInstance s _).2.locals.defaultImpl = _
  cases h : resolvesHost setup hostGiven minVersion with
  | true =>
    rw [operate_fromHost h]
    exact (getHostContract_keeps s).2
  | false => rw [operate_fromHost_null h]

/-! ### Implementations that keep nothing -/

/-- The default implementation is one that calls have led to. -/
def Served (setup : HostSetup V W) (factory : LuaFactory V) (impl : factory.State) : Prop :=
  ∃ calls, impl = run (moved (methodAnswer setup factory)) factory.fresh calls

theorem Served.call {impl : factory.State} (h : Served setup factory impl) (call : Nat × List V) :
    Served setup factory (methodAnswer setup factory impl call).2 := by
  obtain ⟨calls, rfl⟩ := h
  exact ⟨calls ++ [call], by rw [run_append]; rfl⟩

theorem served_operation {s : LuaHostState factory.State}
    (h : Served setup factory s.locals.defaultImpl) (op : CallerOp V) :
    Served setup factory (moved (emittedOp setup factory) s op).locals.defaultImpl := by
  cases op with
  | fromHost caller hostGiven minVersion => rwa [defaultImpl_fromHost]
  | call caller fnId args =>
    rw [moved]
    cases hinstance : s.instances caller with
    | none => rwa [emittedOp_call_none hinstance]
    | some instanceData =>
      rw [emittedOp_call hinstance]
      exact h.call (fnId, args)

/-- An owner has an object on both sides, and both default implementations are served. -/
def SameObject (setup : HostSetup V W) (factory : LuaFactory V) (k : Nat)
    (s t : LuaHostState factory.State) : Prop :=
  (s.instances k).isSome = (t.instances k).isSome ∧
    Served setup factory s.locals.defaultImpl ∧ Served setup factory t.locals.defaultImpl

theorem withObject_other {held : Nat → Bool} {op : CallerOp V} {k : Nat} (h : op.caller ≠ k) :
    withObject setup held op k = held k := by
  cases op with
  | fromHost caller hostGiven minVersion => exact Function.update_of_ne (Ne.symm h) _ _
  | call caller fnId args => rfl

theorem withObject_congr {held other : Nat → Bool} {k : Nat} (h : held k = other k)
    (op : CallerOp V) : withObject setup held op k = withObject setup other op k := by
  cases op with
  | fromHost caller hostGiven minVersion =>
    rw [withObject, withObject, Function.update_apply, Function.update_apply, h]
  | call caller fnId args => exact h

/-- Implementations that keep nothing are not noticed. -/
theorem unwinding_of_stateless (h : Stateless setup factory) (k : Nat) :
    Unwinding (emittedOp setup factory) CallerOp.caller k (SameObject setup factory k) where
  own := by
    rintro s t op ⟨hobject, hs, ht⟩ hown
    refine ⟨?_, ?_, served_operation hs op, served_operation ht op⟩
    · cases op with
      | fromHost caller hostGiven minVersion =>
        rw [emittedOp, operate_fromHost_fst, operate_fromHost_fst]
      | call caller fnId args =>
        obtain rfl : caller = k := hown
        cases hinstance : s.instances caller with
        | none =>
          have hnone : t.instances caller = none := by
            rw [hinstance] at hobject
            exact Option.not_isSome_iff_eq_none.1 (by rw [← hobject]; simp)
          rw [emittedOp_call_none hinstance, emittedOp_call_none hnone]
        | some instanceData =>
          have hsome : (t.instances caller).isSome := by rw [← hobject, hinstance]; rfl
          obtain ⟨other, hother⟩ := Option.isSome_iff_exists.1 hsome
          rw [emittedOp_call hinstance, emittedOp_call hother]
          obtain ⟨calls, hcalls⟩ := hs
          obtain ⟨calls', hcalls'⟩ := ht
          show (methodAnswer _ _ _ _).1 = (methodAnswer _ _ _ _).1
          rw [hcalls, hcalls', h, h]
    · rw [isSome_instances, isSome_instances]
      exact withObject_congr hobject op
  other := by
    rintro s t op ⟨hobject, hs, ht⟩ hother
    refine ⟨?_, served_operation hs op, ht⟩
    rw [isSome_instances, withObject_other hother]
    exact hobject

/-- Callers of implementations that keep nothing are isolated. -/
theorem isolated_of_stateless (h : Stateless setup factory) (ops : List (CallerOp V)) :
    CallersIsolated setup factory ops :=
  isolated_of_unwinding (unwinding_of_stateless h)
    (fun _ => ⟨rfl, ⟨[], rfl⟩, ⟨[], rfl⟩⟩) ops

/-! ### One call is seen by another caller -/

/-- The calls of one caller. -/
def calling (caller : Nat) (calls : List (Nat × List V)) : List (CallerOp V) :=
  calls.map fun call => .call caller call.1 call.2

/-- Calls through an object lead the default implementation on. -/
theorem run_calling (setup : HostSetup V W) {s : LuaHostState factory.State} {caller : Nat}
    (hobject : (s.instances caller).isSome) (calls : List (Nat × List V)) :
    (run (moved (emittedOp setup factory)) s (calling caller calls)).locals.defaultImpl =
        run (moved (methodAnswer setup factory)) s.locals.defaultImpl calls ∧
      (run (moved (emittedOp setup factory)) s (calling caller calls)).instances =
        s.instances := by
  obtain ⟨instanceData, hinstance⟩ := Option.isSome_iff_exists.1 hobject
  induction calls generalizing s with
  | nil => exact ⟨rfl, rfl⟩
  | cons call rest ih =>
    rw [calling, List.map_cons, run_cons, moved, emittedOp_call hinstance]
    exact ih hobject hinstance

theorem ownOps_calling {caller k : Nat} (h : caller ≠ k) (calls : List (Nat × List V)) :
    ownOps CallerOp.caller k (calling caller calls) = [] := by
  induction calls with
  | nil => rfl
  | cons call rest ih => exact (ownOps_cons_other h _).trans ih

/-- The request of an object of any version. -/
def request (caller : Nat) : CallerOp V := .fromHost caller true none

/-- A request gives its caller an object. -/
theorem isSome_request (s : LuaHostState factory.State) (caller k : Nat) :
    ((moved (emittedOp setup factory) s (request caller)).instances k).isSome =
      if k = caller then true else (s.instances k).isSome := by
  rw [isSome_instances, request, withObject, resolvesHost_any, Function.update_apply]

/-- A request leaves the default implementation. -/
theorem defaultImpl_request (s : LuaHostState factory.State) (caller : Nat) :
    (moved (emittedOp setup factory) s (request caller)).locals.defaultImpl =
      s.locals.defaultImpl :=
  defaultImpl_fromHost s caller true none

/-- A call of a caller with an object is a call of the default implementation. -/
theorem emittedOp_fst {s : LuaHostState factory.State} {caller : Nat}
    (hobject : (s.instances caller).isSome) (call : Nat × List V) :
    (emittedOp setup factory s (.call caller call.1 call.2)).1 =
      (methodAnswer setup factory s.locals.defaultImpl call).1 := by
  obtain ⟨instanceData, hinstance⟩ := Option.isSome_iff_exists.1 hobject
  rw [emittedOp_call hinstance]

/-- Where callers are isolated in every run, implementations keep nothing. -/
theorem stateless_of_isolated (h : ∀ ops, CallersIsolated setup factory ops) :
    Stateless setup factory := by
  intro calls call
  -- caller 1 makes the calls, and caller 0 the call behind them
  have heq := isolated_iff_answer.1
    (h ([request 0, request 1] ++ calling 1 calls ++ [.call 0 call.1 call.2])) _ _ [] rfl
  have hown : ownOps CallerOp.caller 0
      ([request 0, request 1] ++ calling 1 calls : List (CallerOp V)) = [request 0] := by
    rw [ownOps_append, ownOps_calling (by decide), List.append_nil]
    rfl
  have hobject : ((reached setup factory [request 0, request 1]).instances 1).isSome := by
    rw [reached, run_cons, run_cons, run_nil, isSome_request, if_pos rfl]
  have hrun := run_calling setup hobject calls
  rw [reached] at hrun
  rw [show CallerOp.caller (.call 0 call.1 call.2 : CallerOp V) = 0 from rfl, hown, run_append,
    emittedOp_fst, emittedOp_fst, hrun.1] at heq
  · simp only [run_cons, run_nil, defaultImpl_request] at heq
    exact heq
  · rw [run_cons, run_nil, isSome_request, if_pos rfl]
  · rw [hrun.2, run_cons, run_cons, run_nil, isSome_request, isSome_request]
    rfl

/-! ### Runs in which nothing can be seen -/

variable (setup)

/-- The arguments of a call reach the implementation. -/
def readable (fnId : Nat) (args : List V) : Bool :=
  (setup.contract.functions[fnId]?.bind fun func =>
    (setup.marshalling.packArgs func args).bind (setup.marshalling.readArgs func)).isSome

/-- The function has a result. -/
def hasResult (fnId : Nat) : Bool :=
  setup.contract.functions[fnId]?.any fun func => func.returns.isSome

/-- An operation behind some others reaches an implementation. -/
def ReachesImpl (before : List (CallerOp V)) : CallerOp V → Prop
  | .fromHost _ _ _        => False
  | .call caller fnId args => hasObject setup before caller ∧ readable setup fnId args

/-- An operation is a call with a result. -/
def AsksResult : CallerOp V → Prop
  | .fromHost _ _ _ => False
  | .call _ fnId _  => hasResult setup fnId

/-- No call with a result comes after the call of another caller. -/
def Unmixed (ops : List (CallerOp V)) : Prop :=
  ∀ before op between op' after, ops = before ++ op :: between ++ op' :: after →
    ReachesImpl setup before op → ReachesImpl setup (before ++ op :: between) op' →
    AsksResult setup op' → op.caller = op'.caller

variable {setup}

/-- Arguments that do not reach the implementation leave it, and every implementation answers them
alike. -/
theorem methodAnswer_unreadable {fnId : Nat} {args : List V}
    (h : readable setup fnId args = false) (impl : factory.State) :
    (methodAnswer setup factory impl (fnId, args)).2 = impl ∧
      ∀ other, (methodAnswer setup factory impl (fnId, args)).1 =
        (methodAnswer setup factory other (fnId, args)).1 := by
  rw [readable] at h
  simp only [methodAnswer]
  cases hfunc : setup.contract.functions[fnId]? with
  | none => exact ⟨rfl, fun _ => rfl⟩
  | some func =>
    cases hpack : setup.marshalling.packArgs func args with
    | none => simp only [hpack, implies_true, and_self]
    | some packed =>
      rw [hfunc, Option.bind_some, hpack, Option.bind_some] at h
      have hread : setup.marshalling.readArgs func packed = none := by simpa using h
      simp only [hpack, dispatchBranch, hread, implies_true, and_self]

/-- A call without a result is answered alike by every implementation. -/
theorem methodAnswer_noResult {fnId : Nat} {args : List V} (h : hasResult setup fnId = false)
    (impl other : factory.State) :
    (methodAnswer setup factory impl (fnId, args)).1 =
      (methodAnswer setup factory other (fnId, args)).1 := by
  simp only [methodAnswer]
  cases hfunc : setup.contract.functions[fnId]? with
  | none => rfl
  | some func =>
    have hreturns : func.returns.isSome = false := by simpa [hasResult, hfunc] using h
    cases hpack : setup.marshalling.packArgs func args with
    | none => simp only [hpack]
    | some packed => simp [hpack, readReturn, hreturns]

theorem hasObject_append (before : List (CallerOp V)) (op : CallerOp V) :
    hasObject setup (before ++ [op]) = withObject setup (hasObject setup before) op := by
  rw [hasObject, List.foldl_append]
  rfl

/-- A caller's object is made by its own operations. -/
theorem hasObject_ownOps (setup : HostSetup V W) (ops : List (CallerOp V)) (k : Nat) :
    hasObject setup (ownOps CallerOp.caller k ops) k = hasObject setup ops k := by
  induction ops using List.reverseRecOn with
  | nil => rfl
  | append_singleton before op ih =>
    rw [ownOps_append, hasObject_append]
    by_cases hown : op.caller = k
    · rw [ownOps_cons_own hown]
      show hasObject setup (_ ++ [op]) k = _
      rw [hasObject_append]
      exact withObject_congr ih op
    · rw [ownOps_cons_other hown]
      show hasObject setup (_ ++ []) k = _
      rw [List.append_nil, withObject_other hown]
      exact ih

/-- The default implementation after some operations. -/
def defaultAfter (setup : HostSetup V W) (factory : LuaFactory V) (ops : List (CallerOp V)) :
    factory.State :=
  (reached setup factory ops).locals.defaultImpl

theorem defaultAfter_append (before : List (CallerOp V)) (op : CallerOp V) :
    defaultAfter setup factory (before ++ [op]) =
      (moved (emittedOp setup factory) (reached setup factory before) op).locals.defaultImpl := by
  rw [defaultAfter, reached, run_append]
  rfl

/-- An operation that reaches no implementation leaves the default one. -/
theorem defaultAfter_of_not_reaches {before : List (CallerOp V)} {op : CallerOp V}
    (h : ¬ ReachesImpl setup before op) :
    defaultAfter setup factory (before ++ [op]) = defaultAfter setup factory before := by
  rw [defaultAfter_append]
  cases op with
  | fromHost caller hostGiven minVersion => exact defaultImpl_fromHost ..
  | call caller fnId args =>
    cases hinstance : (reached setup factory before).instances caller with
    | none =>
      rw [moved, emittedOp_call_none hinstance]
      rfl
    | some instanceData =>
      have hobject : hasObject setup before caller = true := by
        rw [← isSome_reached setup factory]
        exact hinstance ▸ rfl
      have hread : readable setup fnId args = false := by
        simpa [ReachesImpl, hobject] using h
      rw [moved, emittedOp_call hinstance]
      exact (methodAnswer_unreadable hread _).1

/-- A call that reaches the default implementation leads it on. -/
theorem defaultAfter_call {before : List (CallerOp V)} {caller fnId : Nat} {args : List V}
    (h : hasObject setup before caller) :
    defaultAfter setup factory (before ++ [.call caller fnId args]) =
      (methodAnswer setup factory (defaultAfter setup factory before) (fnId, args)).2 := by
  rw [← isSome_reached setup factory] at h
  obtain ⟨instanceData, hinstance⟩ := Option.isSome_iff_exists.1 h
  rw [defaultAfter_append, moved, emittedOp_call hinstance]
  rfl

/-- Where only one caller reaches the default implementation, it is as that caller alone leaves
it. -/
theorem defaultAfter_ownOps {k : Nat} {ops : List (CallerOp V)}
    (h : ∀ before op after, ops = before ++ op :: after → ReachesImpl setup before op →
      op.caller = k) :
    defaultAfter setup factory ops =
      defaultAfter setup factory (ownOps CallerOp.caller k ops) := by
  induction ops using List.reverseRecOn with
  | nil => rfl
  | append_singleton before op ih =>
    have hbefore := ih fun before' op' after' heq =>
      h before' op' (after' ++ [op]) (by rw [heq, List.append_assoc, List.cons_append])
    rw [ownOps_append]
    by_cases hown : op.caller = k
    · have hobject := hasObject_ownOps setup before k
      rw [ownOps_cons_own hown]
      show _ = defaultAfter setup factory (_ ++ [op])
      by_cases hreach : ReachesImpl setup before op
      · cases op with
        | fromHost caller hostGiven minVersion => cases hreach
        | call caller fnId args =>
          obtain rfl : caller = k := hown
          rw [defaultAfter_call hreach.1, defaultAfter_call (hobject.trans hreach.1), hbefore]
      · have hown' : ¬ ReachesImpl setup (ownOps CallerOp.caller k before) op := by
          cases op with
          | fromHost caller hostGiven minVersion => exact id
          | call caller fnId args =>
            obtain rfl : caller = k := hown
            rwa [ReachesImpl, hobject]
        rw [defaultAfter_of_not_reaches hreach, defaultAfter_of_not_reaches hown', hbefore]
    · rw [ownOps_cons_other hown]
      show _ = defaultAfter setup factory (_ ++ [])
      rw [List.append_nil, ← hbefore]
      exact defaultAfter_of_not_reaches fun hreach => hown (h before op [] rfl hreach)

/-- The answer to a call behind some operations. -/
theorem emittedOp_reached (before : List (CallerOp V)) (caller fnId : Nat) (args : List V) :
    (emittedOp setup factory (reached setup factory before) (.call caller fnId args)).1 =
      if hasObject setup before caller then
        (methodAnswer setup factory (defaultAfter setup factory before) (fnId, args)).1
      else .raised := by
  rw [← isSome_reached setup factory]
  split
  · next h => exact emittedOp_fst h (fnId, args)
  · next h =>
    rw [emittedOp_call_none (Option.not_isSome_iff_eq_none.1 h)]

/-- In a run where no call with a result comes after the call of another caller, the callers are
isolated. -/
theorem isolated_of_unmixed {ops : List (CallerOp V)} (h : Unmixed setup ops) :
    CallersIsolated setup factory ops := by
  refine isolated_iff_answer.2 fun before op after heq => ?_
  show (emittedOp setup factory (reached setup factory before) op).1 =
    (emittedOp setup factory (reached setup factory (ownOps CallerOp.caller op.caller before)) op).1
  cases op with
  | fromHost caller hostGiven minVersion =>
    rw [emittedOp, operate_fromHost_fst, operate_fromHost_fst]
  | call caller fnId args =>
    rw [emittedOp_reached, emittedOp_reached]
    show _ = if hasObject setup (ownOps CallerOp.caller caller before) caller then _ else _
    rw [hasObject_ownOps]
    split
    · next hobject =>
      cases hread : readable setup fnId args with
      | false => exact (methodAnswer_unreadable hread _).2 _
      | true =>
        cases hresult : hasResult setup fnId with
        | false => exact methodAnswer_noResult hresult _ _
        | true =>
          have hsame : defaultAfter setup factory before =
              defaultAfter setup factory (ownOps CallerOp.caller caller before) :=
            defaultAfter_ownOps fun before' op' after' hbefore hreach =>
              h before' op' after' (.call caller fnId args) after (by rw [heq, hbefore]) hreach
                (hbefore ▸ ⟨hobject, hread⟩) hresult
          rw [hsame]
          rfl
    · rfl

/-! ### An implementation that counts -/

/-- An implementation that counts its calls. It answers the call that comes after `due` others, and
raises an error for the rest. -/
def countingFactory (setup : HostSetup V W) (due : Nat) : LuaFactory V where
  State := Nat
  fresh := 0
  method func _ count :=
    (if count = due then some (setup.marshalling.sample func) else none, count + 1)

/-- A call that reaches the implementation. -/
theorem readable_iff {fnId : Nat} {args : List V} :
    readable setup fnId args ↔ ∃ func packed values, setup.contract.functions[fnId]? = some func ∧
      setup.marshalling.packArgs func args = some packed ∧
      setup.marshalling.readArgs func packed = some values := by
  rw [readable, Option.isSome_iff_exists]
  constructor
  · rintro ⟨values, h⟩
    obtain ⟨func, hfunc, h⟩ := Option.bind_eq_some_iff.1 h
    obtain ⟨packed, hpack, hvalues⟩ := Option.bind_eq_some_iff.1 h
    exact ⟨func, packed, values, hfunc, hpack, hvalues⟩
  · rintro ⟨func, packed, values, hfunc, hpack, hvalues⟩
    exact ⟨values, by rw [hfunc, Option.bind_some, hpack, Option.bind_some, hvalues]⟩

/-- A call adds one. -/
theorem counting_snd {due fnId : Nat} {args : List V} (hread : readable setup fnId args)
    (count : Nat) :
    (methodAnswer setup (countingFactory setup due) count (fnId, args)).2 = count + 1 := by
  obtain ⟨func, packed, values, hfunc, hpack, hvalues⟩ := readable_iff.1 hread
  simp only [methodAnswer, hfunc, hpack, dispatchBranch, hvalues, countingFactory]
  by_cases hdue : count = due
  · simp only [if_pos hdue]
    split
    · split <;> rfl
    · rfl
  · simp only [if_neg hdue]

/-- The call that is due has a value. -/
theorem counting_due {due fnId : Nat} {args : List V} (hread : readable setup fnId args)
    (hresult : hasResult setup fnId) :
    (methodAnswer setup (countingFactory setup due) due (fnId, args)).1 ≠ .null := by
  obtain ⟨func, packed, values, hfunc, hpack, hvalues⟩ := readable_iff.1 hread
  have hreturns : func.returns.isSome := by simpa [hasResult, hfunc] using hresult
  obtain ⟨out, hout⟩ := Option.isSome_iff_exists.1 (setup.marshalling.stores func)
  simp only [methodAnswer, hfunc, hpack, dispatchBranch, hvalues, countingFactory, if_true, hout]
  split <;> simp [readReturn, hreturns]

/-- Any other call raises an error. -/
theorem counting_other {due fnId count : Nat} {args : List V} (hread : readable setup fnId args)
    (hcount : count ≠ due) :
    (methodAnswer setup (countingFactory setup due) count (fnId, args)).1 = .null := by
  obtain ⟨func, packed, values, hfunc, hpack, hvalues⟩ := readable_iff.1 hread
  simp only [methodAnswer, hfunc, hpack, dispatchBranch, hvalues, countingFactory, if_neg hcount]
  rfl

/-- The calls that the implementation has counted. -/
def counted (setup : HostSetup V W) (due : Nat) (ops : List (CallerOp V)) : Nat :=
  defaultAfter setup (countingFactory setup due) ops

theorem counted_append_of_reaches {due : Nat} {before : List (CallerOp V)} {op : CallerOp V}
    (h : ReachesImpl setup before op) :
    counted setup due (before ++ [op]) = counted setup due before + 1 := by
  cases op with
  | fromHost caller hostGiven minVersion => cases h
  | call caller fnId args => exact (defaultAfter_call h.1).trans (counting_snd h.2 _)

theorem counted_append_of_not_reaches {due : Nat} {before : List (CallerOp V)} {op : CallerOp V}
    (h : ¬ ReachesImpl setup before op) :
    counted setup due (before ++ [op]) = counted setup due before :=
  defaultAfter_of_not_reaches h

/-- What is due does not matter to the count. -/
theorem counted_due (due other : Nat) (ops : List (CallerOp V)) :
    counted setup due ops = counted setup other ops := by
  induction ops using List.reverseRecOn with
  | nil => rfl
  | append_singleton before op ih =>
    by_cases h : ReachesImpl setup before op
    · rw [counted_append_of_reaches h, counted_append_of_reaches h, ih]
    · rw [counted_append_of_not_reaches h, counted_append_of_not_reaches h, ih]

/-- A caller's own operation reaches an implementation with and without the others. -/
theorem reaches_ownOps {before : List (CallerOp V)} {op : CallerOp V} :
    ReachesImpl setup (ownOps CallerOp.caller op.caller before) op ↔
      ReachesImpl setup before op := by
  cases op with
  | fromHost caller hostGiven minVersion => exact Iff.rfl
  | call caller fnId args =>
    show hasObject setup (ownOps CallerOp.caller caller before) caller ∧ _ ↔ _
    rw [hasObject_ownOps]
    exact Iff.rfl

/-- The count of a run is at least that of one caller's operations, by what it is ahead. -/
theorem counted_ownOps_le {due k ahead : Nat} {before : List (CallerOp V)}
    (h : counted setup due (ownOps CallerOp.caller k before) + ahead ≤ counted setup due before)
    (rest : List (CallerOp V)) :
    counted setup due (ownOps CallerOp.caller k (before ++ rest)) + ahead ≤
      counted setup due (before ++ rest) := by
  induction rest using List.reverseRecOn with
  | nil => simpa using h
  | append_singleton rest op ih =>
    rw [← List.append_assoc, ownOps_append]
    by_cases hown : op.caller = k
    · subst hown
      rw [ownOps_cons_own rfl]
      show counted setup due (_ ++ [op]) + ahead ≤ _
      by_cases hreach : ReachesImpl setup (before ++ rest) op
      · rw [counted_append_of_reaches hreach, counted_append_of_reaches (reaches_ownOps.2 hreach)]
        omega
      · rw [counted_append_of_not_reaches hreach,
          counted_append_of_not_reaches (mt reaches_ownOps.1 hreach)]
        exact ih
    · rw [ownOps_cons_other hown]
      show counted setup due (_ ++ []) + ahead ≤ _
      rw [List.append_nil]
      by_cases hreach : ReachesImpl setup (before ++ rest) op
      · rw [counted_append_of_reaches hreach]
        omega
      · rw [counted_append_of_not_reaches hreach]
        exact ih

/-- A run that is isolated whatever the implementations are has no call with a result after the
call of another caller. -/
theorem unmixed_of_isolated {ops : List (CallerOp V)}
    (h : ∀ factory : LuaFactory V, CallersIsolated setup factory ops) : Unmixed setup ops := by
  intro before op between op' after heq hreach hreach' hresult
  by_contra hother
  cases op' with
  | fromHost caller hostGiven minVersion => cases hresult
  | call caller fnId args =>
    have hother : op.caller ≠ caller := hother
    -- the implementation answers the call only after the caller's own earlier ones
    have hempty : counted setup 0 (ownOps CallerOp.caller caller []) + 0 ≤ counted setup 0 [] :=
      Nat.le_refl _
    have hstart := counted_ownOps_le hempty before
    rw [List.nil_append] at hstart
    have hop : counted setup 0 (ownOps CallerOp.caller caller (before ++ [op])) + 1 ≤
        counted setup 0 (before ++ [op]) := by
      rw [ownOps_append, ownOps_cons_other hother, counted_append_of_reaches hreach]
      show counted setup 0 (_ ++ []) + 1 ≤ _
      rw [List.append_nil]
      omega
    have hahead := counted_ownOps_le hop between
    rw [List.append_assoc] at hahead
    obtain ⟨due, hdue⟩ : ∃ due, counted setup 0
      (ownOps CallerOp.caller caller (before ++ op :: between)) = due := ⟨_, rfl⟩
    have hanswer := isolated_iff_answer.1 (h (countingFactory setup due)) _ _ _ heq
    change (emittedOp _ _ (reached _ _ _) _).1 =
      (emittedOp _ _ (reached _ _ (ownOps CallerOp.caller caller _)) _).1 at hanswer
    rw [emittedOp_reached, emittedOp_reached, hasObject_ownOps, if_pos hreach'.1,
      if_pos hreach'.1] at hanswer
    -- alone it is due, and in the run it comes too late
    have halone : defaultAfter setup (countingFactory setup due)
        (ownOps CallerOp.caller caller (before ++ op :: between)) = due :=
      (counted_due due 0 _).trans hdue
    have hlate : counted setup due (before ++ op :: between) ≠ due := by
      rw [counted_due due 0, ← hdue]
      have hassoc : before ++ ([op] ++ between) = before ++ op :: between := rfl
      rw [hassoc] at hahead
      omega
    rw [halone] at hanswer
    exact counting_due hreach'.2 hresult (hanswer.symm.trans (counting_other hreach'.2 hlate))

/-! ### What the callers see -/

/-- The calls of all callers meet in the default implementation. So the callers are isolated in
every run exactly if no answer of an implementation depends on the calls before it. In one run
they are isolated whatever the implementations are exactly if no call with a result
comes after the call of another caller. -/
theorem callers_isolated_iff (setup : HostSetup V W) :
    (∀ factory, (∀ ops, CallersIsolated setup factory ops) ↔ Stateless setup factory) ∧
      ∀ ops, (∀ factory, CallersIsolated setup factory ops) ↔ Unmixed setup ops :=
  ⟨fun _ => ⟨stateless_of_isolated, isolated_of_stateless⟩,
    fun _ => ⟨unmixed_of_isolated, fun h _ => isolated_of_unmixed h⟩⟩

/-- `host.counter`, whose `next` returns a `u32`. -/
def counterContract : ApiContract :=
  ⟨"host.counter", ⟨1, 0, 0⟩, [⟨"next", [], some (.primitive .u32)⟩]⟩

/-- The conversions of `next`. -/
def counterMarshalling : Marshalling Nat Nat where
  packArgs _ args := if args = [] then some 0 else none
  readArgs _ _ := some []
  storeResult _ v := some (v % 2 ^ 32)
  readResult _ out := out.getD 0
  sample _ := 0
  stores _ := rfl

/-- An implementation that returns how often `next` was called. -/
def counterFactory : LuaFactory Nat := ⟨Nat, 0, fun _ _ n => (some (n + 1), n + 1)⟩

/-- `host.counter` with an instance for each caller. -/
def counterSetup : HostSetup Nat Nat where
  contract := counterContract
  singleton := false
  ptr := 1
  marshalling := counterMarshalling
  contracts := (HostContracts.new.register
    ⟨1, hostContractId counterContract.name counterContract.version.major,
      counterContract.version, false⟩).2
  registered := by
    simp [HostContracts.register, HostContracts.lookup, HostContracts.new]

/-- Two callers of `host.counter` call `next` once each. -/
theorem counter_is_shared :
    counterSetup.singleton = false ∧
      ¬ CallersIsolated counterSetup counterFactory
        [.fromHost 0 true none, .fromHost 1 true none, .call 0 0 [], .call 1 0 []] := by
  refine ⟨rfl, fun h => ?_⟩
  have hanswer := isolated_iff_answer.1 h ([request 0, request 1] ++ [.call 0 0 []])
    (.call 1 0 []) [] rfl
  change (emittedOp _ _ (reached _ _ _) _).1 =
    (emittedOp _ _ (reached _ _ [request 1]) _).1 at hanswer
  have hobject : ∀ k < 2, hasObject counterSetup [request 0, request 1] k = true := by
    intro k hk
    simp only [hasObject, request, List.foldl_cons, List.foldl_nil, withObject, resolvesHost_any,
      Function.update_apply]
    grind
  have hobject' : hasObject counterSetup [request 1] 1 = true := by
    simp [hasObject, request, withObject, resolvesHost_any]
  have hcalled : hasObject counterSetup ([request 0, request 1] ++ [.call 0 0 []]) 1 = true := by
    rw [hasObject_append]
    exact hobject 1 (by decide)
  rw [emittedOp_reached, emittedOp_reached, if_pos hcalled, if_pos hobject',
    defaultAfter_call (hobject 0 (by decide))] at hanswer
  simp only [defaultAfter, reached, run_cons, run_nil, defaultImpl_request] at hanswer
  -- the second call of `next` returns 2, and alone it returns 1
  have hvalue : (LuaOutcome.value 2 : LuaOutcome Nat) = .value 1 := hanswer
  exact absurd hvalue (by decide)

/-! ### An arm that passes the instance -/

/-- What an instance of a caller leads to. -/
def implOf {S : Type} (s : LuaHostState S) (k : Nat) : Option S :=
  (s.instances k).bind s.locals.instances

/-- The instances are numbers that `create_instance` has given out, one for each caller. -/
structure Kept {S : Type} (s : LuaHostState S) : Prop where
  positive : 0 < s.locals.nextId
  issued : ∀ k instId, s.instances k = some instId → 0 < instId ∧ instId < s.locals.nextId
  alive : ∀ k instId, s.instances k = some instId → (s.locals.instances instId).isSome
  apart : ∀ k k' instId, s.instances k = some instId → s.instances k' = some instId → k = k'

theorem kept_start (factory : LuaFactory V) : Kept (.start factory) where
  positive := Nat.one_pos
  issued := by
    intro k instId h
    cases h
  alive := by
    intro k instId h
    cases h
  apart := by
    intro k k' instId h
    cases h

/-- One operation of callers whose arm passes their instance. -/
def routedOp (setup : HostSetup V W) (factory : LuaFactory V) :
    LuaHostState factory.State → CallerOp V → LuaOutcome V × LuaHostState factory.State :=
  operate setup factory id

/-- `get_host_contract` of a contract with many instances. -/
theorem getHostContract_of_multi (hmulti : setup.singleton = false)
    (s : LuaHostState factory.State) :
    getHostContract (setup.interface factory) s =
      (s.locals.nextId, { s with locals := (s.locals.createInstance factory.fresh).2 }) := by
  rw [getHostContract]
  simp only [HostSetup.interface, HostSetup.base, hmulti]
  rfl

section
variable {S : Type} {s : LuaHostState S}

/-- The next number goes to a caller, with a fresh implementation. -/
def give (s : LuaHostState S) (caller : Nat) (fresh : S) : LuaHostState S :=
  { s with
    locals := (s.locals.createInstance fresh).2
    instances := Function.update s.instances caller (some s.locals.nextId) }

/-- A caller loses its instance. -/
def take (s : LuaHostState S) (caller : Nat) : LuaHostState S :=
  { s with instances := Function.update s.instances caller none }

/-- The implementation of a number changes. -/
def lead (s : LuaHostState S) (instId : Nat) (state : S) : LuaHostState S :=
  { s with locals := s.locals.setImpl instId state }

theorem give_apply (caller k : Nat) (fresh : S) :
    (give s caller fresh).instances k =
      if k = caller then some s.locals.nextId else s.instances k :=
  Function.update_apply ..

theorem give_locals_apply (caller instId : Nat) (fresh : S) :
    (give s caller fresh).locals.instances instId =
      if instId = s.locals.nextId then some fresh else s.locals.instances instId :=
  Function.update_apply ..

theorem take_apply (caller k : Nat) :
    (take s caller).instances k = if k = caller then none else s.instances k :=
  Function.update_apply ..

/-- A caller has the next number or what it had. -/
theorem give_instances {caller k instId : Nat} {fresh : S}
    (h : (give s caller fresh).instances k = some instId) :
    k = caller ∧ instId = s.locals.nextId ∨ k ≠ caller ∧ s.instances k = some instId := by
  rw [give_apply] at h
  split at h
  · next hk => exact .inl ⟨hk, (Option.some.inj h).symm⟩
  · next hk => exact .inr ⟨hk, h⟩

theorem kept_give (h : Kept s) (caller : Nat) (fresh : S) : Kept (give s caller fresh) where
  positive := Nat.succ_pos _
  issued := by
    intro k instId hk
    show _ ∧ instId < s.locals.nextId + 1
    have hpositive := h.positive
    rcases give_instances hk with ⟨-, rfl⟩ | ⟨-, hold⟩
    · omega
    · have hissued := h.issued k instId hold
      omega
  alive := by
    intro k instId hk
    rw [give_locals_apply]
    rcases give_instances hk with ⟨-, rfl⟩ | ⟨-, hold⟩
    · rw [if_pos rfl]
      rfl
    · rw [if_neg (Nat.ne_of_lt (h.issued k instId hold).2)]
      exact h.alive k instId hold
  apart := by
    intro k k' instId hk hk'
    rcases give_instances hk with ⟨rfl, hnew⟩ | ⟨-, hold⟩
    · rcases give_instances hk' with ⟨rfl, -⟩ | ⟨-, hold'⟩
      · rfl
      · exact absurd hnew (Nat.ne_of_lt (h.issued k' instId hold').2)
    · rcases give_instances hk' with ⟨rfl, hnew⟩ | ⟨-, hold'⟩
      · exact absurd hnew (Nat.ne_of_lt (h.issued k instId hold).2)
      · exact h.apart k k' instId hold hold'

theorem implOf_give (h : Kept s) (caller k : Nat) (fresh : S) :
    implOf (give s caller fresh) k = if k = caller then some fresh else implOf s k := by
  rw [implOf, give_apply]
  split
  · rw [Option.bind_some, give_locals_apply, if_pos rfl]
  · rw [implOf]
    cases hinstance : s.instances k with
    | none => rfl
    | some instId =>
      rw [Option.bind_some, give_locals_apply,
        if_neg (Nat.ne_of_lt (h.issued k instId hinstance).2)]
      rfl

theorem take_instances {caller k instId : Nat} (h : (take s caller).instances k = some instId) :
    s.instances k = some instId := by
  rw [take_apply] at h
  split at h
  · cases h
  · exact h

theorem kept_take (h : Kept s) (caller : Nat) : Kept (take s caller) where
  positive := h.positive
  issued k instId hk := h.issued k instId (take_instances hk)
  alive k instId hk := h.alive k instId (take_instances hk)
  apart k k' instId hk hk' := h.apart k k' instId (take_instances hk) (take_instances hk')

theorem implOf_take (caller k : Nat) :
    implOf (take s caller) k = if k = caller then none else implOf s k := by
  rw [implOf, take_apply]
  split
  · rfl
  · rfl

/-- The implementation of one caller changes. -/
theorem implOf_lead (h : Kept s) {caller instId : Nat}
    (hinstance : s.instances caller = some instId) (state : S) (k : Nat) :
    implOf (lead s instId state) k = if k = caller then some state else implOf s k := by
  have hpositive := (h.issued caller instId hinstance).1
  rw [implOf, lead, FactoryState.setImpl_of_ne (by omega)]
  by_cases hk : k = caller
  · subst hk
    rw [if_pos rfl, hinstance]
    exact Function.update_self ..
  · rw [if_neg hk, implOf]
    cases hother : s.instances k with
    | none => rfl
    | some other =>
      have hne : other ≠ instId := fun heq =>
        hk (h.apart k caller instId (heq ▸ hother) hinstance)
      exact Function.update_of_ne hne ..

theorem kept_lead (h : Kept s) {caller instId : Nat} (hinstance : s.instances caller = some instId)
    (state : S) : Kept (lead s instId state) where
  positive := by
    rw [lead, FactoryState.setImpl_nextId]
    exact h.positive
  issued := by
    rw [lead, FactoryState.setImpl_nextId]
    exact h.issued
  alive := by
    intro k other hother
    have hpositive := (h.issued caller instId hinstance).1
    rw [lead, FactoryState.setImpl_of_ne (by omega), Function.update_apply]
    split
    · rfl
    · exact h.alive k other hother
  apart := h.apart

end

section
variable {s : LuaHostState factory.State}

/-- What a caller's implementation is after an operation of callers that pass their instance. -/
def routedImpl (setup : HostSetup V W) (factory : LuaFactory V) (impl : Option factory.State) :
    CallerOp V → Option factory.State
  | .fromHost _ hostGiven minVersion =>
    if resolvesHost setup hostGiven minVersion then some factory.fresh else none
  | .call _ fnId args => impl.map fun impl => (methodAnswer setup factory impl (fnId, args)).2

/-- What an operation of callers that pass their instance returns. -/
def routedAnswer (setup : HostSetup V W) (factory : LuaFactory V) (impl : Option factory.State) :
    CallerOp V → LuaOutcome V
  | .fromHost _ hostGiven minVersion =>
    if resolvesHost setup hostGiven minVersion then .object else .null
  | .call _ fnId args =>
    match impl with
    | none      => .raised
    | some impl => (methodAnswer setup factory impl (fnId, args)).1

/-- An operation of callers that pass their instance depends on the implementation of the caller
and changes no other. -/
theorem routedOp_spec (hmulti : setup.singleton = false) (hkept : Kept s) (op : CallerOp V) :
    (routedOp setup factory s op).1 = routedAnswer setup factory (implOf s op.caller) op ∧
      Kept (moved (routedOp setup factory) s op) ∧
      ∀ k, implOf (moved (routedOp setup factory) s op) k =
        if k = op.caller then routedImpl setup factory (implOf s op.caller) op
        else implOf s k := by
  rw [moved, routedOp]
  cases op with
  | fromHost caller hostGiven minVersion =>
    cases h : resolvesHost setup hostGiven minVersion with
    | true =>
      rw [operate_fromHost h, getHostContract_of_multi hmulti, routedAnswer, routedImpl, h]
      exact ⟨rfl, kept_give hkept caller factory.fresh,
        fun k => implOf_give hkept caller k factory.fresh⟩
    | false =>
      rw [operate_fromHost_null h, routedAnswer, routedImpl, h]
      exact ⟨rfl, kept_take hkept caller, fun k => implOf_take caller k⟩
  | call caller fnId args =>
    cases hinstance : s.instances caller with
    | none =>
      have himpl : implOf s caller = none := by rw [implOf, hinstance]; rfl
      rw [operate_call_none hinstance]
      refine ⟨?_, hkept, fun k => ?_⟩
      · show _ = routedAnswer setup factory (implOf s caller) _
        rw [himpl]
        rfl
      · show _ = if k = caller then routedImpl setup factory (implOf s caller) _ else _
        split
        · next hk => rw [hk, himpl]; rfl
        · rfl
    | some instId =>
      obtain ⟨impl, halive⟩ := Option.isSome_iff_exists.1 (hkept.alive caller instId hinstance)
      have hpositive := (hkept.issued caller instId hinstance).1
      have himpl : implOf s caller = some impl := by rw [implOf, hinstance]; exact halive
      have hlocals : s.locals.impl (id instId) = some impl :=
        (FactoryState.impl_of_ne (Nat.pos_iff_ne_zero.1 hpositive)).trans halive
      rw [operate_call hinstance hlocals]
      refine ⟨?_, kept_lead hkept hinstance _, fun k => ?_⟩
      · show _ = routedAnswer setup factory (implOf s caller) _
        rw [himpl]
        rfl
      · show _ = if k = caller then routedImpl setup factory (implOf s caller) _ else _
        rw [himpl]
        exact implOf_lead hkept hinstance _ k

end

/-- The factory and the trampolines keep the instances of a contract with many apart: callers
whose arm passes their instance are isolated in every run, whatever the implementations keep. -/
theorem instances_isolated (setup : HostSetup V W) (factory : LuaFactory V)
    (hmulti : setup.singleton = false) (ops : List (CallerOp V)) :
    Isolated (routedOp setup factory) CallerOp.caller (.start factory) ops := by
  refine isolated_of_unwinding (R := fun k s t => Kept s ∧ Kept t ∧ implOf s k = implOf t k)
    (fun k => ⟨?_, ?_⟩) (fun k => ⟨kept_start factory, kept_start factory, rfl⟩) ops
  · rintro s t op ⟨hs, ht, himpl⟩ rfl
    have hspec := routedOp_spec hmulti hs op
    have hspec' := routedOp_spec hmulti ht op
    refine ⟨?_, hspec.2.1, hspec'.2.1, ?_⟩
    · rw [hspec.1, hspec'.1, himpl]
    · rw [hspec.2.2, hspec'.2.2, if_pos rfl, if_pos rfl, himpl]
  · rintro s t op ⟨hs, ht, himpl⟩ hother
    have hspec := routedOp_spec hmulti hs op
    refine ⟨hspec.2.1, ht, ?_⟩
    rw [hspec.2.2, if_neg (Ne.symm hother)]
    exact himpl

end PolyPlug.Codegen
