import PolyPlug.Lib.Run
import PolyPlug.Registry.Store
import Mathlib.Logic.Function.Basic

/-!
# `PolyPlug.Js.Loader`: calls into a QuickJS bundle

A bundle has one `Context`, which the `JsLoaderData` of all its contracts share, and with it
one list of the threads that dispatch into it. `js_dispatch` puts its thread on the list until it
returns and refuses a thread that is on it. `js_create_instance` refuses a thread
that is on the list and does not put its own there.

`JsSystem` is the loader data and, for each thread, the calls it is in, the innermost first.
JavaScript in a `Context` may call `dispatchPeer` or a native function, and native code may call
into any bundle. A step is one critical section of a thread: a check under the lock of the
list, the entry into a `Context`, the return of the JavaScript function, the return
of the call.

`rquickjs` is outside the source. `Context::with` waits while another thread is inside, and
entering again on a thread that is inside is possible in the model. Whether it happens
is the question.
-/

set_option autoImplicit false

namespace PolyPlug.Js

open PolyPlug.Registry

/-- A `Context` with its `Runtime`. -/
abbrev ContextId := Nat

/-- `JsLoaderData`: one contract of a bundle. `ptr` is its address, `ctx` the `Context` of its
bundle, `functions` the number of its functions. -/
structure JsLoaderData where
  ptr : Nat
  ctx : ContextId
  contractId : UInt64
  functions : Nat
deriving DecidableEq

/-- `GuestContractInstance`. -/
structure GuestContractInstance where
  data : Nat
  contractId : UInt64
deriving DecidableEq

/-- `GuestContractInstance::null`. -/
def GuestContractInstance.null : GuestContractInstance := ⟨0, 0⟩

/-- `AbiErrorCode`: the codes of a dispatch. A guest may return any code. -/
inductive AbiErrorCode where
  | ok
  | generic
  | invalidPointer
  | functionNotAvailable
  | reentrantCall
  | guest (code : Nat)
deriving DecidableEq

/-- A call of one of the three functions of an interface. A null pointer is `none`. -/
inductive Call where
  | create (adapterContext loaderData : Option JsLoaderData) (outIsNull : Bool)
  | destroy (adapterContext loaderData : Option JsLoaderData) (inst : GuestContractInstance)
  | dispatch (adapterContext loaderData : Option JsLoaderData) (inst : GuestContractInstance)
      (fnId : Nat)
deriving DecidableEq

/-- What a call wrote to its result. -/
inductive Answer where
  | nothing
  | inst (inst : GuestContractInstance)
  | status (code : AbiErrorCode)
deriving DecidableEq

/-- How a JavaScript function ended. -/
inductive Outcome where
  | returned (code : Nat)
  | threw
deriving DecidableEq

/-- Where a call is. -/
inductive Phase where
  /-- A dispatch that is on the list. -/
  | registered
  /-- At `Context::with`. -/
  | entering
  /-- Its JavaScript function runs. -/
  | inside
  /-- `Context::with` has returned. -/
  | left (outcome : Outcome)
deriving DecidableEq

/-- Where `dispatchPeer` is, once it has the interface of the peer. -/
inductive PeerStage where
  | resolved
  | created (inst : GuestContractInstance)
  | dispatched (inst : GuestContractInstance) (code : AbiErrorCode)
deriving DecidableEq

/-- A call a thread is in. `native` is code outside the loader. -/
inductive Frame where
  | create (data : JsLoaderData) (phase : Phase)
  | dispatch (data : JsLoaderData) (inst : GuestContractInstance) (fnId : Nat) (phase : Phase)
  | peer (data : JsLoaderData) (fnId : Nat) (stage : PeerStage)
  | native
deriving DecidableEq

/-- The loader data of all bundles, and the calls of the threads. -/
structure JsSystem where
  stack : ThreadId → List Frame
  inDispatchThreads : ContextId → List ThreadId
  /-- The threads inside `Context::with`, once for each entry. -/
  entered : ContextId → List ThreadId
  instances : JsLoaderData → List Nat
  nextId : JsLoaderData → Nat

/-- One step of a thread. -/
inductive Step where
  /-- Native code calls a function of an interface. -/
  | call (thread : ThreadId) (call : Call)
  /-- JavaScript calls `dispatchPeer`. `none` is a peer that was not found. -/
  | dispatchPeer (thread : ThreadId) (peer : Option JsLoaderData) (fnId : Nat)
  /-- JavaScript calls a native function, a host contract's or a native peer's. -/
  | callNative (thread : ThreadId)
  /-- The JavaScript function returns. -/
  | leave (thread : ThreadId) (outcome : Outcome)
  /-- The native function returns. -/
  | ret (thread : ThreadId)
  /-- The next critical section of the innermost call. -/
  | advance (thread : ThreadId)
deriving DecidableEq

namespace JsSystem

/-- Nothing runs, and no contract has an instance. -/
def new : JsSystem := ⟨fun _ => [], fun _ => [], fun _ => [], fun _ => [], fun _ => 1⟩

/-- The calls of a thread change. -/
def setStack (s : JsSystem) (thread : ThreadId) (stack : List Frame) : JsSystem :=
  { s with stack := Function.update s.stack thread stack }

/-! ### The functions of an interface -/

/-- `js_create_instance`, up to `Context::with`. -/
def jsCreateInstance (s : JsSystem) (thread : ThreadId)
    (adapterContext loaderData : Option JsLoaderData) (outIsNull : Bool) :
    Option Answer × JsSystem :=
  if outIsNull then (some .nothing, s)
  else
    match loaderData with
    | none      => (some (.inst .null), s)
    | some data =>
      if adapterContext ≠ some data then (some (.inst .null), s)
      -- A creation is checked against the list, and does not join it.
      else if thread ∈ s.inDispatchThreads data.ctx then (some (.inst .null), s)
      else (none, s.setStack thread (.create data .entering :: s.stack thread))

/-- `js_destroy_instance`. -/
def jsDestroyInstance (s : JsSystem) (adapterContext loaderData : Option JsLoaderData)
    (inst : GuestContractInstance) : JsSystem :=
  if inst.data = 0 then s
  else
    match loaderData with
    | none      => s
    | some data =>
      if adapterContext ≠ some data then s
      else { s with
        instances := Function.update s.instances data ((s.instances data).erase inst.data) }

/-- `js_dispatch`, up to the end of the critical section of the list. -/
def jsDispatch (s : JsSystem) (thread : ThreadId)
    (adapterContext loaderData : Option JsLoaderData) (inst : GuestContractInstance)
    (fnId : Nat) : Option Answer × JsSystem :=
  match loaderData with
  | none      => (some (.status .invalidPointer), s)
  | some data =>
    if adapterContext ≠ some data then (some (.status .invalidPointer), s)
    -- The thread is inside a dispatch of the same `Context` already.
    else if thread ∈ s.inDispatchThreads data.ctx then (some (.status .reentrantCall), s)
    else
      (none, { s with
        inDispatchThreads := Function.update s.inDispatchThreads data.ctx
          (s.inDispatchThreads data.ctx ++ [thread])
      }.setStack thread (.dispatch data inst fnId .registered :: s.stack thread))

/-- A call of an interface. `none` is a call that is in progress. -/
def enterCall (s : JsSystem) (thread : ThreadId) : Call → Option Answer × JsSystem
  | .create adapterContext loaderData outIsNull =>
    s.jsCreateInstance thread adapterContext loaderData outIsNull
  | .destroy adapterContext loaderData inst =>
    (some .nothing, s.jsDestroyInstance adapterContext loaderData inst)
  | .dispatch adapterContext loaderData inst fnId =>
    s.jsDispatch thread adapterContext loaderData inst fnId

/-- A `dispatchPeer` takes the answer of the call it made. It stamps the contract id on the
instance. -/
def deliver (answer : Answer) : List Frame → List Frame
  | .peer data fnId stage :: rest =>
    match stage, answer with
    | .resolved, .inst inst =>
      .peer data fnId (.created { inst with contractId := data.contractId }) :: rest
    | .created inst, .status code => .peer data fnId (.dispatched inst code) :: rest
    -- A `dispatchPeer` that waits for nothing keeps its stage.
    | stage, _                    => .peer data fnId stage :: rest
  | stack => stack

/-- The thread calls an interface. An answer at once goes to the caller. -/
def callFrom (s : JsSystem) (thread : ThreadId) (call : Call) : JsSystem :=
  match s.enterCall thread call with
  | (none, s)        => s
  | (some answer, s) => s.setStack thread (deliver answer (s.stack thread))

/-! ### The rest of a call -/

/-- `Context::with` is entered. It waits while another thread is inside. -/
def enterContext (s : JsSystem) (thread : ThreadId) (ctx : ContextId) (stack : List Frame) :
    JsSystem :=
  if ∀ other ∈ s.entered ctx, other = thread then
    { s with
      entered := Function.update s.entered ctx (thread :: s.entered ctx)
    }.setStack thread stack
  else s

/-- `Context::with` returns. -/
def leaveContext (s : JsSystem) (thread : ThreadId) (ctx : ContextId) (stack : List Frame) :
    JsSystem :=
  { s with
    entered := Function.update s.entered ctx ((s.entered ctx).erase thread)
  }.setStack thread stack

/-- The end of `js_create_instance`: the new implementation is kept under the next id. -/
def finishCreate (s : JsSystem) (thread : ThreadId) (data : JsLoaderData) (outcome : Outcome)
    (rest : List Frame) : JsSystem :=
  match outcome with
  | .returned _ =>
    let id := s.nextId data
    { s with
      nextId := Function.update s.nextId data (id + 1)
      instances := Function.update s.instances data (id :: s.instances data)
    }.setStack thread (deliver (.inst ⟨id, data.contractId⟩) rest)
  -- A factory that throws leaves no instance.
  | .threw => s.setStack thread (deliver (.inst .null) rest)

/-- The end of `js_dispatch`: the guard takes the thread off the list. -/
def finishDispatch (s : JsSystem) (thread : ThreadId) (data : JsLoaderData) (code : AbiErrorCode)
    (rest : List Frame) : JsSystem :=
  { s with
    inDispatchThreads := Function.update s.inDispatchThreads data.ctx
      ((s.inDispatchThreads data.ctx).erase thread)
  }.setStack thread (deliver (.status code) rest)

/-- The code of a dispatch whose JavaScript function ended. -/
def Outcome.code : Outcome → AbiErrorCode
  | .returned 0    => .ok
  | .returned code => .guest code
  | .threw         => .generic

/-- The next critical section of the innermost call. -/
def advance (s : JsSystem) (thread : ThreadId) : JsSystem :=
  match s.stack thread with
  | .create data .entering :: rest =>
    s.enterContext thread data.ctx (.create data .inside :: rest)
  | .create data (.left outcome) :: rest => s.finishCreate thread data outcome rest
  | .dispatch data inst fnId .registered :: rest =>
    if data.functions ≤ fnId then s.finishDispatch thread data .functionNotAvailable rest
    -- The null instance is served by the default implementation.
    else if inst.data = 0 ∨ inst.data ∈ s.instances data then
      s.setStack thread (.dispatch data inst fnId .entering :: rest)
    else s.finishDispatch thread data .functionNotAvailable rest
  | .dispatch data inst fnId .entering :: rest =>
    s.enterContext thread data.ctx (.dispatch data inst fnId .inside :: rest)
  | .dispatch data _ _ (.left outcome) :: rest =>
    s.finishDispatch thread data (Outcome.code outcome) rest
  | .peer data _ .resolved :: _ =>
    s.callFrom thread (.create (some data) (some data) false)
  | .peer data fnId (.created inst) :: _ =>
    s.callFrom thread (.dispatch (some data) (some data) inst fnId)
  | .peer data _ (.dispatched inst _) :: rest =>
    -- A peer instance lives for one call.
    (s.jsDestroyInstance (some data) (some data) inst).setStack thread rest
  | _ => s

/-- JavaScript runs in the innermost call. -/
def runsJs (s : JsSystem) (thread : ThreadId) : Bool :=
  match s.stack thread with
  | .create _ .inside :: _       => true
  | .dispatch _ _ _ .inside :: _ => true
  | _                            => false

/-- Native code runs: that of a native function, or of the thread itself. -/
def runsNative (s : JsSystem) (thread : ThreadId) : Bool :=
  match s.stack thread with
  | []           => true
  | .native :: _ => true
  | _            => false

/-- One step. A step that is not due does nothing. -/
def exec (s : JsSystem) : Step → JsSystem
  | .call thread call => if s.runsNative thread then s.callFrom thread call else s
  | .dispatchPeer thread peer fnId =>
    if s.runsJs thread then
      match peer with
      | none      => s
      | some data => s.setStack thread (.peer data fnId .resolved :: s.stack thread)
    else s
  | .callNative thread =>
    if s.runsJs thread then s.setStack thread (.native :: s.stack thread) else s
  | .leave thread outcome =>
    match s.stack thread with
    | .create data .inside :: rest =>
      s.leaveContext thread data.ctx (.create data (.left outcome) :: rest)
    | .dispatch data inst fnId .inside :: rest =>
      s.leaveContext thread data.ctx (.dispatch data inst fnId (.left outcome) :: rest)
    | _ => s
  | .ret thread =>
    match s.stack thread with
    | .native :: rest => s.setStack thread rest
    | _               => s
  | .advance thread => s.advance thread

/-! ### Re-entrancy -/

/-- The call of an interface a step makes. -/
def callOf (s : JsSystem) : Step → Option (ThreadId × Call)
  | .call thread call => if s.runsNative thread then some (thread, call) else none
  | .advance thread   =>
    match s.stack thread with
    | .peer data _ .resolved :: _          =>
      some (thread, .create (some data) (some data) false)
    | .peer data fnId (.created inst) :: _ =>
      some (thread, .dispatch (some data) (some data) inst fnId)
    | _                                    => none
  | _ => none

/-- The contract whose `Context` a call is to enter: that of a creation or a dispatch whose
pointers are those of the interface. -/
def target : Call → Option JsLoaderData
  | .create adapterContext (some data) false =>
    if adapterContext = some data then some data else none
  | .dispatch adapterContext (some data) _ _ =>
    if adapterContext = some data then some data else none
  | _ => none

/-- How a nested call is refused. -/
def refusal : Call → Answer
  | .create _ _ _     => .inst .null
  | .destroy _ _ _    => .nothing
  | .dispatch _ _ _ _ => .status .reentrantCall

/-- The `Context` whose JavaScript runs in a call. -/
def insideOf : Frame → Option ContextId
  | .create data .inside       => some data.ctx
  | .dispatch data _ _ .inside => some data.ctx
  | _                          => none

/-- The thread is inside `Context::with`. -/
def Inside (s : JsSystem) (thread : ThreadId) (ctx : ContextId) : Prop :=
  ∃ frame ∈ s.stack thread, insideOf frame = some ctx

/-- No thread has entered a `Context` twice, and a thread that is in no call is on no list, so
that its next call is not refused. -/
structure Guarded (s : JsSystem) : Prop where
  once : ∀ thread, ((s.stack thread).filterMap insideOf).Nodup
  unlisted : ∀ thread ctx, s.stack thread = [] → thread ∉ s.inDispatchThreads ctx
  accepted : ∀ thread call data, s.stack thread = [] → target call = some data →
    (s.enterCall thread call).1 = none

/-- A call into a `Context` the thread is inside is refused and changes nothing. -/
def Refused (s : JsSystem) (step : Step) : Prop :=
  ∀ thread call data, s.callOf step = some (thread, call) → target call = some data →
    s.Inside thread data.ctx → s.enterCall thread call = (some (refusal call), s)

/-- The step is no call into a bundle whose factory the thread is running. -/
def OutsideFactory (s : JsSystem) (step : Step) : Prop :=
  ∀ thread call data, s.callOf step = some (thread, call) → target call = some data →
    ∀ owner, Frame.create owner .inside ∈ s.stack thread → owner.ctx ≠ data.ctx

end JsSystem

end PolyPlug.Js
