import PolyPlug.Js.Loader

/-!
# `PolyPlug.Proofs.Js.Loader`: when a `Context` is entered again

`guarded_iff`: in a run of the loader every call into a `Context` its thread is inside is
refused, no `Context` is entered twice and no finished thread stays on a list, exactly when
no step calls into a bundle whose factory the thread is running.

The invariant is `Listed`: on the stack of a thread every call below the innermost one runs
JavaScript, no two calls are in one bundle, and the thread is on the list of a bundle exactly
while a dispatch into it is on the stack. A factory that calls its own bundle breaks the
second part, because `js_create_instance` is on no list.
-/

set_option autoImplicit false

namespace PolyPlug.Js.JsSystem

open PolyPlug.Lib
open PolyPlug.Registry

/-! ### The calls of a thread -/

/-- The `Context` of a call. -/
def callCtx : Frame → Option ContextId
  | .create data _       => some data.ctx
  | .dispatch data _ _ _ => some data.ctx
  | _                    => none

/-- The `Context` of a dispatch. -/
def dispatchCtx : Frame → Option ContextId
  | .dispatch data _ _ _ => some data.ctx
  | _                    => none

/-- The stack of a thread that is on the lists in `listed`. -/
structure StackOk (stack : List Frame) (listed : ContextId → Prop) : Prop where
  below : ∀ frame ∈ stack.tail, insideOf frame = callCtx frame
  calls : (stack.filterMap callCtx).Nodup
  listed : ∀ ctx, listed ctx ↔ ctx ∈ stack.filterMap dispatchCtx

/-- The invariant of the stacks and the lists. -/
structure Listed (stack : ThreadId → List Frame) (lists : ContextId → List ThreadId) : Prop where
  frames : ∀ thread, StackOk (stack thread) fun ctx => thread ∈ lists ctx
  nodup : ∀ ctx, (lists ctx).Nodup

theorem insideOf_cases (frame : Frame) :
    insideOf frame = none ∨ insideOf frame = callCtx frame := by
  cases frame with
  | create data phase => cases phase <;> simp [insideOf, callCtx]
  | dispatch data inst fnId phase => cases phase <;> simp [insideOf, callCtx]
  | peer data fnId stage => exact .inl rfl
  | native => exact .inl rfl

theorem dispatchCtx_cases (frame : Frame) :
    dispatchCtx frame = none ∨ dispatchCtx frame = callCtx frame := by
  cases frame with
  | create data phase => exact .inl rfl
  | dispatch data inst fnId phase => exact .inr rfl
  | peer data fnId stage => exact .inl rfl
  | native => exact .inl rfl

/-- A selection of the calls is among the calls. -/
theorem sublist_calls {f : Frame → Option ContextId}
    (hf : ∀ frame, f frame = none ∨ f frame = callCtx frame) (stack : List Frame) :
    (stack.filterMap f).Sublist (stack.filterMap callCtx) := by
  induction stack with
  | nil => exact .slnil
  | cons frame stack ih =>
    rw [List.filterMap_cons, List.filterMap_cons]
    cases hcall : callCtx frame with
    | none =>
      rw [(hf frame).elim id fun heq => heq.trans hcall]
      exact ih
    | some ctx =>
      rcases hf frame with hnone | hsame
      · rw [hnone]
        exact ih.cons _
      · rw [hsame, hcall]
        exact ih.cons_cons _

theorem deliver_tail (answer : Answer) (stack : List Frame) :
    (deliver answer stack).tail = stack.tail := by
  cases stack with
  | nil => rfl
  | cons frame rest =>
    cases frame with
    | peer data fnId stage => cases stage <;> cases answer <;> rfl
    | create data phase => rfl
    | dispatch data inst fnId phase => rfl
    | native => rfl

/-- The answer changes a `dispatchPeer` only, which is no call into a `Context`. -/
theorem deliver_filterMap (answer : Answer) (stack : List Frame) {f : Frame → Option ContextId}
    (hf : ∀ data fnId stage, f (.peer data fnId stage) = none) :
    (deliver answer stack).filterMap f = stack.filterMap f := by
  cases stack with
  | nil => rfl
  | cons frame rest =>
    cases frame with
    | peer data fnId stage =>
      cases stage <;> cases answer <;>
        simp only [deliver, List.filterMap_cons, hf]
    | create data phase => rfl
    | dispatch data inst fnId phase => rfl
    | native => rfl

namespace StackOk

variable {stack rest : List Frame} {frame frame' : Frame} {listed : ContextId → Prop}

theorem deliver (h : StackOk stack listed) (answer : Answer) :
    StackOk (deliver answer stack) listed where
  below := by
    rw [deliver_tail]
    exact h.below
  calls := by
    rw [deliver_filterMap answer stack fun _ _ _ => rfl]
    exact h.calls
  listed := by
    rw [deliver_filterMap answer stack fun _ _ _ => rfl]
    exact h.listed

/-- The innermost call goes on. -/
theorem replace (h : StackOk (frame :: rest) listed) (hcall : callCtx frame' = callCtx frame)
    (hdispatch : dispatchCtx frame' = dispatchCtx frame) :
    StackOk (frame' :: rest) listed where
  below := h.below
  calls := by
    have hcalls := h.calls
    rwa [List.filterMap_cons, ← hcall, ← List.filterMap_cons] at hcalls
  listed := by
    have hlisted := h.listed
    simp only [List.filterMap_cons] at hlisted ⊢
    rwa [hdispatch]

/-- What is no dispatch returns. -/
theorem pop (h : StackOk (frame :: rest) listed) (hdispatch : dispatchCtx frame = none) :
    StackOk rest listed where
  below other hother := h.below other (List.mem_of_mem_tail hother)
  calls := h.calls.sublist ((List.sublist_cons_self frame rest).filterMap _)
  listed := by
    have hlisted := h.listed
    simpa only [List.filterMap_cons, hdispatch] using hlisted

/-- A call is made from code that runs: JavaScript, or code of no `Context`. -/
theorem below_cons (h : StackOk stack listed)
    (htop : ∀ top, stack.head? = some top → insideOf top = callCtx top) :
    ∀ other ∈ stack, insideOf other = callCtx other := by
  intro other hother
  cases stack with
  | nil => cases hother
  | cons top rest =>
    rcases List.mem_cons.mp hother with rfl | hrest
    · exact htop _ rfl
    · exact h.below other hrest

/-- A call that enters no `Context` is made. -/
theorem push (h : StackOk stack listed)
    (htop : ∀ top, stack.head? = some top → insideOf top = callCtx top)
    (hcall : callCtx frame = none) : StackOk (frame :: stack) listed where
  below := h.below_cons htop
  calls := by
    rw [List.filterMap_cons, hcall]
    exact h.calls
  listed := by
    have hdispatch : dispatchCtx frame = none :=
      (dispatchCtx_cases frame).elim id fun heq => heq.trans hcall
    rw [List.filterMap_cons, hdispatch]
    exact h.listed

/-- A creation is begun in a bundle the thread is in no call of. -/
theorem create (h : StackOk stack listed)
    (htop : ∀ top, stack.head? = some top → insideOf top = callCtx top) {data : JsLoaderData}
    (hcalls : data.ctx ∉ stack.filterMap callCtx) :
    StackOk (.create data .entering :: stack) listed where
  below := h.below_cons htop
  calls := List.nodup_cons.mpr ⟨hcalls, h.calls⟩
  listed := h.listed

/-- The bundles a thread is in are those whose factory it runs and those it dispatches into. -/
theorem calls_cases (h : ∀ other ∈ stack, insideOf other = callCtx other) {ctx : ContextId}
    (hmem : ctx ∈ stack.filterMap callCtx) :
    (∃ owner, Frame.create owner .inside ∈ stack ∧ owner.ctx = ctx) ∨
      ctx ∈ stack.filterMap dispatchCtx := by
  obtain ⟨frame, hframe, hctx⟩ := List.mem_filterMap.mp hmem
  cases frame with
  | create owner phase =>
    have hinside := h _ hframe
    cases phase with
    | inside => exact .inl ⟨owner, hframe, Option.some.inj hctx⟩
    | registered => cases hinside
    | entering => cases hinside
    | left outcome => cases hinside
  | dispatch data inst fnId phase => exact .inr (List.mem_filterMap.mpr ⟨_, hframe, hctx⟩)
  | peer data fnId stage => cases hctx
  | native => cases hctx

end StackOk

namespace Listed

variable {stack : ThreadId → List Frame} {lists : ContextId → List ThreadId}

/-- The stack of one thread changes, and the lists stay. -/
theorem update (h : Listed stack lists) {thread : ThreadId} {new : List Frame}
    (hnew : StackOk new fun ctx => thread ∈ lists ctx) :
    Listed (Function.update stack thread new) lists where
  frames other := by
    by_cases heq : other = thread
    · rw [heq, Function.update_self]
      exact hnew
    · rw [Function.update_of_ne heq]
      exact h.frames other
  nodup := h.nodup

/-- A thread goes on a list for a dispatch. -/
theorem dispatch (h : Listed stack lists) {thread : ThreadId} {data : JsLoaderData}
    {inst : GuestContractInstance} {fnId : Nat}
    (htop : ∀ top, (stack thread).head? = some top → insideOf top = callCtx top)
    (hcalls : data.ctx ∉ (stack thread).filterMap callCtx) :
    Listed (Function.update stack thread (.dispatch data inst fnId .registered :: stack thread))
      (Function.update lists data.ctx (lists data.ctx ++ [thread])) where
  frames other := by
    by_cases heq : other = thread
    · subst heq
      rw [Function.update_self]
      refine ⟨(h.frames other).below_cons htop, ?_, fun ctx => ?_⟩
      · exact List.nodup_cons.mpr ⟨hcalls, (h.frames other).calls⟩
      · show _ ↔ ctx ∈ data.ctx :: (stack other).filterMap dispatchCtx
        rw [List.mem_cons, ← (h.frames other).listed ctx]
        by_cases hctx : ctx = data.ctx
        · subst hctx
          rw [Function.update_self]
          simp
        · rw [Function.update_of_ne hctx]
          simp [hctx]
    · rw [Function.update_of_ne heq]
      obtain ⟨hbelow, hnodup, hlisted⟩ := h.frames other
      refine ⟨hbelow, hnodup, fun ctx => ?_⟩
      rw [← hlisted ctx]
      by_cases hctx : ctx = data.ctx
      · subst hctx
        rw [Function.update_self]
        simp [heq]
      · rw [Function.update_of_ne hctx]
  nodup ctx := by
    by_cases hctx : ctx = data.ctx
    · subst hctx
      rw [Function.update_self]
      have hnot : thread ∉ lists data.ctx := fun hmem =>
        hcalls ((sublist_calls dispatchCtx_cases _).subset
          (((h.frames thread).listed data.ctx).mp hmem))
      exact List.Nodup.append (h.nodup _) (List.nodup_singleton _)
        (List.disjoint_singleton.mpr hnot)
    · rw [Function.update_of_ne hctx]
      exact h.nodup ctx

/-- A dispatch returns, and its thread leaves the list. -/
theorem finish (h : Listed stack lists) {thread : ThreadId} {data : JsLoaderData}
    {inst : GuestContractInstance} {fnId : Nat} {phase : Phase} {rest : List Frame}
    (hstack : stack thread = .dispatch data inst fnId phase :: rest) :
    Listed (Function.update stack thread rest)
      (Function.update lists data.ctx ((lists data.ctx).erase thread)) where
  frames other := by
    by_cases heq : other = thread
    · subst heq
      rw [Function.update_self]
      have hown := h.frames other
      rw [hstack] at hown
      have hnotin : data.ctx ∉ rest.filterMap callCtx := (List.nodup_cons.mp hown.calls).1
      refine ⟨fun frame hframe => hown.below frame (List.mem_of_mem_tail hframe),
        (List.nodup_cons.mp hown.calls).2, fun ctx => ?_⟩
      by_cases hctx : ctx = data.ctx
      · subst hctx
        rw [Function.update_self, (h.nodup _).mem_erase_iff]
        have hnot : data.ctx ∉ rest.filterMap dispatchCtx := fun hmem =>
          hnotin ((sublist_calls dispatchCtx_cases _).subset hmem)
        simp [hnot]
      · rw [Function.update_of_ne hctx, hown.listed ctx]
        show ctx ∈ data.ctx :: rest.filterMap dispatchCtx ↔ _
        simp [hctx]
    · rw [Function.update_of_ne heq]
      obtain ⟨hbelow, hnodup, hlisted⟩ := h.frames other
      refine ⟨hbelow, hnodup, fun ctx => ?_⟩
      rw [← hlisted ctx]
      by_cases hctx : ctx = data.ctx
      · subst hctx
        rw [Function.update_self, (h.nodup _).mem_erase_iff]
        simp [heq]
      · rw [Function.update_of_ne hctx]
  nodup ctx := by
    by_cases hctx : ctx = data.ctx
    · subst hctx
      rw [Function.update_self]
      exact (h.nodup _).erase _
    · rw [Function.update_of_ne hctx]
      exact h.nodup ctx

end Listed

/-! ### A call of an interface -/

/-- The state after a dispatch went on the list of its bundle. -/
def listedDispatch (s : JsSystem) (thread : ThreadId) (data : JsLoaderData)
    (inst : GuestContractInstance) (fnId : Nat) : JsSystem :=
  { s with
    inDispatchThreads := Function.update s.inDispatchThreads data.ctx
      (s.inDispatchThreads data.ctx ++ [thread])
  }.setStack thread (.dispatch data inst fnId .registered :: s.stack thread)

/-- A call is answered at once, or it is a creation or a dispatch by a thread that is not on the
list of the bundle. -/
theorem enterCall_cases (s : JsSystem) (thread : ThreadId) (call : Call) :
    (∃ answer s', s.enterCall thread call = (some answer, s') ∧ s'.stack = s.stack ∧
      s'.inDispatchThreads = s.inDispatchThreads) ∨
    ∃ data, target call = some data ∧ thread ∉ s.inDispatchThreads data.ctx ∧
      (s.enterCall thread call =
          (none, s.setStack thread (.create data .entering :: s.stack thread)) ∨
        ∃ inst fnId, s.enterCall thread call = (none, s.listedDispatch thread data inst fnId)) := by
  cases call with
  | create adapterContext loaderData outIsNull =>
    unfold enterCall jsCreateInstance
    dsimp only
    split
    · exact .inl ⟨_, _, rfl, rfl, rfl⟩
    · next hout =>
      split
      · exact .inl ⟨_, _, rfl, rfl, rfl⟩
      · next data =>
        split
        · exact .inl ⟨_, _, rfl, rfl, rfl⟩
        · next hadapter =>
          split
          · exact .inl ⟨_, _, rfl, rfl, rfl⟩
          · next hlist =>
            refine .inr ⟨data, ?_, hlist, .inl rfl⟩
            rw [Bool.eq_false_iff.mpr hout]
            exact if_pos (not_ne_iff.mp hadapter)
  | destroy adapterContext loaderData inst =>
    refine .inl ⟨_, _, rfl, ?_, ?_⟩
    · unfold jsDestroyInstance
      split
      · rfl
      · split
        · rfl
        · split <;> rfl
    · unfold jsDestroyInstance
      split
      · rfl
      · split
        · rfl
        · split <;> rfl
  | dispatch adapterContext loaderData inst fnId =>
    unfold enterCall jsDispatch
    dsimp only
    split
    · exact .inl ⟨_, _, rfl, rfl, rfl⟩
    · next data =>
      split
      · exact .inl ⟨_, _, rfl, rfl, rfl⟩
      · next hadapter =>
        split
        · exact .inl ⟨_, _, rfl, rfl, rfl⟩
        · next hlist =>
          exact .inr ⟨data, if_pos (not_ne_iff.mp hadapter), hlist, .inr ⟨inst, fnId, rfl⟩⟩

/-- A thread on the list of a bundle is refused. -/
theorem refused_of_listed {s : JsSystem} {thread : ThreadId} {call : Call} {data : JsLoaderData}
    (htarget : target call = some data) (hlist : thread ∈ s.inDispatchThreads data.ctx) :
    s.enterCall thread call = (some (refusal call), s) := by
  cases call with
  | create adapterContext loaderData outIsNull =>
    cases loaderData with
    | none => cases htarget
    | some data' =>
      cases outIsNull with
      | true => cases htarget
      | false =>
        rw [target] at htarget
        split at htarget
        · next hadapter =>
          obtain rfl := Option.some.inj htarget
          rw [enterCall, jsCreateInstance, if_neg Bool.false_ne_true]
          exact (if_neg (not_ne_iff.mpr hadapter)).trans (if_pos hlist)
        · cases htarget
  | destroy adapterContext loaderData inst => cases htarget
  | dispatch adapterContext loaderData inst fnId =>
    cases loaderData with
    | none => cases htarget
    | some data' =>
      rw [target] at htarget
      split at htarget
      · next hadapter =>
        obtain rfl := Option.some.inj htarget
        exact (if_neg (not_ne_iff.mpr hadapter)).trans (if_pos hlist)
      · cases htarget

/-- A thread that is not on the list is not refused. -/
theorem enterCall_eq_none {s : JsSystem} {thread : ThreadId} {call : Call} {data : JsLoaderData}
    (htarget : target call = some data) (hlist : thread ∉ s.inDispatchThreads data.ctx) :
    (s.enterCall thread call).1 = none := by
  cases call with
  | create adapterContext loaderData outIsNull =>
    cases loaderData with
    | none => cases htarget
    | some data' =>
      cases outIsNull with
      | true => cases htarget
      | false =>
        rw [target] at htarget
        split at htarget
        · next hadapter =>
          obtain rfl := Option.some.inj htarget
          rw [enterCall, jsCreateInstance, if_neg Bool.false_ne_true]
          show (if adapterContext ≠ some data' then _ else _ : Option Answer × JsSystem).1 = none
          rw [if_neg (not_ne_iff.mpr hadapter), if_neg hlist]
        · cases htarget
  | destroy adapterContext loaderData inst => cases htarget
  | dispatch adapterContext loaderData inst fnId =>
    cases loaderData with
    | none => cases htarget
    | some data' =>
      rw [target] at htarget
      split at htarget
      · next hadapter =>
        obtain rfl := Option.some.inj htarget
        show (if adapterContext ≠ some data' then _ else _ : Option Answer × JsSystem).1 = none
        rw [if_neg (not_ne_iff.mpr hadapter), if_neg hlist]
      · cases htarget

/-- The stacks and the lists of a state are in order. -/
def Inv (s : JsSystem) : Prop := Listed s.stack s.inDispatchThreads

/-- A call made outside the factories of its bundle keeps the order. -/
theorem inv_callFrom {s : JsSystem} (h : s.Inv) {thread : ThreadId} {call : Call}
    (htop : ∀ top, (s.stack thread).head? = some top → insideOf top = callCtx top)
    (houtside : ∀ data, target call = some data →
      ∀ owner, Frame.create owner .inside ∈ s.stack thread → owner.ctx ≠ data.ctx) :
    (s.callFrom thread call).Inv := by
  rw [callFrom]
  rcases s.enterCall_cases thread call with ⟨answer, s', hcall, hstack, hlists⟩ |
    ⟨data, htarget, hlist, hcall⟩
  · rw [hcall]
    show Listed (Function.update s'.stack thread _) s'.inDispatchThreads
    rw [hstack, hlists]
    exact h.update ((h.frames thread).deliver answer)
  · -- the bundle is not among those the thread is in
    have hcalls : data.ctx ∉ (s.stack thread).filterMap callCtx := by
      intro hmem
      rcases StackOk.calls_cases ((h.frames thread).below_cons htop) hmem with
        ⟨owner, howner, hctx⟩ | hdispatch
      · exact houtside data htarget owner howner hctx
      · exact hlist (((h.frames thread).listed data.ctx).mpr hdispatch)
    rcases hcall with hcall | ⟨inst, fnId, hcall⟩
    · rw [hcall]
      exact h.update ((h.frames thread).create htop hcalls)
    · rw [hcall]
      exact h.dispatch htop hcalls

/-! ### The steps -/

theorem inv_new : new.Inv where
  frames _ := ⟨nofun, List.nodup_nil, fun _ => ⟨nofun, nofun⟩⟩
  nodup _ := List.nodup_nil

theorem top_of_runsJs {s : JsSystem} {thread : ThreadId} (h : s.runsJs thread = true) :
    ∀ top, (s.stack thread).head? = some top → insideOf top = callCtx top := by
  intro top htop
  rw [runsJs] at h
  split at h
  · next heq =>
    rw [heq] at htop
    obtain rfl := Option.some.inj htop
    rfl
  · next heq =>
    rw [heq] at htop
    obtain rfl := Option.some.inj htop
    rfl
  · cases h

theorem top_of_runsNative {s : JsSystem} {thread : ThreadId} (h : s.runsNative thread = true) :
    ∀ top, (s.stack thread).head? = some top → insideOf top = callCtx top := by
  intro top htop
  rw [runsNative] at h
  split at h
  · next heq =>
    rw [heq] at htop
    cases htop
  · next heq =>
    rw [heq] at htop
    obtain rfl := Option.some.inj htop
    rfl
  · cases h

theorem inv_enterContext {s : JsSystem} (h : s.Inv) {thread : ThreadId} {ctx : ContextId}
    {stack : List Frame} (hstack : StackOk stack fun ctx => thread ∈ s.inDispatchThreads ctx) :
    (s.enterContext thread ctx stack).Inv := by
  rw [enterContext]
  split
  · exact h.update hstack
  · exact h

theorem inv_finishCreate {s : JsSystem} (h : s.Inv) {thread : ThreadId} {data : JsLoaderData}
    {outcome : Outcome} {rest : List Frame}
    (hrest : StackOk rest fun ctx => thread ∈ s.inDispatchThreads ctx) :
    (s.finishCreate thread data outcome rest).Inv := by
  cases outcome with
  | returned code => exact h.update (hrest.deliver _)
  | threw => exact h.update (hrest.deliver _)

theorem inv_finishDispatch {s : JsSystem} (h : s.Inv) {thread : ThreadId} {data : JsLoaderData}
    {inst : GuestContractInstance} {fnId : Nat} {phase : Phase} {rest : List Frame}
    (hstack : s.stack thread = .dispatch data inst fnId phase :: rest) (code : AbiErrorCode) :
    (s.finishDispatch thread data code rest).Inv := by
  have hfinished := h.finish hstack
  have hdelivered := @Listed.update _ _ hfinished thread _
    ((Function.update_self thread rest s.stack ▸ hfinished.frames thread).deliver (.status code))
  rwa [Function.update_idem] at hdelivered

theorem stack_jsDestroyInstance (s : JsSystem) (adapterContext loaderData : Option JsLoaderData)
    (inst : GuestContractInstance) :
    (s.jsDestroyInstance adapterContext loaderData inst).stack = s.stack ∧
      (s.jsDestroyInstance adapterContext loaderData inst).inDispatchThreads =
        s.inDispatchThreads := by
  unfold jsDestroyInstance
  split
  · exact ⟨rfl, rfl⟩
  · split
    · exact ⟨rfl, rfl⟩
    · split <;> exact ⟨rfl, rfl⟩

/-- A step outside the factories of the bundle it calls keeps the order. -/
theorem inv_exec {s : JsSystem} (h : s.Inv) {step : Step} (houtside : s.OutsideFactory step) :
    (s.exec step).Inv := by
  cases step with
  | call thread call =>
    rw [exec]
    split
    · next hnative =>
      exact inv_callFrom h (top_of_runsNative hnative) fun data htarget =>
        houtside thread call data (if_pos hnative) htarget
    · exact h
  | dispatchPeer thread peer fnId =>
    cases peer with
    | none =>
      show (if s.runsJs thread then s else s).Inv
      rwa [ite_self]
    | some data =>
      show (if s.runsJs thread then
        s.setStack thread (.peer data fnId .resolved :: s.stack thread) else s).Inv
      split
      · next hjs => exact h.update ((h.frames thread).push (top_of_runsJs hjs) rfl)
      · exact h
  | callNative thread =>
    rw [exec]
    split
    · next hjs => exact h.update ((h.frames thread).push (top_of_runsJs hjs) rfl)
    · exact h
  -- The call stays on the stack until its next critical section.
  | leave thread outcome =>
    rw [exec]
    have hown := h.frames thread
    split
    · next heq =>
      rw [heq] at hown
      exact h.update (hown.replace rfl rfl)
    · next heq =>
      rw [heq] at hown
      exact h.update (hown.replace rfl rfl)
    · exact h
  | ret thread =>
    rw [exec]
    have hown := h.frames thread
    split
    · next heq =>
      rw [heq] at hown
      exact h.update (hown.pop rfl)
    · exact h
  -- Each stage of the innermost call has its own lemma.
  | advance thread =>
    rw [exec, advance]
    have hown := h.frames thread
    split
    · next heq =>
      rw [heq] at hown
      exact inv_enterContext h (hown.replace rfl rfl)
    · next heq =>
      rw [heq] at hown
      exact inv_finishCreate h (hown.pop rfl)
    · next heq =>
      rw [heq] at hown
      split
      · exact inv_finishDispatch h heq _
      · split
        · exact h.update (hown.replace rfl rfl)
        · exact inv_finishDispatch h heq _
    · next heq =>
      rw [heq] at hown
      exact inv_enterContext h (hown.replace rfl rfl)
    · next heq => exact inv_finishDispatch h heq _
    · next data _ _ heq =>
      have htop : ∀ top, (s.stack thread).head? = some top → insideOf top = callCtx top := by
        rw [heq]
        rintro top ⟨⟩
        rfl
      refine inv_callFrom h htop fun data' htarget => houtside thread _ data' ?_ htarget
      rw [callOf, heq]
    · next data fnId inst _ heq =>
      have htop : ∀ top, (s.stack thread).head? = some top → insideOf top = callCtx top := by
        rw [heq]
        rintro top ⟨⟩
        rfl
      refine inv_callFrom h htop fun data' htarget => houtside thread _ data' ?_ htarget
      rw [callOf, heq]
    · next heq =>
      rw [heq] at hown
      obtain ⟨hstack, hlists⟩ := s.stack_jsDestroyInstance (some _) (some _) _
      show Listed (Function.update (s.jsDestroyInstance _ _ _).stack thread _)
        (s.jsDestroyInstance _ _ _).inDispatchThreads
      rw [hstack, hlists]
      exact h.update (hown.pop rfl)
    · exact h

/-! ### The guard -/

/-- Where the stacks are in order no `Context` was entered twice. -/
theorem guarded_of_inv {s : JsSystem} (h : s.Inv) : s.Guarded where
  once thread := (h.frames thread).calls.sublist (sublist_calls insideOf_cases _)
  unlisted thread ctx hempty hlist := by
    have hmem := ((h.frames thread).listed ctx).mp hlist
    rw [hempty] at hmem
    cases hmem
  accepted thread call data hempty htarget := by
    refine enterCall_eq_none htarget fun hlist => ?_
    have hmem := ((h.frames thread).listed data.ctx).mp hlist
    rw [hempty] at hmem
    cases hmem

/-- A thread inside a `Context` runs a factory of the bundle or is on its list. -/
theorem refused_of_outsideFactory {s : JsSystem} (h : s.Inv) {step : Step}
    (houtside : s.OutsideFactory step) : s.Refused step := by
  intro thread call data hcall htarget ⟨frame, hframe, hinside⟩
  refine refused_of_listed htarget (((h.frames thread).listed data.ctx).mpr ?_)
  cases frame with
  | create owner phase =>
    cases phase with
    | inside =>
      exact absurd (Option.some.inj hinside) (houtside thread call data hcall htarget owner hframe)
    | registered => cases hinside
    | entering => cases hinside
    | left outcome => cases hinside
  | dispatch other inst fnId phase =>
    cases phase with
    | inside => exact List.mem_filterMap.mpr ⟨_, hframe, hinside⟩
    | registered => cases hinside
    | entering => cases hinside
    | left outcome => cases hinside
  | peer other fnId stage => cases hinside
  | native => cases hinside

/-- Different entries are selected to different values. -/
theorem eq_of_nodup_filterMap {α β : Type*} {f : α → Option β} {l : List α}
    (h : (l.filterMap f).Nodup) {a b : α} (ha : a ∈ l) (hb : b ∈ l) {c : β} (hfa : f a = some c)
    (hfb : f b = some c) : a = b := by
  induction l with
  | nil => cases ha
  | cons x l ih =>
    have hlater : ∀ y ∈ l, f y = some c → f x ≠ some c := by
      intro y hy hfy hfx
      rw [List.filterMap_cons, hfx] at h
      exact (List.nodup_cons.mp h).1 (List.mem_filterMap.mpr ⟨y, hy, hfy⟩)
    have hrest : (l.filterMap f).Nodup := h.sublist ((List.sublist_cons_self x l).filterMap f)
    rcases List.mem_cons.mp ha with rfl | hal
    · rcases List.mem_cons.mp hb with rfl | hbl
      · rfl
      · exact absurd hfa (hlater b hbl hfb)
    · rcases List.mem_cons.mp hb with rfl | hbl
      · exact absurd hfb (hlater a hal hfa)
      · exact ih hrest hal hbl

/-- A thread that runs a factory is on no list of the bundle, so a call is not refused. -/
theorem outsideFactory_of_refused {s : JsSystem} (h : s.Inv) {step : Step}
    (hrefused : s.Refused step) : s.OutsideFactory step := by
  intro thread call data hcall htarget owner howner hctx
  have hinside : s.Inside thread data.ctx := ⟨_, howner, congrArg some hctx⟩
  have hanswer := hrefused thread call data hcall htarget hinside
  have hlist : thread ∉ s.inDispatchThreads data.ctx := by
    intro hlist
    obtain ⟨frame, hframe, hdispatch⟩ :=
      List.mem_filterMap.mp (((h.frames thread).listed data.ctx).mp hlist)
    have hcall : callCtx frame = some data.ctx := by
      rcases dispatchCtx_cases frame with hnone | heq
      · rw [hnone] at hdispatch
        cases hdispatch
      · exact heq.symm.trans hdispatch
    -- the factory and the dispatch would be two calls in one bundle
    obtain rfl := eq_of_nodup_filterMap (h.frames thread).calls howner hframe
      (congrArg some hctx) hcall
    cases hdispatch
  have hnone := enterCall_eq_none htarget hlist
  rw [hanswer] at hnone
  cases hnone

/-- In a run of the loader, every call into a `Context` its thread is inside is refused and every
state is guarded, exactly when no step calls into a bundle whose factory the thread is
running. -/
theorem guarded_iff (steps : List Step) :
    (Steps exec Refused new steps ∧ ∀ k, (stateAt exec new steps k).Guarded) ↔
      Steps exec OutsideFactory new steps := by
  constructor
  · rintro ⟨hrefused, -⟩
    exact hrefused.mono inv_new
      (fun s step hs hstep => inv_exec hs (outsideFactory_of_refused hs hstep))
      fun s step hs hstep => outsideFactory_of_refused hs hstep
  · intro houtside
    refine ⟨houtside.mono inv_new (fun s step hs hstep => inv_exec hs hstep)
      fun s step hs hstep => refused_of_outsideFactory hs hstep, fun k => ?_⟩
    exact guarded_of_inv (houtside.invariant_at inv_new
      (fun s step hs hstep => inv_exec hs hstep) k)

/-- A factory that calls its own bundle enters its `Context` twice. -/
theorem factory_reenters :
    ¬ ∀ steps : List Step, Steps exec Refused new steps ∧
      ∀ k, (stateAt exec new steps k).Guarded := by
  intro hall
  let data : JsLoaderData := ⟨1, 1, 7, 1⟩
  -- the factory of the contract calls `dispatchPeer` on the contract itself
  have honce := ((hall [.call 1 (.create (some data) (some data) false), .advance 1,
    .dispatchPeer 1 (some data) 0, .advance 1, .advance 1]).2 5).once 1
  revert honce
  decide

end PolyPlug.Js.JsSystem
