import PolyPlug.Lib.Custody
import PolyPlug.Lib.Map
import PolyPlug.Lifecycle.NativeLibraries

/-!
# `PolyPlug.Proofs.Lifecycle.LibraryCustody`: every library is closed once, or still in use

A library that the native loader opens is in the hand of a call, in the map under a bundle,
with the collector, or refused. `custody_run` says that it is in one of these places, and
there once, in every run of any threads. So no library is closed twice, a library in the map
is neither closed nor scheduled, and `scheduled_reclaims` counts what the collector was given.

When no call runs, a library that is not in the map has been given to the collector or was
refused.
-/

set_option autoImplicit false

namespace PolyPlug.Lifecycle

open PolyPlug.Abi
open PolyPlug.Lib
open PolyPlug.Registry

/-- Where a library can be. -/
inductive LibraryPlace where
  /-- In the hand of a call of a thread. -/
  | call (thread : ThreadId)
  | map (bundleId : BundleId)
  /-- Scheduled, or closed by the collector. -/
  | retired
  | refused
deriving DecidableEq

namespace LibraryHost

/-- The libraries in the hands of the calls of a thread. -/
def hands (calls : List NativeCall) : List Nat := calls.flatMap NativeCall.held

/-- How often a library is at a place. -/
def amount (s : LibraryHost) : LibraryPlace → Nat → Nat
  | .call thread, library => (hands (s.calls thread)).count library
  | .map b, library       => if s.libraries.lookup b = some library then 1 else 0
  | .retired, library     => s.epoch.retired.count library
  | .refused, library     => s.refused.count library

/-- Each library is in one place, and the counter is right. -/
structure Kept (s : LibraryHost) : Prop where
  custody : InCustody s.opened s.amount
  counted : s.scheduledReclaims = UInt64.ofNat s.epoch.retired.card

section
variable {s s' : LibraryHost} {thread : ThreadId} {call : NativeCall} {calls rest : List NativeCall}
  {library : Nat} {b : BundleId}

@[simp] theorem hands_cons : hands (call :: rest) = call.held ++ hands rest := rfl

theorem calls_setCalls (t : ThreadId) :
    (s.setCalls thread calls).calls t = if t = thread then calls else s.calls t :=
  Function.update_apply ..

/-- Every place holds what it held. -/
structure SameLibraries (s s' : LibraryHost) : Prop where
  hands : ∀ t, hands (s'.calls t) = hands (s.calls t)
  libraries : s'.libraries = s.libraries
  retired : s'.epoch.retired = s.epoch.retired
  refused : s'.refused = s.refused
  opened : s'.opened = s.opened
  scheduled : s'.scheduledReclaims = s.scheduledReclaims

theorem Kept.same (h : s.Kept) (hsame : SameLibraries s s') : s'.Kept where
  custody := by
    have hamount : s'.amount = s.amount := by
      funext p x
      cases p with
      | call t => simp only [amount, hsame.hands]
      | map b => simp only [amount, hsame.libraries]
      | retired => simp only [amount, hsame.retired]
      | refused => simp only [amount, hsame.refused]
    rw [hamount, hsame.opened]
    exact h.custody
  counted := by
    rw [hsame.scheduled, hsame.retired]
    exact h.counted

/-- The call of a thread gets on with the same libraries in its hand. -/
theorem sameLibraries_setCalls {mid : LibraryHost} (hmid : SameLibraries s mid)
    (hheld : hands calls = hands (s.calls thread)) :
    SameLibraries s (mid.setCalls thread calls) where
  hands t := by
    rw [calls_setCalls]
    by_cases ht : t = thread
    · rw [if_pos ht, hheld, ht]
    · rw [if_neg ht, hmid.hands]
  libraries := hmid.libraries
  retired := hmid.retired
  refused := hmid.refused
  opened := hmid.opened
  scheduled := hmid.scheduled

theorem SameLibraries.refl : SameLibraries s s := ⟨fun _ => rfl, rfl, rfl, rfl, rfl, rfl⟩

/-- A step that leaves the loader alone. -/
theorem sameLibraries_of_eq (hcalls : s'.calls = s.calls) (hlibraries : s'.libraries = s.libraries)
    (hretired : s'.epoch.retired = s.epoch.retired) (hrefused : s'.refused = s.refused)
    (hopened : s'.opened = s.opened) (hscheduled : s'.scheduledReclaims = s.scheduledReclaims) :
    SameLibraries s s' :=
  ⟨fun t => by rw [hcalls], hlibraries, hretired, hrefused, hopened, hscheduled⟩

/-! ### The steps that move a library -/

/-- What a library adds to a list. -/
theorem count_cons_token {p : LibraryPlace} {l : List Nat} {x : Nat} :
    (library :: l).count x = l.count x + token p library p x := by
  by_cases hx : x = library
  · subst hx
    rw [List.count_cons_self, token_self]
  · rw [List.count_cons_of_ne (Ne.symm hx), token_thing hx]
    rfl

/-- The hand of the thread takes a library. -/
theorem amount_take {mid : LibraryHost} (hmid : mid.calls = s.calls)
    (hheld : (hands calls).Perm (library :: hands (s.calls thread))) (t : ThreadId) (x : Nat) :
    (mid.setCalls thread calls).amount (.call t) x
      = s.amount (.call t) x + token (LibraryPlace.call thread) library
        (LibraryPlace.call t) x := by
  simp only [amount, calls_setCalls, hmid]
  by_cases ht : t = thread
  · subst ht
    rw [if_pos rfl, hheld.count_eq, count_cons_token]
  · rw [if_neg ht, token_place (by simpa using ht)]
    rfl

/-- The hand of the thread gives a library away. -/
theorem amount_give {mid : LibraryHost} (hmid : mid.calls = s.calls)
    (hheld : (hands (s.calls thread)).Perm (library :: hands calls)) (t : ThreadId) (x : Nat) :
    (mid.setCalls thread calls).amount (.call t) x + token (LibraryPlace.call thread) library
    (LibraryPlace.call t) x
      = s.amount (.call t) x := by
  simp only [amount, calls_setCalls, hmid]
  by_cases ht : t = thread
  · subst ht
    rw [if_pos rfl, hheld.count_eq, count_cons_token]
  · rw [if_neg ht, token_place (by simpa using ht)]
    rfl

/-- A library is opened. -/
theorem Kept.opens (h : s.Kept) (hheld : (hands calls).Perm (s.opened :: hands (s.calls thread))) :
    ({ s with opened := s.opened + 1 }.setCalls thread calls).Kept where
  custody := by
    refine h.custody.make (q := LibraryPlace.call thread) fun p x => ?_
    cases p with
    | call t => exact amount_take rfl hheld t x
    | map b =>
      rw [token_place (by simp)]
      rfl
    | retired =>
      rw [token_place (by simp)]
      rfl
    | refused =>
      rw [token_place (by simp)]
      rfl
  counted := h.counted

/-- A library is refused. -/
theorem Kept.refuses (h : s.Kept) (hheld : (hands (s.calls thread)).Perm (library :: hands calls)) :
    ({ s with refused := library :: s.refused }.setCalls thread calls).Kept where
  custody := by
    refine h.custody.move (x := library) (p := LibraryPlace.call thread) (q := LibraryPlace.refused)
      fun p x => ?_
    cases p with
    | call t =>
      rw [token_place (p := LibraryPlace.refused) (by simp)]
      exact amount_give rfl hheld t x
    | map b =>
      rw [token_place (by simp), token_place (by simp)]
      rfl
    | retired =>
      rw [token_place (by simp), token_place (by simp)]
      rfl
    | refused =>
      rw [token_place (by simp)]
      exact count_cons_token
  counted := h.counted

/-- A library is scheduled. -/
theorem Kept.schedules (h : s.Kept)
    (hheld : (hands (s.calls thread)).Perm (library :: hands calls)) :
    ((s.scheduleReclaim library).setCalls thread calls).Kept where
  custody := by
    refine h.custody.move (x := library) (p := LibraryPlace.call thread) (q := LibraryPlace.retired)
      fun p x => ?_
    cases p with
    | call t =>
      rw [token_place (p := LibraryPlace.retired) (by simp)]
      exact amount_give rfl hheld t x
    | map b =>
      rw [token_place (by simp), token_place (by simp)]
      rfl
    | retired =>
      rw [token_place (by simp)]
      show (s.epoch.defer library).retired.count x + 0 = s.epoch.retired.count x + _
      by_cases hx : x = library
      · subst hx
        rw [Epoch.retired_defer, Multiset.count_cons_self, token_self]
      · rw [Epoch.retired_defer, Multiset.count_cons_of_ne hx, token_thing hx]
    | refused =>
      rw [token_place (by simp), token_place (by simp)]
      rfl
  counted := by
    show s.scheduledReclaims + 1 = UInt64.ofNat (s.epoch.defer library).retired.card
    rw [h.counted, Epoch.retired_defer, Multiset.card_cons, UInt64.ofNat_add]
    rfl

/-- A library leaves the map for the hand of a thread. -/
theorem Kept.unhooks (h : s.Kept) (hlookup : s.libraries.lookup b = some library)
    (hheld : (hands calls).Perm (library :: hands (s.calls thread))) :
    ({ s with libraries := s.libraries.erase b }.setCalls thread calls).Kept where
  custody := by
    refine h.custody.move (x := library) (p := LibraryPlace.map b) (q := LibraryPlace.call thread)
      fun p x => ?_
    cases p with
    | call t =>
      rw [token_place (p := LibraryPlace.map b) (by simp)]
      exact amount_take rfl hheld t x
    | map b' =>
      rw [token_place (q := LibraryPlace.map b') (p := LibraryPlace.call thread) (by simp)]
      show (if (s.libraries.erase b).lookup b' = some x then 1 else 0) + _
        = (if s.libraries.lookup b' = some x then 1 else 0) + 0
      rw [lookup_erase_eq]
      by_cases hb : b' = b
      · subst hb
        by_cases hx : x = library
        · subst hx
          simp [hlookup]
        · simp [hlookup, token_thing hx, Ne.symm hx]
      · rw [if_neg hb, token_place (by simpa using hb)]
    | retired =>
      rw [token_place (by simp), token_place (by simp)]
      rfl
    | refused =>
      rw [token_place (by simp), token_place (by simp)]
      rfl
  counted := h.counted

/-- A library goes from the hand of a thread into the map, where the bundle has none. -/
theorem Kept.inserts (h : s.Kept) (hlookup : s.libraries.lookup b = none)
    (hheld : (hands (s.calls thread)).Perm (library :: hands calls)) :
    ({ s with libraries := s.libraries.insert b library }.setCalls thread calls).Kept where
  custody := by
    refine h.custody.move (x := library) (p := LibraryPlace.call thread) (q := LibraryPlace.map b)
      fun p x => ?_
    cases p with
    | call t =>
      rw [token_place (p := LibraryPlace.map b) (by simp)]
      exact amount_give rfl hheld t x
    | map b' =>
      rw [token_place (q := LibraryPlace.map b') (p := LibraryPlace.call thread) (by simp)]
      show (if (s.libraries.insert b library).lookup b' = some x then 1 else 0) + 0
        = (if s.libraries.lookup b' = some x then 1 else 0) + _
      rw [lookup_insert_eq]
      by_cases hb : b' = b
      · subst hb
        by_cases hx : x = library
        · subst hx
          simp [hlookup]
        · simp [hlookup, token_thing hx, Ne.symm hx]
      · rw [if_neg hb, token_place (by simpa using hb)]
    | retired =>
      rw [token_place (by simp), token_place (by simp)]
      rfl
    | refused =>
      rw [token_place (by simp), token_place (by simp)]
      rfl
  counted := h.counted

/-! ### Runs -/

/-- The call of the loader takes nothing. -/
theorem sameLibraries_callLoader {mid : LibraryHost} (hmid : SameLibraries s mid)
    (hheld : hands rest = hands (s.calls thread)) (job : LoaderJob) :
    SameLibraries s (mid.callLoader thread rest job) := by
  unfold callLoader
  by_cases hnative : job.isNative = true
  · rw [if_pos hnative]
    exact sameLibraries_setCalls hmid hheld
  · rw [if_neg hnative]
    exact sameLibraries_setCalls ⟨hmid.1, hmid.2, hmid.3, hmid.4, hmid.5, hmid.6⟩ hheld

/-- The end of a load or of a reload. -/
theorem sameLibraries_close (hheld : hands rest = hands (s.calls thread))
    (loaded : Except LoaderError Unit) (job : LoaderJob) :
    SameLibraries s (s.close thread rest loaded job) := by
  cases job with
  | load env manifest b opts =>
    cases hload : s.runtime.finishLoad env b opts loaded with
    | mk result rt =>
      cases result with
      | error e =>
        simp only [close, hload]
        refine sameLibraries_setCalls (sameLibraries_of_eq rfl rfl rfl rfl rfl rfl) ?_
        by_cases hnative : (LoaderJob.load env manifest b opts).isNative = true
        · rwa [if_pos hnative]
        · rwa [if_neg hnative]
      | ok u =>
        simp only [close, hload]
        exact sameLibraries_setCalls (sameLibraries_of_eq rfl rfl rfl rfl rfl rfl) hheld
  | reload replacement slotIndices =>
    cases hswap : s.runtime.swapReload replacement slotIndices loaded with
    | mk result rt =>
      cases result with
      | error e =>
        simp only [close, hswap]
        exact sameLibraries_setCalls (sameLibraries_of_eq rfl rfl rfl rfl rfl rfl) hheld
      | ok u =>
        simp only [close, hswap]
        exact sameLibraries_setCalls (sameLibraries_of_eq rfl rfl rfl rfl rfl rfl) hheld

/-- A section of an unload. -/
theorem sameLibraries_advanceUnload (hheld : hands rest = hands (s.calls thread)) (b : BundleId)
    (phase : UnloadPhase) (dep : BundleId) :
    SameLibraries s (s.advanceUnload thread rest b phase dep) := by
  have hwaits : ∀ rt phase', SameLibraries s
      ({ s with runtime := rt }.setCalls thread (.unloading b phase' :: rest)) := by
    intro rt phase'
    exact sameLibraries_setCalls (sameLibraries_of_eq rfl rfl rfl rfl rfl rfl) hheld
  cases phase with
  | returned result => exact sameLibraries_setCalls .refl hheld
  | reclaiming loaderName =>
    refine sameLibraries_setCalls .refl ?_
    by_cases hnative : loaderName = some "native"
    · rwa [if_pos hnative]
    · rwa [if_neg hnative]
  | idle => exact hwaits _ _
  | described => exact hwaits _ _
  | exported => exact hwaits _ _
  | naming => exact hwaits _ _
  | admitted => exact hwaits _ _
  | checked => exact hwaits _ _

/-- The next section of a call. -/
theorem kept_advanceCall (h : s.Kept) (hcalls : s.calls thread = call :: rest) (outcome : Outcome) :
    (s.advanceCall thread rest outcome call).Kept := by
  -- A call that has nothing in its hand before and after.
  have hempty : ∀ {mid : LibraryHost} {calls : List NativeCall}, SameLibraries s mid →
      hands calls = hands (call :: rest) → (mid.setCalls thread calls).Kept := by
    intro mid calls hmid hheld
    exact h.same (sameLibraries_setCalls hmid (by rw [hheld, hcalls]))
  have heq : ∀ {mid : LibraryHost}, mid.calls = s.calls → mid.libraries = s.libraries →
      mid.epoch.retired = s.epoch.retired → mid.refused = s.refused → mid.opened = s.opened →
      mid.scheduledReclaims = s.scheduledReclaims → SameLibraries s mid := sameLibraries_of_eq
  cases call with
  | snapshot job =>
    have hbegun : SameLibraries s { s with
        runtime := { s.runtime with registry := s.runtime.registry.beginReload job.bundleId } } :=
      heq rfl rfl rfl rfl rfl rfl
    exact h.same (sameLibraries_callLoader hbegun (by rw [hcalls]; rfl) job)
  | opening job =>
    cases hresult : outcome.result with
    | error e =>
      simp only [advanceCall, hresult]
      exact hempty .refl rfl
    | ok u =>
      simp only [advanceCall, hresult]
      refine h.opens ?_
      rw [hcalls]
      exact .refl _
  | checking job library =>
    cases hresult : outcome.result with
    | error e =>
      simp only [advanceCall, hresult]
      refine h.refuses ?_
      rw [hcalls]
      exact .refl _
    | ok u =>
      simp only [advanceCall, hresult]
      exact hempty (heq rfl rfl rfl rfl rfl rfl) rfl
  | initializing job library =>
    cases hresult : outcome.result with
    | error e =>
      simp only [advanceCall, hresult]
      exact hempty (heq rfl rfl rfl rfl rfl rfl) rfl
    | ok u =>
      simp only [advanceCall, hresult]
      exact hempty (heq rfl rfl rfl rfl rfl rfl) rfl
  | inserting job library =>
    cases hlookup : s.libraries.lookup job.bundleId with
    | none =>
      simp only [advanceCall, hlookup]
      refine h.inserts hlookup ?_
      rw [hcalls]
      exact .refl _
    | some superseded =>
      simp only [advanceCall, hlookup]
      -- The old library leaves the map first.
      have hboth : (hands (.scheduling job superseded (.ok ()) :: .inserting job library ::
          rest)).Perm (superseded :: hands (s.calls thread)) := by
        rw [hcalls]
        exact .refl _
      have hold := h.unhooks hlookup hboth
      have hnone : (s.libraries.erase job.bundleId).lookup job.bundleId = none := by
        rw [lookup_erase_eq, if_pos rfl]
      have hswapped : (hands (({ s with libraries := s.libraries.erase job.bundleId }.setCalls
          thread (.scheduling job superseded (.ok ()) :: .inserting job library :: rest)).calls
          thread)).Perm (library :: hands (.scheduling job superseded (.ok ()) :: rest)) := by
        rw [calls_setCalls, if_pos rfl]
        exact .swap _ _ _
      have hnew := hold.inserts hnone hswapped
      refine hnew.same ⟨fun t => ?_, ?_, rfl, rfl, rfl, rfl⟩
      · simp only [calls_setCalls]
        by_cases ht : t = thread
        · rw [if_pos ht, if_pos ht]
        · rw [if_neg ht, if_neg ht, if_neg ht]
      · refine Finmap.ext_lookup fun b => ?_
        show (s.libraries.insert _ _).lookup b = ((s.libraries.erase _).insert _ _).lookup b
        rw [lookup_insert_eq, lookup_insert_eq, lookup_erase_eq]
        by_cases hb : b = job.bundleId
        · rw [if_pos hb, if_pos hb]
        · rw [if_neg hb, if_neg hb, if_neg hb]
  | foreign job => exact hempty (heq rfl rfl rfl rfl rfl rfl) rfl
  | scheduling job library loaded =>
    refine h.schedules ?_
    rw [hcalls]
    exact .refl _
  | closing job loaded =>
    exact h.same (sameLibraries_close (by rw [hcalls]; rfl) loaded job)
  | resetting b => exact hempty (heq rfl rfl rfl rfl rfl rfl) rfl
  | unhooking b =>
    cases hlookup : s.libraries.lookup b with
    | none =>
      simp only [advanceCall, hlookup]
      refine hempty (heq rfl ?_ rfl rfl rfl rfl) rfl
      refine Finmap.ext_lookup fun b' => ?_
      show (s.libraries.erase b).lookup b' = s.libraries.lookup b'
      rw [lookup_erase_eq]
      by_cases hb : b' = b
      · rw [if_pos hb, hb, hlookup]
      · rw [if_neg hb]
    | some library =>
      simp only [advanceCall, hlookup]
      refine h.unhooks hlookup ?_
      rw [hcalls]
      exact .refl _
  | unhooked b library =>
    refine h.schedules ?_
    rw [hcalls]
    exact .refl _
  | unloading b phase =>
    exact h.same (sameLibraries_advanceUnload (by rw [hcalls]; rfl) b phase outcome.dep)
  | reserving guard interface =>
    cases hfound : s.runtime.beginGuestInstanceConstruction interface with
    | mk found rt =>
      cases found with
      | none =>
        simp only [advanceCall, hfound]
        exact hempty (heq rfl rfl rfl rfl rfl rfl) rfl
      | some b =>
        simp only [advanceCall, hfound]
        exact hempty (heq rfl rfl rfl rfl rfl rfl) rfl
  | constructing guard interface b code => exact hempty (heq rfl rfl rfl rfl rfl rfl) rfl
  | destroying guard interface b code =>
    by_cases hnull : outcome.isNull = true
    · simp only [advanceCall, hnull, if_true]
      exact hempty (heq rfl rfl rfl rfl rfl rfl) rfl
    · simp only [advanceCall, hnull]
      exact hempty .refl rfl
  | noting guard interface => exact hempty (heq rfl rfl rfl rfl rfl rfl) rfl

/-- A call that a thread begins. -/
theorem sameLibraries_begin (s : LibraryHost) (step : LibraryStep) :
    SameLibraries s (s.begin step) := by
  have henter : ∀ {mid : LibraryHost} {call : NativeCall} (thread : ThreadId),
      SameLibraries s mid → mid.calls = s.calls → call.held = [] →
      SameLibraries s (mid.enter thread call) := by
    intro mid call thread hmid hcalls hheld
    refine sameLibraries_setCalls hmid ?_
    rw [hands_cons, hheld, hcalls]
    rfl
  cases step with
  | load env manifest source opts =>
    cases hadmit : s.runtime.admitLoad env manifest source with
    | mk result rt =>
      cases result with
      | error e =>
        simp only [begin, hadmit]
        exact sameLibraries_of_eq rfl rfl rfl rfl rfl rfl
      | ok b =>
        simp only [begin, hadmit]
        have hadmitted : SameLibraries s { s with runtime := rt } :=
          sameLibraries_of_eq rfl rfl rfl rfl rfl rfl
        exact sameLibraries_callLoader hadmitted rfl _
  | reload env path =>
    cases hcheck : env.checkReload path with
    | error e =>
      simp only [begin, hcheck]
      exact .refl
    | ok replacement =>
      simp only [begin, hcheck]
      exact henter _ .refl rfl rfl
  | unload thread b => exact henter _ .refl rfl rfl
  | unloadRegistered thread b descriptor => exact henter _ .refl rfl rfl
  | register thread descriptor interface functions ptr =>
    exact sameLibraries_of_eq rfl rfl rfl rfl rfl rfl
  | createGuestInstance thread interface =>
    exact henter _ (sameLibraries_of_eq rfl rfl rfl rfl rfl rfl) rfl rfl
  | destroyGuestInstance thread interface =>
    cases hfound : s.runtime.registry.bundleIdForGuestInterface interface with
    | none =>
      simp only [begin, hfound]
      exact .refl
    | some b =>
      simp only [begin, hfound]
      exact henter _ (sameLibraries_of_eq rfl rfl rfl rfl rfl rfl) rfl rfl
  | advance thread outcome => exact .refl
  | collect k => exact .refl

theorem kept_exec (h : s.Kept) (step : LibraryStep) : (s.exec step).Kept := by
  have hbegin : ∀ {P : Prop} [Decidable P], (if P then s.begin step else s).Kept := by
    intro P _
    by_cases hP : P
    · rw [if_pos hP]
      exact h.same (sameLibraries_begin s step)
    · rwa [if_neg hP]
  cases step with
  | advance thread outcome =>
    cases hcalls : s.calls thread with
    | nil =>
      simp only [exec, hcalls]
      exact h
    | cons call rest =>
      simp only [exec, hcalls]
      exact kept_advanceCall h hcalls outcome
  | collect k => exact h.same (sameLibraries_of_eq rfl rfl (Epoch.retired_reclaim k) rfl rfl rfl)
  | _ => exact hbegin

theorem kept_new : LibraryHost.new.Kept where
  custody := by
    have hamount : LibraryHost.new.amount = fun _ _ => 0 := by
      funext p x
      cases p <;> rfl
    rw [hamount]
    exact .empty
  counted := rfl

theorem kept_run (steps : List LibraryStep) : (run exec new steps).Kept :=
  (steps_true new steps).invariant kept_new fun _ step h _ => kept_exec h step

/-- A library in the map is neither closed nor scheduled. -/
theorem Kept.not_retired (h : s.Kept) (hlookup : s.libraries.lookup b = some library) :
    library ∉ s.epoch.retired := by
  have hmap : 0 < s.amount (.map b) library := by simp [amount, hlookup]
  have hzero : s.epoch.retired.count library = 0 :=
    h.custody.elsewhere (q := LibraryPlace.retired) hmap (by simp)
  exact Multiset.count_eq_zero.1 hzero

/-- A library in the hand of a call is not refused. -/
theorem Kept.not_refused (h : s.Kept) {p : LibraryPlace} (hp : p ≠ .refused)
    (hat : 0 < s.amount p library) : library ∉ s.refused := by
  have hzero : s.refused.count library = 0 :=
    h.custody.elsewhere (q := LibraryPlace.refused) hat (Ne.symm hp)
  exact List.count_eq_zero.1 hzero

/-- Each library that the native loader opens is in one place, in every state of every run, and
the counter is the number of libraries handed to the collector. When no call runs, a library is
in the map, or handed to the collector, or refused. -/
theorem custody_run (steps : List LibraryStep) :
    let s := run exec new steps
    InCustody s.opened s.amount ∧ s.scheduledReclaims = UInt64.ofNat s.epoch.retired.card ∧
      ((∀ thread, s.calls thread = []) → ∀ library < s.opened,
        (∃ b, s.libraries.lookup b = some library) ∨ library ∈ s.epoch.retired ∨
          library ∈ s.refused) := by
  intro s
  have hkept : s.Kept := kept_run steps
  refine ⟨hkept.custody, hkept.counted, ?_⟩
  intro hidle library hlt
  obtain ⟨p, hone, -⟩ := hkept.custody.placed library hlt
  cases p with
  | call thread =>
    have hzero : (hands (s.calls thread)).count library = 1 := hone
    rw [hidle thread] at hzero
    cases hzero
  | map b =>
    have hmap : (if s.libraries.lookup b = some library then 1 else 0) = 1 := hone
    by_cases hb : s.libraries.lookup b = some library
    · exact .inl ⟨b, hb⟩
    · rw [if_neg hb] at hmap
      cases hmap
  | retired =>
    have hcount : s.epoch.retired.count library = 1 := hone
    exact .inr (.inl (Multiset.count_pos.1 (by omega)))
  | refused =>
    have hcount : s.refused.count library = 1 := hone
    exact .inr (.inr (List.count_pos_iff.1 (by omega)))

end

end LibraryHost

end PolyPlug.Lifecycle
