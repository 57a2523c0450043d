import Mathlib.Data.Finset.Sort
import PolyPlug.Lib.Visit
import PolyPlug.Lifecycle.Unload

/-!
# `PolyPlug.Lifecycle.UnloadCascade`: unloading a bundle with its dependents

`unload_bundle_cascade` makes two depth-first passes over the bundles that depend on
the bundle, each with a visited set of its own. The first one (`affinityPass`) checks
that every bundle on the way is registered and that its resident belongs to the calling
thread. The second one (`unloadPass`) unloads the dependents of a bundle, then the
bundle.

The dependents come out of a hash map, in no fixed order. An `Iteration` is one way in
which the iterations can come out: a pass asks for the dependents of a bundle once.
`Teardown` keeps beside the runtime what a cascade did so far that others can see.
-/

set_option autoImplicit false

namespace PolyPlug.Lifecycle

open PolyPlug.Abi
open PolyPlug.Lib
open PolyPlug.Registry

/-! ### Orders of iteration -/

/-- The order in which a pass gets the dependents of each bundle: the position at which
a bundle comes. -/
structure Iteration where
  position : BundleId → BundleId → Nat
  injective : ∀ b, Function.Injective (position b)

namespace Iteration

/-- The order for the dependents of `b`. -/
def le (order : Iteration) (b x y : BundleId) : Prop := order.position b x ≤ order.position b y

instance (order : Iteration) (b : BundleId) : DecidableRel (order.le b) :=
  fun x y => inferInstanceAs (Decidable (order.position b x ≤ order.position b y))

instance (order : Iteration) (b : BundleId) : IsTrans BundleId (order.le b) :=
  ⟨fun _ _ _ => Nat.le_trans⟩

instance (order : Iteration) (b : BundleId) : Std.Total (order.le b) :=
  ⟨fun _ _ => Nat.le_total _ _⟩

instance (order : Iteration) (b : BundleId) : Std.Antisymm (order.le b) :=
  ⟨fun _ _ h h' => order.injective b (Nat.le_antisymm h h')⟩

/-- The order of the ids. -/
def byId : Iteration where
  position _ b := b.id.toNat
  injective _ := by
    rintro ⟨x⟩ ⟨y⟩ h
    exact congrArg _ (UInt64.toNat_inj.mp h)

end Iteration

/-! ### What a cascade does -/

/-- What others can see of a cascade. -/
inductive UnloadEvent where
  /-- The `Unloading` callback of the host. -/
  | unloading (bundleId : BundleId) (bundleName : String)
  | invalidated (bundleId : BundleId)
deriving DecidableEq

/-- The runtime, and what the cascade did so far. -/
structure Teardown where
  runtime : Runtime
  events : List UnloadEvent

/-- The bundles invalidated so far, in order. -/
def Teardown.invalidated (t : Teardown) : List BundleId :=
  t.events.filterMap fun
    | .unloading _ _         => none
    | .invalidated bundleId => some bundleId

/-- `unload_registered_bundle`, with what others see of it. -/
def Teardown.unloadRegisteredBundle (hooks : Hooks) (thread : ThreadId) (t : Teardown)
    (bundleId : BundleId) (descriptor : BundleDescriptor) : Except RuntimeError Unit × Teardown :=
  match t.runtime.ensureRegisteredBundleResidentAffinity thread bundleId descriptor.name with
  | .error e => (.error e, t)
  | .ok ()   =>
    let loaderName := t.runtime.bundleLoaderName descriptor.name
    -- The callback is called before anything is refused for live instances.
    let fired := t.events ++ [.unloading bundleId descriptor.name]
    match t.runtime.invalidateRegistered bundleId descriptor with
    | (.error e, rt) => (.error e, ⟨rt, fired⟩)
    | (.ok (), rt)   =>
      (Runtime.reclaimViaLoader hooks bundleId loaderName, ⟨rt, fired ++ [.invalidated bundleId]⟩)

/-- The dependents of a bundle without the bundle itself, as a pass gets them. -/
def Runtime.dependents (rt : Runtime) (order : Iteration) (bundleId : BundleId) : List BundleId :=
  ((rt.registry.bundlesDependingOnAny (rt.registry.bundleExportedContracts bundleId)).erase
    bundleId).sort (order.le bundleId)

/-- `ensure_cascade_resident_affinity`. -/
def affinityPass (order : Iteration) (thread : ThreadId) :
    Visitor Runtime BundleId Unit RuntimeError where
  enter rt _ bundleId :=
    match rt.registry.getBundleDescriptor bundleId with
    | none            => .error (.bundleNotFound (hex bundleId.id) "")
    | some descriptor =>
      match rt.ensureRegisteredBundleResidentAffinity thread bundleId descriptor.name with
      | .error e => .error e
      | .ok ()   => .ok ((), rt.dependents order bundleId)
  -- The pass only looks, so there is nothing to do after the dependents.
  leave _ _ rt := (.ok (), rt)

/-- `unload_bundle_cascade_with_visited`. -/
def unloadPass (order : Iteration) (hooks : Hooks) (thread : ThreadId) :
    Visitor Teardown BundleId BundleDescriptor RuntimeError where
  enter t _ bundleId :=
    match t.runtime.registry.getBundleDescriptor bundleId with
    | none            => .error (.bundleNotFound (hex bundleId.id) "")
    | some descriptor => .ok (descriptor, t.runtime.dependents order bundleId)
  leave descriptor bundleId t := t.unloadRegisteredBundle hooks thread bundleId descriptor

/-- `unload_bundle_cascade`, with a bound on the depth of its recursions. `first` and
`second` are the orders of iteration in its passes. -/
def unloadBundleCascade (first second : Iteration) (hooks : Hooks) (thread : ThreadId)
    (fuel : Nat) (t : Teardown) (bundleId : BundleId) :
    Option (Except RuntimeError Unit × Teardown) :=
  match (affinityPass first thread).visit fuel t.runtime ∅ bundleId with
  | none                  => none
  -- A wrong thread anywhere below stops the cascade before its first unload.
  | some (.error e, _, _) => some (.error e, t)
  | some (.ok (), _, _)   =>
    ((unloadPass second hooks thread).visit fuel t ∅ bundleId).map fun (result, t, _) =>
      (result, t)

end PolyPlug.Lifecycle
