import PolyPlug.Js.HostInterface
import PolyPlug.Lib.CLayout

/-!
# `PolyPlug.Proofs.Js.HostInterface`: what the runtime reads of a JavaScript host's interface

The struct is written into a buffer of zeros, and every field but the version is read as it was
given (`built_fields`, `built_functions`). A `Version` is three words of 32 bits, and
`buildHostContractInterface` writes three of 16 bits next to each other: the minor version ends up
in the high half of the major, and the minor is read as zero (`built_version`). `writeVersion`, in
the same file of the source, writes words of 32 bits and is read as it was given.

`interface_decodes_iff`: the interface is read as its specification if and only if the minor version
is zero and the major fits in 16 bits.
-/

set_option autoImplicit false

namespace PolyPlug.Js

open PolyPlug.Abi PolyPlug.Host PolyPlug.Lib

variable {μ : Type}

/-! ### The layout -/

/-- The fields of `HostContractInterface`. The union has two arms of two words. -/
def hostContractInterfaceFields : List Layout :=
  [natural 3, structLayout [natural 2, natural 2, natural 2], natural 0, natural 2, natural 3,
    natural 3, natural 3, natural 3, structLayout [natural 2, natural 3]]

open HostContractInterface in
/-- The constants are the offsets of the struct in C. -/
theorem offsets_place :
    place 0 hostContractInterfaceFields =
      [contractIdOffset, contractVersionOffset, singletonOffset, dispatchTypeOffset, runtimeOffset,
        userDataOffset, createInstanceOffset, destroyInstanceOffset, dispatchOffset] ∧
      (structLayout hostContractInterfaceFields).size = HostContractInterface.size := by
  decide

/-! ### The fields -/

/-- A number does not change what is read elsewhere. -/
theorem read_number_apart {m : Memory} {a b n k x : Nat} (h : a + n ≤ b ∨ b + k ≤ a) :
    (m.write b (littleEndian k x)).read a n = m.read a n :=
  Memory.read_write_apart (by rw [length_littleEndian]; exact h)

section
variable (m : Memory) (a : Nat) (spec : HostContractSpec μ) (c d : UInt64) (count : Nat)
  (functions : UInt64)

/-- The id that the halves make. -/
def HostContractSpec.contractId (spec : HostContractSpec μ) : Nat :=
  JsValue.toUint32 (some spec.contractIdLo) + 2 ^ 32 * JsValue.toUint32 (some spec.contractIdHi)

theorem toUint32_lt (x : Option Int) : JsValue.toUint32 x < 2 ^ 32 := by
  rw [JsValue.toUint32]
  omega

theorem contractId_or :
    JsValue.toUint32 (some spec.contractIdLo) |||
      JsValue.toUint32 (some spec.contractIdHi) <<< 32 = spec.contractId := by
  rw [Nat.or_comm, ← Nat.shiftLeft_add_eq_or_of_lt (toUint32_lt _), Nat.shiftLeft_eq, Nat.add_comm,
    Nat.mul_comm]
  rfl

theorem contractId_lt : spec.contractId < 2 ^ 64 := by
  have hlo := toUint32_lt (some spec.contractIdLo)
  have hhi := toUint32_lt (some spec.contractIdHi)
  rw [HostContractSpec.contractId]
  omega

/-- The interface, written into a new buffer. -/
def writtenInterface : Memory :=
  writeInterface (newBuffer m a HostContractInterface.size) a spec c d count functions

/-- The bytes that are written, in their order. -/
theorem writtenInterface_eq :
    writtenInterface m a spec c d count functions =
      (((((((((((m.write a (List.replicate 80 0)).write a (littleEndian 8 spec.contractId)).write
        (a + 8) (littleEndian 2 spec.major.toNat)).write
        (a + 10) (littleEndian 2 spec.minor.toNat)).write
        (a + 12) (littleEndian 2 0)).write
        (a + 20) (littleEndian 1 (if spec.singleton then 1 else 0))).write
        (a + 24) (littleEndian 4 0)).write
        (a + 40) (littleEndian 8 0)).write
        (a + 48) (littleEndian 8 c.toNat)).write
        (a + 56) (littleEndian 8 d.toNat)).write
        (a + 64) (littleEndian 4 count)).write
        (a + 72) (littleEndian 8 functions.toNat) := by
  rw [← contractId_or]
  rfl

/-- Nothing else is written. -/
theorem written_apart {b n : Nat} (h : b + n ≤ a ∨ a + 80 ≤ b) :
    (writtenInterface m a spec c d count functions).read b n = m.read b n := by
  rw [writtenInterface_eq]
  simp (disch := omega) only [read_number_apart]
  exact Memory.read_write_apart (by rw [List.length_replicate]; exact h)

theorem written_contractId :
    (writtenInterface m a spec c d count functions).read a 8 = spec.contractId := by
  rw [writtenInterface_eq]
  simp (disch := omega) only [read_number_apart]
  exact Memory.read_write_of_lt (contractId_lt spec)

/-- The two halves of the major version are the major and the minor that were given. -/
theorem written_major :
    (writtenInterface m a spec c d count functions).read (a + 8) 4 =
      spec.major.toNat % 2 ^ 16 + 2 ^ 16 * (spec.minor.toNat % 2 ^ 16) := by
  rw [writtenInterface_eq, Memory.read_append (n := 2) 2]
  simp (disch := omega) only [read_number_apart, Memory.read_write]
  rfl

theorem written_minor :
    (writtenInterface m a spec c d count functions).read (a + 12) 4 = 0 := by
  rw [writtenInterface_eq, Memory.read_append (n := 2) 2]
  simp (disch := omega) only [read_number_apart, Memory.read_write, Memory.read_zeros]
  rfl

theorem written_patch :
    (writtenInterface m a spec c d count functions).read (a + 16) 4 = 0 := by
  rw [writtenInterface_eq]
  simp (disch := omega) only [read_number_apart, Memory.read_zeros]

theorem written_singleton :
    (writtenInterface m a spec c d count functions).read (a + 20) 1 =
      if spec.singleton then 1 else 0 := by
  rw [writtenInterface_eq]
  simp (disch := omega) only [read_number_apart, Memory.read_write]
  cases spec.singleton <;> rfl

theorem written_dispatchType :
    (writtenInterface m a spec c d count functions).read (a + 24) 4 = 0 := by
  rw [writtenInterface_eq]
  simp (disch := omega) only [read_number_apart, Memory.read_write]
  rfl

theorem written_count (hcount : count < 2 ^ 32) :
    (writtenInterface m a spec c d count functions).read (a + 64) 8 = count := by
  rw [writtenInterface_eq, Memory.read_append (n := 4) 4]
  simp (disch := omega) only [read_number_apart, Memory.read_zeros]
  rw [Memory.read_write_of_lt hcount]
  omega

theorem written_functions :
    (writtenInterface m a spec c d count functions).read (a + 72) 8 = functions.toNat := by
  rw [writtenInterface_eq]
  exact Memory.read_write_of_lt functions.toNat_lt

end

/-! ### The table of functions -/

theorem read_writeFunctions_apart {m : Memory} {base b n : Nat} {ps : List UInt64} {i : Nat}
    (h : b + n ≤ base + i * 8 ∨ base + (i + ps.length) * 8 ≤ b) :
    (writeFunctions m base i ps).read b n = m.read b n := by
  induction ps generalizing m i with
  | nil => rfl
  | cons p ps ih =>
    rw [List.length_cons] at h
    rw [writeFunctions, ih (by omega)]
    exact read_number_apart (by omega)

/-- Each pointer is at its index. -/
theorem read_writeFunctions {m : Memory} {base : Nat} {ps : List UInt64} {i j : Nat} {p : UInt64}
    (hp : ps[j]? = some p) :
    (writeFunctions m base i ps).read (base + (i + j) * 8) 8 = p.toNat := by
  induction ps generalizing m i j with
  | nil => cases hp
  | cons q ps ih =>
    rw [writeFunctions]
    cases j with
    | zero =>
      obtain rfl := Option.some.inj hp
      rw [Nat.add_zero, read_writeFunctions_apart (by omega)]
      exact Memory.read_write_of_lt q.toNat_lt
    | succ j =>
      rw [show i + (j + 1) = i + 1 + j by omega]
      exact ih hp

/-- The loop makes one callback for each method, in their order. -/
theorem foldl_addMethod (pointer : Nat → UInt64) (methods : List μ) (made : HostCallbacks μ) :
    methods.foldl (HostCallbacks.addMethod pointer) made =
      ⟨made.callbacks ++ methods.map .dispatch, made.functionPointers ++
        (List.range' made.callbacks.length methods.length).map pointer⟩ := by
  induction methods generalizing made with
  | nil => simp
  | cons method methods ih =>
    rw [List.foldl_cons, ih, HostCallbacks.addMethod]
    simp [List.range'_succ]

/-! ### The interface -/

section
variable (spec : HostContractSpec μ)

/-- The same contract as a Rust host registers it. -/
def HostContractSpec.interface (ptr : Nat) : HostContractInterface where
  ptr := ptr
  contractId := UInt64.ofNat spec.contractId
  contractVersion := ⟨spec.major.toNat, spec.minor.toNat, 0⟩
  singleton := spec.singleton

variable (ffi : HostFfi spec.methods.length) (m : Memory)

/-- What the runtime reads is the specification. -/
structure Decodes (built : BuiltInterface μ) : Prop where
  interface : readInterface built.memory ffi.interfacePtr.toNat =
    spec.interface ffi.interfacePtr.toNat
  dispatchType : readDispatchType built.memory ffi.interfacePtr.toNat = some .native
  functionCount : (readDispatch built.memory ffi.interfacePtr.toNat).functionCount =
    spec.methods.length
  functions : ∀ (i : Nat) method, spec.methods[i]? = some method →
    built.callbacks[i]? = some (.dispatch method) ∧
      readFunction built.memory (readDispatch built.memory ffi.interfacePtr.toNat) i =
        (ffi.pointer i).toNat
  satisfies : ∀ minVersion,
    HostContracts.versionSatisfies (readInterface built.memory ffi.interfacePtr.toNat) minVersion =
      HostContracts.versionSatisfies (spec.interface ffi.interfacePtr.toNat) minVersion

/-- The memory when the table of functions is filled. -/
def functionTable : Memory :=
  writeFunctions (newBuffer m ffi.functionsPtr.toNat (8 * max 1 spec.methods.length))
    ffi.functionsPtr.toNat 0 ((List.range spec.methods.length).map ffi.pointer)

/-- The interface is written after the table. -/
theorem buildHostContractInterface_eq :
    buildHostContractInterface spec ffi m =
      ⟨spec.methods.map .dispatch ++ [.createInstance, .destroyInstance],
        writtenInterface (functionTable spec ffi m) ffi.interfacePtr.toNat spec
          (ffi.pointer spec.methods.length) (ffi.pointer (spec.methods.length + 1))
          spec.methods.length ffi.functionsPtr⟩ := by
  have hmade : spec.methods.foldl (HostCallbacks.addMethod ffi.pointer) ⟨[], []⟩ =
      ⟨spec.methods.map .dispatch, (List.range spec.methods.length).map ffi.pointer⟩ := by
    rw [foldl_addMethod, List.range_eq_range']
    rfl
  simp only [buildHostContractInterface, hmade, List.length_map, List.length_range,
    writtenInterface, functionTable]

theorem readInterface_eq (a : Nat) :
    readInterface m a = ⟨a, (readInterface m a).contractId, (readInterface m a).contractVersion,
      (readInterface m a).singleton⟩ := rfl

theorem built_contractId :
    (readInterface (buildHostContractInterface spec ffi m).memory
      ffi.interfacePtr.toNat).contractId = UInt64.ofNat spec.contractId := by
  rw [buildHostContractInterface_eq]
  exact congrArg UInt64.ofNat (written_contractId ..)

theorem built_singleton :
    (readInterface (buildHostContractInterface spec ffi m).memory
      ffi.interfacePtr.toNat).singleton = spec.singleton := by
  rw [buildHostContractInterface_eq]
  show decide (Memory.read _ (ffi.interfacePtr.toNat + 20) 1 = 1) = spec.singleton
  rw [written_singleton]
  cases spec.singleton <;> rfl

/-- The minor version is in the high half of the major, and zero where it should be. -/
theorem built_version :
    (readInterface (buildHostContractInterface spec ffi m).memory
      ffi.interfacePtr.toNat).contractVersion =
        ⟨spec.major.toNat % 2 ^ 16 + 2 ^ 16 * (spec.minor.toNat % 2 ^ 16), 0, 0⟩ := by
  rw [buildHostContractInterface_eq]
  show Version.mk (Memory.read _ (ffi.interfacePtr.toNat + 8) 4)
    (Memory.read _ (ffi.interfacePtr.toNat + 12) 4)
    (Memory.read _ (ffi.interfacePtr.toNat + 16) 4) = _
  rw [written_major, written_minor, written_patch]

theorem built_dispatchType :
    readDispatchType (buildHostContractInterface spec ffi m).memory ffi.interfacePtr.toNat =
      some .native := by
  rw [buildHostContractInterface_eq]
  show DispatchType.fromU32 (Memory.read _ (ffi.interfacePtr.toNat + 24) 4) = some .native
  rw [written_dispatchType]
  rfl

theorem built_dispatch :
    readDispatch (buildHostContractInterface spec ffi m).memory ffi.interfacePtr.toNat =
      ⟨spec.methods.length, ffi.functionsPtr.toNat⟩ := by
  rw [buildHostContractInterface_eq]
  show DispatchMechanisms.mk (Memory.read _ (ffi.interfacePtr.toNat + 64) 8)
    (Memory.read _ (ffi.interfacePtr.toNat + 72) 8) = _
  rw [written_count _ _ _ _ _ _ _ spec.few, written_functions]

/-- The entry of a method is the pointer of the callback that was made for it. -/
theorem built_function {i : Nat} {method : μ} (hi : spec.methods[i]? = some method) :
    (buildHostContractInterface spec ffi m).callbacks[i]? = some (.dispatch method) ∧
      readFunction (buildHostContractInterface spec ffi m).memory
        (readDispatch (buildHostContractInterface spec ffi m).memory ffi.interfacePtr.toNat) i =
        (ffi.pointer i).toNat := by
  have hlt : i < spec.methods.length := (List.getElem?_eq_some_iff.mp hi).1
  rw [built_dispatch, buildHostContractInterface_eq]
  constructor
  · show (spec.methods.map HostCallback.dispatch ++ _)[i]? = _
    rw [List.getElem?_append_left (by rw [List.length_map]; exact hlt), List.getElem?_map, hi]
    rfl
  · show Memory.read _ (ffi.functionsPtr.toNat + 8 * i) 8 = _
    -- The interface is not in the table.
    have hapart := ffi.apart
    rw [Region.span, Region.span, Set.Ico_disjoint_Ico] at hapart
    dsimp only [HostContractInterface.size] at hapart
    rw [written_apart _ _ _ _ _ _ _ (by omega), functionTable,
      show ffi.functionsPtr.toNat + 8 * i = ffi.functionsPtr.toNat + (0 + i) * 8 by omega]
    have hp : ((List.range spec.methods.length).map ffi.pointer)[i]? = some (ffi.pointer i) := by
      rw [List.getElem?_map, List.getElem?_range hlt]
      rfl
    exact read_writeFunctions hp

/-- The interface is read as its specification if and only if its version is one that words of 16
bits hold in place. -/
theorem interface_decodes_iff :
    Decodes spec ffi (buildHostContractInterface spec ffi m) ↔
      spec.minor = 0 ∧ spec.major.toNat < 2 ^ 16 := by
  have hversion := built_version spec ffi m
  constructor
  · intro hdecodes
    rw [hdecodes.interface] at hversion
    have hmajor := congrArg Version.major hversion
    have hminor := congrArg Version.minor hversion
    dsimp only [HostContractSpec.interface] at hmajor hminor
    exact ⟨UInt32.toNat_inj.mp hminor, by omega⟩
  · intro hspec
    obtain ⟨hminor, hmajor⟩ := hspec
    have hread : readInterface (buildHostContractInterface spec ffi m).memory
        ffi.interfacePtr.toNat = spec.interface ffi.interfacePtr.toNat := by
      rw [readInterface_eq, built_contractId, built_singleton, hversion,
        HostContractSpec.interface, hminor]
      congr 2
      exact Nat.mod_eq_of_lt hmajor
    exact {
      interface := hread
      dispatchType := built_dispatchType spec ffi m
      functionCount := by
        rw [built_dispatch]
        exact Nat.mod_eq_of_lt spec.few
      functions := fun i method hi => built_function spec ffi m hi
      satisfies := fun minVersion => by rw [hread] }

end

/-- A contract of version 1.2 with no methods. -/
def specOneTwo : HostContractSpec Unit := ⟨1, 0, 1, 2, false, [], by decide⟩

/-- Buffers at two addresses. -/
def ffiOneTwo : HostFfi specOneTwo.methods.length where
  pointer := fun _ => 8
  functionsPtr := 16
  interfacePtr := 32
  apart := Region.disjoint_of_le (by decide)

/-- Version 1.2 is read as version 131073.0. -/
theorem one_two_misread :
    ¬ Decodes specOneTwo ffiOneTwo
      (buildHostContractInterface specOneTwo ffiOneTwo fun _ => 0) := by
  intro hdecodes
  have hversion := built_version specOneTwo ffiOneTwo fun _ => 0
  rw [hdecodes.interface] at hversion
  exact absurd (congrArg Version.minor hversion) (by decide)

end PolyPlug.Js
