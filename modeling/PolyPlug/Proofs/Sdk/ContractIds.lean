import PolyPlug.Lib.Mixing
import PolyPlug.Proofs.Rust.Str
import PolyPlug.Sdk.ContractIds

/-!
# `PolyPlug.Proofs.Sdk.ContractIds`: one identifier in every language

Whatever language computes it, a name and a major version of 32 bits give one identifier. For the
C++ header this includes that the buffer of ten characters is never overrun.

FNV-1a multiplies by an odd number, so a round is a bijection of the running hash, and so is a whole
input. What two texts end with therefore cancels: the guest and the host identifier of one
name and major version always differ, and whether two names collide does not depend on the
major version. Texts that differ in a single byte never collide.
-/

set_option autoImplicit false

namespace PolyPlug.Sdk

open PolyPlug.Abi
open PolyPlug.Lib
open PolyPlug.Rust

/-! ### Bytes of a text -/

theorem toList_loop (bs : ByteArray) (i : Nat) (r : List UInt8) :
    ByteArray.toList.loop bs i r = r.reverse ++ bs.data.toList.drop i := by
  fun_induction ByteArray.toList.loop bs i r with
  | case1 i r hi ih =>
    have hlt : i < bs.data.toList.length := hi
    have hget : bs.get! i = bs.data.toList[i] := by
      show bs.data[i]! = _
      simp [getElem!_pos bs.data i hi]
    rw [ih, List.drop_eq_getElem_cons hlt, hget]
    simp
  | case2 i r hi =>
    have hge : bs.data.toList.length ≤ i := Nat.le_of_not_lt hi
    simp [List.drop_eq_nil_of_le hge]

theorem utf8_eq_data (text : String) : utf8 text = text.toByteArray.data.toList := by
  show ByteArray.toList.loop text.toByteArray 0 [] = _
  rw [toList_loop]
  simp

theorem utf8_append (s t : String) : utf8 (s ++ t) = utf8 s ++ utf8 t := by
  simp [utf8_eq_data, String.toByteArray_append]

theorem utf8_ofList (cs : List Char) :
    utf8 (String.ofList cs) = cs.flatMap String.utf8EncodeChar := by
  rw [utf8_eq_data]
  show cs.utf8Encode.data.toList = _
  simp [List.utf8Encode]

/-- A decimal digit is one byte. -/
theorem utf8EncodeChar_digitChar : ∀ {d : Nat}, d < 10 →
    String.utf8EncodeChar (Nat.digitChar d) = [UInt8.ofNat (48 + d)] := by
  decide

/-- The bytes of a decimal text: all but the last digit, and the last one. -/
theorem utf8_decimal_step {n : Nat} (h : 10 ≤ n) :
    utf8 (decimal n) = utf8 (decimal (n / 10)) ++ [UInt8.ofNat (48 + n % 10)] := by
  have hlast : n % 10 < 10 := Nat.mod_lt n (by decide)
  show utf8 (String.ofList _) = utf8 (String.ofList _) ++ _
  rw [utf8_ofList, utf8_ofList, Nat.toDigits_of_base_le (by decide) h, List.flatMap_append,
    List.flatMap_singleton, utf8EncodeChar_digitChar hlast]

theorem utf8_decimal_digit {n : Nat} (h : n < 10) :
    utf8 (decimal n) = [UInt8.ofNat (48 + n)] := by
  show utf8 (String.ofList _) = _
  rw [utf8_ofList, Nat.toDigits_of_lt_base h, List.flatMap_singleton, utf8EncodeChar_digitChar h]

/-- A number below `10 ^ k` has at most `k` digits. -/
theorem length_utf8_decimal_le : ∀ {k n : Nat}, 0 < k → n < 10 ^ k →
    (utf8 (decimal n)).length ≤ k := by
  intro k
  induction k with
  | zero => intro n h; omega
  | succ k ih =>
    intro n _ hlt
    by_cases hone : n < 10
    · rw [utf8_decimal_digit hone]
      simp
    · have hpos : 0 < k := by
        rcases k with _ | k
        · omega
        · omega
      have hrest : n / 10 < 10 ^ k := by
        rw [Nat.pow_succ] at hlt
        omega
      have hlen := ih hpos hrest
      rw [utf8_decimal_step (by omega), List.length_append, List.length_singleton]
      omega

/-! ### C++ -/

namespace Cpp

/-- What the loop leaves in the buffer, read from the last digit written to the first: the
decimal text of the rest, in front of what was there. -/
theorem writeDigits_eq : ∀ (digits : Digits) {count remaining : Nat}, 0 < remaining →
    count + (utf8 (decimal remaining)).length ≤ 10 → ∃ written filled,
      writeDigits digits count remaining = some (written, filled) ∧ filled ≤ 10 ∧
      (written.toList.take filled).reverse =
        utf8 (decimal remaining) ++ (digits.toList.take count).reverse := by
  intro digits count remaining
  fun_induction writeDigits digits count remaining with
  | case1 digits count => intro h; omega
  | case2 digits count remaining hrest hroom ih =>
    intro _ hlen
    -- The digit written here stands right in front of the earlier ones.
    have hset : ((digits.set count (UInt8.ofNat (48 + remaining % 10))).toList.take
        (count + 1)).reverse =
        UInt8.ofNat (48 + remaining % 10) :: (digits.toList.take count).reverse := by
      have hlt : count < digits.toList.length := by simp; omega
      rw [Vector.toList_set, List.take_succ_eq_append_getElem (by simpa using hlt),
        List.take_set_of_le (Nat.le_refl count)]
      simp
    by_cases hone : remaining < 10
    · have hzero : remaining / 10 = 0 := by omega
      have hmod : remaining % 10 = remaining := Nat.mod_eq_of_lt hone
      refine ⟨digits.set count (UInt8.ofNat (48 + remaining % 10)), count + 1, ?_, by omega, ?_⟩
      · rw [hzero, writeDigits, dif_pos rfl]
      · rw [hset, utf8_decimal_digit hone, hmod]
        rfl
    · have hstep := utf8_decimal_step (Nat.le_of_not_lt hone)
      rw [hstep, List.length_append, List.length_singleton] at hlen
      obtain ⟨written, filled, hwrite, hfilled, hread⟩ := ih (by omega) (by omega)
      refine ⟨written, filled, hwrite, hfilled, ?_⟩
      rw [hread, hset, hstep, List.append_assoc]
      rfl
  | case3 digits count remaining hrest hroom =>
    intro hpos hlen
    have hne : (utf8 (decimal remaining)).length ≠ 0 := by
      by_cases hone : remaining < 10
      · simp [utf8_decimal_digit hone]
      · simp [utf8_decimal_step (Nat.le_of_not_lt hone)]
    omega

/-- The loop over the buffer takes the digits from the last one written to the first. -/
theorem foldDigits_eq (digits : Digits) : ∀ {count : Nat} (hash : UInt64), count ≤ 10 →
    foldDigits hash digits count =
      some (fnv1a64Continue hash (digits.toList.take count).reverse) := by
  intro count
  induction count with
  | zero => intro hash _; rfl
  | succ i ih =>
    intro hash hle
    have hlt : i < digits.toList.length := by simp; omega
    rw [foldDigits, Vector.getElem?_eq_getElem (by omega), Option.bind_some, ih _ (by omega),
      List.take_succ_eq_append_getElem hlt, List.reverse_append]
    simp [fnv1a64Continue]

/-- The rendering without a string folds what the decimal text would give. -/
theorem fnv1a64FoldU32_eq (hash : UInt64) {value : Nat} (h : value < 2 ^ 32) :
    fnv1a64FoldU32 hash value = some (fnv1a64Continue hash (utf8 (decimal value))) := by
  by_cases hzero : value = 0
  · rw [fnv1a64FoldU32, if_pos hzero, hzero, utf8_decimal_digit (by decide)]
    rfl
  · have hlen : (utf8 (decimal value)).length ≤ 10 := length_utf8_decimal_le (by decide) (by omega)
    obtain ⟨written, filled, hwrite, hfilled, hread⟩ :=
      writeDigits_eq (Vector.replicate 10 0) (Nat.pos_of_ne_zero hzero)
        (show 0 + (utf8 (decimal value)).length ≤ 10 by omega)
    rw [fnv1a64FoldU32, if_neg hzero, hwrite]
    show foldDigits hash written filled = _
    rw [foldDigits_eq written hash hfilled, hread]
    simp

theorem fnv1a64_eq (data : List UInt8) : fnv1a64 data = Abi.fnv1a64 data := rfl

/-- The pieces folded one after the other are the text in one piece. -/
theorem contractId_eq (scheme name : String) {major : Nat} (h : major < 2 ^ 32) :
    contractId (utf8 scheme) (utf8 name) major =
      some (Abi.fnv1a64 (utf8 (scheme ++ name ++ "@" ++ decimal major))) := by
  have hat : utf8 "@" = [64] := by decide +kernel
  show fnv1a64FoldU32 _ major = _
  rw [fnv1a64FoldU32_eq _ h, ← fnv1a64_eq, utf8_append, utf8_append, utf8_append, hat]
  simp [fnv1a64, fnv1a64Continue]

end Cpp

/-! ### Python, JavaScript, Lua and C# -/

/-- A round on unbounded integers, cut to 64 bits, is a round on words. -/
theorem masked_round (hash : UInt64) (byte : UInt8) :
    ((hash.toNat ^^^ byte.toNat) * 0x00000100000001B3) &&& 0xFFFFFFFFFFFFFFFF =
      ((hash ^^^ byte.toUInt64) * fnvPrime).toNat := by
  have hmask : ∀ n : Nat, n &&& 0xFFFFFFFFFFFFFFFF = n % 2 ^ 64 :=
    fun n => Nat.and_two_pow_sub_one_eq_mod n 64
  rw [hmask, UInt64.toNat_mul, UInt64.toNat_xor, UInt8.toNat_toUInt64]
  rfl

/-- The running hash of unbounded integers stays the word's value. -/
theorem masked_fold : ∀ (data : List UInt8) (hash : UInt64),
    data.foldl (fun h b => ((h ^^^ b.toNat) * 0x00000100000001B3) &&& 0xFFFFFFFFFFFFFFFF)
      hash.toNat = (data.foldl Cpp.fnv1a64Step hash).toNat := by
  intro data
  induction data with
  | nil => exact fun _ => rfl
  | cons b data ih =>
    intro hash
    rw [List.foldl_cons, List.foldl_cons, masked_round]
    exact ih _

theorem python_fnv1a64 (data : List UInt8) : Python.fnv1a64 data = (fnv1a64 data).toNat :=
  masked_fold data fnvOffset

theorem javaScript_fnv1a64 (data : List UInt8) : JavaScript.fnv1a64 data = (fnv1a64 data).toNat :=
  masked_fold data fnvOffset

theorem lua_hashBytes : ∀ (data : List UInt8) (hash : UInt64),
    Lua.hashBytes hash data = data.foldl Cpp.fnv1a64Step hash := by
  intro data
  induction data with
  | nil => exact fun _ => rfl
  | cons b data ih => exact fun hash => ih _

theorem lua_fnv1a64 (data : List UInt8) : Lua.fnv1a64 data = fnv1a64 data :=
  lua_hashBytes data fnvOffset

theorem cSharp_hashBytes : ∀ (data : List UInt8) (hash : UInt64),
    CSharp.hashBytes hash data = data.foldl Cpp.fnv1a64Step hash := by
  intro data
  induction data with
  | nil => exact fun _ => rfl
  | cons b data ih => exact fun hash => ih _

theorem cSharp_fnv1a64 (data : String) : CSharp.fnv1a64 data = fnv1a64 (utf8 data) :=
  cSharp_hashBytes (utf8 data) fnvOffset

/-- An identifier that a scheme, a name and a major version give in every language. -/
structure Agreed (id : UInt64) (cpp : Option UInt64) (python javaScript : Nat)
    (lua cSharp : UInt64) : Prop where
  cpp : cpp = some id
  python : python = id.toNat
  javaScript : javaScript = id.toNat
  lua : lua = id
  cSharp : cSharp = id

/-- Every language computes the identifiers that the runtime computes, and the C++ header stays
inside its buffer. -/
theorem ids_agree (name : String) (major : Nat) (hmajor : major < 2 ^ 32) :
    Agreed (GuestContractId.new name major).id (Cpp.guestContractId (utf8 name) major)
        (Python.guestContractId name major) (JavaScript.guestContractId name major)
        (Lua.guestContractId (utf8 name) major) (CSharp.guestContractId name major) ∧
      Agreed (Codegen.hostContractId name major) (Cpp.hostContractId (utf8 name) major)
        (Python.hostContractId name major) (JavaScript.hostContractId name major)
        (Lua.hostContractId (utf8 name) major) (CSharp.hostContractId name major) ∧
      Agreed (BundleId.new name).id (some (Cpp.bundleId (utf8 name))) (Python.bundleId name)
        (JavaScript.bundleId name) (Lua.bundleId (utf8 name)) (CSharp.bundleId name) := by
  have hlua : ∀ scheme : String,
      Lua.fnv1a64 (utf8 scheme ++ utf8 name ++ utf8 "@" ++ utf8 (decimal major)) =
        fnv1a64 (utf8 (scheme ++ name ++ "@" ++ decimal major)) := by
    intro scheme
    rw [lua_fnv1a64, utf8_append, utf8_append, utf8_append]
  refine ⟨?guest, ?host, ?bundle⟩
  case guest =>
    exact {
      cpp := Cpp.contractId_eq "guest_contract:" name hmajor
      python := python_fnv1a64 _
      javaScript := javaScript_fnv1a64 _
      lua := hlua "guest_contract:"
      cSharp := cSharp_fnv1a64 _ }
  case host =>
    exact {
      cpp := Cpp.contractId_eq "host_contract:" name hmajor
      python := python_fnv1a64 _
      javaScript := javaScript_fnv1a64 _
      lua := hlua "host_contract:"
      cSharp := cSharp_fnv1a64 _ }
  case bundle =>
    exact {
      cpp := rfl
      python := python_fnv1a64 _
      javaScript := javaScript_fnv1a64 _
      lua := lua_fnv1a64 _
      cSharp := cSharp_fnv1a64 _ }

/-- The largest major version fills the buffer of the C++ header. -/
theorem ids_agree_at_the_largest_major :
    2 ^ 32 - 1 < 2 ^ 32 ∧
      Agreed (GuestContractId.new "logger" (2 ^ 32 - 1)).id
        (Cpp.guestContractId (utf8 "logger") (2 ^ 32 - 1))
        (Python.guestContractId "logger" (2 ^ 32 - 1))
        (JavaScript.guestContractId "logger" (2 ^ 32 - 1))
        (Lua.guestContractId (utf8 "logger") (2 ^ 32 - 1))
        (CSharp.guestContractId "logger" (2 ^ 32 - 1)) :=
  ⟨by decide, (ids_agree "logger" (2 ^ 32 - 1) (by decide)).1⟩

/-! ### Collisions -/

/-- The prime has an inverse among the words. -/
theorem mul_fnvPrime_inj {s t : UInt64} (h : s * fnvPrime = t * fnvPrime) : s = t := by
  have hinverse : fnvPrime * 0xce965057aff6957b = 1 := by decide
  calc s = s * fnvPrime * 0xce965057aff6957b := by rw [UInt64.mul_assoc, hinverse, UInt64.mul_one]
    _ = t * fnvPrime * 0xce965057aff6957b := by rw [h]
    _ = t := by rw [UInt64.mul_assoc, hinverse, UInt64.mul_one]

/-- A round of FNV-1a loses nothing of the running hash. -/
theorem keepsStates_fnv1a64Step : KeepsStates Cpp.fnv1a64Step := by
  intro b s t h
  have hxor : s ^^^ b.toUInt64 = t ^^^ b.toUInt64 := mul_fnvPrime_inj h
  exact (UInt64.xor_left_inj _).mp hxor

/-- Nor does it lose anything of the byte. -/
theorem keepsSymbols_fnv1a64Step : KeepsSymbols Cpp.fnv1a64Step := by
  intro s b c h
  have hxor : s ^^^ b.toUInt64 = s ^^^ c.toUInt64 := mul_fnvPrime_inj h
  exact UInt8.toUInt64_inj.mp ((UInt64.xor_right_inj s).mp hxor)

theorem fnv1a64_append_right (xs ys zs : List UInt8) :
    fnv1a64 (xs ++ zs) = fnv1a64 (ys ++ zs) ↔ fnv1a64 xs = fnv1a64 ys :=
  keepsStates_fnv1a64Step.foldl_append_right xs ys zs fnvOffset fnvOffset

theorem fnv1a64_one_byte (xs zs : List UInt8) (b c : UInt8) :
    fnv1a64 (xs ++ b :: zs) = fnv1a64 (xs ++ c :: zs) ↔ b = c :=
  keepsStates_fnv1a64Step.foldl_one_symbol keepsSymbols_fnv1a64Step xs zs fnvOffset

/-- A contract identifier is the hash of its scheme and name, continued over the major version. -/
theorem fnv1a64_contract (scheme name : String) (major : Nat) :
    fnv1a64 (utf8 (scheme ++ name ++ "@" ++ decimal major)) =
      fnv1a64 (utf8 (scheme ++ name) ++ utf8 ("@" ++ decimal major)) := by
  rw [String.append_assoc, utf8_append]

/-- Whether two texts collide as contracts does not depend on the major version. -/
theorem contract_collides_iff (scheme scheme' name name' : String) (major : Nat) :
    fnv1a64 (utf8 (scheme ++ name ++ "@" ++ decimal major)) =
        fnv1a64 (utf8 (scheme' ++ name' ++ "@" ++ decimal major)) ↔
      fnv1a64 (utf8 (scheme ++ name)) = fnv1a64 (utf8 (scheme' ++ name')) := by
  rw [fnv1a64_contract, fnv1a64_contract]
  exact fnv1a64_append_right _ _ _

theorem guestContractId_eq_iff (name name' : String) (major : Nat) :
    GuestContractId.new name major = GuestContractId.new name' major ↔
      fnv1a64 (utf8 ("guest_contract:" ++ name)) = fnv1a64 (utf8 ("guest_contract:" ++ name')) := by
  rw [← contract_collides_iff "guest_contract:" "guest_contract:" name name' major]
  exact ⟨fun h => congrArg GuestContractId.id h, fun h => congrArg GuestContractId.mk h⟩

/-- A guest contract and a host contract of one name and major version never collide. -/
theorem guest_ne_host (name : String) (major : Nat) :
    (GuestContractId.new name major).id ≠ Codegen.hostContractId name major := by
  intro h
  have hscheme : fnv1a64 (utf8 ("guest_contract:" ++ name)) =
      fnv1a64 (utf8 ("host_contract:" ++ name)) :=
    (contract_collides_iff "guest_contract:" "host_contract:" name name major).1 h
  rw [utf8_append, utf8_append, fnv1a64_append_right] at hscheme
  -- What is left are the two schemes.
  have hdiffer : fnv1a64 (utf8 "guest_contract:") ≠ fnv1a64 (utf8 "host_contract:") := by
    decide +kernel
  exact hdiffer hscheme

/-- Majors that differ in the last digit only never collide. -/
theorem contract_last_digit_ne (scheme name : String) {major other : Nat} (hne : major ≠ other)
    (hdecade : major / 10 = other / 10) :
    fnv1a64 (utf8 (scheme ++ name ++ "@" ++ decimal major)) ≠
      fnv1a64 (utf8 (scheme ++ name ++ "@" ++ decimal other)) := by
  have hbytes : ∀ n, utf8 (decimal n) =
      (if n < 10 then [] else utf8 (decimal (n / 10))) ++ [UInt8.ofNat (48 + n % 10)] := by
    intro n
    by_cases hone : n < 10
    · rw [if_pos hone, utf8_decimal_digit hone, Nat.mod_eq_of_lt hone, List.nil_append]
    · rw [if_neg hone, utf8_decimal_step (Nat.le_of_not_lt hone)]
  have hsame : (if major < 10 then [] else utf8 (decimal (major / 10))) =
      if other < 10 then [] else utf8 (decimal (other / 10)) := by
    have hiff : major < 10 ↔ other < 10 := by omega
    simp only [hiff, hdecade]
  intro h
  rw [utf8_append (scheme ++ name ++ "@"), utf8_append (scheme ++ name ++ "@"), hbytes major,
    hbytes other, hsame, ← List.append_assoc, ← List.append_assoc] at h
  have hdigit := (fnv1a64_one_byte _ [] _ _).1 h
  have hval := congrArg UInt8.toNat hdigit
  simp only [UInt8.toNat_ofNat'] at hval
  omega

/-- An ASCII character is one byte. -/
theorem utf8_ascii {c : Char} (h : c.toNat < 128) :
    utf8 (String.ofList [c]) = [UInt8.ofNat c.toNat] := by
  rw [utf8_ofList, List.flatMap_singleton, String.utf8EncodeChar_eq_singleton]
  · rfl
  · exact Char.utf8Size_eq_one_iff.2 (Nat.le_of_lt_succ h)

/-- Texts that differ in one ASCII character never collide. -/
theorem fnv1a64_one_character (before after : String) {c d : Char} (hc : c.toNat < 128)
    (hd : d.toNat < 128) (hne : c ≠ d) :
    fnv1a64 (utf8 (before ++ String.ofList [c] ++ after)) ≠
      fnv1a64 (utf8 (before ++ String.ofList [d] ++ after)) := by
  intro h
  rw [utf8_append, utf8_append, utf8_append, utf8_append, utf8_ascii hc, utf8_ascii hd,
    List.append_assoc, List.append_assoc] at h
  have hbyte := (fnv1a64_one_byte _ _ _ _).1 h
  have hval := congrArg UInt8.toNat hbyte
  simp only [UInt8.toNat_ofNat'] at hval
  exact hne (Char.toNat_inj.1 (by omega))

/-- What the identifiers keep apart, for every name and every major version: a guest contract from
the host contract of its name and major version, two majors that differ in the last digit only,
and two names that differ in one ASCII character only. Names that collide under one major version
do so under every one. -/
theorem ids_kept_apart :
    (∀ name major, (GuestContractId.new name major).id ≠ Codegen.hostContractId name major) ∧
      (∀ name major other, major ≠ other → major / 10 = other / 10 →
        GuestContractId.new name major ≠ GuestContractId.new name other ∧
        Codegen.hostContractId name major ≠ Codegen.hostContractId name other) ∧
      (∀ (before after : String) (c d : Char) major, c.toNat < 128 → d.toNat < 128 → c ≠ d →
        GuestContractId.new (before ++ String.ofList [c] ++ after) major ≠
            GuestContractId.new (before ++ String.ofList [d] ++ after) major ∧
          BundleId.new (before ++ String.ofList [c] ++ after) ≠
            BundleId.new (before ++ String.ofList [d] ++ after)) ∧
      ∀ name name' major major', GuestContractId.new name major = GuestContractId.new name' major ↔
        GuestContractId.new name major' = GuestContractId.new name' major' := by
  refine ⟨guest_ne_host, ?majors, ?characters, ?names⟩
  case majors =>
    intro name major other hne hdecade
    constructor
    · intro h
      exact contract_last_digit_ne "guest_contract:" name hne hdecade
        (congrArg GuestContractId.id h)
    · exact contract_last_digit_ne "host_contract:" name hne hdecade
  case characters =>
    intro before after c d major hc hd hne
    constructor
    · rw [Ne, guestContractId_eq_iff, ← String.append_assoc, ← String.append_assoc,
        ← String.append_assoc, ← String.append_assoc]
      exact fnv1a64_one_character ("guest_contract:" ++ before) after hc hd hne
    · intro h
      exact fnv1a64_one_character before after hc hd hne (congrArg BundleId.id h)
  case names =>
    intro name name' major major'
    rw [guestContractId_eq_iff, guestContractId_eq_iff]

end PolyPlug.Sdk
