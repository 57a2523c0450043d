import PolyPlug.Lib.Region

/-!
# `PolyPlug.Lib.Memory`: bytes at addresses

A memory gives the byte at each address. `Memory.write` stores a list of bytes from an address on,
and `Memory.read` reads a number in little-endian order. A read sees what was written there
(`read_write`), and a write does not change what is read elsewhere (`read_congr`).
-/

set_option autoImplicit false

namespace PolyPlug.Lib

/-- The `n` low bytes of a number, the lowest first. -/
def littleEndian : Nat → Nat → List UInt8
  | 0, _     => []
  | n + 1, x => UInt8.ofNat x :: littleEndian n (x / 256)

@[simp] theorem length_littleEndian (n x : Nat) : (littleEndian n x).length = n := by
  induction n generalizing x with
  | zero => rfl
  | succ n ih => rw [littleEndian, List.length_cons, ih]

theorem littleEndian_append (m n x : Nat) :
    littleEndian (m + n) x = littleEndian m x ++ littleEndian n (x / 256 ^ m) := by
  induction m generalizing x with
  | zero => rw [Nat.zero_add, Nat.pow_zero, Nat.div_one]; rfl
  | succ m ih =>
    rw [Nat.succ_add, littleEndian, littleEndian, ih, List.cons_append, Nat.div_div_eq_div_mul,
      Nat.pow_succ, Nat.mul_comm]

/-- Only the low bytes matter. -/
theorem littleEndian_mod (n x : Nat) : littleEndian n (x % 256 ^ n) = littleEndian n x := by
  induction n generalizing x with
  | zero => rfl
  | succ n ih =>
    have hfirst : UInt8.ofNat (x % 256 ^ (n + 1)) = UInt8.ofNat x := by
      rw [← UInt8.ofNat_mod_size, ← @UInt8.ofNat_mod_size x]
      show UInt8.ofNat (x % 256 ^ (n + 1) % 256) = UInt8.ofNat (x % 256)
      rw [Nat.pow_succ, Nat.mod_mul_left_mod]
    rw [littleEndian, littleEndian, hfirst, ← ih (x / 256), Nat.pow_succ',
      Nat.mod_mul_right_div_self]

/-- The byte at each address. -/
abbrev Memory := Nat → UInt8

namespace Memory

/-- The memory with bytes stored from `a` on. -/
def write (m : Memory) (a : Nat) (bytes : List UInt8) : Memory := fun i =>
  if a ≤ i then (bytes[i - a]?).getD (m i) else m i

/-- The number in the `n` bytes from `a` on. -/
def read (m : Memory) (a : Nat) : Nat → Nat
  | 0     => 0
  | n + 1 => (m a).toNat + 256 * read m (a + 1) n

/-- The `n` bytes from `a` on. -/
def bytes (m : Memory) (a n : Nat) : List UInt8 := (List.range n).map fun i => m (a + i)

/-- The memories have the same bytes in a region. -/
def Agree (m m' : Memory) (r : Region) : Prop := ∀ i ∈ r.span, m' i = m i

section
variable {m m' : Memory} {a n : Nat} {bs cs : List UInt8}

theorem Agree.mono {r r' : Region} (h : m.Agree m' r) (hr : r'.span ⊆ r.span) : m.Agree m' r' :=
  fun i hi => h i (hr hi)

/-- A region without bytes is the same in all memories. -/
theorem agree_empty : m.Agree m' ⟨a, 0⟩ := by
  intro i hi
  have hrange := Region.mem_span.mp hi
  omega

@[simp] theorem write_nil : m.write a [] = m := by
  funext i
  simp [write]

theorem write_of_not_mem {i : Nat} (h : i ∉ Region.span ⟨a, bs.length⟩) : m.write a bs i = m i := by
  rw [write]
  split
  · next hle =>
    have hge : bs.length ≤ i - a := by
      by_contra hlt
      exact h (Region.mem_span.mpr ⟨hle, by omega⟩)
    rw [List.getElem?_eq_none hge]
    rfl
  · rfl

theorem write_cons (b : UInt8) : m.write a (b :: bs) = (m.write a [b]).write (a + 1) bs := by
  funext i
  simp only [write]
  rcases Nat.lt_trichotomy i a with hlt | rfl | hgt
  · rw [if_neg (by omega), if_neg (by omega), if_neg (by omega)]
  · simp
  · obtain ⟨k, rfl⟩ := Nat.exists_eq_add_of_lt hgt
    rw [if_pos (by omega), if_pos (by omega), if_pos (by omega)]
    have hk : a + k + 1 - a = k + 1 := by omega
    have hk' : a + k + 1 - (a + 1) = k := by omega
    rw [hk, hk']
    simp

theorem write_append : m.write a (bs ++ cs) = (m.write a bs).write (a + bs.length) cs := by
  induction bs generalizing m a with
  | nil => simp
  | cons b bs ih =>
    have hstart : a + 1 + bs.length = a + (bs.length + 1) := by omega
    rw [List.cons_append, write_cons b, ih, ← write_cons b, List.length_cons, hstart]

/-- What is read depends on the bytes that are read. -/
theorem read_congr (h : Agree m m' ⟨a, n⟩) : m'.read a n = m.read a n := by
  induction n generalizing a with
  | zero => rfl
  | succ n ih =>
    have hfirst : a ∈ Region.span ⟨a, n + 1⟩ := Region.mem_span.mpr ⟨le_refl a, by omega⟩
    rw [read, read, h a hfirst, ih]
    intro i hi
    obtain ⟨hle, hlt⟩ := Region.mem_span.mp hi
    exact h i (Region.mem_span.mpr ⟨by omega, by omega⟩)

@[simp] theorem length_bytes (m : Memory) (a n : Nat) : (m.bytes a n).length = n := by
  rw [bytes, List.length_map, List.length_range]

theorem bytes_congr (h : Agree m m' ⟨a, n⟩) : m'.bytes a n = m.bytes a n := by
  refine List.map_congr_left fun i hi => h _ ⟨Nat.le_add_right a i, ?_⟩
  exact Nat.add_lt_add_left (List.mem_range.mp hi) a

theorem bytes_write : (m.write a bs).bytes a bs.length = bs := by
  refine List.ext_getElem? fun i => ?_
  rw [bytes, List.getElem?_map]
  by_cases hi : i < bs.length
  · rw [List.getElem?_range hi, Option.map_some, write, if_pos (Nat.le_add_right a i),
      Nat.add_sub_cancel_left, List.getElem?_eq_getElem hi]
    rfl
  · rw [List.getElem?_eq_none (by simpa using hi), List.getElem?_eq_none (by omega)]
    rfl

/-- A number is read as it was written. -/
theorem read_write (x : Nat) : (m.write a (littleEndian n x)).read a n = x % 256 ^ n := by
  induction n generalizing m a x with
  | zero => rw [Nat.pow_zero, Nat.mod_one]; rfl
  | succ n ih =>
    have hfirst : (m.write a (littleEndian (n + 1) x)) a = UInt8.ofNat x := by
      simp [write, littleEndian]
    have hrest : (m.write a (littleEndian (n + 1) x)).read (a + 1) n = x / 256 % 256 ^ n := by
      rw [littleEndian, write_cons]
      exact ih (x / 256)
    rw [read, hfirst, hrest, Nat.pow_succ', Nat.mod_mul]
    rfl

theorem read_lt : m.read a n < 256 ^ n := by
  induction n generalizing a with
  | zero => exact Nat.one_pos
  | succ n ih =>
    have hbyte := (m a).toNat_lt
    have hrest := ih (a := a + 1)
    rw [read, Nat.pow_succ']
    omega

/-- A number that is read in two parts. -/
theorem read_append (k : Nat) : m.read a (k + n) = m.read a k + 256 ^ k * m.read (a + k) n := by
  induction k generalizing a with
  | zero => rw [Nat.zero_add, Nat.pow_zero, Nat.one_mul, Nat.add_zero]; exact (Nat.zero_add _).symm
  | succ k ih =>
    rw [show k + 1 + n = k + n + 1 by omega, read, read, ih, Nat.pow_succ', Nat.mul_assoc,
      show a + 1 + k = a + (k + 1) by omega]
    omega

/-- A write does not change what is read elsewhere. -/
theorem read_write_apart {b : Nat} (h : a + n ≤ b ∨ b + bs.length ≤ a) :
    (m.write b bs).read a n = m.read a n := by
  refine read_congr fun i hi => write_of_not_mem fun hmem => ?_
  have hread := Region.mem_span.mp hi
  have hwritten := Region.mem_span.mp hmem
  omega

/-- Zeros are read as zero. -/
theorem read_zeros {b size : Nat} (hle : b ≤ a) (hlt : a + n ≤ b + size) :
    (m.write b (List.replicate size 0)).read a n = 0 := by
  induction n generalizing a with
  | zero => rfl
  | succ n ih =>
    have hfirst : (m.write b (List.replicate size 0)) a = 0 := by
      rw [write, if_pos hle, List.getElem?_replicate, if_pos (by omega)]
      rfl
    rw [read, hfirst, ih (by omega) (by omega)]
    rfl

/-- A number in range is read as it was written. -/
theorem read_write_of_lt {x : Nat} (hx : x < 256 ^ n) :
    (m.write a (littleEndian n x)).read a n = x := by
  rw [read_write, Nat.mod_eq_of_lt hx]

end

end Memory

end PolyPlug.Lib
