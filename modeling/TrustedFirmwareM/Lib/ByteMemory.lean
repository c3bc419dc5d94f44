import Mathlib.Data.BitVec
import Mathlib.Data.List.Basic
import Mathlib.Tactic.NormNum

/-!
# Byte memory

Memory gives a byte at every 32-bit address, and addresses wrap around.  A byte belongs to a range
if its distance from the start of the range is less than the size.
-/

/-- Contents of memory. -/
abbrev ByteMemory := BitVec 32 → BitVec 8

namespace ByteMemory

/-- The bytes from an address on. -/
def read (memory : ByteMemory) (base : BitVec 32) (len : ℕ) : List (BitVec 8) :=
  (List.range len).map fun i ↦ memory (base + BitVec.ofNat 32 i)

/-- Write bytes from an address on. -/
def write (memory : ByteMemory) (base : BitVec 32) (bytes : List (BitVec 8)) : ByteMemory :=
  fun a ↦ bytes[(a - base).toNat]?.getD (memory a)

variable {memory memory' : ByteMemory} {base a : BitVec 32} {bytes : List (BitVec 8)}

@[simp] theorem length_read (memory : ByteMemory) (base : BitVec 32) (len : ℕ) :
    (memory.read base len).length = len := by
  simp [read]

@[simp] theorem write_nil (memory : ByteMemory)
    (base : BitVec 32) : memory.write base [] = memory :=
  rfl

theorem write_of_le (beyond : bytes.length ≤ (a - base).toNat) :
    memory.write base bytes a = memory a := by
  rw [write, List.getElem?_eq_none beyond, Option.getD_none]

theorem add_ofNat_sub_toNat {i : ℕ} (i_lt : i < 2 ^ 32) :
    (base + BitVec.ofNat 32 i - base).toNat = i := by
  bv_omega

theorem write_add {i : ℕ} (i_lt : i < bytes.length) (small : bytes.length ≤ 2 ^ 32) :
    memory.write base bytes (base + BitVec.ofNat 32 i) = bytes[i] := by
  rw [write, add_ofNat_sub_toNat (i_lt.trans_le small), List.getElem?_eq_getElem i_lt,
    Option.getD_some]

/-- A write inside a range leaves alone what is outside of it. -/
theorem write_outside {i len : ℕ} (inside : i + bytes.length ≤ len)
    (outside : len ≤ (a - base).toNat) :
    memory.write (base + BitVec.ofNat 32 i) bytes a = memory a := by
  apply write_of_le
  bv_omega

theorem read_congr {len : ℕ} (same : ∀ i < len, memory' (base + BitVec.ofNat 32 i) =
    memory (base + BitVec.ofNat 32 i)) : memory'.read base len = memory.read base len := by
  apply List.map_congr_left
  intro i i_mem
  exact same i (List.mem_range.1 i_mem)

/-- What has been written is read. -/
theorem read_write_self (small : bytes.length ≤ 2 ^ 32) :
    (memory.write base bytes).read base bytes.length = bytes := by
  apply List.ext_getElem
  · simp
  · intro i i_lt i_lt'
    simp only [read, List.getElem_map, List.getElem_range]
    exact write_add i_lt' small

/-- A read does not see a write to another part of a range. -/
theorem read_write_apart {i j len : ℕ} (apart : i + len ≤ j ∨ j + bytes.length ≤ i)
    (i_le : i + len ≤ 2 ^ 32) (j_le : j + bytes.length ≤ 2 ^ 32) :
    (memory.write (base + BitVec.ofNat 32 j) bytes).read (base + BitVec.ofNat 32 i) len =
      memory.read (base + BitVec.ofNat 32 i) len := by
  apply read_congr
  intro k k_lt
  apply write_of_le
  rcases apart with before | behind <;> bv_omega

theorem read_add (memory : ByteMemory) (base : BitVec 32) (m n : ℕ) :
    memory.read base (m + n) = memory.read base m ++ memory.read (base + BitVec.ofNat 32 m) n := by
  simp only [read, List.range_add, List.map_append, List.map_map]
  congr 1
  apply List.map_congr_left
  intro i _
  simp only [Function.comp_apply, BitVec.add_assoc, BitVec.ofNat_add]

theorem drop_read (memory : ByteMemory) (base : BitVec 32) (m n : ℕ) :
    (memory.read base (m + n)).drop m = memory.read (base + BitVec.ofNat 32 m) n := by
  rw [read_add, List.drop_left' (length_read memory base m)]

theorem take_read (memory : ByteMemory) (base : BitVec 32) (m n : ℕ) :
    (memory.read base (m + n)).take m = memory.read base m := by
  rw [read_add, List.take_left' (length_read memory base m)]

/-- Each address is at some distance from another one. -/
theorem exists_distance (base a : BitVec 32) : ∃ d < 2 ^ 32, a = base + BitVec.ofNat 32 d := by
  use (a - base).toNat, (a - base).isLt
  bv_omega

theorem write_at {d n : ℕ} (d_lt : d < 2 ^ 32) (small : n + bytes.length ≤ 2 ^ 32) :
    memory.write (base + BitVec.ofNat 32 n) bytes (base + BitVec.ofNat 32 d) =
      if n ≤ d then bytes[d - n]?.getD (memory (base + BitVec.ofNat 32 d))
      else memory (base + BitVec.ofNat 32 d) := by
  split_ifs with behind
  · have distance : (base + BitVec.ofNat 32 d - (base + BitVec.ofNat 32 n)).toNat = d - n := by
      bv_omega
    rw [write, distance]
  · apply write_of_le
    bv_omega

theorem write_start {d : ℕ} (d_lt : d < 2 ^ 32) :
    memory.write base bytes (base + BitVec.ofNat 32 d) =
      bytes[d]?.getD (memory (base + BitVec.ofNat 32 d)) := by
  rw [write, add_ofNat_sub_toNat d_lt]

/-- Two writes, one behind the other. -/
theorem write_append {bytes' : List (BitVec 8)}
    (small : bytes.length + bytes'.length ≤ 2 ^ 32) :
    (memory.write base bytes).write (base + BitVec.ofNat 32 bytes.length) bytes' =
      memory.write base (bytes ++ bytes') := by
  funext a
  obtain ⟨d, d_lt, rfl⟩ := exists_distance base a
  rw [write_at d_lt small, write_start d_lt, write_start d_lt]
  split_ifs with behind
  · rw [List.getElem?_append_right behind, List.getElem?_eq_none behind, Option.getD_none]
  · rw [List.getElem?_append_left (Nat.not_le.1 behind)]

/-- What has been read is written back. -/
theorem write_read_self {n : ℕ} : memory.write base (memory.read base n) = memory := by
  funext a
  obtain ⟨d, d_lt, rfl⟩ := exists_distance base a
  rw [write_start d_lt, read, List.getElem?_map]
  rcases Nat.lt_or_ge d n with inside | outside
  · rw [List.getElem?_range inside]
    rfl
  · rw [List.getElem?_eq_none (by simpa using outside)]
    rfl

/-- What has been read around some bytes is written back with them. -/
theorem write_read_around {n k : ℕ} (small : n + bytes.length + k ≤ 2 ^ 32) :
    memory.write base (memory.read base n ++ bytes ++
        memory.read (base + BitVec.ofNat 32 (n + bytes.length)) k) =
      memory.write (base + BitVec.ofNat 32 n) bytes := by
  have kept : (memory.write (base + BitVec.ofNat 32 n) bytes).read
      (base + BitVec.ofNat 32 (n + bytes.length)) k =
        memory.read (base + BitVec.ofNat 32 (n + bytes.length)) k :=
    read_write_apart (Or.inr (le_refl _)) (by omega) (by omega)
  have front : memory.write base (memory.read base n ++ bytes) =
      memory.write (base + BitVec.ofNat 32 n) bytes := by
    rw [← write_append (by simp; omega), write_read_self, length_read]
  have length : (memory.read base n ++ bytes).length = n + bytes.length := by
    simp
  rw [← write_append (by simp; omega), front, length, ← kept, write_read_self]

/-- A write over another one. -/
theorem write_write {bytes' : List (BitVec 8)} (length : bytes'.length = bytes.length) :
    (memory.write base bytes').write base bytes = memory.write base bytes := by
  funext a
  simp only [write]
  rcases Nat.lt_or_ge (a - base).toNat bytes.length with inside | outside
  · rw [List.getElem?_eq_getElem inside, Option.getD_some, Option.getD_some]
  · rw [List.getElem?_eq_none outside, List.getElem?_eq_none (by omega)]
    rfl

end ByteMemory
