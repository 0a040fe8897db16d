import Mathlib.Tactic.Common
import Mathlib.Data.Nat.Notation
import Mathlib.Data.Int.Notation

/-!
# Cint — the C integer conversions and byte copies the firmware relies on

Machine integers are kept as naturals (unsigned types) and integers (signed types); every place
where the source truncates goes through one of the conversions below.
-/

namespace NeuronWired

/-- A byte string. -/
abbrev Bytes := List UInt8

/-- Conversion to `uint8_t`. -/
def u8 (n : ℕ) : ℕ := n % 256

/-- Conversion to `uint16_t`. -/
def u16 (x : ℤ) : ℕ := (x % 65536).toNat

/-- Conversion to `int16_t`. -/
def i16 (n : ℕ) : ℤ := if n % 65536 < 32768 then ((n % 65536 : ℕ) : ℤ) else ((n % 65536 : ℕ) : ℤ) - 65536

/-- Conversion to `uint32_t` (and to `size_t`, which is 32 bits wide on the RP2040). -/
def u32 (x : ℤ) : ℕ := (x % 4294967296).toNat

/-- Conversion to `int32_t`. -/
def i32 (x : ℤ) : ℤ :=
  if u32 x < 2147483648 then (u32 x : ℤ) else (u32 x : ℤ) - 4294967296

theorem u8_of_lt {n : ℕ} (h : n < 256) : u8 n = n := Nat.mod_eq_of_lt h

theorem u16_of_lt {n : ℕ} (h : n < 65536) : u16 (n : ℤ) = n := by
  unfold u16; omega

theorem i16_of_lt {n : ℕ} (h : n < 32768) : i16 n = n := by
  unfold i16; rw [if_pos (by omega)]; omega

theorem u32_of_lt {n : ℕ} (h : n < 4294967296) : u32 (n : ℤ) = n := by
  unfold u32; omega

theorem i32_of_lt {n : ℕ} (h : n < 2147483648) : i32 (n : ℤ) = n := by
  have hu : u32 (n : ℤ) = n := u32_of_lt (by omega)
  unfold i32; rw [hu, if_pos h]

/-- Reading a word as signed does not matter once the sum is cut back to 16 bits. -/
theorem u16_i16_add (n : ℕ) (x : ℤ) : u16 (i16 n + x) = u16 (n + x) := by
  unfold u16 i16; split_ifs <;> omega

theorem u16_i16_sub (n : ℕ) (x : ℤ) : u16 (i16 n - x) = u16 (n - x) := by
  unfold u16 i16; split_ifs <;> omega

/-- `memcpy( dst + off, src, src.length )` inside the array `dst`; bytes past its end are dropped. -/
def memcpy (dst : Bytes) (off : ℕ) (src : Bytes) : Bytes :=
  dst.take off ++ src.take (dst.length - off) ++ dst.drop (off + src.length)

@[simp] theorem length_memcpy (dst : Bytes) (off : ℕ) (src : Bytes) :
    (memcpy dst off src).length = dst.length := by
  simp only [memcpy, List.length_append, List.length_take, List.length_drop]; omega

theorem memcpy_of_le {dst : Bytes} {off : ℕ} {src : Bytes} (h : off + src.length ≤ dst.length) :
    memcpy dst off src = dst.take off ++ src ++ dst.drop (off + src.length) := by
  unfold memcpy; rw [List.take_of_length_le (l := src) (by omega)]

/-- A copy to the start of the array. -/
theorem memcpy_zero {dst src : Bytes} (h : src.length ≤ dst.length) :
    memcpy dst 0 src = src ++ dst.drop src.length := by
  rw [memcpy_of_le (by omega), Nat.zero_add, List.take_zero, List.nil_append]

/-- Bytes in front of the copy keep their value. -/
theorem take_memcpy {dst : Bytes} {off n : ℕ} (src : Bytes) (h : n ≤ off) :
    (memcpy dst off src).take n = dst.take n := by
  unfold memcpy
  rw [List.append_assoc]
  by_cases hn : n ≤ dst.length
  · rw [List.take_append_of_le_length (by rw [List.length_take]; omega), List.take_take,
      Nat.min_eq_left h]
  · rw [List.take_of_length_le (i := off) (by omega), show dst.length - off = 0 by omega,
      List.drop_of_length_le (by omega)]
    simp

/-- All that is behind the start of the copy. -/
theorem drop_memcpy_append {dst : Bytes} {off : ℕ} {src : Bytes} (h : off + src.length ≤ dst.length) :
    (memcpy dst off src).drop off = src ++ dst.drop (off + src.length) := by
  have hlen : (dst.take off).length = off := by rw [List.length_take]; omega
  rw [memcpy_of_le h, List.append_assoc, List.drop_append_of_le_length (by omega),
    List.drop_of_length_le (by omega), List.nil_append]

/-- The copied bytes. -/
theorem drop_memcpy {dst : Bytes} {off : ℕ} {src : Bytes} (h : off + src.length ≤ dst.length) :
    ((memcpy dst off src).drop off).take src.length = src := by
  rw [drop_memcpy_append h, List.take_left]

end NeuronWired
