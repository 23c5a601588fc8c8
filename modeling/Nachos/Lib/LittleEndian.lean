import Mathlib.Algebra.BigOperators.Group.Finset.Basic
import Mathlib.Data.BitVec
import Mathlib.Tactic.Ring

/-!
# Little-endian numbers

Bytes make a number, the lowest byte first, and a number has its bytes: the two
are inverse to each other up to the number of bytes that are kept.  `overlay`
replaces bytes of an array by those of a number; what is read back from it is put
together of new and old bytes.
-/

namespace Nachos
namespace Lib

/-- The number the first `size` bytes make. -/
def littleEndian (byte : Nat → BitVec 8) (size : Nat) : Nat :=
  ∑ i ∈ Finset.range size, (byte i).toNat * 2 ^ (8 * i)

/-- A byte of a number. -/
def byteOf (value i : Nat) : BitVec 8 := BitVec.ofNat 8 (value / 2 ^ (8 * i))

@[simp] theorem littleEndian_zero (byte : Nat → BitVec 8) : littleEndian byte 0 = 0 :=
  Finset.sum_range_zero _

theorem littleEndian_succ (byte : Nat → BitVec 8) (size : Nat) :
    littleEndian byte (size + 1) = littleEndian byte size + (byte size).toNat * 2 ^ (8 * size) :=
  Finset.sum_range_succ _ _

theorem toNat_byteOf (value i : Nat) : (byteOf value i).toNat = value / 2 ^ (8 * i) % 2 ^ 8 :=
  BitVec.toNat_ofNat _ _

private theorem pow_byte_succ (size : Nat) : 2 ^ (8 * (size + 1)) = 2 ^ (8 * size) * 2 ^ 8 := by
  rw [← Nat.pow_add, Nat.mul_succ]

theorem littleEndian_lt (byte : Nat → BitVec 8) (size : Nat) :
    littleEndian byte size < 2 ^ (8 * size) := by
  induction size with
  | zero => simp
  | succ size ih =>
      have hbyte : (byte size).toNat + 1 ≤ 2 ^ 8 := (byte size).isLt
      rw [littleEndian_succ, pow_byte_succ]
      calc littleEndian byte size + (byte size).toNat * 2 ^ (8 * size)
          < 2 ^ (8 * size) + (byte size).toNat * 2 ^ (8 * size) := by omega
        _ = 2 ^ (8 * size) * ((byte size).toNat + 1) := by ring
        _ ≤ 2 ^ (8 * size) * 2 ^ 8 := Nat.mul_le_mul_left _ hbyte

/-- The bytes of a number make its low part. -/
theorem littleEndian_byteOf (value size : Nat) :
    littleEndian (byteOf value) size = value % 2 ^ (8 * size) := by
  induction size with
  | zero => simp [Nat.mod_one]
  | succ size ih =>
      rw [littleEndian_succ, ih, toNat_byteOf, pow_byte_succ, Nat.mod_mul]
      ring

/-- A number has the bytes it is made of. -/
theorem byteOf_littleEndian (byte : Nat → BitVec 8) {size i : Nat} (hi : i < size) :
    byteOf (littleEndian byte size) i = byte i := by
  refine BitVec.eq_of_toNat_eq ?_
  rw [toNat_byteOf]
  induction size with
  | zero => omega
  | succ size ih =>
      rw [littleEndian_succ]
      rcases Nat.lt_succ_iff_lt_or_eq.mp hi with hlt | rfl
      · -- the bytes above `i` are a multiple of `2 ^ 8` after the shift
        have hsplit : 2 ^ (8 * size) = 2 ^ (8 * i) * (2 ^ 8 * 2 ^ (8 * (size - i - 1))) := by
          rw [← Nat.pow_add, ← Nat.pow_add]
          congr 1
          omega
        have hshift : (byte size).toNat * 2 ^ (8 * size) =
            2 ^ (8 * i) * (2 ^ 8 * (2 ^ (8 * (size - i - 1)) * (byte size).toNat)) := by
          rw [hsplit]
          ring
        rw [hshift, Nat.add_mul_div_left _ _ (Nat.two_pow_pos _), Nat.add_mul_mod_self_left]
        exact ih hlt
      · have hbelow := littleEndian_lt byte i
        rw [Nat.mul_comm (byte i).toNat, Nat.add_mul_div_left _ _ (Nat.two_pow_pos _),
          Nat.div_eq_of_lt hbelow, Nat.zero_add]
        exact Nat.mod_eq_of_lt (byte i).isLt

/-- Reading the low part of a number does not change its bytes. -/
theorem byteOf_mod {value size i : Nat} (hi : i < size) :
    byteOf (value % 2 ^ (8 * size)) i = byteOf value i := by
  rw [← littleEndian_byteOf, byteOf_littleEndian _ hi]

/-- The array with the bytes of `value` from `start` on. -/
def overlay (array : Nat → BitVec 8) (start size value : Nat) : Nat → BitVec 8 := fun a =>
  if start ≤ a ∧ a < start + size then byteOf value (a - start) else array a

theorem overlay_inside (array : Nat → BitVec 8) (start value : Nat) {size i : Nat} (hi : i < size) :
    overlay array start size value (start + i) = byteOf value i := by
  unfold overlay
  rw [if_pos ⟨by omega, by omega⟩, Nat.add_sub_cancel_left]

theorem overlay_outside (array : Nat → BitVec 8) {start size a : Nat} (value : Nat)
    (ha : ¬ (start ≤ a ∧ a < start + size)) : overlay array start size value a = array a :=
  if_neg ha

end Lib
end Nachos
