import Mathlib.Data.Nat.Bitwise
import Mathlib.Tactic

/-! # Words made of an aligned part and flags

A word whose low `width` bits are flags and whose other bits are an aligned address: the
two parts are combined by addition, and the masks take them apart again.
-/

namespace Bits

variable {address flags word width : Nat}

/-- Flags below the alignment are added. -/
theorem aligned_or (aligned : address % 2 ^ width = 0) (small : flags < 2 ^ width) :
    address ||| flags = address + flags := by
  have split : address = 2 ^ width * (address / 2 ^ width) := by
    have whole := Nat.div_add_mod address (2 ^ width)
    omega
  rw [split, Nat.two_pow_add_eq_or_of_lt small]

/-- The low mask sees only the flags. -/
theorem and_flags (aligned : address % 2 ^ width = 0) (small : flags < 2 ^ width) {mask : Nat}
    (low : mask < 2 ^ width) : (address ||| flags) &&& mask = flags &&& mask := by
  have bounded : (address ||| flags) &&& mask < 2 ^ width :=
    Nat.lt_of_le_of_lt Nat.and_le_right low
  have bounded' : flags &&& mask < 2 ^ width := Nat.lt_of_le_of_lt Nat.and_le_right low
  rw [← Nat.mod_eq_of_lt bounded, Nat.and_mod_two_pow, Nat.or_mod_two_pow, aligned, Nat.zero_or,
    Nat.mod_eq_of_lt small, Nat.mod_eq_of_lt low]

/-- The high mask clears the flags. -/
theorem and_high {top : Nat} (wide : width ≤ top) (bounded : word < 2 ^ top) :
    word &&& (2 ^ top - 2 ^ width) = word / 2 ^ width * 2 ^ width := by
  have power : 2 ^ top - 2 ^ width = (2 ^ (top - width) - 1) * 2 ^ width := by
    rw [Nat.sub_mul, Nat.one_mul, ← Nat.pow_add, Nat.sub_add_cancel wide]
  apply Nat.eq_of_testBit_eq
  intro bit
  rw [Nat.testBit_and, power, Nat.testBit_mul_two_pow, Nat.testBit_mul_two_pow,
    Nat.testBit_two_pow_sub_one, Nat.testBit_div_two_pow]
  by_cases above : width ≤ bit
  · rw [Nat.sub_add_cancel above]
    by_cases below : bit < top
    · have inside : bit - width < top - width := by omega
      simp only [above, inside, decide_true, Bool.and_true, Bool.true_and]
    · have zero : word.testBit bit = false := Nat.testBit_lt_two_pow
        (Nat.lt_of_lt_of_le bounded (Nat.pow_le_pow_right (by decide) (not_lt.mp below)))
      simp only [zero, Bool.false_and, Bool.and_false]
  · simp only [above, decide_false, Bool.false_and, Bool.and_false]

/-- Masking a combined word gives the address back. -/
theorem or_and_high {top : Nat} (wide : width ≤ top) (aligned : address % 2 ^ width = 0)
    (small : flags < 2 ^ width) (bounded : address + flags < 2 ^ top) :
    (address ||| flags) &&& (2 ^ top - 2 ^ width) = address := by
  rw [aligned_or aligned small, and_high wide bounded, Nat.add_div (Nat.two_pow_pos width),
    aligned, Nat.zero_add, Nat.div_eq_of_lt small, Nat.mod_eq_of_lt small,
    if_neg (by omega), Nat.add_zero]
  have whole := Nat.div_add_mod address (2 ^ width)
  rw [Nat.mul_comm]
  omega

end Bits
