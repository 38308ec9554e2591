import Mathlib.Data.Int.Init
import Mathlib.Data.Nat.Bitwise
import Mathlib.Tactic.Ring

/-! # Fixed-width C integers as numbers

Values of `uint32_t` and `size_t` are natural numbers below `2 ^ 32` and values of
`int` are integers in `[-2 ^ 31, 2 ^ 31)`. A C expression is evaluated exactly and
then brought back into its type by `u32` or `i32`, so a wrap-around is visible in
the definitions that can produce one and disappears by the range lemmas in those
that cannot. Division and remainder of `int` truncate towards zero
(`Int.tdiv`, `Int.tmod`).
-/

namespace CInt

/-- Conversion to a 32-bit unsigned integer. -/
def u32 (value : Int) : Nat := (value % 4294967296).toNat

/-- Conversion to a 32-bit two's complement integer. -/
def i32 (value : Int) : Int := (value + 2147483648) % 4294967296 - 2147483648

theorem u32_lt (value : Int) : u32 value < 4294967296 := by
  unfold u32
  omega

/-- A value in range is its own unsigned conversion. -/
theorem u32_natCast {value : Nat} (small : value < 4294967296) : u32 value = value := by
  unfold u32
  omega

theorem u32_of_nonneg {value : Int} (nonneg : 0 ≤ value) (small : value < 4294967296) :
    u32 value = value.toNat := by
  unfold u32
  omega

/-- A value in range is its own signed conversion. -/
theorem i32_of_range {value : Int} (lower : -2147483648 ≤ value) (upper : value < 2147483648) :
    i32 value = value := by
  unfold i32
  omega

theorem i32_natCast {value : Nat} (small : value < 2147483648) : i32 value = value :=
  i32_of_range (by omega) (by omega)

theorem i32_lower (value : Int) : -2147483648 ≤ i32 value := by
  unfold i32
  omega

theorem i32_upper (value : Int) : i32 value < 2147483648 := by
  unfold i32
  omega

/-- The signed conversion differs from the value by a multiple of the word size. -/
theorem i32_emod (value : Int) : i32 value % 4294967296 = value % 4294967296 := by
  unfold i32
  omega

theorem u32_i32 (value : Int) : u32 (i32 value) = u32 value := by
  unfold u32
  rw [i32_emod]

theorem u32_i32_add (value added : Int) : u32 (i32 value + added) = u32 (value + added) := by
  unfold u32 i32
  omega

end CInt
