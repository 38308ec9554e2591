import Peachos.Kernel.State

/-! # Strings

`stringos.c` and `memcmp`. A C string is the list of its bytes before the terminator, and
reading at the end of the list gives the terminator.
-/

namespace Peachos

def strlen (ptr : List UInt8) : Nat := ptr.length

/-- A string without a terminator in the first `max` bytes has the length `max`. -/
def strnlen (ptr : List UInt8) (max : Nat) : Nat := min ptr.length max

def toLower (s1 : UInt8) : UInt8 := if 65 ≤ s1 ∧ s1 ≤ 90 then s1 + 32 else s1

/-- Only letters have a letter as their lower case. -/
theorem toLower_eq_iff {character other : UInt8} (noLetter : other < 65 ∨ 122 < other) :
    toLower character = other ↔ character = other := by
  unfold toLower
  simp only [UInt8.le_iff_toNat_le, UInt8.lt_iff_toNat_lt, ← UInt8.toNat_inj] at noLetter ⊢
  simp only [UInt8.reduceToNat] at noLetter ⊢
  split
  next letter =>
    rw [UInt8.toNat_add]
    change (character.toNat + 32) % 256 = other.toNat ↔ _
    omega
  next => rfl

/-- The comparison up to case of at most `n` characters. It ends at a terminator in both strings. -/
def istrncmp : (s1 s2 : List UInt8) → (n : Nat) → Int
  | _, _, 0 => 0
  | s1, s2, n + 1 =>
      let u1 := s1.headD 0
      let u2 := s2.headD 0
      if u1 ≠ u2 ∧ toLower u1 ≠ toLower u2 then (u1.toNat : Int) - u2.toNat
      else if u1 = 0 then 0
      else istrncmp s1.tail s2.tail n

/-- The comparison of at most `n` characters. -/
def strncmp : (s1 s2 : List UInt8) → (n : Nat) → Int
  | _, _, 0 => 0
  | s1, s2, n + 1 =>
      let u1 := s1.headD 0
      let u2 := s2.headD 0
      if u1 ≠ u2 then (u1.toNat : Int) - u2.toNat
      else if u1 = 0 then 0
      else strncmp s1.tail s2.tail n

/-- `strncpy` into an array of `count` bytes: at most `count - 1` bytes, then a zero; the
bytes after it stay. -/
def strncpy (dest src : List UInt8) (count : Nat) : List UInt8 :=
  let copied := src.take (count - 1)
  copied ++ 0 :: dest.drop (copied.length + 1)

def isDigit (c : UInt8) : Bool := 48 ≤ c && c ≤ 57

/-- The value of a digit. Other characters give values outside 0 to 9. -/
def toNumericDigit (c : UInt8) : Int := (c.toNat : Int) - 48

end Peachos
