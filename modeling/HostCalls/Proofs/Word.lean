import HostCalls.Word
import Mathlib.Algebra.Group.Nat.Defs

/-!
# Bit fields as numbers

Instruction words are put together and taken apart by masks and shifts. Read as numbers, these are
remainders, quotients and sums:

* `Word.toNat_and_low` and `Word.toNat_and_high` keep the lower or the upper bits of a word,
* `Word.toNat_shiftLeft` and `Word.toNat_shiftRight` move bits by a constant,
* `Word.toNat_or` joins words that have no bits in common.

Facts about fields are then left to linear arithmetic.
-/

namespace HostCalls

/-- Keeping the bits from `n` on rounds down to a multiple of `2 ^ n`. -/
theorem and_two_pow_sub_two_pow {x k n : Nat} (hx : x < 2 ^ k) (hn : n ≤ k) :
    x &&& (2 ^ k - 2 ^ n) = 2 ^ n * (x / 2 ^ n) := by
  have hMask : 2 ^ k - 2 ^ n = 2 ^ n * (2 ^ (k - n) - 1) := by
    rw [Nat.mul_sub, ← Nat.pow_add, Nat.mul_one, show n + (k - n) = k by omega]
  rw [hMask]
  apply Nat.eq_of_testBit_eq
  intro i
  rw [Nat.testBit_and, Nat.testBit_two_pow_mul, Nat.testBit_two_pow_mul,
    Nat.testBit_two_pow_sub_one, Nat.testBit_div_two_pow]
  by_cases hLow : n ≤ i
  · by_cases hHigh : i < k
    · simp [hLow, show i - n < k - n by omega]
    · have hBit : x.testBit i = false := by
        apply Nat.testBit_lt_two_pow
        calc
          x < 2 ^ k := hx
          _ ≤ 2 ^ i := Nat.pow_le_pow_right (by omega) (by omega)
      simp [hLow, hBit]
  · simp [hLow]

namespace Word

theorem toNat_and_low {w mask : Word} (n : Nat) (hMask : mask.toNat = 2 ^ n - 1) :
    (w &&& mask).toNat = w.toNat % 2 ^ n := by
  rw [UInt32.toNat_and, hMask, Nat.and_two_pow_sub_one_eq_mod]

theorem toNat_and_high {w mask : Word} (n : Nat) (hMask : mask.toNat = 2 ^ 32 - 2 ^ n)
    (hn : n ≤ 32) : (w &&& mask).toNat = 2 ^ n * (w.toNat / 2 ^ n) := by
  rw [UInt32.toNat_and, hMask]
  exact and_two_pow_sub_two_pow w.toNat_lt hn

theorem toNat_shiftRight {w places : Word} (n : Nat) (hShift : places.toNat = n) (hn : n < 32) :
    (w >>> places).toNat = w.toNat / 2 ^ n := by
  rw [UInt32.toNat_shiftRight, hShift, Nat.mod_eq_of_lt hn, Nat.shiftRight_eq_div_pow]

/-- A shift to the left multiplies as long as no bit is lost. -/
theorem toNat_shiftLeft {w places : Word} (n : Nat) (hShift : places.toNat = n) (hn : n < 32)
    (hFits : w.toNat * 2 ^ n < 2 ^ 32) : (w <<< places).toNat = w.toNat * 2 ^ n := by
  rw [UInt32.toNat_shiftLeft, hShift, Nat.mod_eq_of_lt hn, Nat.shiftLeft_eq,
    Nat.mod_eq_of_lt hFits]

theorem toNat_or {high low : Word} (n : Nat) (hHigh : high.toNat % 2 ^ n = 0)
    (hLow : low.toNat < 2 ^ n) : (high ||| low).toNat = high.toNat + low.toNat := by
  have hMultiple : high.toNat = 2 ^ n * (high.toNat / 2 ^ n) := by
    have h := Nat.div_add_mod high.toNat (2 ^ n)
    omega
  rw [UInt32.toNat_or, hMultiple, ← Nat.two_pow_add_eq_or_of_lt hLow, ← hMultiple]

end Word
end HostCalls
