import Mathlib.Algebra.Order.Ring.Nat
import Mathlib.Tactic.Ring

/-!
# Rounding to a number of bits

A number is rounded to the nearest one of at most `precision` significant
bits, of two to the even one.  Numbers up to `2 ^ precision` are kept, and
rounding is monotone.
-/

namespace LtlsKitting.Formats

/-- The unit in the last place of a number. -/
def lastPlace (precision size : Nat) : Nat :=
  2 ^ (size.log2 + 1 - precision)

/-- The nearest number of at most so many significant bits; of two, the even
one. -/
def roundBits (precision size : Nat) : Nat :=
  let unit := lastPlace precision size
  let low := size / unit
  let rest := size % unit
  if unit < 2 * rest ∨ unit = 2 * rest ∧ low % 2 = 1 then
    (low + 1) * unit
  else
    low * unit

section

variable {precision : Nat}

theorem lastPlace_pos (precision size : Nat) : 0 < lastPlace precision size :=
  Nat.two_pow_pos _

theorem roundBits_of_dvd {size : Nat} (whole : lastPlace precision size ∣ size) :
    roundBits precision size = size := by
  have noRest : size % lastPlace precision size = 0 :=
    Nat.mod_eq_zero_of_dvd whole
  have positive := lastPlace_pos precision size
  simp only [roundBits, noRest]
  rw [if_neg (by omega), Nat.div_mul_cancel whole]

/-- Small numbers are kept. -/
theorem roundBits_of_le (positive : 0 < precision) {size : Nat}
    (small : size ≤ 2 ^ precision) : roundBits precision size = size := by
  apply roundBits_of_dvd
  by_cases zero : size = 0
  · rw [zero]
    exact Nat.dvd_zero _
  · rcases Nat.lt_or_eq_of_le small with below | isBound
    · have bits : size.log2 < precision := (Nat.log2_lt zero).mpr below
      have unit : lastPlace precision size = 1 := by
        rw [lastPlace, show size.log2 + 1 - precision = 0 by omega]
        rfl
      rw [unit]
      exact Nat.one_dvd _
    · rw [isBound, lastPlace, Nat.log2_two_pow]
      exact Nat.pow_dvd_pow 2 (by omega)

/-- The power of two below a number is a multiple of its unit, and so is the
one above. -/
theorem lastPlace_scale (positive : 0 < precision) (size : Nat) :
    ∃ places, 2 ^ size.log2 = places * lastPlace precision size ∧
      2 ^ (size.log2 + 1) = (2 * places) * lastPlace precision size := by
  obtain ⟨places, isMultiple⟩ : lastPlace precision size ∣ 2 ^ size.log2 :=
    Nat.pow_dvd_pow 2 (by omega)
  refine ⟨places, ?_, ?_⟩
  · rw [isMultiple, Nat.mul_comm]
  · rw [Nat.pow_succ, isMultiple]
    ring

/-- Rounding stays between the powers of two. -/
theorem pow_log2_le_roundBits (positive : 0 < precision) {size : Nat}
    (nonzero : size ≠ 0) : 2 ^ size.log2 ≤ roundBits precision size := by
  obtain ⟨places, scale, _⟩ := @lastPlace_scale precision positive size
  have low : places ≤ size / lastPlace precision size := by
    rw [Nat.le_div_iff_mul_le (lastPlace_pos ..), ← scale]
    exact Nat.log2_self_le nonzero
  have whole := Nat.mul_le_mul_right (lastPlace precision size) low
  rw [scale]
  simp only [roundBits]
  split
  · rw [Nat.add_mul]
    omega
  · exact whole

theorem roundBits_le_pow_log2 (positive : 0 < precision) (size : Nat) :
    roundBits precision size ≤ 2 ^ (size.log2 + 1) := by
  obtain ⟨places, _, scale⟩ := @lastPlace_scale precision positive size
  have low : size / lastPlace precision size < 2 * places := by
    rw [Nat.div_lt_iff_lt_mul (lastPlace_pos ..), ← scale]
    exact Nat.lt_log2_self
  have next := Nat.mul_le_mul_right (lastPlace precision size) low
  rw [scale]
  simp only [roundBits]
  split
  · exact next
  · rw [Nat.succ_mul] at next
    omega

/-- Rounding is monotone. -/
theorem roundBits_mono (positive : 0 < precision) {small large : Nat}
    (ordered : small ≤ large) :
    roundBits precision small ≤ roundBits precision large := by
  by_cases zero : small = 0
  · rw [zero, roundBits_of_le positive (Nat.zero_le _)]
    exact Nat.zero_le _
  have bits : small.log2 ≤ large.log2 :=
    (Nat.le_log2 (by omega)).mpr
      (Nat.le_trans (Nat.log2_self_le zero) ordered)
  rcases Nat.lt_or_eq_of_le bits with fewer | same
  · calc
      roundBits precision small ≤ 2 ^ (small.log2 + 1) :=
        roundBits_le_pow_log2 positive small
      _ ≤ 2 ^ large.log2 := Nat.pow_le_pow_right (by decide) fewer
      _ ≤ roundBits precision large :=
        pow_log2_le_roundBits positive (by omega)
  · -- Both numbers have the same unit.
    have unit : lastPlace precision large = lastPlace precision small := by
      rw [lastPlace, lastPlace, same]
    have lows :
        small / lastPlace precision small ≤
          large / lastPlace precision small :=
      Nat.div_le_div_right ordered
    have smallParts := Nat.div_add_mod small (lastPlace precision small)
    have largeParts := Nat.div_add_mod large (lastPlace precision small)
    simp only [roundBits, unit, Nat.add_mul, Nat.one_mul]
    rcases Nat.lt_or_eq_of_le lows with less | equal
    · have next := Nat.mul_le_mul_right (lastPlace precision small) less
      rw [Nat.succ_mul] at next
      split <;> split <;> omega
    · have rests :
          small % lastPlace precision small ≤
            large % lastPlace precision small := by
        rw [equal] at smallParts
        omega
      rw [equal]
      split <;> split <;> omega

end

/-! ## Integers -/

/-- An integer is rounded by its absolute value. -/
def roundSigned (precision : Nat) (value : Int) : Int :=
  if value < 0 then
    -(roundBits precision value.natAbs : Int)
  else
    roundBits precision value.natAbs

section

variable {precision : Nat}

theorem roundSigned_of_le (positive : 0 < precision) {value : Int}
    (small : value.natAbs ≤ 2 ^ precision) :
    roundSigned precision value = value := by
  simp only [roundSigned, roundBits_of_le positive small]
  split <;> omega

theorem roundSigned_mono (positive : 0 < precision) {small large : Int}
    (ordered : small ≤ large) :
    roundSigned precision small ≤ roundSigned precision large := by
  simp only [roundSigned]
  split
  next negative =>
    split
    next bothNegative =>
      have sizes : large.natAbs ≤ small.natAbs := by omega
      have rounded := @roundBits_mono precision positive _ _ sizes
      omega
    next => omega
  next nonnegative =>
    have sizes : small.natAbs ≤ large.natAbs := by omega
    have rounded := @roundBits_mono precision positive _ _ sizes
    rw [if_neg (by omega)]
    omega

end

end LtlsKitting.Formats
