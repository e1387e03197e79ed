/-
# Values as rational numbers

Magnitudes and numerals both stand for numbers, and here these are rational numbers: a finite
magnitude is a number of units, and the rows of a numeral are the digits before and behind the
point. With this, correct rounding can be said without counting in units: below the midpoint
that infinity begins with, no finite magnitude is nearer than the rounded one, and one that is
as near has an odd rank, or is the same.
-/

import Mathlib.Algebra.Order.Field.Basic
import Mathlib.Data.Rat.Cast.Order
import Mathlib.Tactic.FieldSimp
import LoxFront.Proofs.Binary64.Numeral
import LoxFront.Proofs.Binary64.Rounding

namespace LoxFront.Binary64

/-- The number that a finite magnitude is. -/
def Magnitude.value (magnitude : Magnitude) : ℚ :=
  magnitude.units / unitsPerOne

/-- The number that a numeral denotes by its rows of digits. -/
def numeralValue (whole fraction : List Char) : ℚ :=
  Nat.ofDigitChars 10 whole 0 + Nat.ofDigitChars 10 fraction 0 / 10 ^ fraction.length

/-- A magnitude is the correctly rounded value of a number: the nearest finite one, half way
between two of them the one of even rank, and infinity from the midpoint on that lies between
the largest finite magnitude and the next power of two. -/
structure IsRounded (exact : ℚ) (magnitude : Magnitude) : Prop where
  infinite : magnitude = Magnitude.infinity ↔ overflow ≤ exact
  nearest : magnitude ≠ Magnitude.infinity → ∀ other ≠ Magnitude.infinity,
    |magnitude.value - exact| ≤ |other.value - exact|
  even : magnitude ≠ Magnitude.infinity → ∀ other ≠ Magnitude.infinity,
    |magnitude.value - exact| = |other.value - exact| → other = magnitude ∨ magnitude.val % 2 = 0

/-- What is left of each of two numbers without the other is how far apart they are. -/
theorem cast_sub_add_sub (first second : Nat) :
    (((first - second) + (second - first) : Nat) : ℚ) = |(second : ℚ) - first| := by
  rcases Nat.le_total first second with less | less
  · rw [Nat.sub_eq_zero_of_le less, Nat.zero_add, Nat.cast_sub less,
      abs_of_nonneg (sub_nonneg.mpr (Nat.cast_le.mpr less))]
  · rw [Nat.sub_eq_zero_of_le less, Nat.add_zero, Nat.cast_sub less, abs_sub_comm,
      abs_of_nonneg (sub_nonneg.mpr (Nat.cast_le.mpr less))]

section Fraction

variable {numerator denominator : Nat}

/-- Distances in units are differences between rational numbers. -/
theorem abs_value_sub (positive : 0 < denominator) (magnitude : Magnitude) :
    |magnitude.value - numerator / denominator| =
      distance numerator denominator magnitude / (unitsPerOne * denominator) := by
  have unit : (0 : ℚ) < unitsPerOne := Nat.cast_pos.mpr unitsPerOne_pos
  have divisor : (0 : ℚ) < denominator := Nat.cast_pos.mpr positive
  rw [distance_eq, distanceAt, cast_sub_add_sub, Magnitude.value, ← Magnitude.units_eq,
    div_sub_div _ _ unit.ne' divisor.ne', abs_div, abs_of_pos (mul_pos unit divisor),
    Nat.cast_mul, Nat.cast_mul, mul_comm (numerator : ℚ)]

/-- The magnitude that a fraction is rounded to is its correctly rounded value. -/
theorem isRounded_nearest (numerator : Nat) (positive : 0 < denominator) :
    IsRounded (numerator / denominator) (nearest numerator denominator) := by
  have isNearest := isNearest_nearest numerator positive
  have divisor : (0 : ℚ) < denominator := Nat.cast_pos.mpr positive
  have scale : (0 : ℚ) < unitsPerOne * denominator :=
    mul_pos (Nat.cast_pos.mpr unitsPerOne_pos) divisor
  constructor
  · rw [nearest_eq_infinity_iff positive, le_div_iff₀ divisor, ← Nat.cast_mul, Nat.cast_le]
  · intro _ other _
    rw [abs_value_sub positive, abs_value_sub positive]
    exact div_le_div_of_nonneg_right (Nat.cast_le.mpr (isNearest other).1) scale.le
  · intro _ other _ same
    rw [abs_value_sub positive, abs_value_sub positive, div_left_inj' scale.ne',
      Nat.cast_inj] at same
    exact (isNearest other).2 same

end Fraction

/-- The rows of a numeral are read as one row and divided by a power of ten. -/
theorem numeralValue_eq (whole fraction : List Char) :
    numeralValue whole fraction =
      (Nat.ofDigitChars 10 (whole ++ fraction) 0 : Nat) / (10 ^ fraction.length : Nat) := by
  have power : (0 : ℚ) < 10 ^ fraction.length := by positivity
  have behind := @Nat.ofDigitChars_eq_ofDigitChars_zero fraction (Nat.ofDigitChars 10 whole 0)
  rw [numeralValue, Nat.ofDigitChars_append, behind]
  push_cast
  field_simp

/-- The value of a numeral has no sign and is correctly rounded. -/
theorem exists_isRounded_ofDigits (whole fraction : List Char) :
    ∃ magnitude, ofDigits whole fraction = .signed false magnitude ∧
      IsRounded (numeralValue whole fraction) magnitude := by
  refine ⟨_, rfl, ?_⟩
  rw [numeralValue_eq]
  exact isRounded_nearest _ (Nat.pow_pos (by decide))

namespace Magnitude

variable {magnitude : Magnitude}

/-- A magnitude is a natural number if its units are those of this number. -/
theorem value_eq_natCast_iff {number : Nat} :
    magnitude.value = number ↔ magnitude.units = number * unitsPerOne := by
  have unit : (unitsPerOne : ℚ) ≠ 0 := Nat.cast_ne_zero.mpr unitsPerOne_pos.ne'
  rw [value, div_eq_iff unit, ← Nat.cast_mul, Nat.cast_inj]

/-- Whether a magnitude is at least one ten-thousandth can be seen from its units. -/
theorem ten_thousandth_le_value_iff :
    1 / 10000 ≤ magnitude.value ↔ unitsPerOne ≤ 10000 * magnitude.units := by
  rw [value, div_le_div_iff₀ (by norm_num) (Nat.cast_pos.mpr unitsPerOne_pos), one_mul,
    Nat.mul_comm]
  norm_cast

end Magnitude

end LoxFront.Binary64
