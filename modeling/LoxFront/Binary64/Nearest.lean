/-
# The nearest magnitude to a fraction

A fraction is rounded to the nearest magnitude, and half way between two of them
to the one of even rank. This is done in exact integer arithmetic: the fraction
is counted in units of `2 ^ -1074`, the width of its binade is read off the
logarithm of that count, and one rounded division gives the place inside the
binade. A place that rounds up to the end of the binade is already the rank of
the first magnitude of the next one, and everything from the end of the last
binade on is infinity.
-/

import LoxFront.Binary64.Basic

namespace LoxFront.Binary64

/-- The quotient rounded to the nearest integer, a half to the even one. -/
def divideToEven (numerator denominator : Nat) : Nat :=
  let quotient := numerator / denominator
  let twice := 2 * (numerator % denominator)
  if twice < denominator then quotient
  else if denominator < twice then quotient + 1
  else quotient + quotient % 2

/-- The magnitude nearest to `numerator / denominator`. -/
def nearest (numerator denominator : Nat) : Magnitude :=
  let scaled := numerator * Nat.pow 2 1074
  let scale := (scaled / denominator).log2 - 52
  let rank := scale * Nat.pow 2 52 + divideToEven scaled (denominator * Nat.pow 2 scale)
  ⟨min rank infiniteRank, Nat.lt_succ_of_le (Nat.min_le_right _ _)⟩

/-- The distance between a magnitude and a fraction, in units of `2 ^ -1074`
divided by the denominator. -/
def distance (numerator denominator : Nat) (magnitude : Magnitude) : Nat :=
  let exact := numerator * Nat.pow 2 1074
  let actual := magnitude.units * denominator
  (exact - actual) + (actual - exact)

/-- What correct rounding means: no magnitude is nearer to the fraction, and any
other one that is as near has an odd rank beside this even one. -/
def IsNearest (numerator denominator : Nat) (magnitude : Magnitude) : Prop :=
  ∀ other : Magnitude,
    distance numerator denominator magnitude ≤ distance numerator denominator other ∧
    (distance numerator denominator magnitude = distance numerator denominator other →
      other = magnitude ∨ magnitude.val % 2 = 0)

end LoxFront.Binary64
