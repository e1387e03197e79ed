/-
# The shortest decimal that reads back

Many decimals round to the same magnitude. Among them this module finds one with
the fewest digits, and of those the one closest to the magnitude itself; if two
are equally close, the even one. The search goes over decimal grids from coarse
to fine, and on each grid only the two neighbours of the magnitude can be the
answer, because the decimals that round to a magnitude form an interval around
it.

Every finite magnitude is itself a multiple of `10 ^ -1074`, so on that grid the
search always ends. A magnitude may be rounded up to the next power of ten, in
which case the digits end in zeros; dropping those is left to the layout of the
text.
-/

import LoxFront.Binary64.Nearest

namespace LoxFront.Binary64

/-- A decimal fraction: `coefficient / 10 ^ 1074`, shifted left by `places`
decimal places. -/
structure Decimal where
  coefficient : Nat
  places : Nat
  deriving DecidableEq

namespace Decimal

/-- The magnitude that the decimal is read as. -/
def rounded (decimal : Decimal) : Magnitude :=
  nearest (decimal.coefficient * Nat.pow 10 decimal.places) (Nat.pow 10 1074)

end Decimal

namespace Magnitude

/-- The value of a magnitude in multiples of `10 ^ -1074`, which is exact. -/
def decimalUnits (magnitude : Magnitude) : Nat :=
  magnitude.units * Nat.pow 5 1074

/-- The neighbour of the magnitude on the grid of multiples of
`10 ^ places / 10 ^ 1074` that reads back as the magnitude: the nearer one if both
do, and the even one if both are equally near. -/
def onGrid? (magnitude : Magnitude) (places : Nat) : Option Decimal :=
  let exact := magnitude.decimalUnits
  let below : Decimal := ⟨exact / Nat.pow 10 places, places⟩
  let above : Decimal := ⟨exact / Nat.pow 10 places + 1, places⟩
  let nearer : Decimal := ⟨divideToEven exact (Nat.pow 10 places), places⟩
  if below.rounded = magnitude then
    if above.rounded = magnitude then some nearer else some below
  else
    if above.rounded = magnitude then some above else none

/-- The first answer on the grids from `places` downwards, and the exact value if
there is none before. -/
def shortestFrom (magnitude : Magnitude) : Nat → Decimal
  | 0 => ⟨magnitude.decimalUnits, 0⟩
  | places + 1 => (magnitude.onGrid? (places + 1)).getD (magnitude.shortestFrom places)

/-- The shortest decimal that reads back as the magnitude. The coarsest grid that
is tried leaves one digit of it. -/
def shortest (magnitude : Magnitude) : Decimal :=
  magnitude.shortestFrom ((Nat.toDigits 10 magnitude.decimalUnits).length - 1)

end Magnitude

end LoxFront.Binary64
