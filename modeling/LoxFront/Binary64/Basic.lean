/-
# Binary floating point values of sixty-four bits

A magnitude is represented by its *rank*: magnitudes are numbered upwards from
zero, through the subnormal and the normal ones, to infinity. Rank order is the
order of the values, the successor of a rank is the next representable value,
and the carry from one binade into the next is plain addition. The rank is also
the bit pattern of the value without its sign, so nothing is lost in passing
between the two.

All values that are not a number are one value here, since nothing in the
language can tell two of them apart. Arithmetic is left out: the front end reads
numbers, compares them and writes them, and computes nothing with them.
-/

namespace LoxFront

namespace Binary64

/-- The rank of infinity: there are `2047` binades of `2 ^ 52` magnitudes each
below it, the first of which starts at zero. -/
def infiniteRank : Nat := 2047 * Nat.pow 2 52

/-- A magnitude, given by its place in the increasing list of all of them. -/
abbrev Magnitude := Fin (infiniteRank + 1)

namespace Magnitude

/-- The zero magnitude. -/
def zero : Magnitude := ⟨0, by decide⟩

/-- The infinite magnitude. -/
def infinity : Magnitude := ⟨infiniteRank, by decide⟩

/-- The value of a magnitude in multiples of the smallest positive one,
`2 ^ -1074`. In the first binade, and in the one after it, neighbours differ by
one such unit; in every further binade they differ by twice as much as in the
binade before. Infinity stands for `2 ^ 1024`, the value that would follow the
largest finite one. -/
def units (magnitude : Magnitude) : Nat :=
  let binade := magnitude.val / Nat.pow 2 52
  let place := magnitude.val % Nat.pow 2 52
  if binade = 0 then place else (Nat.pow 2 52 + place) * Nat.pow 2 (binade - 1)

/-- Whether the magnitude is a whole number. Infinity is not one. -/
def isIntegral (magnitude : Magnitude) : Bool :=
  magnitude != infinity && magnitude.units % Nat.pow 2 1074 == 0

/-- The part of a finite magnitude before the point. -/
def integerPart (magnitude : Magnitude) : Nat :=
  magnitude.units / Nat.pow 2 1074

end Magnitude

end Binary64

/-- A floating point value: either not a number, or a magnitude with a sign.
Zero has two signs. -/
inductive Binary64 where
  | nan
  | signed (negative : Bool) (magnitude : Binary64.Magnitude)
  deriving DecidableEq

namespace Binary64

/-- The value with the given sixty-four bits, the sign first, then eleven bits of
exponent and fifty-two of fraction. Magnitudes beyond infinity are not numbers. -/
def ofBits (bits : BitVec 64) : Binary64 :=
  let rank := bits.toNat % Nat.pow 2 63
  if h : rank < infiniteRank + 1 then .signed bits.msb ⟨rank, h⟩ else .nan

/-- The bits of a value. What is not a number has the quiet pattern with a clear
sign and an otherwise empty fraction. -/
def toBits : Binary64 → BitVec 64
  | .nan => 0x7ff8000000000000#64
  | .signed negative magnitude =>
    BitVec.ofNat 64 (magnitude.val + if negative then Nat.pow 2 63 else 0)

/-- Equality of values as numbers: the two zeros are equal, and what is not a
number equals nothing, not even itself. -/
def equals : Binary64 → Binary64 → Bool
  | .signed negative₁ magnitude₁, .signed negative₂ magnitude₂ =>
    magnitude₁ == magnitude₂ && (negative₁ == negative₂ || magnitude₁ == Magnitude.zero)
  | _, _ => false

end Binary64

end LoxFront
