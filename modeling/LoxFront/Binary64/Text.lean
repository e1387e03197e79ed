/-
# The text of a floating point value

Whole numbers are written exactly, however large, with neither point nor
exponent, and zero has no sign. Every other finite value is written with the
fewest digits that read back as it. From one ten-thousandth upwards these stand
around a point; smaller values have an exponent of at least two digits.
-/

import LoxFront.Binary64.Shortest

namespace LoxFront.Binary64

/-- The digits of a positive decimal from the first to the last one that is not
zero, and the position of the point: with digits `d₁ … dₙ` and position `p` the
value is `0.d₁ … dₙ` times the `p`-th power of ten. -/
def Decimal.digits (decimal : Decimal) : List Char × Int :=
  let all := Nat.toDigits 10 decimal.coefficient
  ((all.reverse.dropWhile (· == '0')).reverse, (all.length : Int) + decimal.places - 1074)

/-- Digits around a point at a position of their own or to the left of them. -/
def pointed (digits : List Char) (position : Int) : String :=
  if position ≤ 0 then
    "0." ++ String.ofList (List.replicate (-position).toNat '0' ++ digits)
  else
    String.ofList (digits.take position.toNat) ++ "." ++
      String.ofList (digits.drop position.toNat)

/-- Digits with a negative exponent: one digit before the point, which is left out
where no other digit follows. -/
def withExponent (digits : List Char) (position : Int) : String :=
  let exponent := toString (1 - position).toNat
  let leading := String.ofList (digits.take 1)
  let following := match digits.drop 1 with
    | [] => ""
    | more => "." ++ String.ofList more
  leading ++ following ++ "e-" ++ (if exponent.length < 2 then "0" ++ exponent else exponent)

/-- The text of a positive decimal that is not a whole number. -/
def Decimal.toText (decimal : Decimal) : String :=
  let (digits, position) := decimal.digits
  if -4 < position then pointed digits position else withExponent digits position

/-- The text of a magnitude. -/
def Magnitude.toText (magnitude : Magnitude) : String :=
  if magnitude = Magnitude.infinity then "inf"
  else if magnitude.isIntegral then toString magnitude.integerPart
  else magnitude.shortest.toText

/-- The text of a value. -/
def toText : Binary64 → String
  | .nan => "nan"
  | .signed negative magnitude =>
    if negative && magnitude != Magnitude.zero then "-" ++ magnitude.toText
    else magnitude.toText

end LoxFront.Binary64
