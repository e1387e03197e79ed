/-
# Reading numerals

A numeral is a row of decimal digits, possibly followed by a point and a second
row. It stands for the magnitude nearest to the fraction that it denotes, so its
value is never negative and never fails to be a number, though it may be
infinite. The rows may be of any length.
-/

import LoxFront.Binary64.Nearest

namespace LoxFront.Binary64

/-- The value of two rows of digits with a point between them. -/
def ofDigits (whole fraction : List Char) : Binary64 :=
  .signed false (nearest (Nat.ofDigitChars 10 (whole ++ fraction) 0) (Nat.pow 10 fraction.length))

/-- The value of a text that is a numeral. A row without a digit makes it none. -/
def ofNumeral? (text : List Char) : Option Binary64 :=
  let whole := text.takeWhile Char.isDigit
  if whole.isEmpty then none
  else
    match text.dropWhile Char.isDigit with
    | [] => some (ofDigits whole [])
    | '.' :: fraction =>
      if !fraction.isEmpty && fraction.all Char.isDigit then some (ofDigits whole fraction)
      else none
    | _ => none

end LoxFront.Binary64
