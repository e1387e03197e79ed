/-
# Reading numbers in free form

A numeral has one shape only. A number in free form may have blanks around it, a
sign, single underscores between digits, no digits on one side of the point, and
an exponent. It is read to the nearest value as well, and its exponent may be of
any size, since far beyond the range of the magnitudes only the outcome counts.

Blanks may be of any kind and digits of any script, even mixed. Both are put into
plain spelling before anything else is looked at. All other characters stand for
themselves only. Every numeral is a number in free form with the same value.
-/

import LoxFront.Binary64.Numeral
import LoxFront.Text.Blank
import LoxFront.Text.DecimalDigit

namespace LoxFront.Binary64

/-- The plain spelling of a character: a space for a blank, and the common digit for
a digit of any script. -/
def plain (c : Char) : Char :=
  if isBlank c then ' '
  else
    match digitValue? c with
    | some value => Nat.digitChar value
    | none => c

/-- The digits after a digit, without the underscores between them, and what
follows. -/
def moreDigits : List Char → List Char × List Char
  | [] => ([], [])
  | '_' :: c :: rest =>
    if c.isDigit then
      let (digits, others) := moreDigits rest
      (c :: digits, others)
    else ([], '_' :: c :: rest)
  | c :: rest =>
    if c.isDigit then
      let (digits, others) := moreDigits rest
      (c :: digits, others)
    else ([], c :: rest)

/-- A row of digits, without the underscores between them, and what follows. -/
def digitRow : List Char → List Char × List Char
  | [] => ([], [])
  | c :: rest => if c.isDigit then moreDigits (c :: rest) else ([], c :: rest)

/-- Whether there is a minus sign in front, and what follows the sign. -/
def signAhead : List Char → Bool × List Char
  | '-' :: rest => (true, rest)
  | '+' :: rest => (false, rest)
  | rest => (false, rest)

/-- The fraction after a point, if there is a point, and what follows. -/
def fractionAhead : List Char → List Char × List Char
  | '.' :: rest => digitRow rest
  | rest => ([], rest)

/-- The exponent in front of a text, which is zero if there is none, and what
follows. An exponent without digits is a mistake. -/
def exponentAhead? (text : List Char) : Option (Int × List Char) :=
  match text with
  | 'e' :: rest | 'E' :: rest =>
    let (negative, rest) := signAhead rest
    let (digits, rest) := digitRow rest
    let size : Int := Nat.ofDigitChars 10 digits 0
    if digits.isEmpty then none else some (if negative then -size else size, rest)
  | _ => some (0, text)

/-- The magnitude nearest to a row of digits times a power of ten. Powers are cut
off where the magnitude is zero or infinite anyway. -/
def scaled (digits : List Char) (exponent : Int) : Magnitude :=
  let coefficient := Nat.ofDigitChars 10 digits 0
  if 0 ≤ exponent then nearest (coefficient * Nat.pow 10 (min exponent.toNat 400)) 1
  else nearest coefficient (Nat.pow 10 (min (-exponent).toNat (digits.length + 400)))

/-- The value of a text that is a number in free form. -/
def ofFreeForm? (text : List Char) : Option Binary64 :=
  let (negative, rest) := signAhead ((text.map plain).dropWhile (· == ' '))
  let (whole, rest) := digitRow rest
  let (fraction, rest) := fractionAhead rest
  match exponentAhead? rest with
  | none => none
  | some (exponent, rest) =>
    if (whole ++ fraction).isEmpty || !rest.all (· == ' ') then none
    else some (.signed negative (scaled (whole ++ fraction) (exponent - fraction.length)))

/-- The value of a text that is a numeral or else a number in free form. -/
def ofText? (text : List Char) : Option Binary64 :=
  match ofNumeral? text with
  | some value => some value
  | none => ofFreeForm? text

end LoxFront.Binary64
