/-
# Quoted text

A quoted text shows all characters of a text on one line and says where it begins
and ends. It stands between single quotes, or between double ones if the text has
single quotes in it and no double ones. The backslash and the quote around the text
are written with a backslash in front. Tabulators and the two common line ends are
written with a letter, and every other character that is not printable by the
hexadecimal digits of its code point: two, four or eight of them, as many as it
needs.
-/

import LoxFront.Text.Printable

namespace LoxFront

/-- A number in hexadecimal digits, filled with zeros in front up to a width. -/
def hexadecimal (width number : Nat) : List Char :=
  let digits := Nat.toDigits 16 number
  List.replicate (width - digits.length) '0' ++ digits

/-- A character by its code point. -/
def escapedCode (c : Char) : List Char :=
  if c.toNat < 0x100 then '\\' :: 'x' :: hexadecimal 2 c.toNat
  else if c.toNat < 0x10000 then '\\' :: 'u' :: hexadecimal 4 c.toNat
  else '\\' :: 'U' :: hexadecimal 8 c.toNat

/-- A character between quotes of a kind. -/
def quotedChar (quote c : Char) : List Char :=
  if c == '\\' || c == quote then ['\\', c]
  else if c == '\t' then ['\\', 't']
  else if c == '\n' then ['\\', 'n']
  else if c == '\r' then ['\\', 'r']
  else if isPrintable c then [c]
  else escapedCode c

/-- The quote to put around a text. -/
def quoteFor (text : List Char) : Char :=
  if text.contains '\'' && !text.contains '"' then '"' else '\''

/-- A text between quotes. -/
def quoted (text : String) : String :=
  let quote := quoteFor text.toList
  String.ofList (quote :: (text.toList.flatMap (quotedChar quote) ++ [quote]))

end LoxFront
