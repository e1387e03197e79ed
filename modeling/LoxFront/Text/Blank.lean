/-
# Blanks

A blank is a character with the property White_Space of Unicode: spaces of any
width, tabulators, and whatever ends a line, a page or a paragraph. The property
has been the same since version 6.3.
-/

import LoxFront.Text.Ranges

namespace LoxFront

/-- The code points of all blanks. -/
def blankRanges : CodeRanges :=
  [(0x9, 0xD), (0x20, 0x20), (0x85, 0x85), (0xA0, 0xA0), (0x1680, 0x1680), (0x2000, 0x200A),
   (0x2028, 0x2029), (0x202F, 0x202F), (0x205F, 0x205F), (0x3000, 0x3000)]

example : blankRanges.ascending = true := by decide

example : blankRanges.size = 25 := by decide

/-- Whether a character is a blank. -/
def isBlank (c : Char) : Bool := blankRanges.contains c

end LoxFront
