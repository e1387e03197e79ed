/-
# Tables of characters

A property of characters that has no simple rule is given as a table of closed
ranges of code points, ascending and apart from each other. Whether a character has
the property is then a look at the table, and the size of the table is a check that
nothing was left out of it.
-/

namespace LoxFront

/-- Closed ranges of code points. -/
abbrev CodeRanges := List (Nat × Nat)

namespace CodeRanges

/-- Whether a character lies in one of the ranges. -/
def contains (ranges : CodeRanges) (c : Char) : Bool :=
  ranges.any fun range => range.1 ≤ c.toNat && c.toNat ≤ range.2

/-- Whether the ranges ascend and no two of them touch. -/
def ascending : CodeRanges → Bool
  | [] => true
  | [range] => range.1 ≤ range.2
  | range :: next :: others =>
    range.1 ≤ range.2 && range.2 + 1 < next.1 && ascending (next :: others)

/-- How many code points lie in the ranges. -/
def size (ranges : CodeRanges) : Nat :=
  ranges.foldr (fun range others => range.2 + 1 - range.1 + others) 0

end CodeRanges

end LoxFront
