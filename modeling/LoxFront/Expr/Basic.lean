/-
# Expression trees

A tree is what the grammar makes of a row of tokens. Groups stay visible in it,
although they do not change what an expression means. Operators are the tokens
themselves, with their lines. A literal without a value is possible for trees
that were put together by hand; it stands for `nil`.
-/

import LoxFront.Token.Basic

namespace LoxFront

/-- An expression. -/
inductive Expr where
  | literal (value : Option Literal)
  | grouping (inner : Expr)
  | unary (operator : Token) (operand : Expr)
  | binary (left : Expr) (operator : Token) (right : Expr)
  deriving DecidableEq

namespace Expr

/-- The number of groups and prefixed operators on the deepest path of a tree.
Chains of operators between operands do not count. -/
def nesting : Expr → Nat
  | .literal _ => 0
  | .grouping inner => inner.nesting + 1
  | .unary _ operand => operand.nesting + 1
  | .binary left _ right => max left.nesting right.nesting

end Expr

end LoxFront
