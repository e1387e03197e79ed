/-
# Expressions inside larger ones

An expression becomes an operand by being put between parentheses: a group is primary,
and a primary expression stands on every level. Two groups with an operator between them
are therefore an expression, whichever operator it is and whatever stands in the groups.

In a larger text an expression stands on other lines. A tree keeps the lines of its
operators, so it changes with them, but neither its nesting nor its printed form does.
-/

import LoxFront.Proofs.Expr.Printing
import LoxFront.Proofs.Grammar.Frontier
import LoxFront.Proofs.Source.Concatenation

namespace LoxFront

/-- Every operator between operands belongs to a level. -/
theorem TokenKind.exists_mem_operators {kind : TokenKind} (operator : kind ∈ binaryOperators) :
    ∃ level : BinaryLevel, kind ∈ level.operators := by
  obtain ⟨level, -, member⟩ := List.mem_flatMap.mp operator
  exact ⟨level, member⟩

/-- The tree with its operators some lines further down. -/
def Expr.movedDown (lines : Nat) : Expr → Expr
  | .literal value => .literal value
  | .grouping inner => .grouping (inner.movedDown lines)
  | .unary operator operand => .unary (operator.movedDown lines) (operand.movedDown lines)
  | .binary left operator right =>
    .binary (left.movedDown lines) (operator.movedDown lines) (right.movedDown lines)

namespace Expr

@[simp]
theorem nesting_movedDown (lines : Nat) (expr : Expr) :
    (expr.movedDown lines).nesting = expr.nesting := by
  induction expr with
  | literal value => rfl
  | grouping inner ih | unary operator inner ih => rw [movedDown, nesting, ih, nesting]
  | binary left operator right ihLeft ihRight =>
      rw [movedDown, nesting, ihLeft, ihRight, nesting]

@[simp]
theorem print_movedDown (lines : Nat) (expr : Expr) :
    (expr.movedDown lines).print = expr.print := by
  induction expr with
  | literal value => rfl
  | grouping inner ih => simp [movedDown, ih]
  | unary operator operand ih => simp [movedDown, Token.movedDown, ih]
  | binary left operator right ihLeft ihRight =>
      simp [movedDown, Token.movedDown, ihLeft, ihRight]

end Expr

namespace Sentence

variable {tokens before after : List Token} {operator : Token} {expr left right : Expr}

/-- A sentence is one on other lines as well. -/
theorem movedDown {wanted : Rule} (lines : Nat) (sentence : Sentence wanted tokens expr) :
    Sentence wanted (tokens.map (Token.movedDown lines)) (expr.movedDown lines) := by
  induction sentence with
  | start _ ih => exact .start ih
  | expression _ ih => exact .expression ih
  | operand _ ih => exact .operand ih
  | binary _ kind _ ihLeft ihRight =>
      rw [List.map_append, List.map_cons]
      exact .binary ihLeft kind ihRight
  | unary sign _ ih => exact .unary sign ih
  | primary _ ih => exact .primary ih
  | valueWord word => exact .valueWord word
  | constant carries literal => exact .constant carries literal
  | grouping opens _ closes ih =>
      rw [List.map_cons, List.map_append]
      exact .grouping opens ih closes

/-- A primary expression is an operand on every level. -/
theorem operand_of_primary (level : BinaryLevel) (sentence : Sentence .primary tokens expr) :
    Sentence level.operand tokens expr := by
  have unary : Sentence BinaryLevel.factor.operand tokens expr := .primary sentence
  have factor : Sentence BinaryLevel.term.operand tokens expr := .operand unary
  have term : Sentence BinaryLevel.comparison.operand tokens expr := .operand factor
  cases level with
  | equality => exact .operand term
  | comparison => exact term
  | term => exact factor
  | factor => exact unary

/-- What stands on some level is an expression. -/
theorem expression_of_binary {level : BinaryLevel}
    (sentence : Sentence (.binary level) tokens expr) : Sentence .expression tokens expr := by
  have equality (whole : Sentence BinaryLevel.equality.operand tokens expr) :
      Sentence .expression tokens expr := .expression (.operand whole)
  have comparison (whole : Sentence BinaryLevel.comparison.operand tokens expr) :
      Sentence .expression tokens expr := equality (.operand whole)
  cases level with
  | equality => exact .expression sentence
  | comparison => exact equality sentence
  | term => exact comparison sentence
  | factor => exact comparison (.operand sentence)

/-- Two primary expressions with an operator between them are an expression. -/
theorem operation (first : Sentence .primary before left)
    (kind : operator.kind ∈ TokenKind.binaryOperators) (second : Sentence .primary after right) :
    Sentence .expression (before ++ operator :: after) (.binary left operator right) := by
  obtain ⟨level, member⟩ := TokenKind.exists_mem_operators kind
  exact expression_of_binary
    (.binary (.operand (first.operand_of_primary level)) member (second.operand_of_primary level))

end Sentence

end LoxFront
