/-
# The grammar of expressions

The operators between operands stand on four levels, and each level takes its
operands from the next tighter one. The tightest takes them from the operators
before an operand, and those from the primary expressions: constants and groups.

    start      → expression
    expression → equality
    equality   → comparison ( ( "!=" | "==" ) comparison )*
    comparison → term ( ( ">" | ">=" | "<" | "<=" ) term )*
    term       → factor ( ( "-" | "+" ) factor )*
    factor     → unary ( ( "/" | "*" ) unary )*
    unary      → ( "!" | "-" ) unary | primary
    primary    → NUMBER | STRING | "true" | "false" | "nil" | "(" expression ")"

`Sentence` is this grammar as a relation between a row of tokens and a tree. A row
of operands on one level is grouped from the left.
-/

import LoxFront.Expr.Basic

namespace LoxFront

/-- A level of operators between operands, from the loosest to the tightest. -/
inductive BinaryLevel where
  | equality | comparison | term | factor
  deriving DecidableEq

/-- A rule of the grammar. -/
inductive Rule where
  | start
  | expression
  | binary (level : BinaryLevel)
  | unary
  | primary
  deriving DecidableEq

namespace BinaryLevel

/-- The operators of a level. -/
def operators : BinaryLevel → List TokenKind
  | .equality => [.bangEqual, .equalEqual]
  | .comparison => [.greater, .greaterEqual, .less, .lessEqual]
  | .term => [.minus, .plus]
  | .factor => [.slash, .star]

/-- The rule for the operands of a level. -/
def operand : BinaryLevel → Rule
  | .equality => .binary .comparison
  | .comparison => .binary .term
  | .term => .binary .factor
  | .factor => .unary

/-- The level and all tighter ones, from the loosest to the tightest. -/
def andTighter : BinaryLevel → List BinaryLevel
  | .equality => [.equality, .comparison, .term, .factor]
  | .comparison => [.comparison, .term, .factor]
  | .term => [.term, .factor]
  | .factor => [.factor]

end BinaryLevel

namespace Rule

/-- The operators with which an expression by a rule could go on. What follows the
longest such expression is none of them. -/
def continuations : Rule → List TokenKind
  | .start | .expression => BinaryLevel.equality.andTighter.flatMap BinaryLevel.operators
  | .binary level => level.andTighter.flatMap BinaryLevel.operators
  | .unary | .primary => []

end Rule

namespace TokenKind

/-- The operators that stand before their operand. -/
def unaryOperators : List TokenKind := [.bang, .minus]

/-- The words that name a value. A tree carries them by their spelling. -/
def valueWords : List TokenKind := [.kwFalse, .kwTrue, .kwNil]

end TokenKind

/-- Which tokens are an expression by a rule, and which tree they stand for. -/
inductive Sentence : Rule → List Token → Expr → Prop where
  | start {tokens : List Token} {expr : Expr} :
    Sentence .expression tokens expr → Sentence .start tokens expr
  | expression {tokens : List Token} {expr : Expr} :
    Sentence (.binary .equality) tokens expr → Sentence .expression tokens expr
  | operand {level : BinaryLevel} {tokens : List Token} {expr : Expr} :
    Sentence level.operand tokens expr → Sentence (.binary level) tokens expr
  | binary {level : BinaryLevel} {before after : List Token} {operator : Token}
      {left right : Expr} :
    Sentence (.binary level) before left → operator.kind ∈ level.operators →
    Sentence level.operand after right →
    Sentence (.binary level) (before ++ operator :: after) (.binary left operator right)
  | unary {operator : Token} {tokens : List Token} {expr : Expr} :
    operator.kind ∈ TokenKind.unaryOperators → Sentence .unary tokens expr →
    Sentence .unary (operator :: tokens) (.unary operator expr)
  | primary {tokens : List Token} {expr : Expr} :
    Sentence .primary tokens expr → Sentence .unary tokens expr
  | valueWord {token : Token} :
    token.kind ∈ TokenKind.valueWords →
    Sentence .primary [token] (.literal (some (.identifier token.lexeme)))
  | constant {token : Token} {value : Literal} :
    token.kind.carriesLiteral → token.literal = some value →
    Sentence .primary [token] (.literal (some value))
  | grouping {opening closing : Token} {tokens : List Token} {expr : Expr} :
    opening.kind = .leftParen → Sentence .expression tokens expr →
    closing.kind = .rightParen →
    Sentence .primary (opening :: (tokens ++ [closing])) (.grouping expr)

end LoxFront
