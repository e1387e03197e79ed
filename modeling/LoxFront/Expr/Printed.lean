/-
# The printed form of expressions

Expressions are printed with every operator in front of its operands and with
parentheses around each of the two. The form is meant for display: it is not
source text, and the contents of strings stand in it without quotes.

A node alone prints as a row of fragments, in which its children are still trees.
`print` expands fragments from the front with an explicit stack, so that chains
of operators of any length are printed without nested calls. `printed` is the same
text by recursion on the tree.
-/

import LoxFront.Expr.Basic

namespace LoxFront

/-- A fragment of a printed form: text, or a tree to be printed in its place. -/
inductive Fragment where
  | text (words : String)
  | child (expr : Expr)
  deriving DecidableEq

namespace Fragment

/-- A name and some trees between parentheses, with single blanks before the
trees. -/
def parenthesized (name : String) (children : List Expr) : List Fragment :=
  .text ("(" ++ name) ::
    (children.flatMap (fun expr => [.text " ", .child expr]) ++ [.text ")"])

end Fragment

namespace Expr

/-- The fragments of the root of a tree. -/
def fragments : Expr → List Fragment
  | .literal none => [.text "nil"]
  | .literal (some value) => [.text value.toText]
  | .grouping inner => Fragment.parenthesized "group" [inner]
  | .unary operator operand => Fragment.parenthesized operator.lexeme [operand]
  | .binary left operator right => Fragment.parenthesized operator.lexeme [left, right]

/-- The number of fragments and trees that are handled while a tree is printed. -/
def weight : Expr → Nat
  | .literal _ => 2
  | .grouping inner => inner.weight + 4
  | .unary _ operand => operand.weight + 4
  | .binary left _ right => left.weight + right.weight + 5

end Expr

namespace Fragment

/-- The share of a fragment in the work of printing. -/
def weight : Fragment → Nat
  | .text _ => 1
  | .child expr => expr.weight

/-- The work that is left for some fragments. -/
def totalWeight : List Fragment → Nat
  | [] => 0
  | fragment :: pending => fragment.weight + totalWeight pending

theorem totalWeight_append (first second : List Fragment) :
    totalWeight (first ++ second) = totalWeight first + totalWeight second := by
  induction first with
  | nil => simp [totalWeight]
  | cons fragment pending ih => simp [totalWeight, ih, Nat.add_assoc]

/-- Replacing a tree by the fragments of its root leaves less work. -/
theorem totalWeight_fragments_lt (expr : Expr) :
    totalWeight expr.fragments < expr.weight := by
  cases expr with
  | literal value =>
    cases value <;> simp [Expr.fragments, totalWeight, weight, Expr.weight]
  | grouping inner | unary operator operand | binary left operator right =>
    simp [Expr.fragments, parenthesized, totalWeight, weight, Expr.weight]
    omega

/-- The text of some fragments, put after what has been written. -/
def expand (pending : List Fragment) (written : String) : String :=
  match pending with
  | [] => written
  | .text words :: rest => expand rest (written ++ words)
  | .child expr :: rest => expand (expr.fragments ++ rest) written
termination_by totalWeight pending
decreasing_by
  · simp [totalWeight, weight]
  · have := totalWeight_fragments_lt expr
    simp only [totalWeight_append, totalWeight, weight] at *
    omega

end Fragment

namespace Expr

/-- The printed form of an expression. -/
def print (expr : Expr) : String :=
  Fragment.expand [.child expr] ""

/-- The printed form of an expression, by recursion on the tree. -/
def printed : Expr → String
  | .literal none => "nil"
  | .literal (some value) => value.toText
  | .grouping inner => "(group " ++ inner.printed ++ ")"
  | .unary operator operand => "(" ++ operator.lexeme ++ " " ++ operand.printed ++ ")"
  | .binary left operator right =>
    "(" ++ operator.lexeme ++ " " ++ left.printed ++ " " ++ right.printed ++ ")"

end Expr

end LoxFront
