/-
# Printing node by node

The printer works through fragments with a stack of its own and never returns to a node.
What it writes is nevertheless put together from the texts of the children, as the
equations at the end of this module say: a tree in the middle of a row of fragments is
written as it is written alone, whatever stands before and after it.

What is shown of a tree by induction rests on these equations, and not on the stack.
-/

import LoxFront.Expr.Printed

namespace LoxFront

namespace Fragment

theorem expand_nil (written : String) : expand [] written = written := by
  rw [expand]

theorem expand_text (words : String) (rest : List Fragment) (written : String) :
    expand (.text words :: rest) written = expand rest (written ++ words) := by
  rw [expand]

/-- What has been written stays in front. -/
theorem expand_append_written (pending : List Fragment) (earlier written : String) :
    expand pending (earlier ++ written) = earlier ++ expand pending written := by
  fun_induction expand pending written with
  | case1 written => rw [expand_nil]
  | case2 written words rest ih => rw [expand_text, String.append_assoc, ih]
  | case3 written expr rest ih => rw [expand, ih]

/-- Fragments are written one after another. -/
theorem expand_append (first second : List Fragment) (written : String) :
    expand (first ++ second) written = expand second (expand first written) := by
  fun_induction expand first written with
  | case1 written => rfl
  | case2 written words rest ih => rw [List.cons_append, expand_text, ih]
  | case3 written expr rest ih =>
      rw [List.cons_append, expand, ← List.append_assoc, ih]

/-- A tree among fragments is written as it is alone. -/
theorem expand_child (expr : Expr) (rest : List Fragment) (written : String) :
    expand (.child expr :: rest) written = expand rest (written ++ expr.print) := by
  rw [← List.singleton_append, expand_append, Expr.print, ← expand_append_written,
    String.append_empty]

end Fragment

namespace Expr

open Fragment

theorem print_eq_expand (expr : Expr) : expr.print = expand expr.fragments "" := by
  rw [print, expand, List.append_nil]

@[simp]
theorem print_grouping (inner : Expr) :
    (grouping inner).print = "(group " ++ inner.print ++ ")" := by
  rw [print_eq_expand]
  simp [fragments, parenthesized, expand_nil, expand_text, expand_child, String.append_assoc]

@[simp]
theorem print_unary (operator : Token) (operand : Expr) :
    (unary operator operand).print =
      "(" ++ operator.lexeme ++ " " ++ operand.print ++ ")" := by
  rw [print_eq_expand]
  simp [fragments, parenthesized, expand_nil, expand_text, expand_child, String.append_assoc]

@[simp]
theorem print_binary (left : Expr) (operator : Token) (right : Expr) :
    (binary left operator right).print =
      "(" ++ operator.lexeme ++ " " ++ left.print ++ " " ++ right.print ++ ")" := by
  rw [print_eq_expand]
  simp [fragments, parenthesized, expand_nil, expand_text, expand_child, String.append_assoc]

@[simp]
theorem print_literal (value : Option Literal) :
    (literal value).print = value.elim "nil" Literal.toText := by
  rw [print_eq_expand]
  cases value <;> simp [fragments, expand_nil, expand_text]

/-- The stack prints every tree as the recursion on the tree does. -/
theorem print_eq_printed (expr : Expr) : expr.print = expr.printed := by
  induction expr with
  | literal value => cases value <;> simp [printed]
  | grouping inner ih => rw [print_grouping, printed, ih]
  | unary operator operand ih => rw [print_unary, printed, ih]
  | binary left operator right ihLeft ihRight => rw [print_binary, printed, ihLeft, ihRight]

end Expr

end LoxFront
