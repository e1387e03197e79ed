/-
# Printed forms are uniquely readable

Suppose that all operators and constants of two trees are words, and that no operator is
the word that marks groups. Then the two are printed alike exactly if they look alike: the
same nodes, with the same operators and the same texts of constants. Strings are left out by
this, because they are printed without quotes and may hold anything.

The induction needs more, since the text of an operand is followed by the rest of its
parent. No printed form begins another one: where two of them are followed by further texts,
and the two wholes are the same, so are the trees in their looks and what follows them.
-/

import LoxFront.Proofs.Expr.Printing
import LoxFront.Proofs.Text.Word

namespace LoxFront.Expr

/-- The text of a constant. One that is absent has the text of `nil`. -/
def constantText (value : Option Literal) : String :=
  value.elim "nil" Literal.toText

/-- An operator that can be told from the constants around it and from the word for a
group. -/
structure IsOperatorWord (lexeme : String) : Prop extends IsWord lexeme where
  ne_group : lexeme ≠ "group"

theorem isWord_group : IsWord "group" := by decide

/-- Every operator and every constant of a tree is printed as a word of its own. -/
def HasWords : Expr → Prop
  | literal value => IsWord (constantText value)
  | grouping inner => inner.HasWords
  | unary operator operand => IsOperatorWord operator.lexeme ∧ operand.HasWords
  | binary left operator right =>
    IsOperatorWord operator.lexeme ∧ left.HasWords ∧ right.HasWords

/-- Trees of the same shape, with the same lexemes of operators and the same texts of
constants. -/
inductive LooksLike : Expr → Expr → Prop where
  | literal {value other : Option Literal} :
    constantText value = constantText other → LooksLike (literal value) (literal other)
  | grouping {inner other : Expr} :
    LooksLike inner other → LooksLike (grouping inner) (grouping other)
  | unary {operator other : Token} {operand right : Expr} :
    operator.lexeme = other.lexeme → LooksLike operand right →
    LooksLike (unary operator operand) (unary other right)
  | binary {operator other : Token} {left right first second : Expr} :
    operator.lexeme = other.lexeme → LooksLike left first → LooksLike right second →
    LooksLike (binary left operator right) (binary first other second)

/-! ## The characters of a printed form -/

theorem toList_print_grouping (inner : Expr) (after : List Char) :
    (grouping inner).print.toList ++ after =
      '(' :: ("group".toList ++ ' ' :: (inner.print.toList ++ ')' :: after)) := by
  simp

theorem toList_print_unary (operator : Token) (operand : Expr) (after : List Char) :
    (unary operator operand).print.toList ++ after =
      '(' :: (operator.lexeme.toList ++ ' ' :: (operand.print.toList ++ ')' :: after)) := by
  simp

theorem toList_print_binary (left : Expr) (operator : Token) (right : Expr)
    (after : List Char) :
    (binary left operator right).print.toList ++ after =
      '(' :: (operator.lexeme.toList ++ ' ' :: (left.print.toList ++
        ' ' :: (right.print.toList ++ ')' :: after))) := by
  simp

/-! ## Two printed forms at once -/

section Node

variable {inner left right : Expr} {second : Expr} {operator : Token} {after rest : List Char}

/-- What stands where an operand is printed determines the operand and what follows. -/
def Determined (operand : Expr) : Prop :=
  ∀ {second : Expr} {after rest : List Char}, second.HasWords → EndsWord after → EndsWord rest →
    operand.print.toList ++ after = second.print.toList ++ rest →
    operand.LooksLike second ∧ after = rest

theorem determined_literal {value : Option Literal} (isWord : IsWord (constantText value)) :
    Determined (literal value) := by
  intro second after rest words ends endsOther same
  rw [print_literal] at same
  cases second with
  | literal other =>
      rw [print_literal] at same
      obtain ⟨text, left⟩ := isWord.append_inj words ends endsOther same
      exact ⟨.literal text, left⟩
  | grouping other =>
      rw [toList_print_grouping] at same
      exact absurd same (isWord.append_ne_cons _ _)
  | unary other operand =>
      rw [toList_print_unary] at same
      exact absurd same (isWord.append_ne_cons _ _)
  | binary first other last =>
      rw [toList_print_binary] at same
      exact absurd same (isWord.append_ne_cons _ _)

theorem determined_grouping (inside : Determined inner) : Determined (grouping inner) := by
  intro second after rest words ends endsOther same
  rw [toList_print_grouping] at same
  cases second with
  | literal other =>
      rw [print_literal] at same
      exact absurd same.symm (words.append_ne_cons _ _)
  | grouping other =>
      rw [toList_print_grouping, List.cons.injEq] at same
      obtain ⟨-, inner⟩ := isWord_group.append_blank_inj isWord_group same.2
      obtain ⟨alike, left⟩ :=
        inside (show other.HasWords from words) (endsWord_close _) (endsWord_close _) inner
      exact ⟨.grouping alike, List.tail_eq_of_cons_eq left⟩
  | unary other operand =>
      rw [toList_print_unary, List.cons.injEq] at same
      obtain ⟨name, -⟩ := isWord_group.append_blank_inj words.1.toIsWord same.2
      exact absurd name.symm words.1.ne_group
  | binary first other last =>
      rw [toList_print_binary, List.cons.injEq] at same
      obtain ⟨name, -⟩ := isWord_group.append_blank_inj words.1.toIsWord same.2
      exact absurd name.symm words.1.ne_group

theorem determined_unary (isOperator : IsOperatorWord operator.lexeme)
    (inside : Determined inner) : Determined (unary operator inner) := by
  intro second after rest words ends endsOther same
  rw [toList_print_unary] at same
  cases second with
  | literal other =>
      rw [print_literal] at same
      exact absurd same.symm (words.append_ne_cons _ _)
  | grouping other =>
      rw [toList_print_grouping, List.cons.injEq] at same
      obtain ⟨name, -⟩ := isOperator.append_blank_inj isWord_group same.2
      exact absurd name isOperator.ne_group
  | unary other operand =>
      rw [toList_print_unary, List.cons.injEq] at same
      obtain ⟨name, inner⟩ := isOperator.append_blank_inj words.1.toIsWord same.2
      obtain ⟨alike, left⟩ := inside words.2 (endsWord_close _) (endsWord_close _) inner
      exact ⟨.unary name alike, List.tail_eq_of_cons_eq left⟩
  | binary first other last =>
      -- Only what follows the first operand tells the two apart.
      rw [toList_print_binary, List.cons.injEq] at same
      obtain ⟨-, inner⟩ := isOperator.append_blank_inj words.1.toIsWord same.2
      obtain ⟨-, left⟩ := inside words.2.1 (endsWord_close _) (endsWord_blank _) inner
      cases left

theorem determined_binary (isOperator : IsOperatorWord operator.lexeme)
    (before : Determined left) (behind : Determined right) :
    Determined (binary left operator right) := by
  intro second after rest words ends endsOther same
  rw [toList_print_binary] at same
  cases second with
  | literal other =>
      rw [print_literal] at same
      exact absurd same.symm (words.append_ne_cons _ _)
  | grouping other =>
      rw [toList_print_grouping, List.cons.injEq] at same
      obtain ⟨name, -⟩ := isOperator.append_blank_inj isWord_group same.2
      exact absurd name isOperator.ne_group
  | unary other operand =>
      rw [toList_print_unary, List.cons.injEq] at same
      obtain ⟨-, inner⟩ := isOperator.append_blank_inj words.1.toIsWord same.2
      obtain ⟨-, left⟩ := before words.2 (endsWord_blank _) (endsWord_close _) inner
      cases left
  | binary first other last =>
      rw [toList_print_binary, List.cons.injEq] at same
      obtain ⟨name, inner⟩ := isOperator.append_blank_inj words.1.toIsWord same.2
      obtain ⟨first, left⟩ := before words.2.1 (endsWord_blank _) (endsWord_blank _) inner
      obtain ⟨second, left⟩ := behind words.2.2 (endsWord_close _) (endsWord_close _)
        (List.tail_eq_of_cons_eq left)
      exact ⟨.binary name first second, List.tail_eq_of_cons_eq left⟩

end Node

/-- The printed form of a tree determines how the tree looks, whatever follows. -/
theorem HasWords.determined {expr : Expr} (words : expr.HasWords) : Determined expr := by
  induction expr with
  | literal value => exact determined_literal words
  | grouping inner ih => exact determined_grouping (ih words)
  | unary operator operand ih => exact determined_unary words.1 (ih words.2)
  | binary left operator right ihLeft ihRight =>
      exact determined_binary words.1 (ihLeft words.2.1) (ihRight words.2.2)

/-- Trees that look alike are printed alike. -/
theorem LooksLike.print_eq {first second : Expr} (alike : first.LooksLike second) :
    first.print = second.print := by
  induction alike with
  | literal text => rw [print_literal, print_literal]; exact text
  | grouping _ ih => rw [print_grouping, print_grouping, ih]
  | unary name _ ih => rw [print_unary, print_unary, name, ih]
  | binary name _ _ ihLeft ihRight => rw [print_binary, print_binary, name, ihLeft, ihRight]

end LoxFront.Expr
