/-
# What the tokens of sentences look like

The grammar separates its kinds of tokens well: the operators that can follow an
operand of a level belong to no tighter level, a sign is no beginning of a primary
expression, and no rule mentions the token that ends the input. These facts make
one token of lookahead enough.
-/

import LoxFront.Grammar.Rule

namespace LoxFront

namespace TokenKind

/-- The kinds of the tokens that begin a primary expression. -/
def primaryStarts : List TokenKind :=
  valueWords ++ [.number, .string, .leftParen]

/-- A token that names a value by its spelling carries none. -/
theorem not_mem_valueWords_of_carriesLiteral {kind : TokenKind}
    (carries : kind.carriesLiteral = true) : kind ∉ valueWords := by
  intro word
  cases kind <;> simp [carriesLiteral, valueWords] at carries word

/-- A primary expression begins with a word, a constant or a parenthesis. -/
theorem mem_primaryStarts_iff {kind : TokenKind} :
    kind ∈ primaryStarts ↔
      kind ∈ valueWords ∨ kind.carriesLiteral = true ∨ kind = .leftParen := by
  cases kind <;> decide

theorem eof_not_mem_primaryStarts : .eof ∉ primaryStarts := by decide

theorem not_mem_unaryOperators_of_mem_primaryStarts {kind : TokenKind}
    (starts : kind ∈ primaryStarts) : kind ∉ unaryOperators := by
  revert starts
  cases kind <;> decide

end TokenKind

namespace Rule

/-- An expression of a level can go on with the operators of the level and with
those of its operands. -/
theorem continuations_binary (level : BinaryLevel) :
    (Rule.binary level).continuations = level.operators ++ level.operand.continuations := by
  cases level <;> rfl

/-- No expression can go on with the end of the input. -/
theorem eof_not_mem_continuations (rule : Rule) : .eof ∉ rule.continuations := by
  rcases rule with _ | _ | level | _ | _
  case binary => cases level <;> decide
  all_goals decide

end Rule

namespace BinaryLevel

/-- The operators of a level are not among those of tighter levels. -/
theorem not_mem_continuations_operand {level : BinaryLevel} {kind : TokenKind}
    (operator : kind ∈ level.operators) : kind ∉ level.operand.continuations := by
  revert operator
  cases level <;> cases kind <;> decide

theorem eof_not_mem_operators (level : BinaryLevel) : .eof ∉ level.operators := by
  cases level <;> decide

end BinaryLevel

namespace Expr

/-- Begun at some depth, a tree stays within a limit, if there is one. -/
def NestsWithin (limit : Option Int) (depth : Int) (expr : Expr) : Prop :=
  ∀ bound ∈ limit, expr.nesting + depth ≤ bound

variable {limit : Option Int} {depth : Int} {expr : Expr}

theorem NestsWithin.of_nesting_le (within : expr.NestsWithin limit depth) {part : Expr}
    {later : Int} (smaller : part.nesting + later ≤ expr.nesting + depth) :
    part.NestsWithin limit later :=
  fun bound member => Int.le_trans smaller (within bound member)

/-- Where a tree that nests stays within the limit, the limit has not been reached. -/
theorem NestsWithin.any_le_eq_false (within : expr.NestsWithin limit depth)
    (nests : 0 < expr.nesting) : limit.any (· ≤ depth) = false := by
  cases limit with
  | none => rfl
  | some bound =>
      have fits := within bound rfl
      rw [Option.any_some, decide_eq_false_iff_not]
      omega

end Expr

namespace Sentence

/-- The first token of a primary expression decides that it is one. -/
theorem exists_primaryStart {tokens : List Token} {expr : Expr}
    (sentence : Sentence .primary tokens expr) :
    ∃ token rest, tokens = token :: rest ∧ token.kind ∈ TokenKind.primaryStarts := by
  cases sentence with
  | valueWord word => exact ⟨_, _, rfl, TokenKind.mem_primaryStarts_iff.mpr (.inl word)⟩
  | constant carries _ =>
      exact ⟨_, _, rfl, TokenKind.mem_primaryStarts_iff.mpr (.inr (.inl carries))⟩
  | grouping opens _ _ =>
      exact ⟨_, _, rfl, TokenKind.mem_primaryStarts_iff.mpr (.inr (.inr opens))⟩

/-- There is no empty expression. -/
theorem ne_nil {rule : Rule} {tokens : List Token} {expr : Expr}
    (sentence : Sentence rule tokens expr) : tokens ≠ [] := by
  induction sentence with
  | start _ ih | expression _ ih | operand _ ih | primary _ ih => exact ih
  | binary _ _ _ _ _ => simp
  | unary | valueWord | constant | grouping => exact List.cons_ne_nil _ _

/-- The end of the input is not part of an expression. -/
theorem kind_ne_eof {rule : Rule} {tokens : List Token} {expr : Expr}
    (sentence : Sentence rule tokens expr) : ∀ token ∈ tokens, token.kind ≠ .eof := by
  induction sentence with
  | start _ ih | expression _ ih | operand _ ih | primary _ ih => exact ih
  | @binary level before after operator left right _ kind _ ihLeft ihRight =>
      intro token member
      rcases List.mem_append.mp member with inLeft | inRest
      · exact ihLeft token inLeft
      · rcases List.mem_cons.mp inRest with rfl | inRight
        · intro ends
          exact level.eof_not_mem_operators (ends ▸ kind)
        · exact ihRight token inRight
  | unary kind _ ih =>
      intro token member
      rcases List.mem_cons.mp member with rfl | inOperand
      · intro ends
        rw [ends] at kind
        exact absurd kind (by decide)
      · exact ih token inOperand
  | valueWord word =>
      intro token member ends
      rw [List.mem_singleton.mp member] at ends
      rw [ends] at word
      exact absurd word (by decide)
  | constant carries _ =>
      intro token member ends
      rw [List.mem_singleton.mp member] at ends
      rw [ends] at carries
      exact absurd carries (by decide)
  | grouping opens _ closes ih =>
      intro token member
      rcases List.mem_cons.mp member with rfl | inRest
      · rw [opens]
        decide
      · rcases List.mem_append.mp inRest with inside | last
        · exact ih token inside
        · rw [List.mem_singleton.mp last, closes]
          decide

end Sentence

end LoxFront
