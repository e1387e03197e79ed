/-
# How far a row of tokens can still be an expression

Read from the left, and by the kinds of its tokens alone, the beginning of an
expression leaves little to remember: whether an operand is due or complete, which
groups are open, and how many signs stand before each of them and before the operand
that is due. `Frontier` is this memory and `next` its change with one more token.

A row of kinds is what an expression looks like exactly if the frontier can pass it
and nothing is open at the end, and it is the beginning of one exactly if the frontier
can pass it. The first half of that is shown here: every sentence is passed, and
wherever the frontier arrives, an expression can be completed. The other half follows
from the reading, in `FirstError`.
-/

import LoxFront.Proofs.Grammar.Sentence

namespace LoxFront

namespace TokenKind

/-- The kinds of the tokens that open a level of nesting. -/
def levelOpeners : List TokenKind := unaryOperators ++ [.leftParen]

/-- The operators that stand between operands. -/
def binaryOperators : List TokenKind := Rule.expression.continuations

theorem mem_binaryOperators_of_mem_operators {level : BinaryLevel} {kind : TokenKind}
    (operator : kind ∈ level.operators) : kind ∈ binaryOperators := by
  revert operator
  cases level <;> cases kind <;> decide

theorem mem_levelOpeners_iff {kind : TokenKind} :
    kind ∈ levelOpeners ↔ kind ∈ unaryOperators ∨ kind = .leftParen := by
  rw [levelOpeners, List.mem_append, List.mem_singleton]

/-- A token that is a constant opens nothing. -/
theorem not_mem_levelOpeners {kind : TokenKind}
    (constant : kind ∈ valueWords ∨ kind.carriesLiteral = true) : kind ∉ levelOpeners := by
  revert constant
  cases kind <;> decide

theorem eof_not_mem_unaryOperators : .eof ∉ unaryOperators := by decide

theorem eof_not_mem_binaryOperators : .eof ∉ binaryOperators := by decide

theorem rightParen_not_mem_binaryOperators : .rightParen ∉ binaryOperators := by decide

end TokenKind

open TokenKind

/-- What the beginning of an expression leaves open. Groups are listed from the
innermost, each by the number of signs that stand before it. -/
inductive Frontier where
  /-- An operand is due, after some signs. -/
  | operand (signs : Nat) (groups : List Nat)
  /-- An operand is complete. -/
  | operator (groups : List Nat)
  deriving DecidableEq

namespace Frontier

/-- The number of levels that are open in and around some groups. -/
def levels : List Nat → Nat
  | [] => 0
  | signs :: groups => signs + 1 + levels groups

/-- The number of groups and signs that are open. -/
def depth : Frontier → Nat
  | .operand signs groups => signs + levels groups
  | .operator groups => levels groups

/-- Where nothing has been read. -/
def start : Frontier := .operand 0 []

/-- Where an expression may end. -/
def finish : Frontier := .operator []

/-- What is open after one more level has been opened by a token. -/
def opened (signs : Nat) (groups : List Nat) (kind : TokenKind) : Frontier :=
  if kind = .leftParen then .operand 0 (signs :: groups) else .operand (signs + 1) groups

/-- The frontier after one more token, unless no expression goes on so. -/
def next (limit : Option Int) : Frontier → TokenKind → Option Frontier
  | .operand signs groups, kind =>
    if kind ∈ levelOpeners then
      if limit.any (· ≤ ((operand signs groups).depth : Int)) then none
      else some (opened signs groups kind)
    else if kind ∈ primaryStarts then some (.operator groups)
    else none
  | .operator groups, kind =>
    if kind ∈ binaryOperators then some (.operand 0 groups)
    else if kind = .rightParen then groups.tail?.map .operator
    else none

/-- The frontier after some more tokens. -/
def run (limit : Option Int) (here : Frontier) (kinds : List TokenKind) : Option Frontier :=
  kinds.foldlM (next limit) here

variable {limit : Option Int} {signs : Nat} {groups : List Nat} {kind : TokenKind}
  {here there : Frontier} {kinds more : List TokenKind}

@[simp]
theorem levels_cons (signs : Nat) (groups : List Nat) :
    levels (signs :: groups) = signs + 1 + levels groups := rfl

theorem depth_opened (signs : Nat) (groups : List Nat) (kind : TokenKind) :
    (opened signs groups kind).depth = (operand signs groups).depth + 1 := by
  unfold opened
  split <;> simp only [depth, levels_cons] <;> omega

theorem opened_of_eq_leftParen (signs : Nat) (groups : List Nat) (opens : kind = .leftParen) :
    opened signs groups kind = .operand 0 (signs :: groups) :=
  if_pos opens

theorem opened_of_mem_unaryOperators (signs : Nat) (groups : List Nat)
    (sign : kind ∈ unaryOperators) :
    opened signs groups kind = .operand (signs + 1) groups := by
  rw [opened, if_neg]
  rintro rfl
  exact absurd sign (by decide)

/-! ## One step -/

theorem next_of_mem_levelOpeners (opens : kind ∈ levelOpeners)
    (free : limit.any (· ≤ ((operand signs groups).depth : Int)) = false) :
    next limit (.operand signs groups) kind = some (opened signs groups kind) := by
  simp [next, opens, free]

theorem next_of_constant (constant : kind ∈ valueWords ∨ kind.carriesLiteral = true) :
    next limit (.operand signs groups) kind = some (.operator groups) := by
  have starts : kind ∈ primaryStarts := by
    rw [mem_primaryStarts_iff, ← or_assoc]
    exact .inl constant
  rw [next, if_neg (not_mem_levelOpeners constant), if_pos starts]

theorem next_of_mem_binaryOperators (operator : kind ∈ binaryOperators) :
    next limit (.operator groups) kind = some (.operand 0 groups) := by
  rw [next, if_pos operator]

theorem next_rightParen (signs : Nat) (groups : List Nat) :
    next limit (.operator (signs :: groups)) .rightParen = some (.operator groups) := by
  rw [next, if_neg rightParen_not_mem_binaryOperators, if_pos rfl]
  rfl

/-- Whatever goes on within a limit goes on without it. -/
theorem next_none_of_next (step : next limit here kind = some there) :
    next none here kind = some there := by
  cases here with
  | operator groups => exact step
  | operand signs groups =>
      by_cases opens : kind ∈ levelOpeners
      · rw [next, if_pos opens] at step ⊢
        by_cases full : limit.any (· ≤ ((operand signs groups).depth : Int)) = true
        · rw [if_pos full] at step
          cases step
        · rw [if_neg full] at step
          exact step
      · rw [next, if_neg opens] at step ⊢
        exact step

/-! ## Many steps -/

@[simp]
theorem run_nil (limit : Option Int) (here : Frontier) : run limit here [] = some here := rfl

theorem run_cons_of_next (step : next limit here kind = some there) :
    run limit here (kind :: kinds) = run limit there kinds := by
  rw [run, List.foldlM_cons, step]
  rfl

theorem run_cons_of_next_eq_none (stuck : next limit here kind = none) :
    run limit here (kind :: kinds) = none := by
  rw [run, List.foldlM_cons, stuck]
  rfl

theorem run_none_of_run (steps : run limit here kinds = some there) :
    run none here kinds = some there := by
  induction kinds generalizing here with
  | nil => exact steps
  | cons kind kinds ih =>
      rw [run, List.foldlM_cons] at steps
      obtain ⟨middle, step, later⟩ := Option.bind_eq_some_iff.mp steps
      rw [run_cons_of_next (next_none_of_next step)]
      exact ih later

theorem run_append_of_run (steps : run limit here kinds = some there) :
    run limit here (kinds ++ more) = run limit there more := by
  rw [run, List.foldlM_append]
  exact congrArg (· >>= fun middle => more.foldlM (next limit) middle) steps

/-- What passes a whole row passes its beginning. -/
theorem exists_run_of_run_append (steps : run limit here (kinds ++ more) = some there) :
    ∃ middle, run limit here kinds = some middle ∧ run limit middle more = some there := by
  rw [run, List.foldlM_append] at steps
  exact Option.bind_eq_some_iff.mp steps

/-! ## Completing an expression -/

/-- Closing all open groups after an operand completes an expression. -/
theorem run_close (limit : Option Int) (groups : List Nat) :
    run limit (.operator groups) (List.replicate groups.length .rightParen) = some finish := by
  induction groups with
  | nil => rfl
  | cons signs groups ih =>
      rw [List.length_cons, List.replicate_succ, run_cons_of_next (next_rightParen signs groups)]
      exact ih

/-- The tokens that complete an expression: an operand if one is due, and the ends of
all groups. -/
def completion : Frontier → List TokenKind
  | .operand _ groups => .kwNil :: List.replicate groups.length .rightParen
  | .operator groups => List.replicate groups.length .rightParen

theorem run_completion (limit : Option Int) (here : Frontier) :
    run limit here here.completion = some finish := by
  cases here with
  | operand signs groups =>
      have constant : TokenKind.kwNil ∈ valueWords ∨ TokenKind.kwNil.carriesLiteral = true := by
        decide
      rw [completion, run_cons_of_next (next_of_constant constant)]
      exact run_close limit groups
  | operator groups => exact run_close limit groups

end Frontier

/-- Every sentence is passed, from wherever an operand is due. Signs are open only
before the operands of signs and the primary expressions. -/
theorem Sentence.run_frontier {limit : Option Int} {wanted : Rule} {tokens : List Token}
    {expr : Expr} (sentence : Sentence wanted tokens expr) {signs : Nat} {groups : List Nat}
    (unsigned : wanted ≠ .unary → wanted ≠ .primary → signs = 0)
    (within : expr.NestsWithin limit (Frontier.operand signs groups).depth) :
    Frontier.run limit (.operand signs groups) (tokens.map Token.kind) =
      some (.operator groups) := by
  induction sentence generalizing signs groups with
  | start _ ih => exact ih (fun _ _ => unsigned nofun nofun) within
  | expression _ ih => exact ih (fun _ _ => unsigned nofun nofun) within
  | operand _ ih => exact ih (fun _ _ => unsigned nofun nofun) within
  | @binary level before after operator left right _ kind _ ihLeft ihRight =>
      obtain rfl := unsigned nofun nofun
      have leftWithin : left.NestsWithin limit (Frontier.operand 0 groups).depth :=
        within.of_nesting_le (by simp only [Expr.nesting]; omega)
      have rightWithin : right.NestsWithin limit (Frontier.operand 0 groups).depth :=
        within.of_nesting_le (by simp only [Expr.nesting]; omega)
      rw [List.map_append, Frontier.run_append_of_run (ihLeft (fun _ _ => rfl) leftWithin),
        List.map_cons, Frontier.run_cons_of_next
          (Frontier.next_of_mem_binaryOperators (mem_binaryOperators_of_mem_operators kind))]
      exact ihRight (fun _ _ => rfl) rightWithin
  | @unary operator tokens operand kind _ ih =>
      have opens := mem_levelOpeners_iff.mpr (.inl kind)
      have deeper := Frontier.opened_of_mem_unaryOperators signs groups kind
      have operandWithin :
          operand.NestsWithin limit (Frontier.operand (signs + 1) groups).depth := by
        rw [← deeper, Frontier.depth_opened]
        exact within.of_nesting_le (by simp only [Expr.nesting]; omega)
      rw [List.map_cons, Frontier.run_cons_of_next (Frontier.next_of_mem_levelOpeners opens
        (within.any_le_eq_false (Nat.succ_pos _))), deeper]
      exact ih (fun signed _ => absurd rfl signed) operandWithin
  | primary _ ih => exact ih (fun _ primary => absurd rfl primary) within
  | valueWord word => exact Frontier.run_cons_of_next (Frontier.next_of_constant (.inl word))
  | constant carries _ =>
      exact Frontier.run_cons_of_next (Frontier.next_of_constant (.inr carries))
  | @grouping opening closing tokens inner opens _ closes ih =>
      have opener := mem_levelOpeners_iff.mpr (.inr opens)
      have deeper := Frontier.opened_of_eq_leftParen signs groups opens
      have innerWithin :
          inner.NestsWithin limit (Frontier.operand 0 (signs :: groups)).depth := by
        rw [← deeper, Frontier.depth_opened]
        exact within.of_nesting_le (by simp only [Expr.nesting]; omega)
      rw [List.map_cons, Frontier.run_cons_of_next (Frontier.next_of_mem_levelOpeners
        opener (within.any_le_eq_false (Nat.succ_pos _))), deeper, List.map_append,
        Frontier.run_append_of_run (ih (fun _ _ => rfl) innerWithin), List.map_singleton, closes]
      exact Frontier.run_cons_of_next (Frontier.next_rightParen signs groups)

/-- Some kinds are those of the tokens of an expression that stays within a limit. -/
def IsSentence (limit : Option Int) (kinds : List TokenKind) : Prop :=
  ∃ tokens expr, Sentence .start tokens expr ∧ expr.NestsWithin limit 0 ∧
    tokens.map Token.kind = kinds

/-- Some kinds are the beginning of those of an expression within a limit. -/
def Viable (limit : Option Int) (kinds : List TokenKind) : Prop :=
  ∃ more, IsSentence limit (kinds ++ more)

theorem Viable.of_append {limit : Option Int} {kinds more : List TokenKind}
    (viable : Viable limit (kinds ++ more)) : Viable limit kinds := by
  obtain ⟨rest, sentence⟩ := viable
  exact ⟨more ++ rest, by rwa [← List.append_assoc]⟩

theorem IsSentence.run_frontier {limit : Option Int} {kinds : List TokenKind}
    (sentence : IsSentence limit kinds) :
    Frontier.run limit .start kinds = some .finish := by
  obtain ⟨tokens, expr, sentence, within, rfl⟩ := sentence
  exact sentence.run_frontier (fun _ _ => rfl) within

end LoxFront
