/-
# Readings as derivations

The descent is a program that counts its open rules. This module says what it does
as a relation between what is to be read, a cursor, and the outcome: one rule for
every way in which the program can go on, succeed or stop. The count does not
occur in it, so an argument about readings is an induction on the derivation, with
one case for each of these ways.

What is to be read is either what a rule of the grammar describes or, after a left
operand, the operators and right operands that follow it on a level. That the
relation and the program agree is shown in `Adequacy`.
-/

import LoxFront.Parse.Descent
import LoxFront.Proofs.Grammar.Sentence

namespace LoxFront

/-- The outcome of a reading: a tree or a failure, and where the cursor was left. -/
abbrev ParseOutcome := EStateM.Result ParseFailure TokenCursor Expr

/-- Where an outcome leaves the cursor. -/
def ParseOutcome.cursor : ParseOutcome → TokenCursor
  | .ok _ next => next
  | .error _ next => next

/-- What is to be read. -/
inductive Part where
  /-- What a rule describes. -/
  | rule (rule : Rule)
  /-- What follows a left operand on a level. -/
  | tail (level : BinaryLevel) (left : Expr)

namespace TokenCursor

/-- The cursor with one more level open. -/
def deeper (cursor : TokenCursor) : TokenCursor :=
  { cursor with depth := cursor.depth + 1 }

/-- The cursor with one level closed. -/
def shallower (cursor : TokenCursor) : TokenCursor :=
  { cursor with depth := cursor.depth - 1 }

/-- The cursor after an expression has been begun. -/
def spent (cursor : TokenCursor) : TokenCursor :=
  { cursor with allowance := cursor.allowance.map (· - 1) }

/-- Whether a limit leaves no room for another level. -/
def IsFull (limit : Option Int) (cursor : TokenCursor) : Prop :=
  limit.any (· ≤ cursor.depth) = true

/-- The next token is of none of some kinds. The end of the input never is. -/
def Avoids (kinds : List TokenKind) (cursor : TokenCursor) : Prop :=
  ∀ token ∈ cursor.ahead.head?, token.kind ∉ kinds

theorem avoids_or_next (kinds : List TokenKind) (cursor : TokenCursor) :
    cursor.Avoids kinds ∨
      ∃ token rest, cursor.ahead = token :: rest ∧ token.kind ∈ kinds := by
  cases next : cursor.ahead with
  | nil => exact .inl fun token member => by simp [next] at member
  | cons token rest =>
      by_cases kind : token.kind ∈ kinds
      · exact .inr ⟨token, rest, rfl, kind⟩
      · refine .inl fun other member => ?_
        rw [next, List.head?_cons, Option.mem_some_iff] at member
        exact member ▸ kind

/-- One cursor is reached from another by passing some tokens. -/
structure Passes (read : List Token) (before after : TokenCursor) : Prop where
  ahead : before.ahead = read ++ after.ahead
  passed : after.passed = read.reverse ++ before.passed
  stop : after.stop = before.stop
  last : after.last = before.last
  allowance : before.allowance = none → after.allowance = none

namespace Passes

variable {first second third : TokenCursor} {read : List Token}

/-- A cursor that differs only in its counters has passed nothing. -/
theorem nothing (ahead : first.ahead = second.ahead) (passed : first.passed = second.passed)
    (stop : first.stop = second.stop) (last : first.last = second.last)
    (allowance : first.allowance = none → second.allowance = none) :
    Passes [] first second :=
  ⟨ahead, passed.symm, stop.symm, last.symm, allowance⟩

theorem refl (cursor : TokenCursor) : Passes [] cursor cursor :=
  nothing rfl rfl rfl rfl id

theorem deeper (cursor : TokenCursor) : Passes [] cursor cursor.deeper :=
  nothing rfl rfl rfl rfl id

theorem shallower (cursor : TokenCursor) : Passes [] cursor cursor.shallower :=
  nothing rfl rfl rfl rfl id

theorem spent (cursor : TokenCursor) : Passes [] cursor cursor.spent :=
  nothing rfl rfl rfl rfl fun unlimited => by simp [TokenCursor.spent, unlimited]

theorem trans {more : List Token} (one : Passes read first second)
    (two : Passes more second third) : Passes (read ++ more) first third where
  ahead := by rw [one.ahead, two.ahead, List.append_assoc]
  passed := by rw [two.passed, one.passed, List.reverse_append, List.append_assoc]
  stop := two.stop.trans one.stop
  last := two.last.trans one.last
  allowance := fun unlimited => two.allowance (one.allowance unlimited)

/-- Advancing passes the next token. -/
theorem advance {cursor : TokenCursor} {token : Token} {rest : List Token}
    (next : cursor.ahead = token :: rest) : Passes [token] cursor cursor.advance := by
  constructor <;> simp [TokenCursor.advance, next]

theorem length_advance {cursor : TokenCursor} {token : Token} {rest : List Token}
    (next : cursor.ahead = token :: rest) :
    cursor.advance.ahead.length + 1 = cursor.ahead.length := by
  rw [(advance next).ahead, List.singleton_append, List.length_cons]

/-- Passing tokens never adds to the ones ahead. -/
theorem length_le (passes : Passes read first second) :
    second.ahead.length ≤ first.ahead.length := by
  rw [passes.ahead, List.length_append]
  exact Nat.le_add_left _ _

end Passes

/-- The token ahead is the next one. -/
theorem peek_eq {cursor : TokenCursor} {token : Token} {rest : List Token}
    (next : cursor.ahead = token :: rest) : cursor.peek = token := by
  rw [peek, next, List.headD_cons]

/-- The token ahead is of none of some kinds, the end of the input among them. -/
theorem avoids_iff {kinds : List TokenKind} {cursor : TokenCursor} (ends : cursor.stop.kind = .eof)
    (others : .eof ∉ kinds) : cursor.Avoids kinds ↔ cursor.peek.kind ∉ kinds := by
  unfold Avoids peek
  cases cursor.ahead with
  | nil => simpa [ends] using others
  | cons token rest => simp

theorem ahead_advance {cursor : TokenCursor} {token : Token} {rest : List Token}
    (next : cursor.ahead = token :: rest) : cursor.advance.ahead = rest := by
  simp only [advance, next]

@[simp]
theorem depth_advance (cursor : TokenCursor) : cursor.advance.depth = cursor.depth := by
  unfold advance
  split <;> rfl

@[simp]
theorem depth_deeper (cursor : TokenCursor) : cursor.deeper.depth = cursor.depth + 1 := rfl

@[simp]
theorem depth_shallower (cursor : TokenCursor) :
    cursor.shallower.depth = cursor.depth - 1 := rfl

@[simp]
theorem depth_spent (cursor : TokenCursor) : cursor.spent.depth = cursor.depth := rfl

end TokenCursor

open TokenCursor

/-- What comes of reading a part from a cursor, within a limit on the depth if there
is one. -/
inductive Reads (limit : Option Int) : Part → TokenCursor → ParseOutcome → Prop where
  | start {cursor : TokenCursor} {outcome : ParseOutcome} :
    Reads limit (.rule .expression) cursor outcome →
    Reads limit (.rule .start) cursor outcome
  | noRoom {cursor : TokenCursor} :
    cursor.allowance = some 0 →
    Reads limit (.rule .expression) cursor (.error .exhausted cursor)
  | expression {cursor : TokenCursor} {outcome : ParseOutcome} :
    cursor.allowance ≠ some 0 →
    Reads limit (.rule (.binary .equality)) cursor.spent outcome →
    Reads limit (.rule .expression) cursor outcome
  | firstOperandFails {level : BinaryLevel} {cursor stopped : TokenCursor}
      {failure : ParseFailure} :
    Reads limit (.rule level.operand) cursor (.error failure stopped) →
    Reads limit (.rule (.binary level)) cursor (.error failure stopped)
  | binary {level : BinaryLevel} {cursor middle : TokenCursor} {left : Expr}
      {outcome : ParseOutcome} :
    Reads limit (.rule level.operand) cursor (.ok left middle) →
    Reads limit (.tail level left) middle outcome →
    Reads limit (.rule (.binary level)) cursor outcome
  | noOperator {level : BinaryLevel} {cursor : TokenCursor} {left : Expr} :
    cursor.Avoids level.operators →
    Reads limit (.tail level left) cursor (.ok left cursor)
  | rightOperandFails {level : BinaryLevel} {cursor stopped : TokenCursor} {left : Expr}
      {operator : Token} {rest : List Token} {failure : ParseFailure} :
    cursor.ahead = operator :: rest → operator.kind ∈ level.operators →
    Reads limit (.rule level.operand) cursor.advance (.error failure stopped) →
    Reads limit (.tail level left) cursor (.error failure stopped)
  | operator {level : BinaryLevel} {cursor middle : TokenCursor} {left right : Expr}
      {operator : Token} {rest : List Token} {outcome : ParseOutcome} :
    cursor.ahead = operator :: rest → operator.kind ∈ level.operators →
    Reads limit (.rule level.operand) cursor.advance (.ok right middle) →
    Reads limit (.tail level (.binary left operator right)) middle outcome →
    Reads limit (.tail level left) cursor outcome
  | signTooDeep {cursor : TokenCursor} {operator : Token} {rest : List Token} :
    cursor.ahead = operator :: rest → operator.kind ∈ TokenKind.unaryOperators →
    cursor.IsFull limit →
    Reads limit (.rule .unary) cursor
      (.error (.problem (.expressionTooDeep operator)) cursor.advance)
  | signedOperandFails {cursor stopped : TokenCursor} {operator : Token}
      {rest : List Token} {failure : ParseFailure} :
    cursor.ahead = operator :: rest → operator.kind ∈ TokenKind.unaryOperators →
    ¬ cursor.IsFull limit →
    Reads limit (.rule .unary) cursor.advance.deeper (.error failure stopped) →
    Reads limit (.rule .unary) cursor (.error failure stopped)
  | unary {cursor middle : TokenCursor} {operator : Token} {rest : List Token}
      {operand : Expr} :
    cursor.ahead = operator :: rest → operator.kind ∈ TokenKind.unaryOperators →
    ¬ cursor.IsFull limit →
    Reads limit (.rule .unary) cursor.advance.deeper (.ok operand middle) →
    Reads limit (.rule .unary) cursor (.ok (.unary operator operand) middle.shallower)
  | primary {cursor : TokenCursor} {outcome : ParseOutcome} :
    cursor.Avoids TokenKind.unaryOperators →
    Reads limit (.rule .primary) cursor outcome →
    Reads limit (.rule .unary) cursor outcome
  | valueWord {cursor : TokenCursor} {token : Token} {rest : List Token} :
    cursor.ahead = token :: rest → token.kind ∈ TokenKind.valueWords →
    Reads limit (.rule .primary) cursor
      (.ok (.literal (some (.identifier token.lexeme))) cursor.advance)
  | constant {cursor : TokenCursor} {token : Token} {rest : List Token} {value : Literal} :
    cursor.ahead = token :: rest → token.kind.carriesLiteral = true →
    token.literal = some value →
    Reads limit (.rule .primary) cursor (.ok (.literal (some value)) cursor.advance)
  | noValue {cursor : TokenCursor} {token : Token} {rest : List Token} :
    cursor.ahead = token :: rest → token.kind.carriesLiteral = true → token.literal = none →
    Reads limit (.rule .primary) cursor
      (.error (.fault (.missingLiteral token)) cursor.advance)
  | groupTooDeep {cursor : TokenCursor} {opening : Token} {rest : List Token} :
    cursor.ahead = opening :: rest → opening.kind = .leftParen → cursor.IsFull limit →
    Reads limit (.rule .primary) cursor
      (.error (.problem (.expressionTooDeep opening)) cursor.advance)
  | groupFails {cursor stopped : TokenCursor} {opening : Token} {rest : List Token}
      {failure : ParseFailure} :
    cursor.ahead = opening :: rest → opening.kind = .leftParen → ¬ cursor.IsFull limit →
    Reads limit (.rule .expression) cursor.advance.deeper (.error failure stopped) →
    Reads limit (.rule .primary) cursor (.error failure stopped)
  | notClosed {cursor middle : TokenCursor} {opening : Token} {rest : List Token}
      {inner : Expr} :
    cursor.ahead = opening :: rest → opening.kind = .leftParen → ¬ cursor.IsFull limit →
    Reads limit (.rule .expression) cursor.advance.deeper (.ok inner middle) →
    middle.Avoids [.rightParen] →
    Reads limit (.rule .primary) cursor
      (.error (.problem (.expectedToken middle.peek .rightParen
        "Expect ')' after expression.")) middle.shallower)
  | grouping {cursor middle : TokenCursor} {opening closing : Token}
      {rest after : List Token} {inner : Expr} :
    cursor.ahead = opening :: rest → opening.kind = .leftParen → ¬ cursor.IsFull limit →
    Reads limit (.rule .expression) cursor.advance.deeper (.ok inner middle) →
    middle.ahead = closing :: after → closing.kind = .rightParen →
    Reads limit (.rule .primary) cursor (.ok (.grouping inner) middle.shallower.advance)
  | noExpression {cursor : TokenCursor} :
    cursor.Avoids TokenKind.primaryStarts →
    Reads limit (.rule .primary) cursor
      (.error (.problem (.expectedExpression cursor.peek)) cursor)

namespace Reads

variable {limit : Option Int} {part : Part} {cursor : TokenCursor} {outcome : ParseOutcome}

/-- A reading only passes tokens, whether it succeeds or fails. -/
theorem passes (reads : Reads limit part cursor outcome) :
    ∃ read, Passes read cursor outcome.cursor := by
  induction reads with
  | noRoom | noOperator | noExpression => exact ⟨[], .refl _⟩
  | start _ ih | firstOperandFails _ ih | primary _ _ ih => exact ih
  | expression _ _ ih =>
      obtain ⟨read, passes⟩ := ih
      exact ⟨read, (Passes.spent _).trans passes⟩
  | binary _ _ ihLeft ihTail =>
      obtain ⟨read, passes⟩ := ihLeft
      obtain ⟨more, passesMore⟩ := ihTail
      exact ⟨read ++ more, passes.trans passesMore⟩
  | rightOperandFails next _ _ ih =>
      obtain ⟨read, passes⟩ := ih
      exact ⟨_, (Passes.advance next).trans passes⟩
  | operator next _ _ _ ihRight ihTail =>
      obtain ⟨read, passes⟩ := ihRight
      obtain ⟨more, passesMore⟩ := ihTail
      exact ⟨_, ((Passes.advance next).trans passes).trans passesMore⟩
  | signTooDeep next | valueWord next | constant next | noValue next | groupTooDeep next =>
      exact ⟨_, Passes.advance next⟩
  | signedOperandFails next _ _ _ ih | groupFails next _ _ _ ih =>
      obtain ⟨read, passes⟩ := ih
      exact ⟨_, ((Passes.advance next).trans (.deeper _)).trans passes⟩
  | unary next _ _ _ ih | notClosed next _ _ _ _ ih =>
      obtain ⟨read, passes⟩ := ih
      exact ⟨_, (((Passes.advance next).trans (.deeper _)).trans passes).trans (.shallower _)⟩
  | grouping next _ _ _ closes _ ih =>
      obtain ⟨read, passes⟩ := ih
      exact ⟨_, ((((Passes.advance next).trans (.deeper _)).trans passes).trans
        (.shallower _)).trans (Passes.advance closes)⟩

theorem passes_of_ok {expr : Expr} {next : TokenCursor}
    (reads : Reads limit part cursor (.ok expr next)) : ∃ read, Passes read cursor next :=
  reads.passes

/-- A reading that succeeds leaves as many levels open as it found. -/
theorem depth_eq {expr : Expr} {next : TokenCursor}
    (reads : Reads limit part cursor (.ok expr next)) : next.depth = cursor.depth := by
  generalize result : (.ok expr next : ParseOutcome) = outcome at reads
  induction reads generalizing expr next with
  | start _ ih | expression _ _ ih | primary _ _ ih => exact ih result
  | binary _ _ ihLeft ihTail => exact (ihTail result).trans (ihLeft rfl)
  | operator _ _ _ _ ihRight ihTail =>
      exact (ihTail result).trans ((ihRight rfl).trans (depth_advance _))
  | noOperator | valueWord | constant =>
      cases result
      simp
  | unary _ _ _ _ ih | grouping _ _ _ _ _ _ ih =>
      cases result
      simp [ih rfl]
  | _ => cases result

end Reads

end LoxFront
