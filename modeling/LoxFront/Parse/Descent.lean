/-
# Reading an expression

Each rule of the grammar is read by a descent into the rules that it is made of,
with a look at the kind of one token and without ever going back. The first token
that cannot go on an expression stops it.

Groups and prefixed operators may be open only to a certain depth. The limit is a
parameter of the descent, so that a reading without one can be compared with it.
How many rules are open at once is bounded too: the recursion is on the number of
rules that may still be opened. Between two tokens at most seven rules are opened,
which bounds that number by the length of the input, whatever the depth.
-/

import LoxFront.Grammar.Rule
import LoxFront.Parse.Cursor

namespace LoxFront

namespace ParseM

/-- The greatest depth to which groups and prefixed operators may be open. -/
def maxDepth : Int := 64

/-- Go on from a left operand with operators and right operands as long as they
follow, but not more often than the count says. -/
def chain (operators : List TokenKind) (operand : ParseM Expr) : Nat → Expr → ParseM Expr
  | 0, left => pure left
  | count + 1, left => do
    match ← accept operators with
    | none => pure left
    | some operator =>
      let right ← operand
      chain operators operand count (.binary left operator right)

/-- Read a constant or a group, given how an expression inside a group is read. -/
def readPrimary (limit : Option Int) (expression : ParseM Expr) : ParseM Expr := do
  let token := (← get).peek
  match token.kind with
  | .kwFalse | .kwTrue | .kwNil =>
    let _ ← advance
    pure (.literal (some (.identifier token.lexeme)))
  | .number | .string =>
    let _ ← advance
    match token.value with
    | .ok value => pure (.literal (some value))
    | .error fault => throw (.fault fault)
  | .leftParen =>
    let _ ← advance
    enter limit token
    let inner ← expression
    leave
    let _ ← consume .rightParen "Expect ')' after expression."
    pure (.grouping inner)
  | _ => reject (.expectedExpression token)

/-- Read what a rule describes, with at most the given number of rules open. -/
def descend (limit : Option Int) : Nat → Rule → ParseM Expr
  | 0, _ => throw .exhausted
  | frames + 1, .start => descend limit frames .expression
  | frames + 1, .expression => do
    spend
    descend limit frames (.binary .equality)
  | frames + 1, .binary level => do
    let left ← descend limit frames level.operand
    let count := (← get).ahead.length
    chain level.operators (descend limit frames level.operand) count left
  | frames + 1, .unary => do
    match ← accept TokenKind.unaryOperators with
    | none => descend limit frames .primary
    | some operator =>
      enter limit operator
      let operand ← descend limit frames .unary
      leave
      pure (.unary operator operand)
  | frames + 1, .primary => readPrimary limit (descend limit frames .expression)

/-- A number of rules that is never open at once on a row of tokens: eight before
the first token, and seven more after each. -/
def framesFor (cursor : TokenCursor) : Nat :=
  7 * cursor.ahead.length + 8

/-- Read what a rule describes, within a limit on the depth if there is one. -/
def readRule (limit : Option Int) (rule : Rule) : ParseM Expr := do
  let cursor ← get
  descend limit (framesFor cursor) rule

end ParseM

/-- Read one expression from the beginning of a row of tokens. What follows it is
left unread. There are two ways to go wrong: the tokens may be unfit to be read,
or they may not be an expression. If there is no room to begin an expression, the
reading ends there as one that is nested too deeply. -/
def parseWithin (allowance : Option Nat) (tokens : List Token) :
    Except TokenFault (Except SyntaxError Expr) :=
  match TokenCursor.ofTokens? tokens with
  | none => .error .missingEnd
  | some cursor =>
    match (ParseM.readRule (some ParseM.maxDepth) .start).run { cursor with allowance } with
    | .ok expr _ => .ok (.ok expr)
    | .error (.problem error) _ => .ok (.error error)
    | .error (.fault fault) _ => .error fault
    | .error .exhausted stopped => .ok (.error (.expressionTooDeep stopped.peek))

/-- Read one expression from the beginning of a row of tokens, with room for any
number of expressions inside it. -/
def parse (tokens : List Token) : Except TokenFault (Except SyntaxError Expr) :=
  parseWithin none tokens

end LoxFront
