/-
# A cursor over a row of tokens

The cursor stands between the tokens that have been passed and those that lie
ahead. It never moves past the first token that ends the input, so only the
tokens before that one can be passed, and none of them ends the input. The tokens
after it cannot be reached; of those only the very last is kept, because it is
what a cursor at the beginning gives as the token before it.

The cursor also counts the groups and prefixed operators that are open, and it may
have a limited number of expressions to begin. Both go on counting after an error.
-/

import LoxFront.Problem

namespace LoxFront

/-- A position in a row of tokens. -/
structure TokenCursor where
  /-- The tokens that have been passed, the most recent first. -/
  passed : List Token := []
  /-- The tokens ahead, up to the one that ends the input. -/
  ahead : List Token
  /-- The first token that ends the input. -/
  stop : Token
  /-- The last of all tokens. -/
  last : Token
  /-- How many groups and prefixed operators are open. It is a balance of calls,
  and one call too many makes it negative. -/
  depth : Int := 0
  /-- How many expressions may still be begun, if that is limited. -/
  allowance : Option Nat := none
  deriving DecidableEq

/-- Why a reading of tokens stops without a tree. -/
inductive ParseFailure where
  /-- The tokens are not an expression. -/
  | problem (error : SyntaxError)
  /-- A token cannot be read. -/
  | fault (fault : TokenFault)
  /-- There is no room to begin another expression. -/
  | exhausted
  deriving DecidableEq

/-- A reading of tokens: it moves the cursor, and it may fail, in which case the
cursor stays where the failure happened. -/
abbrev ParseM := EStateM ParseFailure TokenCursor

namespace TokenCursor

/-- A cursor before a row of tokens. The row has to end with a token that ends the
input. -/
def ofTokens? (tokens : List Token) : Option TokenCursor :=
  match tokens.find? (·.kind == .eof), tokens.getLast? with
  | some stop, some last =>
    if last.kind = .eof then
      some { ahead := tokens.takeWhile (·.kind != .eof), stop, last }
    else none
  | _, _ => none

/-- The number of tokens that have been passed. -/
def position (cursor : TokenCursor) : Nat :=
  cursor.passed.length

/-- Whether the cursor stands before the token that ends the input. -/
def isAtEnd (cursor : TokenCursor) : Bool :=
  cursor.ahead.isEmpty

/-- The next token. -/
def peek (cursor : TokenCursor) : Token :=
  cursor.ahead.headD cursor.stop

/-- The token before the cursor. A cursor at the beginning takes the last of all
tokens for it. -/
def previous (cursor : TokenCursor) : Token :=
  cursor.passed.headD cursor.last

/-- Whether the next token is of a kind. The end of the input is of no kind. -/
def check (kind : TokenKind) (cursor : TokenCursor) : Bool :=
  !cursor.isAtEnd && cursor.peek.kind == kind

/-- Pass the next token, unless it ends the input. -/
def advance (cursor : TokenCursor) : TokenCursor :=
  match cursor.ahead with
  | [] => cursor
  | token :: rest => { cursor with passed := token :: cursor.passed, ahead := rest }

/-- Whether the next token begins a statement. -/
def beginsStatement (token : Token) : Bool :=
  [.kwClass, .kwFun, .kwVar, .kwFor, .kwIf, .kwWhile, .kwPrint, .kwReturn].contains token.kind

/-- Pass tokens up to the end of a statement or the beginning of one, given what
has been passed and what lies ahead. -/
def skip (passed : List Token) : List Token → List Token × List Token
  | [] => (passed, [])
  | token :: rest =>
    if (passed.head?.map Token.kind) = some .semicolon || beginsStatement token then
      (passed, token :: rest)
    else skip (token :: passed) rest

/-- Pass at least one token, if there is one, and then all others up to the next
place where a statement ends or begins. -/
def synchronize (cursor : TokenCursor) : TokenCursor :=
  match cursor.ahead with
  | [] => cursor
  | token :: rest =>
    let (passed, ahead) := skip (token :: cursor.passed) rest
    { cursor with passed, ahead }

end TokenCursor

namespace ParseM

/-- Stop with a problem. -/
def reject {α : Type} (error : SyntaxError) : ParseM α :=
  throw (.problem error)

/-- Pass the next token and give the one before the cursor. -/
def advance : ParseM Token :=
  modifyGet fun cursor => (cursor.advance.previous, cursor.advance)

/-- Pass the next token if it is of one of some kinds. -/
def accept (kinds : List TokenKind) : ParseM (Option Token) :=
  modifyGet fun cursor =>
    if kinds.any cursor.check then (some cursor.peek, cursor.advance) else (none, cursor)

/-- Pass the next token, which has to be of a kind. -/
def consume (kind : TokenKind) (message : String) : ParseM Token := do
  let cursor ← get
  if cursor.check kind then advance else reject (.expectedToken cursor.peek kind message)

/-- Open a group or an operand at a token, within a limit if there is one. -/
def enter (limit : Option Int) (token : Token) : ParseM Unit := do
  let cursor ← get
  if limit.any (· ≤ cursor.depth) then reject (.expressionTooDeep token)
  else set { cursor with depth := cursor.depth + 1 }

/-- Close a group or an operand. -/
def leave : ParseM Unit :=
  modify fun cursor => { cursor with depth := cursor.depth - 1 }

/-- Begin an expression, if there is room for one. -/
def spend : ParseM Unit := do
  let cursor ← get
  match cursor.allowance with
  | none => pure ()
  | some 0 => throw .exhausted
  | some (left + 1) => set { cursor with allowance := some left }

end ParseM

end LoxFront
