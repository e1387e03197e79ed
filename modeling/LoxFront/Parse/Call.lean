/-
# Single calls on a token cursor

A caller that reads tokens by hand moves the cursor with the calls of this module,
in any order, and may go on after an error. Nothing is put right in between: the
cursor stays where the error left it, and what was open stays open.
-/

import LoxFront.Parse.Descent

namespace LoxFront

/-- A call on a token cursor. -/
inductive ParserCall where
  /-- Read what a rule describes. -/
  | read (rule : Rule)
  /-- Pass tokens up to the next boundary of statements. -/
  | synchronize
  /-- Look at the next token. -/
  | peek
  /-- Look at the token before the cursor. -/
  | previous
  /-- Pass the next token. -/
  | advance
  /-- Ask whether the next token ends the input. -/
  | isAtEnd
  /-- Close a group or an operand. -/
  | leave
  /-- Open a group or an operand at the next token. -/
  | enter
  /-- Pass the next token if it is of one of some kinds. -/
  | accept (kinds : List TokenKind)
  /-- Ask whether the next token is of a kind. -/
  | check (kind : TokenKind)
  /-- Pass the next token, which has to be of a kind. -/
  | consume (kind : TokenKind) (message : String)
  deriving DecidableEq

/-- What a call on a token cursor answers. -/
inductive ParserReply where
  | nothing
  | flag (value : Bool)
  | token (value : Token)
  | tree (value : Expr)
  deriving DecidableEq

namespace ParseM

/-- Perform a call. -/
def perform : ParserCall → ParseM ParserReply
  | .read rule => return .tree (← readRule (some maxDepth) rule)
  | .synchronize => do
    modify TokenCursor.synchronize
    return .nothing
  | .peek => return .token (← get).peek
  | .previous => return .token (← get).previous
  | .advance => return .token (← advance)
  | .isAtEnd => return .flag (← get).isAtEnd
  | .leave => do
    leave
    return .nothing
  | .enter => do
    enter (some maxDepth) (← get).peek
    return .nothing
  | .accept kinds => return .flag (← accept kinds).isSome
  | .check kind => return .flag ((← get).check kind)
  | .consume kind message => return .token (← consume kind message)

/-- The cursor after a call, whether it answers or fails. -/
def after {α : Type} (call : ParseM α) (cursor : TokenCursor) : TokenCursor :=
  match call.run cursor with
  | .ok _ next => next
  | .error _ next => next

/-- The cursor after a row of calls. -/
def afterAll (calls : List ParserCall) (cursor : TokenCursor) : TokenCursor :=
  calls.foldl (fun cursor call => after (perform call) cursor) cursor

end ParseM

end LoxFront
