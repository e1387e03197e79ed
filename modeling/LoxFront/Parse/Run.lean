/-
# What the basic readings do

Each basic reading of tokens is a small program over the cursor. The equations of
this module say what it answers and where it leaves the cursor, so that no later
argument has to open the programs themselves.
-/

import LoxFront.Parse.Cursor

namespace LoxFront.ParseM

variable (cursor : TokenCursor)

/-- Passing a token gives the one before the cursor afterwards. -/
@[simp]
theorem run_advance :
    advance.run cursor = .ok cursor.advance.previous cursor.advance := rfl

/-- A token of the right kinds is passed and given back; any other one stays. -/
@[simp]
theorem run_accept (kinds : List TokenKind) :
    (accept kinds).run cursor =
      if kinds.any cursor.check then .ok (some cursor.peek) cursor.advance
      else .ok none cursor := by
  rw [accept, EStateM.run_modifyGet]
  split <;> rfl

/-- A required token is passed; any other one is reported, and stays. -/
@[simp]
theorem run_consume (kind : TokenKind) (message : String) :
    (consume kind message).run cursor =
      if cursor.check kind then .ok cursor.advance.previous cursor.advance
      else .error (.problem (.expectedToken cursor.peek kind message)) cursor := by
  rw [consume, EStateM.run_bind, EStateM.run_get]
  dsimp only
  split <;> rfl

/-- Opening a level counts it, unless the limit has been reached. -/
@[simp]
theorem run_enter (limit : Option Int) (token : Token) :
    (enter limit token).run cursor =
      if limit.any (· ≤ cursor.depth) then
        .error (.problem (.expressionTooDeep token)) cursor
      else .ok () { cursor with depth := cursor.depth + 1 } := by
  rw [enter, EStateM.run_bind, EStateM.run_get]
  dsimp only
  split <;> rfl

/-- Closing a level takes it from the count. -/
@[simp]
theorem run_leave :
    leave.run cursor = .ok () { cursor with depth := cursor.depth - 1 } := rfl

end LoxFront.ParseM
