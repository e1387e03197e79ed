/-
# Diagnostics

A diagnostic is a problem made ready for the user: its line, the place on that
line, and the message. The place is empty for a problem that is only known by its
line, names the end of the input, or quotes the lexeme of the token.
-/

import LoxFront.Problem

namespace LoxFront

/-- A message about one line of a source text. -/
structure Diagnostic where
  line : Int
  location : String
  message : String
  deriving DecidableEq

namespace Diagnostic

/-- The place of a token as a diagnostic shows it. -/
def place (token : Token) : String :=
  if token.kind = .eof then " at end" else " at '" ++ token.lexeme ++ "'"

/-- The diagnostic of a problem. -/
def ofProblem (problem : Problem) : Diagnostic :=
  ⟨problem.line, (problem.token?.map place).getD "", problem.message⟩

/-- The diagnostic of a problem with the lexemes of a text. -/
def ofScanError (error : ScanError) : Diagnostic :=
  ofProblem (.scan error)

/-- The diagnostic of a problem with the grammar of an expression. -/
def ofSyntaxError (error : SyntaxError) : Diagnostic :=
  ofProblem (.grammar error)

/-- The text that the user sees. -/
def render (diagnostic : Diagnostic) : String :=
  "[line " ++ toString diagnostic.line ++ "] Error" ++ diagnostic.location ++ ": " ++
    diagnostic.message

end Diagnostic

end LoxFront
