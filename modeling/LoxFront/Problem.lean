/-
# What can be wrong with a source text

A problem is found either while the text is cut into lexemes or while the tokens
are read as an expression. The first kind knows only a line; the second points at
a token. For each cause there is a constructor, and the wording of all of them
stands in one place below, so that a caller decides on causes and never on texts.
Tokens that were put together by hand can be faulty in ways that no source text
leads to; those faults are kept apart.

Beside the causes that the front end itself finds there are general problems with
a message of their own. They are for callers that have more to report through the
same channel.
-/

import LoxFront.Token.Basic

namespace LoxFront

/-- What makes tokens unfit to be read at all. This never happens to the tokens of
a text and is no fault of one, so it is not reported as a problem. -/
inductive TokenFault where
  /-- The tokens do not end with one that ends the input. -/
  | missingEnd
  /-- A string or number without a value. -/
  | missingLiteral (token : Token)
  deriving DecidableEq

namespace TokenFault

/-- The message for the programmer. -/
def message : TokenFault → String
  | .missingEnd => "Parser tokens must end with an EOF token"
  | .missingLiteral token => token.kind.name ++ " token '" ++ token.lexeme ++ "' has no literal"

end TokenFault

/-- The value that a token carries. -/
def Token.value (token : Token) : Except TokenFault Literal :=
  match token.literal with
  | some literal => .ok literal
  | none => .error (.missingLiteral token)

/-- A problem with the lexemes of a text. -/
inductive ScanError where
  /-- A character that starts no lexeme. -/
  | unexpectedCharacter (line : Int) (character : String)
  /-- The text ended inside a string; the line is the last one. -/
  | unterminatedString (line : Int)
  deriving DecidableEq

namespace ScanError

/-- The line on which the problem was found. -/
def line : ScanError → Int
  | .unexpectedCharacter line _ => line
  | .unterminatedString line => line

/-- The message for the user. -/
def message : ScanError → String
  | .unexpectedCharacter _ _ => "Unexpected character."
  | .unterminatedString _ => "Unterminated string."

end ScanError

/-- A problem with the grammar of an expression, found at a token. -/
inductive SyntaxError where
  /-- No expression starts at the token. -/
  | expectedExpression (token : Token)
  /-- The token opens a group or an operand that is nested too deeply. -/
  | expressionTooDeep (token : Token)
  /-- The token stands where one of another kind is required. -/
  | expectedToken (token : Token) (expected : TokenKind) (message : String)
  deriving DecidableEq

namespace SyntaxError

/-- The token at which the problem was found. -/
def token : SyntaxError → Token
  | .expectedExpression token => token
  | .expressionTooDeep token => token
  | .expectedToken token _ _ => token

/-- The message for the user. -/
def message : SyntaxError → String
  | .expectedExpression _ => "Expect expression."
  | .expressionTooDeep _ => "Expression nested too deeply."
  | .expectedToken _ _ message => message

end SyntaxError

/-- Any problem that can be reported about a source text. -/
inductive Problem where
  | scan (error : ScanError)
  | grammar (error : SyntaxError)
  /-- A problem of no particular sort on a line. -/
  | general (line : Int) (message : String)
  /-- Any other problem with the lexemes of a line. -/
  | lexical (line : Int) (message : String)
  /-- Any other problem with the grammar, at a token. -/
  | grammatical (token : Token) (message : String)
  deriving DecidableEq

namespace Problem

/-- The token at which a problem was found, if it was found at one. -/
def token? : Problem → Option Token
  | .scan _ => none
  | .grammar error => some error.token
  | .general _ _ => none
  | .lexical _ _ => none
  | .grammatical token _ => some token

/-- The line of a problem. For one that was found at a token it is the line of
the token. -/
def line : Problem → Int
  | .scan error => error.line
  | .grammar error => error.token.line
  | .general line _ => line
  | .lexical line _ => line
  | .grammatical token _ => token.line

/-- The message for the user. -/
def message : Problem → String
  | .scan error => error.message
  | .grammar error => error.message
  | .general _ message => message
  | .lexical _ message => message
  | .grammatical _ message => message

end Problem

end LoxFront
