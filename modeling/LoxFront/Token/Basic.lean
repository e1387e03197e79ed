/-
# Tokens

A token is a lexeme with its kind, the value that it spells if there is one, and
the line on which it starts. Tokens that are read from a text carry a value
exactly when they are strings or numbers and their lines are positive, but tokens
can also be put together by hand, so the type asks for neither.
-/

import LoxFront.Token.Kind
import LoxFront.Token.Literal

namespace LoxFront

/-- A piece of source text with its meaning for the grammar. -/
structure Token where
  kind : TokenKind
  lexeme : String
  literal : Option Literal
  line : Int
  deriving DecidableEq

namespace Token

/-- The text of a token: its kind, its lexeme and its value. -/
def toText (token : Token) : String :=
  let value := match token.literal with
    | none => "None"
    | some literal => literal.toText
  token.kind.name ++ " " ++ token.lexeme ++ " " ++ value

/-- Equality of optional literal values, in which numbers are compared as numbers. -/
def literalEquals : Option Literal → Option Literal → Bool
  | none, none => true
  | some literal₁, some literal₂ => literal₁.equals literal₂
  | _, _ => false

/-- Equality of tokens in every part, in which numbers are compared as numbers. -/
def equals (token₁ token₂ : Token) : Bool :=
  token₁.kind == token₂.kind && token₁.lexeme == token₂.lexeme &&
    literalEquals token₁.literal token₂.literal && token₁.line == token₂.line

end Token

end LoxFront
