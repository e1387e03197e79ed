/-
# The kinds of tokens

Every lexeme of the language belongs to one of these kinds, and the grammar looks
at nothing else of a token. The marks and the keywords have one spelling each;
identifiers, strings and numbers have many. The kind that ends the input has none
and is always last.

A kind has a name and a number for display. Both are part of what the front end
shows, and the order of declaration is the order of the numbers.
-/

namespace LoxFront

/-- The kind of a token. Keywords are reserved even where the grammar of
expressions has no use for them. -/
inductive TokenKind where
  | leftParen | rightParen | leftBrace | rightBrace | comma | dot | minus | plus
  | semicolon | slash | star | bang | bangEqual | equal | equalEqual | greater
  | greaterEqual | less | lessEqual
  | identifier | string | number
  | kwAnd | kwClass | kwElse | kwFalse | kwFun | kwFor | kwIf | kwNil | kwOr | kwPrint
  | kwReturn | kwSuper | kwThis | kwTrue | kwVar | kwWhile
  | eof
  deriving DecidableEq

namespace TokenKind

/-- All kinds, in the order of their numbers. -/
def all : List TokenKind :=
  [.leftParen, .rightParen, .leftBrace, .rightBrace, .comma, .dot, .minus, .plus,
   .semicolon, .slash, .star, .bang, .bangEqual, .equal, .equalEqual, .greater,
   .greaterEqual, .less, .lessEqual, .identifier, .string, .number, .kwAnd, .kwClass,
   .kwElse, .kwFalse, .kwFun, .kwFor, .kwIf, .kwNil, .kwOr, .kwPrint, .kwReturn, .kwSuper,
   .kwThis, .kwTrue, .kwVar, .kwWhile, .eof]

/-- The name under which a kind is shown. -/
def name : TokenKind → String
  | .leftParen => "LEFT_PAREN"
  | .rightParen => "RIGHT_PAREN"
  | .leftBrace => "LEFT_BRACE"
  | .rightBrace => "RIGHT_BRACE"
  | .comma => "COMMA"
  | .dot => "DOT"
  | .minus => "MINUS"
  | .plus => "PLUS"
  | .semicolon => "SEMICOLON"
  | .slash => "SLASH"
  | .star => "STAR"
  | .bang => "BANG"
  | .bangEqual => "BANG_EQUAL"
  | .equal => "EQUAL"
  | .equalEqual => "EQUAL_EQUAL"
  | .greater => "GREATER"
  | .greaterEqual => "GREATER_EQUAL"
  | .less => "LESS"
  | .lessEqual => "LESS_EQUAL"
  | .identifier => "IDENTIFIER"
  | .string => "STRING"
  | .number => "NUMBER"
  | .kwAnd => "AND"
  | .kwClass => "CLASS"
  | .kwElse => "ELSE"
  | .kwFalse => "FALSE"
  | .kwFun => "FUN"
  | .kwFor => "FOR"
  | .kwIf => "IF"
  | .kwNil => "NIL"
  | .kwOr => "OR"
  | .kwPrint => "PRINT"
  | .kwReturn => "RETURN"
  | .kwSuper => "SUPER"
  | .kwThis => "THIS"
  | .kwTrue => "TRUE"
  | .kwVar => "VAR"
  | .kwWhile => "WHILE"
  | .eof => "EOF"

/-- The number of a kind, counted from one. -/
def code (kind : TokenKind) : Nat :=
  all.idxOf kind + 1

/-- The kind with the given name. -/
def ofName? (text : String) : Option TokenKind :=
  all.find? fun kind => kind.name == text

/-- The reserved words in alphabetical order, each with its kind. -/
def keywords : List (String × TokenKind) :=
  [("and", .kwAnd), ("class", .kwClass), ("else", .kwElse), ("false", .kwFalse),
   ("for", .kwFor), ("fun", .kwFun), ("if", .kwIf), ("nil", .kwNil), ("or", .kwOr),
   ("print", .kwPrint), ("return", .kwReturn), ("super", .kwSuper), ("this", .kwThis),
   ("true", .kwTrue), ("var", .kwVar), ("while", .kwWhile)]

/-- The kind of a word: the keyword that it spells, or else an identifier. -/
def ofWord (word : String) : TokenKind :=
  (keywords.lookup word).getD .identifier

/-- Whether tokens of the kind carry the value that they spell. -/
def carriesLiteral (kind : TokenKind) : Bool :=
  kind == .string || kind == .number

end TokenKind

end LoxFront
