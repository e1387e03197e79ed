/-
# Literal values

A literal value is a constant that a token or a tree carries: the contents of a
string, a number, or the spelling of one of the words that name a value. The last
one lets a word such as `nil` travel through a tree like any other constant,
without an evaluator that would know what it stands for.
-/

import LoxFront.Binary64.Text

namespace LoxFront

/-- A constant of the language. -/
inductive Literal where
  | string (contents : String)
  | number (value : Binary64)
  | identifier (spelling : String)
  deriving DecidableEq

namespace Literal

/-- What a literal value holds. -/
inductive Kind where
  | string | number | identifier
  deriving DecidableEq

namespace Kind

/-- All kinds of literal values, in the order of their numbers. -/
def all : List Kind := [.string, .number, .identifier]

/-- The name under which a kind of literal value is shown. -/
def name : Kind → String
  | .string => "STRING"
  | .number => "NUMBER"
  | .identifier => "IDENTIFIER"

/-- The number of a kind of literal value, counted from one. -/
def code (kind : Kind) : Nat :=
  all.idxOf kind + 1

end Kind

/-- The kind of a literal value. -/
def kind : Literal → Kind
  | .string _ => .string
  | .number _ => .number
  | .identifier _ => .identifier

/-- The text of a literal value. Strings stand without quotes. -/
def toText : Literal → String
  | .string contents => contents
  | .number value => value.toText
  | .identifier spelling => spelling

/-- Equality of literal values, in which numbers are compared as numbers. -/
def equals : Literal → Literal → Bool
  | .string contents₁, .string contents₂ => contents₁ == contents₂
  | .number value₁, .number value₂ => value₁.equals value₂
  | .identifier spelling₁, .identifier spelling₂ => spelling₁ == spelling₂
  | _, _ => false

end Literal

end LoxFront
