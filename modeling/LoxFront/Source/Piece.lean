/-
# The pieces of a source text

A source text is cut from left to right into pieces, each as long as possible.
The first character of a piece, with at most two characters after what has been
read, decides its shape, and the shape alone decides later what the piece means.
Nothing is skipped: blanks, comments and characters that belong nowhere are
pieces too, and the pieces of a text joined together are the text.

`Shape.Admits` says which texts have a shape, independently of how pieces are
found. Characters outside the alphabet of the language, letters and digits of
other scripts included, can stand in strings and comments only.
-/

import LoxFront.Token.Kind

namespace LoxFront

/-- Whether a character can begin a word. -/
def isWordStart (c : Char) : Bool := c.isAlpha || c == '_'

/-- Whether a character can stand inside a word. -/
def isWordPart (c : Char) : Bool := isWordStart c || c.isDigit

/-- What a piece of text looks like. -/
inductive Shape where
  /-- A mark with one spelling: a bracket, a separator or an operator. -/
  | mark (kind : TokenKind)
  /-- A single blank or line break. -/
  | layout
  /-- Two slashes and the rest of the line. -/
  | comment
  /-- A quote and everything up to the next one. -/
  | string
  /-- A quote and everything after it, where there is no other quote. -/
  | openString
  /-- Digits, perhaps with a point among them. -/
  | number
  /-- A letter or underscore, and the letters, digits and underscores after it. -/
  | word
  /-- A character that begins nothing. -/
  | stray (character : Char)
  deriving DecidableEq

/-- A piece of text: its shape and its characters, of which there is at least
one. -/
structure Piece where
  shape : Shape
  first : Char
  others : List Char
  deriving DecidableEq

namespace TokenKind

/-- The spelling of a mark. Kinds that are not marks have none here. -/
def markSpelling? : TokenKind → Option String
  | .leftParen => some "("
  | .rightParen => some ")"
  | .leftBrace => some "\x7b"
  | .rightBrace => some "\x7d"
  | .comma => some ","
  | .dot => some "."
  | .minus => some "-"
  | .plus => some "+"
  | .semicolon => some ";"
  | .slash => some "/"
  | .star => some "*"
  | .bang => some "!"
  | .bangEqual => some "!="
  | .equal => some "="
  | .equalEqual => some "=="
  | .greater => some ">"
  | .greaterEqual => some ">="
  | .less => some "<"
  | .lessEqual => some "<="
  | _ => none

end TokenKind

namespace Shape

/-- Which texts have a shape. A stray character is one that no other shape
admits. -/
def Admits : Shape → List Char → Prop
  | .mark kind, text => kind.markSpelling? = some (String.ofList text)
  | .layout, text => text = [' '] ∨ text = ['\t'] ∨ text = ['\r'] ∨ text = ['\n']
  | .comment, text => ∃ remark, text = '/' :: '/' :: remark ∧ '\n' ∉ remark
  | .string, text => ∃ contents, text = '"' :: (contents ++ ['"']) ∧ '"' ∉ contents
  | .openString, text => ∃ contents, text = '"' :: contents ∧ '"' ∉ contents
  | .number, text =>
    ∃ whole fraction, whole ≠ [] ∧ (∀ c ∈ whole ++ fraction, c.isDigit) ∧
      (text = whole ∧ fraction = [] ∨ text = whole ++ '.' :: fraction ∧ fraction ≠ [])
  | .word, text =>
    ∃ start others, text = start :: others ∧ isWordStart start ∧ ∀ c ∈ others, isWordPart c
  | .stray character, text =>
    text = [character] ∧ (∀ kind : TokenKind, kind.markSpelling? ≠ some (String.ofList text)) ∧
      character ∉ [' ', '\t', '\r', '\n', '"'] ∧ ¬ character.isDigit ∧ ¬ isWordStart character

end Shape

namespace Piece

/-- The characters of a piece. -/
def text (piece : Piece) : List Char :=
  piece.first :: piece.others

/-- A mark of one character, or of two if an equals sign follows. -/
def withEqual (c : Char) (rest : List Char) (alone together : TokenKind) : Piece :=
  if rest.head? = some '=' then ⟨.mark together, c, ['=']⟩ else ⟨.mark alone, c, []⟩

/-- The digits of a numeral after its first one. A point belongs to the numeral
only if a digit follows it. -/
def numeralTail (rest : List Char) : List Char :=
  let whole := rest.takeWhile Char.isDigit
  match rest.dropWhile Char.isDigit with
  | '.' :: fraction =>
    let fraction := fraction.takeWhile Char.isDigit
    if fraction.isEmpty then whole else whole ++ '.' :: fraction
  | _ => whole

/-- The longest piece at the front of a text that is not empty. -/
def longest (c : Char) (rest : List Char) : Piece :=
  match c with
  | '(' => ⟨.mark .leftParen, c, []⟩
  | ')' => ⟨.mark .rightParen, c, []⟩
  | '{' => ⟨.mark .leftBrace, c, []⟩
  | '}' => ⟨.mark .rightBrace, c, []⟩
  | ',' => ⟨.mark .comma, c, []⟩
  | '.' => ⟨.mark .dot, c, []⟩
  | '-' => ⟨.mark .minus, c, []⟩
  | '+' => ⟨.mark .plus, c, []⟩
  | ';' => ⟨.mark .semicolon, c, []⟩
  | '*' => ⟨.mark .star, c, []⟩
  | '!' => withEqual c rest .bang .bangEqual
  | '=' => withEqual c rest .equal .equalEqual
  | '<' => withEqual c rest .less .lessEqual
  | '>' => withEqual c rest .greater .greaterEqual
  | '/' =>
    if rest.head? = some '/' then ⟨.comment, c, rest.takeWhile (· != '\n')⟩
    else ⟨.mark .slash, c, []⟩
  | ' ' | '\t' | '\r' | '\n' => ⟨.layout, c, []⟩
  | '"' =>
    if '"' ∈ rest then ⟨.string, c, rest.takeWhile (· != '"') ++ ['"']⟩
    else ⟨.openString, c, rest⟩
  | _ =>
    if c.isDigit then ⟨.number, c, numeralTail rest⟩
    else if isWordStart c then ⟨.word, c, rest.takeWhile isWordPart⟩
    else ⟨.stray c, c, []⟩

/-- The pieces of a text. -/
def split : List Char → List Piece
  | [] => []
  | c :: rest =>
    let piece := longest c rest
    piece :: split (rest.drop piece.others.length)
termination_by text => text.length
decreasing_by simp only [List.length_drop, List.length_cons]; omega

end Piece

end LoxFront
