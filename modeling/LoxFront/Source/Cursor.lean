/-
# A cursor over a source text

The cursor stands at a position in a text and remembers where the lexeme that is
being read began. Taking a piece moves the beginning up to the position, passes
over the piece and records what it means: a token, an error, or nothing. A token
is placed on the line on which its lexeme began, an error on the line that the
cursor has reached. The two differ only for strings that hold line breaks.

Recording looks at all the text since the beginning of the lexeme, not at the
piece alone. The two agree whenever the beginning was moved up first, as it is in
a scan of a whole text.
-/

import LoxFront.Binary64.FreeForm
import LoxFront.Problem
import LoxFront.Source.Piece

namespace LoxFront

/-- A position in a source text, with what has been found before it. -/
structure SourceCursor where
  /-- The position at which the current lexeme begins. -/
  start : Nat := 0
  /-- The line on which it begins, counted from one. -/
  startLine : Nat := 1
  /-- The characters from there up to the position. -/
  span : List Char := []
  /-- The characters from the position on. -/
  rest : List Char
  /-- The line that the cursor has reached, counted from one. -/
  line : Nat := 1
  /-- The tokens found so far. -/
  tokens : Array Token := #[]
  /-- The errors found so far. -/
  errors : Array ScanError := #[]
  deriving DecidableEq

namespace SourceCursor

/-- A cursor at the beginning of a text. -/
def ofText (source : String) : SourceCursor :=
  { rest := source.toList }

/-- The position of the cursor, in characters from the beginning of the text. -/
def position (cursor : SourceCursor) : Nat :=
  cursor.start + cursor.span.length

/-- Whether the whole text has been read. -/
def isAtEnd (cursor : SourceCursor) : Bool :=
  cursor.rest.isEmpty

/-- Begin a lexeme at the position of the cursor. -/
def beginLexeme (cursor : SourceCursor) : SourceCursor :=
  { cursor with start := cursor.position, startLine := cursor.line, span := [] }

/-- Pass over some characters and count the lines that end among them. -/
def pass (count : Nat) (cursor : SourceCursor) : SourceCursor :=
  let passed := cursor.rest.take count
  { cursor with
    span := cursor.span ++ passed
    rest := cursor.rest.drop count
    line := cursor.line + passed.count '\n' }

/-- Add a token for the text since the beginning of the lexeme. -/
def addToken (kind : TokenKind) (literal : Option Literal) (cursor : SourceCursor) :
    SourceCursor :=
  let token : Token := ⟨kind, String.ofList cursor.span, literal, cursor.startLine⟩
  { cursor with tokens := cursor.tokens.push token }

/-- Add an error. -/
def addError (error : ScanError) (cursor : SourceCursor) : SourceCursor :=
  { cursor with errors := cursor.errors.push error }

/-- Record what the text since the beginning of the lexeme means, given the shape
of the piece that was passed last. -/
def record (shape : Shape) (cursor : SourceCursor) : SourceCursor :=
  match shape with
  | .mark kind => cursor.addToken kind none
  | .layout | .comment => cursor
  | .string =>
    cursor.addToken .string (some (.string (String.ofList (cursor.span.drop 1).dropLast)))
  | .openString => cursor.addError (.unterminatedString cursor.line)
  | .number => cursor.addToken .number ((Binary64.ofText? cursor.span).map .number)
  | .word => cursor.addToken (TokenKind.ofWord (String.ofList cursor.span)) none
  | .stray character =>
    cursor.addError (.unexpectedCharacter cursor.line (String.singleton character))

/-- Read the next piece as a lexeme of its own. -/
def takePiece (cursor : SourceCursor) (piece : Piece) : SourceCursor :=
  (cursor.beginLexeme.pass piece.text.length).record piece.shape

/-- Add the token that ends every scan, on the line that the cursor has reached. -/
def finish (cursor : SourceCursor) : SourceCursor :=
  { cursor with tokens := cursor.tokens.push ⟨.eof, "", none, cursor.line⟩ }

/-- Read the rest of the text piece by piece and end the scan. -/
def scanAll (cursor : SourceCursor) : SourceCursor :=
  ((Piece.split cursor.rest).foldl takePiece cursor).finish

/-- The cursor after each of some pieces. -/
def takeEach (cursor : SourceCursor) : List Piece → List SourceCursor
  | [] => []
  | piece :: pieces =>
    let next := cursor.takePiece piece
    next :: next.takeEach pieces

/-- The cursor after each piece of the rest of the text. -/
def trace (cursor : SourceCursor) : List SourceCursor :=
  cursor.takeEach (Piece.split cursor.rest)

end SourceCursor

/-- What a scan of a text finds: its tokens, of which the last one ends the input,
and its errors, both in the order of the text. -/
structure Scan where
  tokens : List Token
  errors : List ScanError
  deriving DecidableEq

/-- Scan a source text. -/
def scan (source : String) : Scan :=
  let cursor := (SourceCursor.ofText source).scanAll
  ⟨cursor.tokens.toList, cursor.errors.toList⟩

namespace Scan

/-- The errors of a scan, as problems with its text. -/
def problems (scan : Scan) : List Problem :=
  scan.errors.map .scan

end Scan

end LoxFront
