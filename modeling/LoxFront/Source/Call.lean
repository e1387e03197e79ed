/-
# Single calls on a source cursor

A caller that wants to read a text by hand moves the cursor with the calls of this
module, in any order. Unlike a scan of the whole text they leave the beginning of
the lexeme where it is, so that a token added by hand may span several pieces, and
the calls that move over a single character do not count lines.

Two calls fail at the end of the text, and then nothing has changed. One more
failure is possible: what stands in a lexeme before the first digit may keep the
whole of it from being a number. By then the digits have been passed.
-/

import LoxFront.Source.Cursor
import LoxFront.Text.Quoted

namespace LoxFront

/-- Why a call on a source cursor fails. -/
inductive SourceFault where
  /-- The whole text has been read. -/
  | endOfText
  /-- The text since the beginning of the lexeme is not a number. -/
  | notANumber (text : String)
  deriving DecidableEq

namespace SourceFault

/-- The message for the programmer. -/
def message : SourceFault → String
  | .endOfText => "string index out of range"
  | .notANumber text => "could not convert string to float: " ++ quoted text

end SourceFault

/-- A call on a source cursor. -/
inductive SourceCall where
  /-- Go over to another text and keep the errors. -/
  | restart (source : String)
  /-- Pass over one character. -/
  | advance
  /-- Pass over one character if it is the expected one. -/
  | accept (expected : String)
  /-- Look at the next character. -/
  | peek
  /-- Look at the character after the next one. -/
  | peekNext
  /-- Ask whether the whole text has been read. -/
  | isAtEnd
  /-- Read one piece. -/
  | scanPiece
  /-- Read the rest of the text. -/
  | scanAll
  /-- Read the rest of a word. -/
  | word
  /-- Read the rest of a string. -/
  | string
  /-- Ask whether a text lies between the first and the last digit. -/
  | isDigit (text : String)
  /-- Ask whether a text lies among the letters or is an underscore. -/
  | isLetter (text : String)
  /-- Ask either of the two questions before. -/
  | isLetterOrDigit (text : String)
  /-- Add a token for the text since the beginning of the lexeme. -/
  | addToken (kind : TokenKind) (literal : Option Literal)
  deriving DecidableEq

/-- What a call on a source cursor answers. -/
inductive SourceReply where
  | nothing
  | flag (value : Bool)
  | text (value : String)
  | tokens (value : List Token)
  deriving DecidableEq

/-- Whether a text lies between the first and the last digit in the order of
texts. For a text of one character this says that it is a digit. -/
def isDigitText (text : String) : Bool :=
  "0" ≤ text && text ≤ "9"

/-- Whether a text lies between the first and the last letter of either case in
the order of texts, or is an underscore. -/
def isLetterText (text : String) : Bool :=
  ("a" ≤ text && text ≤ "z") || ("A" ≤ text && text ≤ "Z") || text == "_"

namespace SourceCursor

/-- Go over to the beginning of another text. The errors found so far are kept. -/
def restart (source : String) (cursor : SourceCursor) : SourceCursor :=
  { ofText source with errors := cursor.errors }

/-- Pass over one character without counting lines. -/
def advance (cursor : SourceCursor) : SourceCursor :=
  { cursor with span := cursor.span ++ cursor.rest.take 1, rest := cursor.rest.drop 1 }

/-- The character some way ahead, or the null character past the end. -/
def lookAhead (distance : Nat) (cursor : SourceCursor) : String :=
  String.singleton (cursor.rest[distance]?.getD '\x00')

/-- Read the rest of a word. -/
def scanWord (cursor : SourceCursor) : SourceCursor :=
  (cursor.pass (cursor.rest.takeWhile isWordPart).length).record .word

/-- Read the rest of a string whose first quote has been passed. -/
def scanString (cursor : SourceCursor) : SourceCursor :=
  if '"' ∈ cursor.rest then
    (cursor.pass ((cursor.rest.takeWhile (· != '"')).length + 1)).record .string
  else
    (cursor.pass cursor.rest.length).record .openString

/-- Read one piece without beginning a lexeme. -/
def scanPiece (cursor : SourceCursor) : Except SourceFault Unit × SourceCursor :=
  match cursor.rest with
  | [] => (.error .endOfText, cursor)
  | c :: rest =>
    let piece := Piece.longest c rest
    let passed := cursor.pass piece.text.length
    if piece.shape = .number ∧ Binary64.ofText? passed.span = none then
      (.error (.notANumber (String.ofList passed.span)), passed)
    else (.ok (), passed.record piece.shape)

/-- Perform a call: its answer or fault, and the cursor after it. -/
def perform (call : SourceCall) (cursor : SourceCursor) :
    Except SourceFault SourceReply × SourceCursor :=
  match call with
  | .restart source => (.ok .nothing, cursor.restart source)
  | .advance =>
    if cursor.isAtEnd then (.error .endOfText, cursor)
    else (.ok (.text (cursor.lookAhead 0)), cursor.advance)
  | .accept expected =>
    if !cursor.isAtEnd && cursor.lookAhead 0 == expected then (.ok (.flag true), cursor.advance)
    else (.ok (.flag false), cursor)
  | .peek => (.ok (.text (cursor.lookAhead 0)), cursor)
  | .peekNext => (.ok (.text (cursor.lookAhead 1)), cursor)
  | .isAtEnd => (.ok (.flag cursor.isAtEnd), cursor)
  | .scanPiece =>
    let (outcome, next) := cursor.scanPiece
    (outcome.map fun _ => .nothing, next)
  | .scanAll =>
    let next := cursor.scanAll
    (.ok (.tokens next.tokens.toList), next)
  | .word => (.ok .nothing, cursor.scanWord)
  | .string => (.ok .nothing, cursor.scanString)
  | .isDigit text => (.ok (.flag (isDigitText text)), cursor)
  | .isLetter text => (.ok (.flag (isLetterText text)), cursor)
  | .isLetterOrDigit text => (.ok (.flag (isLetterText text || isDigitText text)), cursor)
  | .addToken kind literal => (.ok .nothing, cursor.addToken kind literal)

/-- The cursor after a row of calls, whether they answer or fail. -/
def performAll (calls : List SourceCall) (cursor : SourceCursor) : SourceCursor :=
  calls.foldl (fun cursor call => (cursor.perform call).2) cursor

end SourceCursor

end LoxFront
