/-
# Calls on a source text by index

A source cursor keeps the characters since the beginning of the lexeme and those ahead, and can
look at no others. Here the same calls are made on a text that is looked up by index, with one
index for the beginning of the lexeme and one for the position. A lookup outside the text is a
failure of its own. The loops go from character to character and ask before each round whether
they are to go on; for some of them nothing but the null character, which is what a look past
the end gives, keeps them from going on there. Lexemes are cut out of the text between the two
indices at the moment when they are needed.
-/

import LoxFront.Proofs.Source.Lines
import LoxFront.Source.Call

namespace LoxFront

/-- A text, the indices of the beginning of the lexeme and of the position with the lines that
were counted up to there, and what has been found. -/
structure TextIndex where
  source : List Char
  start : Nat := 0
  startLine : Nat := 1
  current : Nat := 0
  line : Nat := 1
  tokens : Array Token := #[]
  errors : Array ScanError := #[]

/-- Why a call by index fails. -/
inductive TextFailure where
  /-- There is no character at an index. -/
  | outOfRange (index : Nat)
  /-- The text since the beginning of the lexeme is not a number. -/
  | notANumber (text : String)

/-- A call on a text by index. -/
abbrev TextM := EStateM TextFailure TextIndex

/-- The beginning of a text. -/
def TextIndex.ofText (source : String) : TextIndex :=
  { source := source.toList }

namespace TextM

/-- Look up a character that has to be there. -/
def characterAt (index : Nat) : TextM Char := do
  match (← get).source[index]? with
  | some character => pure character
  | none => throw (.outOfRange index)

/-- Whether the whole text has been read. -/
def isAtEnd : TextM Bool := do
  let text ← get
  return decide (text.source.length ≤ text.current)

/-- Pass over one character. -/
def advance : TextM Char := do
  let character ← characterAt (← get).current
  modify fun text => { text with current := text.current + 1 }
  return character

/-- Pass over one character if it is the expected one. -/
def accept (expected : String) : TextM Bool := do
  if ← isAtEnd then return false
  else if String.singleton (← characterAt (← get).current) == expected then
    modify fun text => { text with current := text.current + 1 }
    return true
  else return false

/-- Look at the next character. -/
def peek : TextM Char := do
  if ← isAtEnd then return '\x00'
  else characterAt (← get).current

/-- Look at the character after the next one. -/
def peekNext : TextM Char := do
  let text ← get
  if text.source.length ≤ text.current + 1 then return '\x00'
  else characterAt (text.current + 1)

/-- The text since the beginning of the lexeme. -/
def lexeme : TextM (List Char) := do
  let text ← get
  return text.source.extract text.start text.current

/-- Add a token for the text since the beginning of the lexeme. -/
def addToken (kind : TokenKind) (literal : Option Literal) : TextM Unit := do
  let spelling ← lexeme
  modify fun text =>
    { text with
      tokens := text.tokens.push ⟨kind, String.ofList spelling, literal, text.startLine⟩ }

/-- Add an error on the line that has been reached. -/
def addError (error : Nat → ScanError) : TextM Unit :=
  modify fun text => { text with errors := text.errors.push (error text.line) }

/-- Go round as long as a question is answered with yes, but not more often than a count says. -/
def loop (goesOn : TextM Bool) (body : TextM Unit) : Nat → TextM Unit
  | 0 => pure ()
  | count + 1 => do
    if ← goesOn then
      body
      loop goesOn body count
    else pure ()

/-- Go round as long as a question is answered with yes. Each round passes a character, and there
is one question more than there are characters. -/
def rounds (goesOn : TextM Bool) (body : TextM Unit) : TextM Unit := do
  let text ← get
  loop goesOn body (text.source.length - text.current + 1)

/-- Pass over characters as long as the next one is of a sort. -/
def passWhile (sort : Char → Bool) : TextM Unit :=
  rounds (return sort (← peek)) do
    let _ ← advance

/-- Whether there is a next character, and it is another one than a given one. -/
def isBefore (stop : Char) : TextM Bool := do
  if (← peek) != stop then return !(← isAtEnd)
  else return false

/-- Read the rest of a comment. -/
def comment : TextM Unit :=
  rounds (isBefore '\n') do
    let _ ← advance

/-- Whether a character is a digit. -/
def isDigit (character : Char) : Bool :=
  isDigitText (String.singleton character)

/-- Whether a character is a letter or an underscore. -/
def isLetter (character : Char) : Bool :=
  isLetterText (String.singleton character)

/-- Read the rest of a word. -/
def word : TextM Unit := do
  passWhile fun character => isLetter character || isDigit character
  addToken (TokenKind.ofWord (String.ofList (← lexeme))) none

/-- Pass over a point and the digits after it, if a digit follows the point. -/
def fraction : TextM Unit := do
  if (← peek) == '.' then
    if isDigit (← peekNext) then
      let _ ← advance
      passWhile isDigit

/-- Read the rest of a number. -/
def number : TextM Unit := do
  passWhile isDigit
  fraction
  let text ← lexeme
  match Binary64.ofText? text with
  | some value => addToken .number (some (.number value))
  | none => throw (.notANumber (String.ofList text))

/-- Pass over one character, and count the line that ends with it. -/
def advanceInString : TextM Unit := do
  if (← peek) == '\n' then modify fun text => { text with line := text.line + 1 }
  let _ ← advance

/-- Read the rest of a string. -/
def string : TextM Unit := do
  rounds (isBefore '"') advanceInString
  if ← isAtEnd then addError fun line => .unterminatedString line
  else
    let _ ← advance
    let text ← get
    let contents := text.source.extract (text.start + 1) (text.current - 1)
    addToken .string (some (.string (String.ofList contents)))

/-- Add a token for a mark, which is another one if an equals sign follows. -/
def markWithEqual (alone together : TokenKind) : TextM Unit := do
  if ← accept "=" then addToken together none
  else addToken alone none

/-- Read the rest of the piece that begins with a character. -/
def scanRest (first : Char) : TextM Unit :=
  match first with
  | '(' => addToken .leftParen none
  | ')' => addToken .rightParen none
  | '{' => addToken .leftBrace none
  | '}' => addToken .rightBrace none
  | ',' => addToken .comma none
  | '.' => addToken .dot none
  | '-' => addToken .minus none
  | '+' => addToken .plus none
  | ';' => addToken .semicolon none
  | '*' => addToken .star none
  | '!' => markWithEqual .bang .bangEqual
  | '=' => markWithEqual .equal .equalEqual
  | '<' => markWithEqual .less .lessEqual
  | '>' => markWithEqual .greater .greaterEqual
  | '/' => do
    if ← accept "/" then comment
    else addToken .slash none
  | ' ' | '\r' | '\t' => pure ()
  | '\n' => modify fun text => { text with line := text.line + 1 }
  | '"' => string
  | _ =>
    if isDigit first then number
    else if isLetter first then word
    else addError fun line => .unexpectedCharacter line (String.singleton first)

/-- Read one piece without beginning a lexeme. -/
def scanPiece : TextM Unit := do
  scanRest (← advance)

/-- Begin a lexeme and read one piece. -/
def takePiece : TextM Unit := do
  modify fun text => { text with start := text.current, startLine := text.line }
  scanPiece

/-- Read the rest of the text piece by piece and end the scan. -/
def scanAll : TextM (List Token) := do
  rounds (return !(← isAtEnd)) takePiece
  modify fun text => { text with tokens := text.tokens.push ⟨.eof, "", none, text.line⟩ }
  return (← get).tokens.toList

/-- Perform a call. -/
def perform : SourceCall → TextM SourceReply
  | .restart source => do
    modify fun text => { TextIndex.ofText source with errors := text.errors }
    return .nothing
  | .advance => return .text (String.singleton (← advance))
  | .accept expected => return .flag (← accept expected)
  | .peek => return .text (String.singleton (← peek))
  | .peekNext => return .text (String.singleton (← peekNext))
  | .isAtEnd => return .flag (← isAtEnd)
  | .scanPiece => do
    scanPiece
    return .nothing
  | .scanAll => return .tokens (← scanAll)
  | .word => do
    word
    return .nothing
  | .string => do
    string
    return .nothing
  | .isDigit text => return .flag (isDigitText text)
  | .isLetter text => return .flag (isLetterText text)
  | .isLetterOrDigit text => return .flag (isLetterText text || isDigitText text)
  | .addToken kind literal => do
    addToken kind literal
    return .nothing

/-- Where a text stands after a call, whether it answers or fails. -/
def after (call : SourceCall) (text : TextIndex) : TextIndex :=
  match (perform call).run text with
  | .ok _ next => next
  | .error _ stopped => stopped

/-- Where a text stands after a row of calls. -/
def afterAll (calls : List SourceCall) (text : TextIndex) : TextIndex :=
  calls.foldl (fun text call => after call text) text

end TextM

/-- The indices, lines and findings of a cursor in a text. -/
def SourceCursor.mark (source : String) (cursor : SourceCursor) : TextIndex where
  source := source.toList
  start := cursor.start
  startLine := cursor.startLine
  current := cursor.position
  line := cursor.line
  tokens := cursor.tokens
  errors := cursor.errors

/-- What a call by cursor comes to, as what a call by index comes to. -/
def indexed {α : Type} (source : String) :
    Except SourceFault α × SourceCursor → EStateM.Result TextFailure TextIndex α
  | (.ok value, next) => .ok value (next.mark source)
  | (.error .endOfText, stopped) => .error (.outOfRange source.length) (stopped.mark source)
  | (.error (.notANumber text), stopped) => .error (.notANumber text) (stopped.mark source)

/-- The indices lie in the text one behind the other, and lines are counted from one on and not
beyond those that there are. -/
structure TextIndex.IsWithin (text : TextIndex) : Prop where
  start_le : text.start ≤ text.current
  current_le : text.current ≤ text.source.length
  startLine_pos : 1 ≤ text.startLine
  startLine_le : text.startLine ≤ text.line
  line_le : text.line ≤ lineAt text.source text.current
  startLine_le_lineAt : text.startLine ≤ lineAt text.source text.start

end LoxFront
