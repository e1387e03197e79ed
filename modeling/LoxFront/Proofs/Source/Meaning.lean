/-
# A scan as a row of pieces

What a piece means depends on its characters and on the line where it begins, and on
nothing else. So a scan is determined by the pieces of its text: each is put on a line
by counting the line breaks in the pieces before it, and then gives at most one token
or error.

Statements that compare the scans of several texts rest on this form. They compare
rows of pieces, and a difference in lines is a different first line.
-/

import LoxFront.Proofs.Source.Scanning

namespace LoxFront

namespace Piece

/-- What a piece means, if it means a token: the kind of the token and its value. -/
def meaning? (piece : Piece) : Option (TokenKind × Option Literal) :=
  match piece.shape with
  | .mark kind => some (kind, none)
  | .string => some (.string, some (.string (String.ofList piece.others.dropLast)))
  | .number => some (.number, (Binary64.ofText? piece.text).map .number)
  | .word => some (TokenKind.ofWord (String.ofList piece.text), none)
  | .layout | .comment | .openString | .stray _ => none

/-- The token that a piece means where it begins on a line, if it means one. -/
def token? (line : Nat) (piece : Piece) : Option Token :=
  piece.meaning?.map fun meaning => ⟨meaning.1, String.ofList piece.text, meaning.2, line⟩

/-- The number of lines that end in a piece. -/
def breaks (piece : Piece) : Nat :=
  piece.text.count '\n'

/-- The error that a piece means where it begins on a line, if it means one. -/
def error? (line : Nat) (piece : Piece) : Option ScanError :=
  match piece.shape with
  | .openString => some (.unterminatedString (line + piece.breaks : Nat))
  | .stray character =>
    some (.unexpectedCharacter (line + piece.breaks : Nat) (String.singleton character))
  | .mark _ | .layout | .comment | .string | .number | .word => none

/-- The pieces of a row with the lines on which they begin, given that of the first. -/
def placed (line : Nat) : List Piece → List (Nat × Piece)
  | [] => []
  | piece :: pieces => (line, piece) :: placed (line + piece.breaks) pieces

/-- The tokens that a row of pieces means. -/
def tokens (line : Nat) (pieces : List Piece) : List Token :=
  (placed line pieces).filterMap fun place => place.2.token? place.1

/-- The errors that a row of pieces means. -/
def errors (line : Nat) (pieces : List Piece) : List ScanError :=
  (placed line pieces).filterMap fun place => place.2.error? place.1

variable {line : Nat} {piece : Piece} {pieces more : List Piece}

theorem tokens_cons :
    tokens line (piece :: pieces) =
      (piece.token? line).toList ++ tokens (line + piece.breaks) pieces := by
  rw [tokens, placed, List.filterMap_cons]
  cases piece.token? line <;> rfl

theorem errors_cons :
    errors line (piece :: pieces) =
      (piece.error? line).toList ++ errors (line + piece.breaks) pieces := by
  rw [errors, placed, List.filterMap_cons]
  cases piece.error? line <;> rfl

/-- The lines that end in a row of pieces are those that end in its text. -/
theorem placed_append (line : Nat) (pieces more : List Piece) :
    placed line (pieces ++ more) =
      placed line pieces ++ placed (line + (pieces.flatMap text).count '\n') more := by
  induction pieces generalizing line with
  | nil => rfl
  | cons piece pieces ih =>
      rw [List.cons_append, placed, placed, ih, List.flatMap_cons, List.count_append,
        Nat.add_assoc]
      rfl

theorem tokens_append :
    tokens line (pieces ++ more) =
      tokens line pieces ++ tokens (line + (pieces.flatMap text).count '\n') more := by
  rw [tokens, placed_append, List.filterMap_append]
  rfl

theorem errors_append :
    errors line (pieces ++ more) =
      errors line pieces ++ errors (line + (pieces.flatMap text).count '\n') more := by
  rw [errors, placed_append, List.filterMap_append]
  rfl

end Piece

namespace SourceCursor

variable {cursor : SourceCursor} {c : Char} {rest : List Char}

/-- Taking a piece in front of the cursor adds what the piece means on the line that the
cursor has reached. -/
theorem finds_takePiece {piece : Piece} (front : piece.text <+: cursor.rest) :
    (cursor.takePiece piece).tokens.toList =
        cursor.tokens.toList ++ (piece.token? cursor.line).toList ∧
      (cursor.takePiece piece).errors.toList =
        cursor.errors.toList ++ (piece.error? cursor.line).toList := by
  have span : cursor.rest.take piece.text.length = piece.text :=
    (List.prefix_iff_eq_take.mp front).symm
  have inner : piece.text.tail = piece.others := rfl
  obtain ⟨shape, first, others⟩ := piece
  cases shape <;>
    simp [takePiece, record, addToken, addError, pass, beginLexeme, span, inner, Piece.token?,
      Piece.meaning?, Piece.error?, Piece.breaks]

/-- What is found up to the end of the text is what its pieces mean. -/
theorem finds_final (cursor : SourceCursor) :
    cursor.final.line = cursor.line + cursor.rest.count '\n' ∧
    cursor.final.tokens.toList =
      cursor.tokens.toList ++ Piece.tokens cursor.line (Piece.split cursor.rest) ∧
    cursor.final.errors.toList =
      cursor.errors.toList ++ Piece.errors cursor.line (Piece.split cursor.rest) := by
  induction cursor using scan_induction with
  | ended cursor ended =>
      rw [final_of_rest_eq_nil ended, ended, Piece.split]
      simp [Piece.tokens, Piece.errors, Piece.placed]
  | step cursor c rest ahead ih =>
      have moved := takePiece_longest_eq ahead
      have front : (Piece.longest c rest).text <+: cursor.rest :=
        ahead ▸ (Piece.isLongestIn c rest).isPrefix
      obtain ⟨addsToken, addsError⟩ := finds_takePiece front
      have line : (cursor.takePiece (Piece.longest c rest)).line =
          cursor.line + (Piece.longest c rest).breaks := by rw [moved]; rfl
      have left : (cursor.takePiece (Piece.longest c rest)).rest =
          rest.drop (Piece.longest c rest).others.length := by rw [moved, ahead]; rfl
      have count : (Piece.longest c rest).breaks +
          (rest.drop (Piece.longest c rest).others.length).count '\n' =
            (c :: rest).count '\n' := by
        rw [Piece.breaks, ← List.count_append, Piece.text_longest_append_drop]
      obtain ⟨lastLine, tokens, errors⟩ := ih
      rw [final_of_rest_eq_cons ahead, lastLine, tokens, errors, addsToken, addsError, line,
        left, ahead, Piece.split, Piece.tokens_cons, Piece.errors_cons, ← count]
      simp [Nat.add_assoc]

end SourceCursor

/-- A scan finds what the pieces of its text mean, and the end of the input on the last
line. -/
theorem scan_eq_meaning (source : String) :
    scan source =
      ⟨Piece.tokens 1 (Piece.split source.toList) ++
          [⟨.eof, "", none, (1 + source.toList.count '\n' : Nat)⟩],
        Piece.errors 1 (Piece.split source.toList)⟩ := by
  obtain ⟨line, tokens, errors⟩ := (SourceCursor.ofText source).finds_final
  rw [scan_eq, line, tokens, errors]
  rfl

end LoxFront
