/-
# Lexemes scan to themselves

The lexemes of a text, put next to each other with single blanks between them, are the
lexemes of that new text. So blanks, comments and stray characters do nothing but keep
lexemes apart, and wherever two lexemes would grow together without them, a blank is
enough.

A lexeme is the piece of its own characters and does not go on with a blank. That is all
that is needed: the pieces of the new text are the old lexemes, and blanks.
-/

import LoxFront.Proofs.Source.Meaning
import LoxFront.Proofs.Source.Separated

namespace LoxFront

/-- What a token is, wherever it stands: its kind, its lexeme and its value. -/
def Token.content (token : Token) : TokenKind × String × Option Literal :=
  (token.kind, token.lexeme, token.literal)

namespace Piece

variable {piece : Piece} {pieces : List Piece}

/-- The blank that is put between lexemes. -/
def blank : Piece := ⟨.layout, ' ', []⟩

/-- Whether a piece means a token. -/
def isLexeme (piece : Piece) : Bool := piece.meaning?.isSome

/-- What the token of a piece is, if it means one. -/
def content? (piece : Piece) : Option (TokenKind × String × Option Literal) :=
  piece.meaning?.map fun meaning => (meaning.1, String.ofList piece.text, meaning.2)

theorem map_content_tokens (line : Nat) (pieces : List Piece) :
    (tokens line pieces).map Token.content = pieces.filterMap content? := by
  induction pieces generalizing line with
  | nil => rfl
  | cons piece pieces ih =>
      rw [tokens_cons, List.map_append, ih, List.filterMap_cons, token?, content?]
      cases piece.meaning? <;> rfl

theorem map_lexeme_tokens (line : Nat) (pieces : List Piece) :
    (tokens line pieces).map Token.lexeme =
      (pieces.filter isLexeme).map fun piece => String.ofList piece.text := by
  induction pieces generalizing line with
  | nil => rfl
  | cons piece pieces ih =>
      rw [tokens_cons, List.map_append, ih, List.filter_cons, token?, isLexeme]
      cases piece.meaning? <;> rfl

/-- A piece that means a token ends before a blank and is no error. -/
theorem endsBefore_of_isLexeme (lexeme : piece.isLexeme = true) (next : Char) :
    piece.EndsBefore next := by
  constructor <;> intro shape <;> simp [isLexeme, meaning?, shape] at lexeme

theorem error?_eq_none_of_isLexeme (lexeme : piece.isLexeme = true) (line : Nat) :
    piece.error? line = none := by
  unfold isLexeme meaning? at lexeme
  unfold error?
  split <;> simp_all

theorem errors_intersperse_eq_nil (lexemes : ∀ piece ∈ pieces, piece.isLexeme = true)
    (line : Nat) : errors line (pieces.intersperse blank) = [] := by
  induction pieces generalizing line with
  | nil => rfl
  | cons piece pieces ih =>
      rw [List.forall_mem_cons] at lexemes
      have faultless := error?_eq_none_of_isLexeme lexemes.1 line
      cases pieces with
      | nil => rw [List.intersperse_singleton, errors_cons, faultless]; rfl
      | cons next pieces =>
          rw [List.intersperse_cons_cons, errors_cons, errors_cons, faultless, ih lexemes.2]
          rfl

/-- Only lexemes mean something. -/
theorem filterMap_content?_filter (pieces : List Piece) :
    (pieces.filter isLexeme).filterMap content? = pieces.filterMap content? := by
  induction pieces with
  | nil => rfl
  | cons piece pieces ih =>
      rw [List.filter_cons, isLexeme, List.filterMap_cons, content?]
      cases meaning : piece.meaning? with
      | none => exact ih
      | some found =>
          rw [Option.isSome_some, if_pos rfl, List.filterMap_cons, ih, content?, meaning]

/-- Blanks between pieces add nothing to what they mean. -/
theorem filterMap_content?_intersperse (pieces : List Piece) :
    (pieces.intersperse blank).filterMap content? = pieces.filterMap content? := by
  induction pieces with
  | nil => rfl
  | cons piece pieces ih =>
      cases pieces with
      | nil => rfl
      | cons next pieces =>
          rw [List.intersperse_cons_cons, List.filterMap_cons, List.filterMap_cons, ih,
            List.filterMap_cons (l := next :: pieces)]
          rfl

/-- Pieces that are each found alone, and that end before a blank, are found with single
blanks between them. -/
theorem split_intercalate (alone : ∀ piece ∈ pieces, split piece.text = [piece])
    (ends : ∀ piece ∈ pieces, piece.EndsBefore ' ') :
    split ([' '].intercalate (pieces.map text)) = pieces.intersperse blank := by
  have isBlank : ' ' ∈ layoutCharacters := by decide
  induction pieces with
  | nil => rw [List.map_nil, List.intercalate_nil, split]; rfl
  | cons piece pieces ih =>
      rw [List.forall_mem_cons] at alone ends
      cases pieces with
      | nil => simpa [List.intercalate] using alone.1
      | cons next pieces =>
          have whole : [' '].intercalate ((piece :: next :: pieces).map text) =
              piece.text ++ ' ' :: [' '].intercalate ((next :: pieces).map text) := rfl
          have first : ∀ found ∈ split piece.text, found.EndsBefore ' ' := by
            simpa [alone.1] using ends.1
          rw [whole, split_append_cons isBlank _ _ first, split_blank_cons isBlank,
            ih alone.2 ends.2, alone.1]
          rfl

end Piece

/-- The lexemes of a text, with single blanks between them. -/
def respaced (source : String) : String :=
  " ".intercalate ((scan source).tokens.dropLast.map Token.lexeme)

/-- The pieces of respaced lexemes are the lexemes of the text, and blanks. -/
theorem split_respaced (source : String) :
    Piece.split (respaced source).toList =
      ((Piece.split source.toList).filter Piece.isLexeme).intersperse Piece.blank := by
  have text : (respaced source).toList =
      [' '].intercalate (((Piece.split source.toList).filter Piece.isLexeme).map Piece.text) := by
    simp only [respaced, scan_eq_meaning, List.dropLast_concat, Piece.map_lexeme_tokens,
      String.toList_intercalate, List.map_map]
    simp [Function.comp_def]
  rw [text]
  refine Piece.split_intercalate (fun piece member => ?_) (fun piece member => ?_)
  · exact Piece.split_text_of_mem_split (List.mem_filter.mp member).1
  · exact Piece.endsBefore_of_isLexeme (List.mem_filter.mp member).2 ' '

/-- The respaced lexemes of a text are scanned without an error as tokens of the same
kinds, lexemes and values, up to the end of the input. -/
theorem scan_lexemes (source : String) :
    (scan (respaced source)).errors = [] ∧
      (scan (respaced source)).tokens.map Token.content =
        (scan source).tokens.map Token.content ∧
      ∃ before line, (scan (respaced source)).tokens = before ++ [⟨.eof, "", none, line⟩] := by
  simp only [scan_eq_meaning (respaced source), split_respaced]
  refine ⟨?_, ?_, _, _, rfl⟩
  · exact Piece.errors_intersperse_eq_nil (fun piece member => (List.mem_filter.mp member).2) 1
  · rw [scan_eq_meaning, List.map_append, List.map_append, Piece.map_content_tokens,
      Piece.map_content_tokens, Piece.filterMap_content?_intersperse,
      Piece.filterMap_content?_filter]
    rfl

end LoxFront
