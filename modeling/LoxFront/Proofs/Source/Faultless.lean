/-
# A scan meets no fault

Single calls on a source cursor can fail: at the end of the text, and where the text
since the beginning of the lexeme is not a number. `scanByCalls` is a scan that makes
such calls one after another and breaks off at the first one that fails. It never does,
because it asks for a piece only where something is ahead, and begins a lexeme before
each piece, so that what is to be a number is the numeral and nothing else.

The tokens that a scan finds are as the reader of tokens needs them. Each carries a
value of the sort that its kind asks for, and only the last one ends the input.
-/

import LoxFront.Proofs.Source.Scanning
import LoxFront.Source.Call

namespace LoxFront

namespace SourceCursor

variable {cursor next : SourceCursor} {c : Char} {rest : List Char}

/-! ## Single calls -/

/-- A call for a piece leaves less of the text than it found, if it succeeds. -/
theorem length_rest_of_scanPiece (succeeds : cursor.beginLexeme.scanPiece = (.ok (), next)) :
    next.rest.length < cursor.rest.length := by
  unfold scanPiece at succeeds
  split at succeeds
  · cases succeeds
  · next c rest ahead =>
    change cursor.rest = c :: rest at ahead
    dsimp only at succeeds
    split at succeeds
    · cases succeeds
    · cases succeeds
      rw [record_eq]
      simp only [pass, beginLexeme, ahead, Piece.text, List.length_cons, List.drop_succ_cons,
        List.length_drop]
      omega

/-- Read the rest of the text by single calls, up to the first one that fails, and end
the scan if none does. -/
def scanByCalls (cursor : SourceCursor) : Except SourceFault Unit × SourceCursor :=
  if cursor.isAtEnd then (.ok (), cursor.finish)
  else
    match _ : cursor.beginLexeme.scanPiece with
    | (.ok (), next) => next.scanByCalls
    | (.error fault, stopped) => (.error fault, stopped)
termination_by cursor.rest.length
decreasing_by exact length_rest_of_scanPiece ‹_›

/-- A call for a piece at the beginning of a lexeme succeeds where something is ahead,
and takes the longest piece there. -/
theorem scanPiece_beginLexeme (ahead : cursor.rest = c :: rest) :
    cursor.beginLexeme.scanPiece = (.ok (), cursor.takePiece (Piece.longest c rest)) := by
  have same : cursor.beginLexeme.rest = c :: rest := ahead
  unfold scanPiece
  rw [same]
  dsimp only
  rw [if_neg, takePiece]
  rintro ⟨number, none⟩
  obtain ⟨value, reads⟩ := Shape.exists_ofNumeral? (number ▸ Piece.longest_admits c rest)
  rw [span_pass_beginLexeme ahead, Binary64.ofText?, reads] at none
  cases none

/-- A scan by single calls meets no fault and does what a scan of the whole text does. -/
theorem scanByCalls_eq (cursor : SourceCursor) :
    cursor.scanByCalls = (.ok (), cursor.scanAll) := by
  have whole : ∀ cursor : SourceCursor, cursor.scanAll = cursor.final.finish := fun _ => rfl
  induction cursor using scan_induction with
  | ended cursor ended =>
      rw [scanByCalls, if_pos (by rw [isAtEnd, ended]; rfl), whole, final_of_rest_eq_nil ended]
  | step cursor c rest ahead ih =>
      rw [scanByCalls, if_neg (by rw [isAtEnd, ahead]; simp), scanPiece_beginLexeme ahead]
      dsimp only
      rw [ih, whole, whole, final_of_rest_eq_cons ahead]

end SourceCursor

/-! ## The tokens of a scan -/

/-- What the value of a token of some kind is, if tokens of the kind have one. -/
def TokenKind.valueKind? : TokenKind → Option Literal.Kind
  | .number => some .number
  | .string => some .string
  | _ => none

theorem TokenKind.isSome_valueKind? (kind : TokenKind) :
    kind.valueKind?.isSome = kind.carriesLiteral := by
  cases kind <;> rfl

/-- A token stands for a lexeme if it does not end the input, and carries a value of the
sort that its kind asks for. -/
structure Token.StandsForLexeme (token : Token) : Prop where
  kind_ne_eof : token.kind ≠ .eof
  kind_literal : token.literal.map Literal.kind = token.kind.valueKind?

/-- A token without a value stands for a lexeme if its kind asks for none. -/
theorem Token.StandsForLexeme.of_plain {kind : TokenKind} {lexeme : String} {line : Int}
    (inside : kind ≠ .eof) (plain : kind.valueKind? = none) :
    StandsForLexeme ⟨kind, lexeme, none, line⟩ :=
  ⟨inside, plain.symm⟩

/-- What a lexeme adds to the tokens stands for a lexeme. -/
theorem Shape.Records.standsForLexeme {text : List Char} {startLine line : Nat} {shape : Shape}
    {tokens : List Token} {errors : List ScanError}
    (records : shape.Records text startLine line tokens errors) (admits : shape.Admits text) :
    ∀ token ∈ tokens, token.StandsForLexeme := by
  cases records with
  | layout | comment | openString | stray => simp
  | string | number => exact List.forall_mem_singleton.mpr ⟨TokenKind.noConfusion, rfl⟩
  | identifier => exact List.forall_mem_singleton.mpr (.of_plain (by decide) rfl)
  | @mark kind =>
      refine List.forall_mem_singleton.mpr (.of_plain ?_ ?_)
      · rintro rfl
        cases admits
      · cases kind <;> first | rfl | cases admits
  | keyword listed =>
      have plain : ∀ entry ∈ TokenKind.keywords, entry.2 ≠ .eof ∧ entry.2.valueKind? = none := by
        decide
      exact List.forall_mem_singleton.mpr
        (.of_plain (plain _ listed).1 (plain _ listed).2)

open SourceCursor

/-- A scan ends with the token that ends the input. What holds of everything that a lexeme
adds holds of all tokens before that one. -/
theorem exists_tokens_scan_of_records {holds : Token → Prop}
    (adds : ∀ {text : List Char} {startLine line : Nat} {shape : Shape} {tokens : List Token}
      {errors : List ScanError}, shape.Records text startLine line tokens errors →
      shape.Admits text → ∀ token ∈ tokens, holds token) (source : String) :
    ∃ before line, (scan source).tokens = before ++ [⟨.eof, "", none, line⟩] ∧
      ∀ token ∈ before, holds token := by
  have everywhere : ∀ cursor ∈ ofText source :: (ofText source).trace,
      ∀ token ∈ cursor.tokens.toList, holds token := by
    refine holds_of_step source (by simp [ofText]) ?_
    intro before after step stand
    obtain ⟨shape, tokens, errors, longest, -, -, records, found, -⟩ := step.adds
    rw [found]
    exact List.forall_mem_append.mpr ⟨stand, adds records longest.admits⟩
  exact ⟨_, _, congrArg Scan.tokens (scan_eq source),
    everywhere _ (List.mem_of_getLast? (getLast?_cons_trace _))⟩

/-- All tokens of a scan stand for lexemes, up to a last one that ends the input. -/
theorem exists_tokens_scan (source : String) :
    ∃ before line, (scan source).tokens = before ++ [⟨.eof, "", none, line⟩] ∧
      ∀ token ∈ before, token.StandsForLexeme :=
  exists_tokens_scan_of_records Shape.Records.standsForLexeme source

end LoxFront
