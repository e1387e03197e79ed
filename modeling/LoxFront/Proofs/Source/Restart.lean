/-
# A scan goes on from anywhere

A cursor that has been moved by single calls may stand in the middle of a lexeme, with a
beginning that lies far behind it and on lines that were never counted. A scan of the rest of
the text looks at none of this. It finds what a scan of the rest alone would find, only
further down, by the lines that the cursor has counted, and adds it to what there is.

Of the calls it is enough to know that each of them, whether it succeeds or fails, leaves the
cursor in its text and counts lines from one.
-/

import LoxFront.Proofs.Source.Concatenation
import LoxFront.Source.Call

namespace LoxFront

/-- The text in which a cursor stands after a call. -/
def SourceCall.textAfter (source : String) : SourceCall → String
  | restart other => other
  | _ => source

namespace SourceCursor

/-- A cursor has a text around it and counts lines from one. -/
structure IsSoundIn (source : String) (cursor : SourceCursor) : Prop where
  splits : ∃ before, source.toList = before ++ (cursor.span ++ cursor.rest) ∧
    before.length = cursor.start
  line_pos : 0 < cursor.line

variable {source : String} {cursor next : SourceCursor}

theorem isSoundIn_ofText (source : String) : IsSoundIn source (ofText source) :=
  ⟨⟨[], rfl, rfl⟩, Nat.one_pos⟩

namespace IsSoundIn

/-- What is ahead of a sound cursor is what lies after its position. -/
theorem standsIn (sound : IsSoundIn source cursor) : StandsIn source.toList cursor := by
  obtain ⟨before, whole, start⟩ := sound.splits
  have passed : (before ++ cursor.span).length = cursor.position := by
    rw [List.length_append, start, position]
  rw [← List.append_assoc] at whole
  constructor
  · rw [whole, ← passed, List.drop_left]
  · rw [whole, List.length_append, passed]
    exact Nat.le_add_right _ _

/-! ## One call -/

/-- Characters that are passed stay in the text. -/
theorem moved (sound : IsSoundIn source cursor) (count : Nat) (start : next.start = cursor.start)
    (span : next.span = cursor.span ++ cursor.rest.take count)
    (rest : next.rest = cursor.rest.drop count) (line : cursor.line ≤ next.line) :
    IsSoundIn source next where
  splits := by
    obtain ⟨before, whole, length⟩ := sound.splits
    refine ⟨before, ?_, length.trans start.symm⟩
    rw [span, rest, List.append_assoc, List.take_append_drop, whole]
  line_pos := Nat.lt_of_lt_of_le sound.line_pos line

theorem beginLexeme (sound : IsSoundIn source cursor) : IsSoundIn source cursor.beginLexeme where
  splits := by
    obtain ⟨before, whole, start⟩ := sound.splits
    refine ⟨before ++ cursor.span, ?_, ?_⟩
    · rw [whole, List.append_assoc]
      rfl
    · rw [List.length_append, start]
      rfl
  line_pos := sound.line_pos

theorem pass (sound : IsSoundIn source cursor) (count : Nat) :
    IsSoundIn source (cursor.pass count) :=
  sound.moved count rfl rfl rfl (Nat.le_add_right _ _)

theorem advance (sound : IsSoundIn source cursor) : IsSoundIn source cursor.advance :=
  sound.moved 1 rfl rfl rfl (Nat.le_refl _)

theorem record (sound : IsSoundIn source cursor) (shape : Shape) :
    IsSoundIn source (cursor.record shape) := by
  rw [record_eq]
  exact ⟨sound.splits, sound.line_pos⟩

theorem takePiece (sound : IsSoundIn source cursor) (piece : Piece) :
    IsSoundIn source (cursor.takePiece piece) :=
  (sound.beginLexeme.pass _).record _

theorem final (sound : IsSoundIn source cursor) : IsSoundIn source cursor.final :=
  holds_final (fun _ _ _ _ sound => sound.takePiece _) cursor sound

theorem scanPiece (sound : IsSoundIn source cursor) : IsSoundIn source cursor.scanPiece.2 := by
  unfold SourceCursor.scanPiece
  split
  · exact sound
  · dsimp only
    split
    · exact sound.pass _
    · exact (sound.pass _).record _

theorem scanString (sound : IsSoundIn source cursor) : IsSoundIn source cursor.scanString := by
  unfold SourceCursor.scanString
  split
  · exact (sound.pass _).record _
  · exact (sound.pass _).record _

/-- Every call leaves the cursor sound, in the text in which it stands afterwards. -/
theorem perform (sound : IsSoundIn source cursor) (call : SourceCall) :
    IsSoundIn (call.textAfter source) (cursor.perform call).2 := by
  cases call with
  | restart other => exact ⟨(isSoundIn_ofText other).splits, Nat.one_pos⟩
  | advance =>
      rw [SourceCursor.perform]
      split
      · exact sound
      · exact sound.advance
  | accept expected =>
      rw [SourceCursor.perform]
      split
      · exact sound.advance
      · exact sound
  | scanPiece => exact sound.scanPiece
  | scanAll => exact ⟨sound.final.splits, sound.final.line_pos⟩
  | word => exact (sound.pass _).record .word
  | string => exact sound.scanString
  | addToken kind literal => exact ⟨sound.splits, sound.line_pos⟩
  | peek | peekNext | isAtEnd | isDigit text | isLetter text | isLetterOrDigit text => exact sound

/-- A row of calls leaves the cursor sound. -/
theorem performAll (sound : IsSoundIn source cursor) (calls : List SourceCall) :
    IsSoundIn (calls.foldl SourceCall.textAfter source) (cursor.performAll calls) := by
  induction calls generalizing source cursor with
  | nil => exact sound
  | cons call calls ih => exact ih (sound.perform call)

end IsSoundIn

/-- The end of the input and what was found before it are further down together. -/
theorem tokens_finish_final {lines : Nat} (line : cursor.line = 1 + lines) :
    cursor.final.finish.tokens.toList = cursor.tokens.toList ++
      List.map (Token.movedDown lines) (Piece.tokens 1 (Piece.split cursor.rest) ++
        [⟨.eof, "", none, (1 + cursor.rest.count '\n' : Nat)⟩]) := by
  obtain ⟨lastLine, tokens, -⟩ := cursor.finds_final
  have last : cursor.final.line = 1 + cursor.rest.count '\n' + lines := by omega
  have ending : (⟨.eof, "", none, (1 + cursor.rest.count '\n' + lines : Nat)⟩ : Token) =
      Token.movedDown lines ⟨.eof, "", none, (1 + cursor.rest.count '\n' : Nat)⟩ := rfl
  rw [finish, Array.toList_push, tokens, last, ending, line, Piece.tokens_add, List.map_append,
    List.append_assoc]
  rfl

/-- From anywhere in a text, and with any beginning of a lexeme, the rest of the text is
scanned as if it stood alone. What is found in it is added to what was found before, further
down by the lines that were counted before the first one of the rest. -/
theorem performAll_then_scanAll (source : String) (calls : List SourceCall) :
    let text := calls.foldl SourceCall.textAfter source
    let cursor := (ofText source).performAll calls
    let fresh := scan (String.ofList (text.toList.drop cursor.position))
    ∃ lines next, cursor.line = lines + 1 ∧
      cursor.perform .scanAll = (.ok (.tokens next.tokens.toList), next) ∧
      next.tokens.toList = cursor.tokens.toList ++ fresh.tokens.map (Token.movedDown lines) ∧
      next.errors.toList = cursor.errors.toList ++ fresh.errors.map (ScanError.movedDown lines) ∧
      next.position = text.length := by
  intro text cursor fresh
  have sound : IsSoundIn text cursor := (isSoundIn_ofText source).performAll calls
  obtain ⟨lines, line⟩ := Nat.exists_eq_add_of_lt sound.line_pos
  rw [Nat.zero_add, Nat.add_comm] at line
  have meaning : fresh = _ := scan_eq_meaning _
  rw [String.toList_ofList, ← sound.standsIn.rest_eq] at meaning
  refine ⟨lines, cursor.scanAll, by omega, rfl, ?_, ?_, ?_⟩
  · rw [meaning]
    exact tokens_finish_final line
  · rw [meaning, ← Piece.errors_add, ← line]
    exact cursor.finds_final.2.2
  · rw [← String.length_toList]
    exact sound.final.standsIn.position_eq (rest_final cursor)

end SourceCursor

end LoxFront
