/-
# What a call does to a source cursor

The calls on a source cursor may be made in any order, also where the beginning of the lexeme
lies far behind and where line breaks have been passed without being counted. Everything that
they do is done by a few moves. A call makes one of them, except that reading the rest of the
text makes one for each piece and one at the end.

Three things follow for any row of calls. The cursor stays in its text. Lines are counted too
low at most, where a single character was passed that ends one, and never too high, because no
line break is passed twice. What has been found is only added to, and a token that is added
spells what the cursor has passed since the beginning of the lexeme when this happens.
-/

import LoxFront.Proofs.Source.Lines
import LoxFront.Proofs.Source.Restart

namespace LoxFront

/-- The call does not go over to another text. -/
def SourceCall.StaysInText : SourceCall → Prop
  | restart _ => False
  | _ => True

theorem lineAt_mono (source : List Char) {first second : Nat} (le : first ≤ second) :
    lineAt source first ≤ lineAt source second := by
  obtain ⟨count, rfl⟩ := Nat.exists_eq_add_of_le le
  rw [lineAt_add]
  exact Nat.le_add_right _ _

namespace SourceCursor

variable {source : String} {cursor before after : SourceCursor}

/-- The text since the beginning of the lexeme lies between the two positions. -/
theorem IsSoundIn.span_eq (sound : IsSoundIn source cursor) :
    cursor.span = source.toList.extract cursor.start cursor.position := by
  obtain ⟨front, whole, length⟩ := sound.splits
  rw [List.extract_eq_take_drop, position, Nat.add_sub_cancel_left, whole, ← length,
    List.drop_left, List.take_left]

/-- A cursor that has been moved by calls stands in its text, and has counted lines from one on
and not beyond those that there are: up to the beginning of the lexeme, and up to its position. -/
structure IsReached (source : String) (cursor : SourceCursor) : Prop where
  sound : IsSoundIn source cursor
  startLine_pos : 1 ≤ cursor.startLine
  startLine_le : cursor.startLine ≤ cursor.line
  line_le : cursor.line ≤ lineAt source.toList cursor.position
  startLine_le_lineAt : cursor.startLine ≤ lineAt source.toList cursor.start

/-- What a call can do to a cursor in its text. -/
inductive Move (before : SourceCursor) : SourceCursor → Prop where
  | stay : Move before before
  | advance : Move before before.advance
  | pass (count : Nat) : Move before (before.pass count)
  | read (count : Nat) (shape : Shape) : Move before ((before.pass count).record shape)
  | addToken (kind : TokenKind) (literal : Option Literal) :
    Move before (before.addToken kind literal)
  | takePiece (piece : Piece) : Move before (before.takePiece piece)
  | finish : Move before before.finish

/-- One cursor has gone on from another: it is not behind it, and has lost nothing of what was
found. -/
structure GoesOn (before after : SourceCursor) : Prop where
  position_le : before.position ≤ after.position
  line_le : before.line ≤ after.line
  tokens : before.tokens.toList <+: after.tokens.toList
  errors : before.errors.toList <+: after.errors.toList

/-- One cursor has gone on from another, and each token that was added spells the text between
the two positions that the later one holds, or ends the input. -/
structure Grows (source : String) (before after : SourceCursor) : Prop extends
    GoesOn before after where
  spells : ∀ token ∈ after.tokens.toList.drop before.tokens.size, token.kind ≠ .eof →
    token.lexeme.toList = source.toList.extract after.start after.position

/-! ## Where the cursor stands -/

theorem position_pass (cursor : SourceCursor) (count : Nat) :
    (cursor.pass count).position = cursor.position + (cursor.rest.take count).length := by
  rw [position, position, pass, List.length_append, Nat.add_assoc]

theorem position_advance (cursor : SourceCursor) :
    cursor.advance.position = cursor.position + (cursor.rest.take 1).length :=
  position_pass cursor 1

theorem position_le_pass (cursor : SourceCursor) (count : Nat) :
    cursor.position ≤ (cursor.pass count).position :=
  position_pass cursor count ▸ Nat.le_add_right _ _

theorem position_record (shape : Shape) (cursor : SourceCursor) :
    (cursor.record shape).position = cursor.position := by
  rw [record_eq]
  rfl

namespace IsReached

theorem ofText (source : String) : IsReached source (ofText source) :=
  ⟨isSoundIn_ofText source, Nat.le_refl _, Nat.le_refl _, Nat.le_refl _, Nat.le_refl _⟩

theorem beginLexeme (reached : IsReached source cursor) : IsReached source cursor.beginLexeme where
  sound := reached.sound.beginLexeme
  startLine_pos := Nat.le_trans reached.startLine_pos reached.startLine_le
  startLine_le := Nat.le_refl _
  line_le := reached.line_le
  startLine_le_lineAt := reached.line_le

/-- A character that is passed may end a line that is not counted. -/
theorem advance (reached : IsReached source cursor) : IsReached source cursor.advance where
  sound := reached.sound.advance
  startLine_pos := reached.startLine_pos
  startLine_le := reached.startLine_le
  line_le := Nat.le_trans reached.line_le (lineAt_mono _ (position_le_pass cursor 1))
  startLine_le_lineAt := reached.startLine_le_lineAt

theorem pass (reached : IsReached source cursor) (count : Nat) :
    IsReached source (cursor.pass count) where
  sound := reached.sound.pass count
  startLine_pos := reached.startLine_pos
  startLine_le := Nat.le_trans reached.startLine_le (Nat.le_add_right _ _)
  line_le := by
    have passed : (source.toList.drop cursor.position).take (cursor.rest.take count).length =
        cursor.rest.take count := by
      rw [← reached.sound.standsIn.rest_eq, List.length_take, ← List.take_eq_take_min]
    rw [position_pass, lineAt_add, passed]
    exact Nat.add_le_add_right reached.line_le _
  startLine_le_lineAt := reached.startLine_le_lineAt

theorem record (reached : IsReached source cursor) (shape : Shape) :
    IsReached source (cursor.record shape) := by
  have sound := reached.sound.record shape
  rw [record_eq] at sound ⊢
  exact ⟨sound, reached.startLine_pos, reached.startLine_le, reached.line_le,
    reached.startLine_le_lineAt⟩

theorem move (reached : IsReached source before) (move : Move before after) :
    IsReached source after := by
  cases move with
  | stay => exact reached
  | advance => exact reached.advance
  | pass count => exact reached.pass count
  | read count shape => exact (reached.pass count).record shape
  | takePiece piece => exact (reached.beginLexeme.pass _).record piece.shape
  | addToken | finish =>
      exact ⟨⟨reached.sound.splits, reached.sound.line_pos⟩, reached.startLine_pos,
        reached.startLine_le, reached.line_le, reached.startLine_le_lineAt⟩

end IsReached

/-! ## What is found -/

/-- Recording adds at most a token that spells what has been passed since the beginning of the
lexeme, or an error. -/
theorem exists_added_record (shape : Shape) (cursor : SourceCursor) :
    ∃ tokens errors, (cursor.record shape).tokens.toList = cursor.tokens.toList ++ tokens ∧
      (cursor.record shape).errors.toList = cursor.errors.toList ++ errors ∧
      ∀ token ∈ tokens, token.lexeme = String.ofList cursor.span := by
  cases shape <;> simp [record, addToken, addError]

namespace GoesOn

theorem trans {middle : SourceCursor} (first : GoesOn before middle)
    (second : GoesOn middle after) : GoesOn before after :=
  ⟨Nat.le_trans first.position_le second.position_le, Nat.le_trans first.line_le second.line_le,
    first.tokens.trans second.tokens, first.errors.trans second.errors⟩

instance : IsTrans SourceCursor GoesOn :=
  ⟨fun _ _ _ => trans⟩

end GoesOn

namespace Grows

/-- The tokens that were added are those behind the earlier ones. -/
theorem of_added {added : List Token} (position : before.position ≤ after.position)
    (line : before.line ≤ after.line) (errors : before.errors.toList <+: after.errors.toList)
    (tokens : after.tokens.toList = before.tokens.toList ++ added)
    (spells : ∀ token ∈ added, token.kind ≠ .eof →
      token.lexeme.toList = source.toList.extract after.start after.position) :
    Grows source before after where
  position_le := position
  line_le := line
  tokens := ⟨added, tokens.symm⟩
  errors := errors
  spells := by rwa [tokens, ← Array.length_toList, List.drop_left]

/-- Where nothing is found, it is enough that the cursor does not go back. -/
theorem of_found_eq (position : before.position ≤ after.position) (line : before.line ≤ after.line)
    (tokens : after.tokens = before.tokens) (errors : after.errors = before.errors) :
    Grows source before after := by
  have nothing : after.tokens.toList = before.tokens.toList ++ [] := by rw [tokens, List.append_nil]
  exact .of_added position line (errors ▸ List.prefix_refl _) nothing
    fun _ member => absurd member List.not_mem_nil

theorem record (sound : IsSoundIn source cursor) (shape : Shape)
    (position : before.position ≤ cursor.position) (line : before.line ≤ cursor.line)
    (sameTokens : cursor.tokens = before.tokens) (sameErrors : cursor.errors = before.errors) :
    Grows source before (cursor.record shape) := by
  obtain ⟨tokens, errors, addsTokens, addsErrors, spells⟩ := exists_added_record shape cursor
  have moved := record_eq shape cursor
  refine .of_added ?_ ?_ ⟨errors, by rw [addsErrors, sameErrors]⟩ (by rw [addsTokens, sameTokens])
    fun token added _ => ?_
  · rwa [position_record]
  · rwa [moved]
  · rw [spells token added, String.toList_ofList, sound.span_eq, position_record, moved]

theorem of_move (sound : IsSoundIn source before) (move : Move before after) :
    Grows source before after := by
  cases move with
  | stay => exact .of_found_eq (Nat.le_refl _) (Nat.le_refl _) rfl rfl
  | advance => exact .of_found_eq (position_le_pass before 1) (Nat.le_refl _) rfl rfl
  | pass count => exact .of_found_eq (position_le_pass before count) (Nat.le_add_right _ _) rfl rfl
  | read count shape =>
      exact .record (sound.pass count) shape (position_le_pass before count)
        (Nat.le_add_right _ _) rfl rfl
  | takePiece piece =>
      exact .record (sound.beginLexeme.pass _) piece.shape
        (position_le_pass before.beginLexeme piece.text.length) (Nat.le_add_right _ _) rfl rfl
  | addToken kind literal =>
      refine .of_added (Nat.le_refl _) (Nat.le_refl _) (List.prefix_refl _) Array.toList_push
        (List.forall_mem_singleton.mpr fun _ => ?_)
      rw [String.toList_ofList, sound.span_eq]
      rfl
  | finish =>
      exact .of_added (Nat.le_refl _) (Nat.le_refl _) (List.prefix_refl _) Array.toList_push
        (List.forall_mem_singleton.mpr fun other => absurd rfl other)

end Grows

/-! ## One call -/

/-- The cursors to which a call comes one after another. Reading the rest of the text comes to
one for each piece. -/
def stages (cursor : SourceCursor) : SourceCall → List SourceCursor
  | .scanAll => cursor.trace ++ [cursor.scanAll]
  | call => [(cursor.perform call).2]

theorem getLast?_stages (cursor : SourceCursor) (call : SourceCall) :
    (cursor.stages call).getLast? = some (cursor.perform call).2 := by
  cases call with
  | scanAll => exact List.getLast?_concat
  | _ => rfl

theorem move_scanPiece (cursor : SourceCursor) : Move cursor cursor.scanPiece.2 := by
  unfold scanPiece
  split
  · exact .stay
  · dsimp only
    split
    · exact .pass _
    · exact .read _ _

theorem move_scanString (cursor : SourceCursor) : Move cursor cursor.scanString := by
  unfold scanString
  split
  · exact .read _ .string
  · exact .read _ .openString

theorem isChain_takeEach (cursor : SourceCursor) (pieces : List Piece) :
    (cursor :: cursor.takeEach pieces).IsChain Move := by
  induction pieces generalizing cursor with
  | nil => exact .singleton cursor
  | cons piece pieces ih => exact .cons_cons (.takePiece piece) (ih _)

/-- Every call in a text goes from one stage to the next by moves. -/
theorem isChain_stages {call : SourceCall} (stays : call.StaysInText) (cursor : SourceCursor) :
    (cursor :: cursor.stages call).IsChain Move := by
  have single {next : SourceCursor} (move : Move cursor next) : [cursor, next].IsChain Move :=
    List.isChain_pair.mpr move
  cases call with
  | restart other => exact stays.elim
  | advance =>
      refine single ?_
      rw [perform]
      split
      · exact .stay
      · exact .advance
  | accept expected =>
      refine single ?_
      rw [perform]
      split
      · exact .advance
      · exact .stay
  | scanPiece => exact single (move_scanPiece cursor)
  | scanAll =>
      refine List.IsChain.append (isChain_takeEach cursor _) (.singleton _) ?_
      intro last isLast next isNext
      cases (getLast?_cons_trace cursor).symm.trans isLast
      cases isNext
      exact .finish
  | word => exact single (.read _ .word)
  | string => exact single (move_scanString cursor)
  | addToken kind literal => exact single (.addToken kind literal)
  | peek | peekNext | isAtEnd | isDigit text | isLetter text | isLetterOrDigit text =>
      exact single .stay

/-- A row of moves leads to cursors in the text, and each goes on from the one before it. -/
theorem IsReached.chain {later : List SourceCursor} (reached : IsReached source cursor)
    (moves : (cursor :: later).IsChain Move) :
    (∀ stage ∈ cursor :: later, IsReached source stage) ∧
      (cursor :: later).IsChain (Grows source) := by
  induction later generalizing cursor with
  | nil => exact ⟨List.forall_mem_singleton.mpr reached, .singleton cursor⟩
  | cons next later ih =>
      obtain ⟨move, moves⟩ := List.isChain_cons_cons.mp moves
      obtain ⟨stand, grow⟩ := ih (reached.move move) moves
      exact ⟨List.forall_mem_cons.mpr ⟨reached, stand⟩,
        .cons_cons (.of_move reached.sound move) grow⟩

theorem IsReached.restart (other : String) (cursor : SourceCursor) :
    IsReached other (cursor.restart other) :=
  ⟨⟨(isSoundIn_ofText other).splits, Nat.one_pos⟩, Nat.le_refl _, Nat.le_refl _, Nat.le_refl _,
    Nat.le_refl _⟩

theorem IsReached.perform (reached : IsReached source cursor) (call : SourceCall) :
    IsReached (call.textAfter source) (cursor.perform call).2 := by
  have within (stays : call.StaysInText) : IsReached source (cursor.perform call).2 :=
    (reached.chain (isChain_stages stays cursor)).1 _
      (List.mem_cons_of_mem _ (List.mem_of_getLast? (getLast?_stages cursor call)))
  cases call with
  | restart other => exact .restart other cursor
  | _ => exact within trivial

/-- After any row of calls the cursor stands in its text and has counted no line too many. -/
theorem IsReached.performAll (reached : IsReached source cursor) (calls : List SourceCall) :
    IsReached (calls.foldl SourceCall.textAfter source) (cursor.performAll calls) := by
  induction calls generalizing source cursor with
  | nil => exact reached
  | cons call calls ih => exact ih (reached.perform call)

end SourceCursor

end LoxFront
