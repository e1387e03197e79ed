/-
# A scan is a row of longest matches

A scan of a text goes from piece to piece, and `SourceCursor.trace` lists the places
where it stands after each. Here every step between two of them is described without
reference to the way it is taken: where it begins and ends, that what it passes is the
longest match there, and what it adds to the tokens and errors. The steps follow each
other without a gap from the beginning of the text to its end, and what is found
altogether is what the last one left, with one more token.

`Shape.Records` says what a lexeme adds. It looks at nothing but the shape, the text of
the lexeme and its lines.
-/

import Mathlib.Data.List.Chain
import LoxFront.Proofs.Binary64.Numeral
import LoxFront.Proofs.Source.Longest
import LoxFront.Source.Cursor

namespace LoxFront

/-- The tokens and errors that a lexeme adds, given its text, the line on which it
begins and the line on which it ends. -/
inductive Shape.Records (text : List Char) (startLine line : Nat) :
    Shape → List Token → List ScanError → Prop where
  | mark {kind : TokenKind} :
    Records text startLine line (.mark kind) [⟨kind, String.ofList text, none, startLine⟩] []
  | layout : Records text startLine line .layout [] []
  | comment : Records text startLine line .comment [] []
  | string {contents : List Char} :
    text = '"' :: (contents ++ ['"']) →
    Records text startLine line .string
      [⟨.string, String.ofList text, some (.string (String.ofList contents)), startLine⟩] []
  | openString : Records text startLine line .openString [] [.unterminatedString line]
  | number {value : Binary64} :
    Binary64.ofNumeral? text = some value →
    Records text startLine line .number
      [⟨.number, String.ofList text, some (.number value), startLine⟩] []
  | keyword {kind : TokenKind} :
    (String.ofList text, kind) ∈ TokenKind.keywords →
    Records text startLine line .word [⟨kind, String.ofList text, none, startLine⟩] []
  | identifier :
    (∀ kind, (String.ofList text, kind) ∉ TokenKind.keywords) →
    Records text startLine line .word [⟨.identifier, String.ofList text, none, startLine⟩] []
  | stray {character : Char} :
    Records text startLine line (.stray character) []
      [.unexpectedCharacter line (String.singleton character)]

/-- A numeral has a value. -/
theorem Shape.exists_ofNumeral? {text : List Char} (admits : Shape.number.Admits text) :
    ∃ value, Binary64.ofNumeral? text = some value := by
  obtain ⟨whole, fraction, nonempty, digits, rows⟩ := admits
  have isNumeral : Binary64.IsNumeral text whole fraction := ⟨nonempty, digits, rows⟩
  exact ⟨_, isNumeral.ofNumeral?_eq⟩

/-- A word has the kind of the keyword that it spells, and is an identifier if it
spells none. -/
theorem TokenKind.ofWord_cases (word : String) :
    (word, ofWord word) ∈ keywords ∨
      ofWord word = .identifier ∧ ∀ kind, (word, kind) ∉ keywords := by
  cases found : keywords.lookup word with
  | some kind =>
      left
      obtain ⟨before, after, whole, -⟩ := List.lookup_eq_some_iff.mp found
      rw [ofWord, found, whole]
      simp
  | none =>
      right
      refine ⟨by rw [ofWord, found]; rfl, fun kind member => ?_⟩
      have different := List.lookup_eq_none_iff.mp found _ member
      simp at different

namespace SourceCursor

variable {cursor : SourceCursor} {c : Char} {rest : List Char}

/-! ## One piece -/

/-- Recording adds what the shape of the lexeme says. -/
theorem records_record {shape : Shape} (admits : shape.Admits cursor.span) :
    ∃ tokens errors, shape.Records cursor.span cursor.startLine cursor.line tokens errors ∧
      (cursor.record shape).tokens.toList = cursor.tokens.toList ++ tokens ∧
      (cursor.record shape).errors.toList = cursor.errors.toList ++ errors := by
  cases shape with
  | mark kind => exact ⟨_, _, .mark, by simp [record, addToken], by simp [record, addToken]⟩
  | layout => exact ⟨_, _, .layout, by simp [record], by simp [record]⟩
  | comment => exact ⟨_, _, .comment, by simp [record], by simp [record]⟩
  | string =>
      obtain ⟨contents, same, -⟩ := admits
      have inner : cursor.span.tail.dropLast = contents := by
        rw [same]
        simp
      exact ⟨_, _, .string same, by simp [record, addToken, inner], by simp [record, addToken]⟩
  | openString => exact ⟨_, _, .openString, by simp [record, addError], by simp [record, addError]⟩
  | number =>
      obtain ⟨value, reads⟩ := Shape.exists_ofNumeral? admits
      have literal : Binary64.ofText? cursor.span = some value := by
        rw [Binary64.ofText?, reads]
      exact ⟨_, _, .number reads, by simp [record, addToken, literal], by simp [record, addToken]⟩
  | word =>
      rcases TokenKind.ofWord_cases (String.ofList cursor.span) with keyword | ⟨name, other⟩
      · exact ⟨_, _, .keyword keyword, by simp [record, addToken], by simp [record, addToken]⟩
      · exact ⟨_, _, .identifier other, by simp [record, addToken, name],
          by simp [record, addToken]⟩
  | stray character => exact ⟨_, _, .stray, by simp [record, addError], by simp [record, addError]⟩

/-- Recording moves nothing. -/
theorem record_eq (shape : Shape) (cursor : SourceCursor) :
    cursor.record shape =
      { cursor with
        tokens := (cursor.record shape).tokens
        errors := (cursor.record shape).errors } := by
  cases shape <;> rfl

/-- Taking a piece that stands in front of the cursor moves it by the piece. -/
theorem takePiece_eq {piece : Piece} (front : piece.text <+: cursor.rest) :
    cursor.takePiece piece =
      { start := cursor.position
        startLine := cursor.line
        span := piece.text
        rest := cursor.rest.drop piece.text.length
        line := cursor.line + piece.text.count '\n'
        tokens := (cursor.takePiece piece).tokens
        errors := (cursor.takePiece piece).errors } := by
  have passed : cursor.rest.take piece.text.length = piece.text :=
    (List.prefix_iff_eq_take.mp front).symm
  rw [takePiece, record_eq]
  simp [pass, beginLexeme, passed]

/-! ## Steps of a scan -/

/-- A cursor stands in a text: what is ahead of it is what lies after its position. -/
structure StandsIn (source : List Char) (cursor : SourceCursor) : Prop where
  rest_eq : cursor.rest = source.drop cursor.position
  position_le : cursor.position ≤ source.length

/-- One step of a scan passes the longest match at the place where it begins, counts the
line breaks in it, and adds what its shape says. -/
structure IsScanStep (source : List Char) (before after : SourceCursor) : Prop where
  start_eq : after.start = before.position
  start_lt : after.start < after.position
  span_eq : after.span = source.extract after.start after.position
  startLine_eq : after.startLine = before.line
  line_eq : after.line = before.line + after.span.count '\n'
  adds : ∃ shape tokens errors,
    shape.IsLongestIn after.span (source.drop after.start) ∧
    (∀ other, Shape.Admits other after.span → other = shape) ∧
    (shape = .openString → after.position = source.length) ∧
    shape.Records after.span after.startLine after.line tokens errors ∧
    after.tokens.toList = before.tokens.toList ++ tokens ∧
    after.errors.toList = before.errors.toList ++ errors

theorem standsIn_ofText (source : String) : StandsIn source.toList (ofText source) :=
  ⟨rfl, Nat.zero_le _⟩

section Step

variable {source : List Char} (ahead : cursor.rest = c :: rest)

include ahead

/-- Where something is ahead, the next piece is the longest match there. -/
theorem takePiece_longest_eq :
    cursor.takePiece (Piece.longest c rest) =
      { start := cursor.position
        startLine := cursor.line
        span := (Piece.longest c rest).text
        rest := cursor.rest.drop (Piece.longest c rest).text.length
        line := cursor.line + (Piece.longest c rest).text.count '\n'
        tokens := (cursor.takePiece (Piece.longest c rest)).tokens
        errors := (cursor.takePiece (Piece.longest c rest)).errors } :=
  takePiece_eq (ahead ▸ (Piece.isLongestIn c rest).isPrefix)

theorem standsIn_takePiece (stands : StandsIn source cursor) :
    StandsIn source (cursor.takePiece (Piece.longest c rest)) := by
  rw [takePiece_longest_eq ahead]
  constructor
  · simp only [position]
    rw [stands.rest_eq, List.drop_drop]
    rfl
  · have short := (Piece.isLongestIn c rest).isPrefix.length_le
    rw [← ahead, stands.rest_eq, List.length_drop] at short
    have within := stands.position_le
    simp only [position] at short within ⊢
    omega

/-- Where something is ahead, the lexeme that is begun there is the longest piece. -/
theorem span_pass_beginLexeme :
    (cursor.beginLexeme.pass (Piece.longest c rest).text.length).span =
      (Piece.longest c rest).text := by
  have moved := congrArg SourceCursor.span (takePiece_longest_eq ahead)
  rwa [takePiece, record_eq] at moved

/-- What taking a piece adds is what its shape says. -/
theorem records_takePiece :
    let after := cursor.takePiece (Piece.longest c rest)
    ∃ tokens errors,
      (Piece.longest c rest).shape.Records after.span after.startLine after.line tokens errors ∧
      after.tokens.toList = cursor.tokens.toList ++ tokens ∧
      after.errors.toList = cursor.errors.toList ++ errors := by
  let passed := cursor.beginLexeme.pass (Piece.longest c rest).text.length
  have span : passed.span = (Piece.longest c rest).text := span_pass_beginLexeme ahead
  have admits : (Piece.longest c rest).shape.Admits passed.span :=
    span ▸ Piece.longest_admits c rest
  obtain ⟨tokens, errors, records, addsTokens, addsErrors⟩ := records_record admits
  refine ⟨tokens, errors, ?_, addsTokens, addsErrors⟩
  rw [takePiece, record_eq]
  exact records

theorem isScanStep_takePiece (stands : StandsIn source cursor) :
    IsScanStep source cursor (cursor.takePiece (Piece.longest c rest)) := by
  have found := Piece.isLongestIn c rest
  obtain ⟨tokens, errors, records, addsTokens, addsErrors⟩ := records_takePiece ahead
  have moved := takePiece_longest_eq ahead
  generalize cursor.takePiece (Piece.longest c rest) = after at *
  have start : after.start = cursor.position := by rw [moved]
  have span : after.span = (Piece.longest c rest).text := by rw [moved]
  have front : after.span <+: source.drop after.start := by
    rw [start, span, ← stands.rest_eq, ahead]
    exact found.isPrefix
  refine ⟨start, ?_, ?_, by rw [moved], by rw [moved], _, tokens, errors,
    ⟨span ▸ found.admits, front, ?_⟩, ?_, ?_, records, addsTokens, addsErrors⟩
  · rw [position, span, Piece.text]
    exact Nat.lt_add_of_pos_right (Nat.succ_pos _)
  · rw [List.extract_eq_take_drop, position, Nat.add_sub_cancel_left]
    exact List.prefix_iff_eq_take.mp front
  · rw [start, span, ← stands.rest_eq, ahead]
    exact found.longest
  · intro other admits
    rw [span] at admits
    exact Shape.eq_of_admits admits found.admits
  · intro isOpen
    have whole := Piece.text_of_shape_eq_openString isOpen
    have left := congrArg List.length stands.rest_eq
    have within := stands.position_le
    rw [ahead, List.length_drop] at left
    rw [position, start, span, whole, left, Nat.add_sub_cancel' within]

end Step

/-! ## The whole scan -/

theorem trace_of_rest_eq_nil (ended : cursor.rest = []) : cursor.trace = [] := by
  rw [trace, ended, Piece.split]
  rfl

theorem trace_of_rest_eq_cons (ahead : cursor.rest = c :: rest) :
    cursor.trace =
      cursor.takePiece (Piece.longest c rest) ::
        (cursor.takePiece (Piece.longest c rest)).trace := by
  have left : (cursor.takePiece (Piece.longest c rest)).rest =
      rest.drop (Piece.longest c rest).others.length := by
    rw [takePiece_longest_eq ahead, ahead]
    rfl
  rw [trace, ahead, Piece.split, takeEach, trace, left]

/-- An argument about the rest of a scan goes from piece to piece. -/
theorem scan_induction {motive : SourceCursor → Prop}
    (ended : ∀ cursor, cursor.rest = [] → motive cursor)
    (step : ∀ cursor c rest, cursor.rest = c :: rest →
      motive (cursor.takePiece (Piece.longest c rest)) → motive cursor)
    (cursor : SourceCursor) : motive cursor := by
  generalize size : cursor.rest.length = length
  induction length using Nat.strongRecOn generalizing cursor with
  | ind length ih =>
      cases ahead : cursor.rest with
      | nil => exact ended cursor ahead
      | cons c rest =>
          refine step cursor c rest ahead (ih _ ?_ _ rfl)
          rw [takePiece_longest_eq ahead, ← size, ahead]
          simp only [List.length_drop, List.length_cons, Piece.text]
          omega

/-- The steps of a scan follow each other up to the end of the text. -/
theorem isChain_trace {source : List Char} (cursor : SourceCursor)
    (stands : StandsIn source cursor) :
    (cursor :: cursor.trace).IsChain (IsScanStep source) := by
  induction cursor using scan_induction with
  | ended cursor ended =>
      rw [trace_of_rest_eq_nil ended]
      exact .singleton cursor
  | step cursor c rest ahead ih =>
      rw [trace_of_rest_eq_cons ahead]
      exact .cons_cons (isScanStep_takePiece ahead stands) (ih (standsIn_takePiece ahead stands))

/-- The cursor at the end of the text. -/
def final (cursor : SourceCursor) : SourceCursor :=
  (Piece.split cursor.rest).foldl takePiece cursor

theorem getLast?_cons_takeEach (cursor : SourceCursor) (pieces : List Piece) :
    (cursor :: cursor.takeEach pieces).getLast? = some (pieces.foldl takePiece cursor) := by
  induction pieces generalizing cursor with
  | nil => rfl
  | cons piece pieces ih =>
      rw [takeEach, List.getLast?_cons_cons, List.foldl_cons]
      exact ih _

theorem getLast?_cons_trace (cursor : SourceCursor) :
    (cursor :: cursor.trace).getLast? = some cursor.final :=
  getLast?_cons_takeEach cursor _

theorem final_of_rest_eq_nil (ended : cursor.rest = []) : cursor.final = cursor := by
  rw [final, ended, Piece.split]
  rfl

theorem final_of_rest_eq_cons (ahead : cursor.rest = c :: rest) :
    cursor.final = (cursor.takePiece (Piece.longest c rest)).final := by
  have last := getLast?_cons_trace cursor
  rw [trace_of_rest_eq_cons ahead, List.getLast?_cons_cons, getLast?_cons_trace,
    Option.some.injEq] at last
  exact last.symm

/-- What every piece preserves holds wherever the scan stands. -/
theorem forall_mem_cons_trace {holds : SourceCursor → Prop}
    (step : ∀ cursor c rest, cursor.rest = c :: rest → holds cursor →
      holds (cursor.takePiece (Piece.longest c rest)))
    (cursor : SourceCursor) (begins : holds cursor) :
    ∀ later ∈ cursor :: cursor.trace, holds later := by
  induction cursor using scan_induction with
  | ended cursor ended =>
      rw [trace_of_rest_eq_nil ended]
      simpa using begins
  | step cursor c rest ahead ih =>
      rw [trace_of_rest_eq_cons ahead]
      exact List.forall_mem_cons.mpr ⟨begins, ih (step cursor c rest ahead begins)⟩

/-- What every step preserves holds wherever a scan of a text stands. -/
theorem holds_of_step {holds : SourceCursor → Prop} (source : String)
    (begins : holds (ofText source))
    (step : ∀ before after, IsScanStep source.toList before after →
      holds before → holds after) :
    ∀ cursor ∈ ofText source :: (ofText source).trace, holds cursor := by
  have both : ∀ cursor ∈ ofText source :: (ofText source).trace,
      StandsIn source.toList cursor ∧ holds cursor := by
    refine forall_mem_cons_trace ?_ _ ⟨standsIn_ofText source, begins⟩
    rintro before c rest ahead ⟨stands, held⟩
    exact ⟨standsIn_takePiece ahead stands, step _ _ (isScanStep_takePiece ahead stands) held⟩
  exact fun cursor member => (both cursor member).2

theorem rest_final (cursor : SourceCursor) : cursor.final.rest = [] := by
  induction cursor using scan_induction with
  | ended cursor ended => rwa [final_of_rest_eq_nil ended]
  | step cursor c rest ahead ih => rwa [final_of_rest_eq_cons ahead]

/-- What every piece preserves holds at the end of the text. -/
theorem holds_final {holds : SourceCursor → Prop}
    (step : ∀ cursor c rest, cursor.rest = c :: rest → holds cursor →
      holds (cursor.takePiece (Piece.longest c rest)))
    (cursor : SourceCursor) (begins : holds cursor) : holds cursor.final :=
  forall_mem_cons_trace step cursor begins _
    (List.mem_of_getLast? (getLast?_cons_trace cursor))

theorem standsIn_final (source : String) : StandsIn source.toList (ofText source).final :=
  holds_final (fun _ _ _ ahead stands => standsIn_takePiece ahead stands) _
    (standsIn_ofText source)

/-- A cursor with nothing ahead of it stands at the end of the text. -/
theorem StandsIn.position_eq {source : List Char} (stands : StandsIn source cursor)
    (ended : cursor.rest = []) : cursor.position = source.length := by
  have none := congrArg List.length (stands.rest_eq.symm.trans ended)
  rw [List.length_drop, List.length_nil] at none
  exact Nat.le_antisymm stands.position_le (Nat.le_of_sub_eq_zero none)

theorem position_final (source : String) :
    (ofText source).final.position = source.length := by
  rw [(standsIn_final source).position_eq (rest_final _), String.length_toList]

end SourceCursor

open SourceCursor

/-- What a scan finds is what was found up to the end of the text, and one more
token. -/
theorem scan_eq (source : String) :
    scan source =
      ⟨(ofText source).final.tokens.toList ++ [⟨.eof, "", none, (ofText source).final.line⟩],
        (ofText source).final.errors.toList⟩ := by
  simp [scan, scanAll, finish, final]

/-- A scan goes through its text by longest matches, from the beginning to the end and
without a gap. -/
theorem scan_is_longest_match (source : String) :
    (ofText source).position = 0 ∧
    (ofText source :: (ofText source).trace).IsChain (IsScanStep source.toList) ∧
    ∃ last, (ofText source :: (ofText source).trace).getLast? = some last ∧
      last.position = source.length ∧
      scan source =
        ⟨last.tokens.toList ++ [⟨.eof, "", none, last.line⟩], last.errors.toList⟩ :=
  ⟨rfl, isChain_trace _ (standsIn_ofText source), _, getLast?_cons_trace _,
    position_final source, scan_eq source⟩

end LoxFront
