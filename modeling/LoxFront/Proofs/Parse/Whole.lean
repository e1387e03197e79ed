/-
# Rows that are one expression

Only one expression is read from the front of a row, and what follows it is left alone.
Here the rows are singled out of which nothing is left: everything up to the token that
ends the input is a sentence of the grammar that nests within the limit. These are the
rows from which larger expressions can be put together.
-/

import LoxFront.Proofs.Parse.Acceptance

namespace LoxFront

open TokenCursor ParseM

variable {tokens before : List Token} {stop : Token} {start next : TokenCursor} {expr : Expr}
  {error : SyntaxError}

/-- Nothing bounds the reading of a row unless it is asked for. -/
theorem unlimited_of_ofTokens? (opened : ofTokens? tokens = some start) :
    { start with allowance := none } = start := by
  rw [← (isStartOf_of_ofTokens? opened).unlimited]

/-- What is reported of a reading. Where the room runs out this is the depth, at the token ahead. -/
def ParseOutcome.report : ParseOutcome → Except TokenFault (Except SyntaxError Expr)
  | .ok expr _ => .ok (.ok expr)
  | .error (.problem error) _ => .ok (.error error)
  | .error (.fault fault) _ => .error fault
  | .error .exhausted stopped => .ok (.error (.expressionTooDeep stopped.peek))

/-- The result of a row is what is reported of its reading. -/
theorem parseWithin_eq_report (opened : ofTokens? tokens = some start) (allowance : Option Nat) :
    parseWithin allowance tokens =
      ParseOutcome.report ((readRule (some maxDepth) .start).run { start with allowance }) := by
  rw [parseWithin, opened]
  dsimp only
  split <;> simp only [*, ParseOutcome.report]

theorem parse_eq_report (opened : ofTokens? tokens = some start) :
    parse tokens = ParseOutcome.report ((readRule (some maxDepth) .start).run start) := by
  rw [parse, parseWithin_eq_report opened, unlimited_of_ofTokens? opened]

/-- A reading that gives a tree gives the result of the row. -/
theorem parse_eq_ok_of_run (opened : ofTokens? tokens = some start)
    (result : (readRule (some maxDepth) .start).run start = .ok expr next) :
    parse tokens = .ok (.ok expr) := by
  rw [parse_eq_report opened, result]
  rfl

/-- A reading that ends with a problem gives the report of the row. -/
theorem parse_eq_error_of_run (opened : ofTokens? tokens = some start)
    (result : (readRule (some maxDepth) .start).run start = .error (.problem error) next) :
    parse tokens = .ok (.error error) := by
  rw [parse_eq_report opened, result]
  rfl

/-- The result of a row that gives a tree is the result of a reading. -/
theorem exists_run_of_parse_eq_ok (reads : parse tokens = .ok (.ok expr)) :
    ∃ start next, ofTokens? tokens = some start ∧
      (readRule (some maxDepth) .start).run start = .ok expr next := by
  rw [parse, parseWithin] at reads
  split at reads
  · cases reads
  · next start opened =>
    rw [unlimited_of_ofTokens? opened] at reads
    split at reads <;> cases reads
    exact ⟨start, _, opened, ‹_›⟩

/-- A row that gives a tree begins with a sentence for it. -/
theorem exists_sentence_of_parse_eq_ok (reads : parse tokens = .ok (.ok expr)) :
    ∃ read, read <+: tokens ∧ Sentence .start read expr := by
  obtain ⟨start, next, opened, result⟩ := exists_run_of_parse_eq_ok reads
  have isStart := isStartOf_of_ofTokens? opened
  obtain ⟨after, whole⟩ := isStart.splits
  obtain ⟨read, passes, sentence⟩ := ((run_readRule_eq_iff isStart.ends).mp result).derives
  rw [passes.ahead, List.append_assoc] at whole
  exact ⟨read, ⟨_, whole.symm⟩, sentence⟩

/-- A cursor before a row in which only the last token ends the input. -/
theorem ofTokens?_concat (others : ∀ token ∈ before, token.kind ≠ .eof)
    (ends : stop.kind = .eof) :
    ofTokens? (before ++ [stop]) = some { ahead := before, stop, last := stop } := by
  have first : (before ++ [stop]).find? (·.kind == .eof) = some stop := by
    rw [List.find?_append, List.find?_eq_none.mpr (by simpa using others)]
    simp [ends]
  have taken : (before ++ [stop]).takeWhile (·.kind != .eof) = before := by
    rw [List.takeWhile_append_of_pos (by simpa using others)]
    simp [ends]
  simp only [ofTokens?, first, List.getLast?_concat, ends, taken, if_true]

/-- A row is read up to the token that ends the input if it is a sentence that nests
within the limit. -/
theorem run_start_to_end_iff (ends : stop.kind = .eof) :
    (∃ next, (readRule (some maxDepth) .start).run { ahead := before, stop, last := stop } =
        .ok expr next ∧ next.isAtEnd = true) ↔
      Sentence .start before expr ∧ expr.nesting ≤ maxDepth := by
  have room : expr.NestsWithin (some maxDepth) 0 ↔ expr.nesting ≤ maxDepth := by
    simp [Expr.NestsWithin]
  have fits : ∀ bound ∈ some maxDepth, (0 : Int) ≤ bound := by
    rintro bound ⟨⟩
    decide
  let start : TokenCursor := { ahead := before, stop, last := stop }
  have accepts (next : TokenCursor) :
      (readRule (some maxDepth) .start).run start = .ok expr next ↔ _ :=
    (run_readRule_eq_iff ends).trans (Reads.ok_iff rfl fits)
  simp only [start, room] at accepts
  simp only [accepts]
  constructor
  · rintro ⟨next, ⟨read, rest, ahead, sentence, nests, rfl, -⟩, ended⟩
    have all : before.drop read.length = [] := List.isEmpty_iff.mp ended
    rw [ahead, List.drop_left] at all
    rw [ahead, all, List.append_nil]
    exact ⟨sentence, nests⟩
  · rintro ⟨sentence, nests⟩
    refine ⟨_, ⟨before, [], (List.append_nil _).symm, sentence, nests, rfl, ?_⟩, ?_⟩
    · simp [Avoids]
    · simp [isAtEnd]

/-- A sentence that nests within the limit is the tree of its row. -/
theorem parse_concat_of_sentence (sentence : Sentence .start before expr)
    (nests : expr.nesting ≤ maxDepth) (ends : stop.kind = .eof) :
    parse (before ++ [stop]) = .ok (.ok expr) := by
  obtain ⟨next, result, -⟩ := (run_start_to_end_iff ends).mpr ⟨sentence, nests⟩
  exact parse_eq_ok_of_run (ofTokens?_concat sentence.kind_ne_eof ends) result

end LoxFront
