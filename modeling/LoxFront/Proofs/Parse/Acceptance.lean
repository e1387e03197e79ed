/-
# Reading accepts exactly the grammar

Soundness and completeness are put together here: from any place in a row of tokens
and at any depth, a rule gives a tree if and only if the tokens up to the place
where it stops are a sentence with that tree, the tree nests within what the limit
leaves, and the token at that place could not go on the sentence.

The statement about rows of tokens speaks of positions and not of cursors. A cursor
that was opened on a row is the same thing as a position before the first token that
ends the input, which is what the first half of the module shows.
-/

import LoxFront.Proofs.Parse.Adequacy
import LoxFront.Proofs.Parse.Completeness

namespace LoxFront

open TokenCursor

namespace TokenCursor

/-- A cursor stands at the beginning of a row of tokens. -/
structure IsStartOf (tokens : List Token) (start : TokenCursor) : Prop where
  splits : ∃ after, tokens = start.ahead ++ start.stop :: after
  ends : start.stop.kind = .eof
  ahead_ne_eof : ∀ token ∈ start.ahead, token.kind ≠ .eof
  passed : start.passed = []
  depth : start.depth = 0
  unlimited : start.allowance = none

variable {tokens : List Token} {start cursor : TokenCursor} {index stop : Nat}

/-- A row that ends with a token that ends the input has a beginning. -/
theorem exists_ofTokens? {last : Token} (final : tokens.getLast? = some last)
    (ends : last.kind = .eof) : ∃ start, ofTokens? tokens = some start := by
  have member := List.mem_of_getLast? final
  cases first : tokens.find? (·.kind == .eof) with
  | none =>
      have none := List.find?_eq_none.mp first last member
      simp [ends] at none
  | some stop => simp [ofTokens?, first, final, ends]

theorem isStartOf_of_ofTokens? (opened : ofTokens? tokens = some start) :
    IsStartOf tokens start := by
  unfold ofTokens? at opened
  split at opened
  case h_2 => cases opened
  case h_1 stop last first final =>
    split at opened
    case isFalse => cases opened
    case isTrue ends =>
      obtain ⟨isEnd, before, after, whole, others⟩ := List.find?_eq_some_iff_append.mp first
      cases opened
      have taken : tokens.takeWhile (·.kind != .eof) = before := by
        rw [whole, List.takeWhile_append_of_pos fun token member => by
          simpa using others token member, List.takeWhile_cons_of_neg (by simpa using isEnd),
          List.append_nil]
      constructor
      · exact ⟨after, by rw [taken, whole]⟩
      · simpa using isEnd
      · intro token member
        rw [taken] at member
        simpa using others token member
      · rfl
      · rfl
      · rfl

/-- The cursor at a position of a row of tokens, at some depth. -/
def seek (index : Nat) (depth : Int) (start : TokenCursor) : TokenCursor :=
  { start.pass index with depth }

/-- What is read from a position stays before the first token that ends the input. -/
theorem add_length_le_of_drop_eq {read rest : List Token} (inside : index ≤ start.ahead.length)
    (ahead : start.ahead.drop index = read ++ rest) :
    index + read.length ≤ start.ahead.length := by
  have lengths := congrArg List.length ahead
  rw [List.length_drop, List.length_append] at lengths
  omega

namespace IsStartOf

/-- A position is not past the first token that ends the input where no token
before it does so. -/
theorem le_length_ahead (isStart : IsStartOf tokens start)
    (notPast : ∀ token ∈ tokens.take index, token.kind ≠ .eof) :
    index ≤ start.ahead.length := by
  obtain ⟨after, rfl⟩ := isStart.splits
  apply Nat.le_of_not_lt
  intro beyond
  refine notPast start.stop ?_ isStart.ends
  obtain ⟨more, rfl⟩ := Nat.exists_eq_add_of_lt beyond
  rw [Nat.add_assoc, List.take_length_add_append]
  simp

/-- The token at a position is the one that the cursor there looks at. -/
theorem getElem?_eq (isStart : IsStartOf tokens start) (inside : index ≤ start.ahead.length) :
    tokens[index]? = some (start.pass index).peek := by
  obtain ⟨after, rfl⟩ := isStart.splits
  rcases Nat.lt_or_eq_of_le inside with before | rfl
  · rw [List.getElem?_append_left before, List.getElem?_eq_getElem before, peek, ahead_pass,
      List.drop_eq_getElem_cons before, List.headD_cons]
  · simp [peek, pass]

theorem extract_eq (isStart : IsStartOf tokens start) (inside : stop ≤ start.ahead.length) :
    tokens.extract index stop = (start.ahead.drop index).take (stop - index) := by
  obtain ⟨after, rfl⟩ := isStart.splits
  rw [List.extract_eq_drop_take', List.take_append_of_le_length inside, List.drop_take]

/-- A sentence that begins before the first token that ends the input ends there at
the latest. -/
theorem le_length_ahead_of_sentence (isStart : IsStartOf tokens start)
    (inside : index ≤ start.ahead.length) {wanted : Rule} {expr : Expr}
    (sentence : Sentence wanted (tokens.extract index stop) expr) :
    stop ≤ start.ahead.length := by
  obtain ⟨after, rfl⟩ := isStart.splits
  apply Nat.le_of_not_lt
  intro beyond
  refine sentence.kind_ne_eof start.stop ?_ isStart.ends
  rw [List.extract_eq_drop_take', List.mem_iff_getElem?]
  refine ⟨start.ahead.length - index, ?_⟩
  rw [List.getElem?_drop, Nat.add_sub_cancel' inside, List.getElem?_take_of_lt beyond]
  simp

end IsStartOf

variable {depth : Int}

theorem ahead_seek : (start.seek index depth).ahead = start.ahead.drop index := rfl

theorem pass_seek (count : Nat) :
    (start.seek index depth).pass count = start.seek (index + count) depth := by
  rw [seek, seek, ← pass_pass]
  rfl

theorem position_seek (isStart : IsStartOf tokens start) (inside : index ≤ start.ahead.length) :
    (start.seek index depth).position = index := by
  simp [seek, pass, position, isStart.passed, Nat.min_eq_left inside]

/-- A cursor from which every reading ends with a tree or with a problem. -/
structure Readable (cursor : TokenCursor) : Prop where
  unlimited : cursor.allowance = none
  literals : ∀ token ∈ cursor.ahead, token.kind.carriesLiteral = true → token.literal ≠ none

theorem Readable.passes {read : List Token} {next : TokenCursor} (readable : Readable cursor)
    (passes : Passes read cursor next) : Readable next where
  unlimited := passes.allowance readable.unlimited
  literals := fun token member => readable.literals token (by
    rw [passes.ahead]
    exact List.mem_append_right read member)

theorem IsStartOf.readable (isStart : IsStartOf tokens start)
    (literals : ∀ token ∈ tokens, token.kind.carriesLiteral = true → token.literal ≠ none) :
    Readable start where
  unlimited := isStart.unlimited
  literals := fun token member => literals token (by
    obtain ⟨after, whole⟩ := isStart.splits
    rw [whole]
    exact List.mem_append_left _ member)

end TokenCursor

namespace Reads

variable {limit : Option Int} {part : Part} {wanted : Rule} {cursor next stopped : TokenCursor}
  {expr : Expr} {failure : ParseFailure}

/-- What a rule reads, and when. -/
theorem ok_iff (unlimited : cursor.allowance = none)
    (fits : ∀ bound ∈ limit, cursor.depth ≤ bound) :
    Reads limit (.rule wanted) cursor (.ok expr next) ↔
      ∃ read rest, cursor.ahead = read ++ rest ∧ Sentence wanted read expr ∧
        expr.NestsWithin limit cursor.depth ∧ next = cursor.pass read.length ∧
        next.Avoids wanted.continuations := by
  constructor
  · intro reads
    obtain ⟨read, passes, sentence⟩ := reads.derives
    exact ⟨read, next.ahead, passes.ahead, sentence, reads.nestsWithin fits,
      passes.eq_pass reads.depth_eq unlimited, reads.avoids_continuations trivial⟩
  · rintro ⟨read, rest, ahead, sentence, room, rfl, avoids⟩
    exact sentence.readsThrough.reads ahead unlimited room avoids

/-- Readings of tokens that carry their values fail with a problem. -/
theorem exists_problem (reads : Reads limit part cursor (.error failure stopped))
    (readable : Readable cursor) : ∃ error, failure = .problem error := by
  generalize result : (.error failure stopped : ParseOutcome) = outcome at reads
  induction reads generalizing failure stopped with
  | start _ ih | firstOperandFails _ ih | primary _ _ ih => exact ih readable result
  | noRoom none => rw [readable.unlimited] at none; cases none
  | expression _ _ ih => exact ih (readable.passes (.spent _)) result
  | binary left _ _ ihTail =>
      obtain ⟨read, passes⟩ := left.passes_of_ok
      exact ihTail (readable.passes passes) result
  | rightOperandFails ahead _ _ ih =>
      exact ih (readable.passes (.advance ahead)) result
  | operator ahead _ right _ _ ihTail =>
      obtain ⟨read, passes⟩ := right.passes_of_ok
      exact ihTail (readable.passes ((Passes.advance ahead).trans passes)) result
  | signedOperandFails ahead _ _ _ ih | groupFails ahead _ _ _ ih =>
      exact ih (readable.passes ((Passes.advance ahead).trans (.deeper _))) result
  | noValue ahead carries missing =>
      refine absurd missing (readable.literals _ ?_ carries)
      rw [ahead]
      exact List.mem_cons_self
  | signTooDeep | groupTooDeep | notClosed | noExpression =>
      cases result
      exact ⟨_, rfl⟩
  | _ => cases result

end Reads

namespace ParseM

variable {tokens : List Token} {start : TokenCursor} {index : Nat} {depth : Int}

variable {wanted : Rule} {expr : Expr} {next : TokenCursor}

theorem run_seek_eq_ok_iff (isStart : IsStartOf tokens start) (fits : depth ≤ maxDepth) :
    (readRule (some maxDepth) wanted).run (start.seek index depth) = .ok expr next ↔
      ∃ read rest, start.ahead.drop index = read ++ rest ∧ Sentence wanted read expr ∧
        expr.nesting ≤ maxDepth - depth ∧ next = start.seek (index + read.length) depth ∧
        next.Avoids wanted.continuations := by
  have room : expr.NestsWithin (some maxDepth) (start.seek index depth).depth ↔
      expr.nesting ≤ maxDepth - depth := by
    simp only [Expr.NestsWithin, Option.mem_def, Option.some.injEq, forall_eq', seek]
    omega
  have ends : (start.seek index depth).stop.kind = .eof := isStart.ends
  have unlimited : (start.seek index depth).allowance = none := isStart.unlimited
  rw [run_readRule_eq_iff ends, Reads.ok_iff unlimited, room]
  · simp only [ahead_seek, pass_seek]
  · intro bound member
    cases member
    exact fits

/-- From any position before the first token that ends the input, and at any depth
within the limit, a rule succeeds exactly on a sentence of its grammar that nests no
deeper than the limit leaves and that the next token could not go on. The cursor is
then moved and otherwise as it was. The only other way to end is a problem. -/
theorem readRule_accepts (opened : ofTokens? tokens = some start)
    (literals : ∀ token ∈ tokens, token.kind.carriesLiteral = true → token.literal ≠ none)
    (notPast : ∀ token ∈ tokens.take index, token.kind ≠ .eof) (fits : depth ≤ maxDepth)
    (wanted : Rule) :
    (∀ expr stop,
      (∃ next, (readRule (some maxDepth) wanted).run (start.seek index depth) = .ok expr next ∧
        next.position = stop) ↔
      Sentence wanted (tokens.extract index stop) expr ∧ expr.nesting ≤ maxDepth - depth ∧
        ∃ token, tokens[stop]? = some token ∧ token.kind ∉ wanted.continuations) ∧
    match (readRule (some maxDepth) wanted).run (start.seek index depth) with
    | .ok _ next => next = start.seek next.position depth
    | .error failure _ => ∃ error, failure = .problem error := by
  have isStart := isStartOf_of_ofTokens? opened
  have inside := isStart.le_length_ahead notPast
  have follows_iff : ∀ stop, (start.seek stop depth).Avoids wanted.continuations ↔
      (start.pass stop).peek.kind ∉ wanted.continuations := fun stop =>
    avoids_iff isStart.ends (Rule.eof_not_mem_continuations wanted)
  refine ⟨fun expr stop => ⟨?_, ?_⟩, ?_⟩
  · rintro ⟨next, result, rfl⟩
    obtain ⟨read, rest, ahead, sentence, nests, rfl, avoids⟩ :=
      (run_seek_eq_ok_iff isStart fits).mp result
    have within := add_length_le_of_drop_eq inside ahead
    rw [position_seek isStart within, isStart.extract_eq within, ahead,
      Nat.add_sub_cancel_left, List.take_left]
    exact ⟨sentence, nests, _, isStart.getElem?_eq within, (follows_iff _).mp avoids⟩
  · rintro ⟨sentence, nests, token, here, follows⟩
    have within := isStart.le_length_ahead_of_sentence inside sentence
    rw [isStart.getElem?_eq within, Option.some.injEq] at here
    rw [isStart.extract_eq within] at sentence
    have forward : index + ((start.ahead.drop index).take (stop - index)).length = stop := by
      have nonempty := List.length_pos_iff.mpr sentence.ne_nil
      simp only [List.length_take, List.length_drop] at nonempty ⊢
      omega
    refine ⟨start.seek stop depth, ?_, position_seek isStart within⟩
    refine (run_seek_eq_ok_iff isStart fits).mpr ⟨_, _, (List.take_append_drop _ _).symm,
      sentence, nests, by rw [forward], (follows_iff stop).mpr (here ▸ follows)⟩
  · split
    case h_1 expr next result =>
      obtain ⟨read, rest, ahead, -, -, rfl, -⟩ := (run_seek_eq_ok_iff isStart fits).mp result
      rw [position_seek isStart (add_length_le_of_drop_eq inside ahead)]
    case h_2 failure stopped result =>
      have ends : (start.seek index depth).stop.kind = .eof := isStart.ends
      have readable := isStart.readable literals
      exact ((run_readRule_eq_iff ends).mp result).exists_problem ⟨readable.unlimited,
        fun token member => readable.literals token (List.mem_of_mem_drop member)⟩

/-- At the greatest depth and after a sign, a sum without groups is still read. -/
theorem readRule_accepts_sum :
    let first : Token := ⟨.string, "\"a\"", some (.string "a"), 1⟩
    let plus : Token := ⟨.plus, "+", none, 1⟩
    let second : Token := ⟨.kwNil, "nil", none, 2⟩
    let start : TokenCursor :=
      { ahead := [⟨.minus, "-", none, 1⟩, first, plus, second],
        stop := ⟨.eof, "", none, 2⟩, last := ⟨.eof, "", none, 2⟩ }
    ∃ next, (readRule (some maxDepth) (.binary .term)).run (start.seek 1 maxDepth) =
      .ok (.binary (.literal (some (.string "a"))) plus
        (.literal (some (.identifier "nil")))) next ∧ next.position = 4 := by
  intro first plus second start
  have opened : ofTokens? (start.ahead ++ [start.stop]) = some start := rfl
  have sentence : Sentence (.binary .term) ([first] ++ plus :: [second])
      (.binary (.literal (some (.string "a"))) plus (.literal (some (.identifier "nil")))) :=
    .binary (.operand (.operand (.primary (.constant rfl rfl)))) (by decide)
      (.operand (.primary (.valueWord (by decide))))
  exact ((readRule_accepts opened (by decide) (by decide) (by decide) _).1 _ 4).mpr
    ⟨sentence, by decide, _, rfl, by decide⟩

end ParseM

end LoxFront
