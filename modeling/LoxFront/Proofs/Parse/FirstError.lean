/-
# The first token that goes on no expression

A reading that fails with a problem has passed what an expression may begin with, and
the token that it blames is the first one with which no expression goes on. This is
shown by following the frontier of what has been read along the reading, down to the
place where the problem is found: there the frontier has no next step.

With it the frontier is seen to recognize exactly the sentences. A row of kinds that
the frontier passes to the end is read to the end, since neither a problem nor an early
stop is possible in it.
-/

import LoxFront.Diagnostic
import LoxFront.Proofs.Grammar.Frontier
import LoxFront.Proofs.Parse.Acceptance

namespace LoxFront

open TokenCursor TokenKind

/-- Which problem a reading finds at a token, given what is open before it. -/
inductive Blames (limit : Option Int) : Frontier → Token → SyntaxError → Prop where
  | noExpression {signs : Nat} {groups : List Nat} {token : Token} :
    token.kind ∉ levelOpeners → token.kind ∉ primaryStarts →
    Blames limit (.operand signs groups) token (.expectedExpression token)
  | tooDeep {signs : Nat} {groups : List Nat} {token : Token} :
    token.kind ∈ levelOpeners →
    limit.any (· ≤ ((Frontier.operand signs groups).depth : Int)) = true →
    Blames limit (.operand signs groups) token (.expressionTooDeep token)
  | notClosed {signs : Nat} {groups : List Nat} {token : Token} :
    token.kind ∉ binaryOperators → token.kind ≠ .rightParen →
    Blames limit (.operator (signs :: groups)) token
      (.expectedToken token .rightParen "Expect ')' after expression.")

namespace Blames

variable {limit : Option Int} {here : Frontier} {token : Token} {error : SyntaxError}

/-- Where a problem is found, no expression goes on. -/
theorem next_eq_none (blames : Blames limit here token error) :
    here.next limit token.kind = none := by
  cases blames with
  | noExpression opens starts => rw [Frontier.next, if_neg opens, if_neg starts]
  | tooDeep opens full => rw [Frontier.next, if_pos opens, if_pos full]
  | notClosed operator closes => rw [Frontier.next, if_neg operator, if_neg closes]

theorem token_eq (blames : Blames limit here token error) : error.token = token := by
  cases blames <;> rfl

/-- Only the depth of a problem is due to the limit. -/
theorem next_none_eq_none (blames : Blames limit here token error)
    (shallow : error ≠ .expressionTooDeep token) : here.next none token.kind = none := by
  cases blames with
  | noExpression opens starts => exact (noExpression opens starts : Blames none _ _ _).next_eq_none
  | tooDeep => exact absurd rfl shallow
  | notClosed operator closes => exact (notClosed operator closes : Blames none _ _ _).next_eq_none

end Blames

/-- Some token ahead is the first one with which no expression goes on, and the problem
found there is the given one. -/
def BlamesAhead (limit : Option Int) (here : Frontier) (cursor : TokenCursor)
    (error : SyntaxError) : Prop :=
  ∃ read rest there, cursor.ahead = read ++ rest ∧
    here.run limit (read.map Token.kind) = some there ∧
    Blames limit there (rest.headD cursor.stop) error

/-- A reading has passed what an expression may begin with, down to a cursor where the depth is
the one of the frontier, and finds a problem at the next token. This token is passed if it
opens a level too many. -/
def StopsAtFrontier (limit : Option Int) (here : Frontier) (cursor : TokenCursor)
    (error : SyntaxError) (stopped : TokenCursor) : Prop :=
  ∃ read there last, Passes read cursor last ∧
    here.run limit (read.map Token.kind) = some there ∧ last.depth = there.depth ∧
    Blames limit there last.peek error ∧
    ∀ token, error = .expressionTooDeep token →
      stopped = last.advance ∧ ∃ rest, last.ahead = token :: rest

namespace StopsAtFrontier

variable {limit : Option Int} {here there : Frontier} {cursor next stopped : TokenCursor}
  {read : List Token} {error : SyntaxError}

theorem blamesAhead (stops : StopsAtFrontier limit here cursor error stopped) :
    BlamesAhead limit here cursor error := by
  obtain ⟨read, there, last, passes, steps, -, blames, -⟩ := stops
  rw [peek, passes.stop] at blames
  exact ⟨read, last.ahead, there, passes.ahead, steps, blames⟩

/-- A problem that is found at once. -/
theorem of_peek (depth : cursor.depth = here.depth) (blames : Blames limit here cursor.peek error)
    (passed : ∀ token, error = .expressionTooDeep token →
      stopped = cursor.advance ∧ ∃ rest, cursor.ahead = token :: rest) :
    StopsAtFrontier limit here cursor error stopped :=
  ⟨[], here, cursor, .refl _, rfl, depth, blames, passed⟩

/-- A token that opens a level too many. -/
theorem of_full {token : Token} {rest : List Token} (ahead : cursor.ahead = token :: rest)
    (depth : cursor.depth = here.depth)
    (blames : Blames limit here token (.expressionTooDeep token)) :
    StopsAtFrontier limit here cursor (.expressionTooDeep token) cursor.advance := by
  refine .of_peek depth (by rwa [peek_eq ahead]) ?_
  rintro _ ⟨⟩
  exact ⟨rfl, rest, ahead⟩

/-- What is found after some tokens is found before them. -/
theorem of_passes (passes : Passes read cursor next)
    (steps : here.run limit (read.map Token.kind) = some there)
    (stops : StopsAtFrontier limit there next error stopped) :
    StopsAtFrontier limit here cursor error stopped := by
  obtain ⟨more, final, last, passesMore, laterSteps, found⟩ := stops
  refine ⟨read ++ more, final, last, passes.trans passesMore, ?_, found⟩
  rw [List.map_append, Frontier.run_append_of_run steps, laterSteps]

/-- What is found after a single token is found before it. -/
theorem of_advance {token : Token} {rest : List Token} (ahead : cursor.ahead = token :: rest)
    (step : here.next limit token.kind = some there)
    (stops : StopsAtFrontier limit there cursor.advance error stopped) :
    StopsAtFrontier limit here cursor error stopped :=
  of_passes (.advance ahead) (Frontier.run_cons_of_next step) stops

end StopsAtFrontier

/-- A cursor stands where some signs and groups are open, within the limit. -/
structure StandsAt (limit : Option Int) (signs : Nat) (groups : List Nat)
    (cursor : TokenCursor) : Prop where
  ends : cursor.stop.kind = .eof
  fits : ∀ bound ∈ limit, cursor.depth ≤ bound
  depth : cursor.depth = (Frontier.operand signs groups).depth

namespace StandsAt

variable {limit : Option Int} {signs moreSigns : Nat} {groups moreGroups : List Nat}
  {cursor next : TokenCursor} {read rest : List Token} {token : Token}

theorem of_passes (stands : StandsAt limit signs groups cursor)
    (passes : Passes read cursor next) (same : next.depth = cursor.depth) :
    StandsAt limit signs groups next where
  ends := passes.stop ▸ stands.ends
  fits := same ▸ stands.fits
  depth := same.trans stands.depth

theorem advance (stands : StandsAt limit signs groups cursor)
    (ahead : cursor.ahead = token :: rest) : StandsAt limit signs groups cursor.advance :=
  stands.of_passes (.advance ahead) (depth_advance cursor)

variable (opened : Frontier.opened signs groups token.kind = .operand moreSigns moreGroups)

include opened

/-- Opening a level within the limit is a step of the frontier. -/
theorem next_eq (stands : StandsAt limit signs groups cursor)
    (opens : token.kind ∈ levelOpeners) (free : ¬ cursor.IsFull limit) :
    (Frontier.operand signs groups).next limit token.kind =
      some (.operand moreSigns moreGroups) := by
  rw [IsFull, stands.depth, Bool.not_eq_true] at free
  rw [Frontier.next_of_mem_levelOpeners opens free, opened]

theorem deeper (stands : StandsAt limit signs groups cursor)
    (ahead : cursor.ahead = token :: rest) (free : ¬ cursor.IsFull limit) :
    StandsAt limit moreSigns moreGroups cursor.advance.deeper where
  ends := (stands.advance ahead).ends
  fits := by
    rintro bound member
    rw [Option.mem_def] at member
    subst member
    have room := depth_lt_of_not_isFull free
    rw [depth_deeper, depth_advance]
    omega
  depth := by
    rw [depth_deeper, depth_advance, stands.depth, ← opened, Frontier.depth_opened]
    rfl

end StandsAt

namespace Part

/-- What is open where a part is begun. -/
def frontier (signs : Nat) (groups : List Nat) : Part → Frontier
  | .rule _ => .operand signs groups
  | .tail _ _ => .operator groups

/-- Signs are open only before the operands of signs and the primary expressions, and
no sign is ahead of the latter. -/
def EnteredAfter (signs : Nat) (cursor : TokenCursor) : Part → Prop
  | .rule .unary => True
  | .rule .primary => cursor.Avoids unaryOperators
  | _ => signs = 0

theorem enteredAfter_operand (level : BinaryLevel) (cursor : TokenCursor) :
    (Part.rule level.operand).EnteredAfter 0 cursor := by
  cases level <;> trivial

end Part

namespace Reads

variable {limit : Option Int} {part : Part} {wanted : Rule} {cursor next stopped : TokenCursor}
  {expr : Expr} {error : SyntaxError} {signs : Nat} {groups : List Nat}

/-- What is read as a rule completes an operand. -/
theorem run_frontier (reads : Reads limit (.rule wanted) cursor (.ok expr next))
    (stands : StandsAt limit signs groups cursor)
    (unsigned : wanted ≠ .unary → wanted ≠ .primary → signs = 0) :
    ∃ read, Passes read cursor next ∧
      Frontier.run limit (.operand signs groups) (read.map Token.kind) =
        some (.operator groups) := by
  obtain ⟨read, passes, sentence⟩ := reads.derives
  have within := reads.nestsWithin stands.fits
  rw [stands.depth] at within
  exact ⟨read, passes, Sentence.run_frontier sentence unsigned within⟩

/-- A reading that fails with a problem stops at the first token with which no expression
goes on. -/
theorem stopsAtFrontier (reads : Reads limit part cursor (.error (.problem error) stopped))
    (stands : StandsAt limit signs groups cursor) (entered : part.EnteredAfter signs cursor) :
    StopsAtFrontier limit (part.frontier signs groups) cursor error stopped := by
  generalize result : (.error (.problem error) stopped : ParseOutcome) = outcome at reads
  induction reads generalizing error stopped signs groups with
  | start _ ih => exact ih stands entered result
  | expression _ _ ih =>
      exact .of_passes (.spent _) rfl (ih (stands.of_passes (.spent _) rfl) entered result)
  | firstOperandFails _ ih =>
      obtain rfl : signs = 0 := entered
      exact ih stands (Part.enteredAfter_operand _ _) result
  | binary left _ _ ihTail =>
      obtain rfl : signs = 0 := entered
      obtain ⟨read, passes, steps⟩ := left.run_frontier stands fun _ _ => rfl
      exact .of_passes passes steps (ihTail (stands.of_passes passes left.depth_eq) rfl result)
  | rightOperandFails ahead operator _ ih =>
      obtain rfl : signs = 0 := entered
      refine .of_advance ahead
        (Frontier.next_of_mem_binaryOperators (mem_binaryOperators_of_mem_operators operator)) ?_
      exact ih (stands.advance ahead) (Part.enteredAfter_operand _ _) result
  | operator ahead operator right _ _ ihTail =>
      obtain rfl : signs = 0 := entered
      have later := stands.advance ahead
      obtain ⟨read, passes, steps⟩ := right.run_frontier later fun _ _ => rfl
      refine .of_advance ahead
        (Frontier.next_of_mem_binaryOperators (mem_binaryOperators_of_mem_operators operator)) ?_
      exact .of_passes passes steps (ihTail (later.of_passes passes right.depth_eq) rfl result)
  | signTooDeep ahead sign full =>
      cases result
      rw [IsFull, stands.depth] at full
      exact .of_full ahead stands.depth (.tooDeep (mem_levelOpeners_iff.mpr (.inl sign)) full)
  | signedOperandFails ahead sign free _ ih =>
      have opener := mem_levelOpeners_iff.mpr (.inl sign)
      have opened := Frontier.opened_of_mem_unaryOperators signs groups sign
      refine .of_advance ahead (stands.next_eq opened opener free)
        (.of_passes (.deeper _) rfl ?_)
      exact ih (stands.deeper opened ahead free) trivial result
  | primary avoids _ ih => exact ih stands avoids result
  | groupTooDeep ahead opens full =>
      cases result
      rw [IsFull, stands.depth] at full
      exact .of_full ahead stands.depth (.tooDeep (mem_levelOpeners_iff.mpr (.inr opens)) full)
  | groupFails ahead opens free _ ih =>
      have opener := mem_levelOpeners_iff.mpr (.inr opens)
      have opened := Frontier.opened_of_eq_leftParen signs groups opens
      refine .of_advance ahead (stands.next_eq opened opener free)
        (.of_passes (.deeper _) rfl ?_)
      exact ih (stands.deeper opened ahead free) rfl result
  | notClosed ahead opens free inner avoids =>
      cases result
      have opener := mem_levelOpeners_iff.mpr (.inr opens)
      have opened := Frontier.opened_of_eq_leftParen signs groups opens
      have inside := stands.deeper opened ahead free
      obtain ⟨read, passes, steps⟩ := inner.run_frontier inside fun _ _ => rfl
      refine .of_advance ahead (stands.next_eq opened opener free)
        (.of_passes (.deeper _) rfl (.of_passes passes steps (.of_peek ?_ ?_ ?_)))
      · rw [inner.depth_eq, inside.depth, Frontier.depth, Frontier.depth, Nat.zero_add]
      · have ends := (inside.of_passes passes inner.depth_eq).ends
        refine .notClosed ?_ ?_
        · exact (avoids_iff ends eof_not_mem_binaryOperators).mp
            (inner.avoids_continuations trivial)
        · have still := (avoids_iff ends (by decide)).mp avoids
          rwa [List.mem_singleton] at still
      · rintro _ ⟨⟩
  | noExpression avoids =>
      cases result
      have starts := (avoids_iff stands.ends eof_not_mem_primaryStarts).mp avoids
      have signs := (avoids_iff stands.ends eof_not_mem_unaryOperators).mp entered
      refine .of_peek stands.depth (.noExpression (fun opens => ?_) starts) ?_
      · rcases mem_levelOpeners_iff.mp opens with sign | paren
        · exact signs sign
        · exact starts (mem_primaryStarts_iff.mpr (.inr (.inr paren)))
      · rintro _ ⟨⟩
  | _ => cases result

/-- A reading that fails with a problem has found it at the first token with which no
expression goes on. -/
theorem blamesAhead (reads : Reads limit part cursor (.error (.problem error) stopped))
    (stands : StandsAt limit signs groups cursor) (entered : part.EnteredAfter signs cursor) :
    BlamesAhead limit (part.frontier signs groups) cursor error :=
  (reads.stopsAtFrontier stands entered).blamesAhead

end Reads

/-! ## The frontier recognizes the sentences -/

section Recognition

variable {limit : Option Int} {kinds before : List TokenKind} {kind : TokenKind}
  {here : Frontier}

/-- No problem is found where an expression may end. -/
theorem not_blames_finish {token : Token} {error : SyntaxError} :
    ¬ Blames limit .finish token error :=
  nofun

theorem next_finish_eq_none (other : kind ∉ binaryOperators) :
    Frontier.next limit .finish kind = none := by
  rw [Frontier.finish, Frontier.next, if_neg other]
  split <;> rfl

/-- What the frontier passes is read to its end: the reading can neither fail in it
nor stop before its last token. -/
theorem isSentence_of_run (fits : ∀ bound ∈ limit, 0 ≤ bound)
    (steps : Frontier.run limit .start kinds = some .finish) : IsSentence limit kinds := by
  let tokens : List Token := kinds.map fun kind => ⟨kind, "", some (.string ""), 1⟩
  have same : tokens.map Token.kind = kinds := by
    simp [tokens, Function.comp_def]
  let cursor : TokenCursor := ⟨[], tokens, ⟨.eof, "", none, 1⟩, ⟨.eof, "", none, 1⟩, 0, none⟩
  have stands : StandsAt limit 0 [] cursor := ⟨rfl, fits, rfl⟩
  have readable : cursor.Readable := by
    refine ⟨rfl, fun token member _ => ?_⟩
    obtain ⟨kind, -, rfl⟩ := List.mem_map.mp member
    exact Option.some_ne_none _
  obtain ⟨outcome, reads⟩ := Reads.exists_rule limit _ .start cursor (Nat.le_refl _)
  rw [← same] at steps ⊢
  cases outcome with
  | ok expr next =>
      obtain ⟨read, passes, sentence⟩ := reads.derives
      have within : expr.NestsWithin limit 0 := reads.nestsWithin fits
      have whole : tokens = read ++ next.ahead := passes.ahead
      cases left : next.ahead with
      | nil => exact ⟨read, expr, sentence, within, by rw [whole, left, List.append_nil]⟩
      | cons token rest =>
          have passed : Frontier.run limit .start (read.map Token.kind) = some .finish :=
            Sentence.run_frontier sentence (fun _ _ => rfl) within
          have follows := reads.avoids_continuations trivial token (by rw [left]; rfl)
          rw [whole, left, List.map_append, Frontier.run_append_of_run passed, List.map_cons,
            Frontier.run_cons_of_next_eq_none (next_finish_eq_none follows)] at steps
          cases steps
  | error failure stopped =>
      obtain ⟨error, rfl⟩ := reads.exists_problem readable
      have blamed : BlamesAhead limit .start cursor error := reads.blamesAhead stands rfl
      obtain ⟨read, rest, there, ahead, passed, blames⟩ := blamed
      have whole : tokens = read ++ rest := ahead
      rw [whole, List.map_append, Frontier.run_append_of_run passed] at steps
      cases rest with
      | nil =>
          cases steps
          exact absurd blames not_blames_finish
      | cons token rest =>
          have stuck : there.next limit token.kind = none := blames.next_eq_none
          rw [List.map_cons, Frontier.run_cons_of_next_eq_none stuck] at steps
          cases steps

theorem viable_iff (fits : ∀ bound ∈ limit, 0 ≤ bound) :
    Viable limit kinds ↔ ∃ here, Frontier.run limit .start kinds = some here := by
  constructor
  · rintro ⟨more, sentence⟩
    obtain ⟨middle, steps, -⟩ := Frontier.exists_run_of_run_append sentence.run_frontier
    exact ⟨middle, steps⟩
  · rintro ⟨here, steps⟩
    refine ⟨here.completion, isSentence_of_run fits ?_⟩
    rw [Frontier.run_append_of_run steps, Frontier.run_completion]

/-- After the beginning of an expression, a token goes on if the frontier does. -/
theorem viable_append_singleton_iff (fits : ∀ bound ∈ limit, 0 ≤ bound)
    (steps : Frontier.run limit .start before = some here) :
    Viable limit (before ++ [kind]) ↔ ∃ there, here.next limit kind = some there := by
  rw [viable_iff fits, Frontier.run_append_of_run steps]
  cases step : here.next limit kind with
  | none => rw [Frontier.run_cons_of_next_eq_none step]
  | some there => rw [Frontier.run_cons_of_next step, Frontier.run_nil]

/-- The beginning of an expression becomes one by closing groups if an operand is
complete and groups are open. -/
theorem exists_isSentence_append_replicate_iff (fits : ∀ bound ∈ limit, 0 ≤ bound)
    (steps : Frontier.run limit .start before = some here) :
    (∃ count, IsSentence limit (before ++ List.replicate (count + 1) .rightParen)) ↔
      ∃ signs groups, here = .operator (signs :: groups) := by
  constructor
  · rintro ⟨count, sentence⟩
    have passed := sentence.run_frontier
    rw [Frontier.run_append_of_run steps, List.replicate_succ] at passed
    cases here with
    | operator groups =>
        cases groups with
        | cons signs groups => exact ⟨signs, groups, rfl⟩
        | nil =>
            rw [Frontier.run_cons_of_next_eq_none rfl] at passed
            cases passed
    | operand signs groups =>
        rw [Frontier.run_cons_of_next_eq_none rfl] at passed
        cases passed
  · rintro ⟨signs, groups, rfl⟩
    refine ⟨groups.length, isSentence_of_run fits ?_⟩
    rw [Frontier.run_append_of_run steps]
    exact Frontier.run_close limit (signs :: groups)

/-- The sort of a problem, seen from what may follow the tokens before it. -/
theorem Blames.sort_iff {token : Token} {error : SyntaxError}
    (blames : Blames limit here token error) (fits : ∀ bound ∈ limit, 0 ≤ bound)
    (steps : Frontier.run limit .start before = some here) :
    (error = .expressionTooDeep token ↔ Viable none (before ++ [token.kind])) ∧
    (error = .expectedToken token .rightParen "Expect ')' after expression." ↔
      ¬ Viable none (before ++ [token.kind]) ∧
        ∃ count, IsSentence limit (before ++ List.replicate (count + 1) .rightParen)) ∧
    (error = .expectedExpression token ↔
      ¬ Viable none (before ++ [token.kind]) ∧
        ¬ ∃ count, IsSentence limit (before ++ List.replicate (count + 1) .rightParen)) := by
  have unlimited := Frontier.run_none_of_run steps
  rw [viable_append_singleton_iff (by simp) unlimited,
    exists_isSentence_append_replicate_iff fits steps]
  have stuck := blames.next_none_eq_none
  cases blames with
  | noExpression => simp [stuck]
  | @tooDeep signs groups token opens full =>
      have goes : (Frontier.operand signs groups).next none token.kind =
          some (Frontier.opened signs groups token.kind) :=
        Frontier.next_of_mem_levelOpeners opens rfl
      simp [goes]
  | notClosed => simp [stuck]

/-- Up to the first token that does not go on, and no further, a row of tokens begins
as an expression does. -/
theorem viable_take_iff {read more : List Token} {token : Token}
    (fits : ∀ bound ∈ limit, 0 ≤ bound)
    (steps : Frontier.run limit .start (read.map Token.kind) = some here)
    (stuck : here.next limit token.kind = none) (count : Nat) :
    Viable limit (((read ++ token :: more).take count).map Token.kind) ↔
      count ≤ read.length := by
  constructor
  · intro viable
    apply Nat.le_of_not_lt
    intro beyond
    obtain ⟨further, rfl⟩ := Nat.exists_eq_add_of_lt beyond
    rw [Nat.add_assoc, List.take_length_add_append, List.take_succ_cons, List.map_append,
      List.map_cons, ← List.singleton_append, ← List.append_assoc] at viable
    have one := viable.of_append
    rw [viable_append_singleton_iff fits steps, stuck] at one
    obtain ⟨there, goes⟩ := one
    cases goes
  · intro within
    have viable : Viable limit (read.map Token.kind) := (viable_iff fits).mpr ⟨here, steps⟩
    rw [List.take_append_of_le_length within]
    rw [← List.take_append_drop count read, List.map_append] at viable
    exact viable.of_append

end Recognition

/-! ## What is reported -/

open ParseM in
/-- If the reading of a whole row fails, then with a problem at the first token that,
by the kinds of the tokens up to it, goes on no expression within the limit. It is the
depth if an expression without the limit goes on with it, a missing parenthesis if
parentheses alone would complete an expression before it, and a missing expression
otherwise. This problem alone is reported, at its token. -/
theorem parse_reports_first_error {tokens : List Token} {start stopped : TokenCursor}
    {failure : ParseFailure} (opened : ofTokens? tokens = some start)
    (literals : ∀ token ∈ tokens, token.kind.carriesLiteral = true → token.literal ≠ none)
    (fails : (readRule (some maxDepth) .start).run start = .error failure stopped) :
    ∃ error index token, failure = .problem error ∧ tokens[index]? = some token ∧
      (∀ count, Viable (some maxDepth) ((tokens.take count).map Token.kind) ↔ count ≤ index) ∧
      (error = .expressionTooDeep token ↔
        Viable none ((tokens.take (index + 1)).map Token.kind)) ∧
      (error = .expectedToken token .rightParen "Expect ')' after expression." ↔
        ¬ Viable none ((tokens.take (index + 1)).map Token.kind) ∧
          ∃ count, IsSentence (some maxDepth)
            ((tokens.take index).map Token.kind ++ List.replicate (count + 1) .rightParen)) ∧
      (error = .expectedExpression token ↔
        ¬ Viable none ((tokens.take (index + 1)).map Token.kind) ∧
          ¬ ∃ count, IsSentence (some maxDepth)
            ((tokens.take index).map Token.kind ++ List.replicate (count + 1) .rightParen)) ∧
      parse tokens = .ok (.error error) ∧
      Diagnostic.ofSyntaxError error =
        ⟨token.line, if token.kind = .eof then " at end" else " at '" ++ token.lexeme ++ "'",
          error.message⟩ := by
  have isStart := isStartOf_of_ofTokens? opened
  have reads := (run_readRule_eq_iff isStart.ends).mp fails
  obtain ⟨error, rfl⟩ := reads.exists_problem (isStart.readable literals)
  have fits : ∀ bound ∈ some maxDepth, 0 ≤ bound := by
    rintro bound ⟨⟩
    decide
  have stands : StandsAt (some maxDepth) 0 [] start :=
    ⟨isStart.ends, isStart.depth ▸ fits, isStart.depth⟩
  have blamed : BlamesAhead (some maxDepth) .start start error := reads.blamesAhead stands rfl
  obtain ⟨read, rest, here, ahead, steps, blames⟩ := blamed
  obtain ⟨more, whole⟩ : ∃ more, tokens = read ++ rest.headD start.stop :: more := by
    obtain ⟨after, whole⟩ := isStart.splits
    rw [whole, ahead, List.append_assoc]
    cases rest with
    | nil => exact ⟨after, rfl⟩
    | cons token rest => exact ⟨rest ++ start.stop :: after, rfl⟩
  generalize rest.headD start.stop = token at blames whole
  have before : (tokens.take read.length).map Token.kind = read.map Token.kind := by
    rw [whole, List.take_left]
  have upTo : (tokens.take (read.length + 1)).map Token.kind =
      read.map Token.kind ++ [token.kind] := by
    rw [whole, List.take_length_add_append, List.map_append]
    rfl
  have sort := blames.sort_iff fits steps
  rw [← upTo, ← before] at sort
  refine ⟨error, read.length, token, rfl, ?_, ?_, sort.1, sort.2.1, sort.2.2, ?_, ?_⟩
  · rw [whole, List.getElem?_append_right (Nat.le_refl _), Nat.sub_self, List.getElem?_cons_zero]
  · rw [whole]
    exact viable_take_iff fits steps blames.next_eq_none
  · have same : { start with allowance := none } = start := by
      rw [← isStart.unlimited]
    simp only [parse, parseWithin, opened, same, fails]
  · rw [← blames.token_eq]
    rfl

/-- A group of two operands without an operator. -/
theorem parse_reports_first_error_unclosed :
    let tokens : List Token :=
      [⟨.leftParen, "(", none, 1⟩, ⟨.kwNil, "nil", none, 1⟩, ⟨.kwTrue, "true", none, 2⟩,
        ⟨.eof, "", none, 2⟩]
    ∃ error index token, parse tokens = .ok (.error error) ∧ tokens[index]? = some token ∧
      ∀ count, Viable (some ParseM.maxDepth) ((tokens.take count).map Token.kind) ↔
        count ≤ index := by
  intro tokens
  have opened : ofTokens? tokens =
      some ⟨[], tokens.take 3, ⟨.eof, "", none, 2⟩, ⟨.eof, "", none, 2⟩, 0, none⟩ := rfl
  obtain ⟨error, index, token, -, here, viable, -, -, -, reported, -⟩ :=
    parse_reports_first_error opened (by decide) rfl
  exact ⟨error, index, token, reported, here, viable⟩

end LoxFront
