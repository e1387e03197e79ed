/-
# Room for expressions

A reading may have room for a number of expressions only. It begins one at the start and one
after each parenthesis that it opens, and where there is no room for the next one it stops. So
as many parentheses have been passed there as expressions have been begun after the first, and
the last thing passed is one of them.

What a free reading takes can be told from what it leaves. It is the number of expressions such
that a reading with this much room, and some more, comes to the same and has left exactly what
was more. With less room a reading stops on the way of the free one, at a place that only the
room decides: it does not depend on how the groups lie beside and inside each other.
-/

import LoxFront.Diagnostic
import LoxFront.Proofs.Parse.Lookahead
import LoxFront.Proofs.Parse.TooDeep
import LoxFront.Proofs.Parse.Whole

namespace LoxFront

open TokenCursor

namespace TokenCursor

/-- The cursor with room for a number of expressions. -/
def allowing (room : Nat) (cursor : TokenCursor) : TokenCursor :=
  { cursor with allowance := some room }

theorem advance_allowing (room : Nat) (cursor : TokenCursor) :
    (cursor.allowing room).advance = cursor.advance.allowing room := by
  obtain ⟨passed, ahead, stop, last, depth, allowance⟩ := cursor
  cases ahead <;> rfl

theorem Passes.allowing {read : List Token} {before after : TokenCursor}
    (passes : Passes read before after) (room left : Nat) :
    Passes read (before.allowing room) (after.allowing left) :=
  ⟨passes.ahead, passes.passed, passes.stop, passes.last, nofun⟩

/-- A way to move a cursor that neither asks for room nor takes any. -/
structure MovesFreely (read : List Token) (move : TokenCursor → TokenCursor) : Prop
    extends Moves read move where
  allowing (room : Nat) (cursor : TokenCursor) :
    move (cursor.allowing room) = (move cursor).allowing room

namespace MovesFreely

theorem id : MovesFreely [] id where
  toMoves := .id
  allowing _ _ := rfl

theorem advance (token : Token) : MovesFreely [token] advance where
  toMoves := .advance token
  allowing := advance_allowing

theorem advance_deeper (token : Token) :
    MovesFreely [token] fun cursor => cursor.advance.deeper where
  toMoves := .advance_deeper token
  allowing room cursor := by
    rw [advance_allowing]
    rfl

end MovesFreely

end TokenCursor

/-- The number of opening parentheses among some tokens. -/
def openings (tokens : List Token) : Nat :=
  tokens.countP (·.kind == .leftParen)

theorem openings_append (first second : List Token) :
    openings (first ++ second) = openings first + openings second :=
  List.countP_append

theorem openings_singleton {token : Token} (opens : token.kind = .leftParen) :
    openings [token] = 1 := by
  simp [openings, opens]

theorem openings_singleton_of_ne {token : Token} (other : token.kind ≠ .leftParen) :
    openings [token] = 0 := by
  simp [openings, other]

theorem openings_singleton_of_mem {token : Token} {kinds : List TokenKind}
    (member : token.kind ∈ kinds) (others : .leftParen ∉ kinds) : openings [token] = 0 :=
  openings_singleton_of_ne fun opens => others (opens ▸ member)

theorem openings_operator {level : BinaryLevel} {token : Token}
    (operator : token.kind ∈ level.operators) : openings [token] = 0 :=
  openings_singleton_of_mem operator (by cases level <;> decide)

theorem openings_sign {token : Token} (sign : token.kind ∈ TokenKind.unaryOperators) :
    openings [token] = 0 :=
  openings_singleton_of_mem sign (by decide)

theorem openings_constant {token : Token} (carries : token.kind.carriesLiteral = true) :
    openings [token] = 0 :=
  openings_singleton_of_ne fun opens => by
    rw [opens] at carries
    cases carries

/-- The number of expressions that are begun with a part, before any token is passed. -/
def Part.begun : Part → Nat
  | .rule .start | .rule .expression => 1
  | .rule (.binary _) | .rule .unary | .rule .primary | .tail _ _ => 0

theorem Part.begun_operand (level : BinaryLevel) : (Part.rule level.operand).begun = 0 := by
  cases level <;> rfl

namespace ParseOutcome

/-- The outcome with some room left. -/
def allowing (left : Nat) : ParseOutcome → ParseOutcome
  | .ok expr next => .ok expr (next.allowing left)
  | .error failure stopped => .error failure (stopped.allowing left)

/-- The number of parentheses that were passed and did not open a group: one if the group would
have been too deep. -/
def unopened : ParseOutcome → Nat
  | .error (.problem (.expressionTooDeep token)) _ => openings [token]
  | _ => 0

end ParseOutcome

/-- With this much room the reading of a part stops for want of more. It has passed one
parenthesis for each expression, apart from one that the part begins with, and the last token
that it has passed is one of them. -/
def RunsOut (limit : Option Int) (part : Part) (cursor : TokenCursor) (room : Nat) : Prop :=
  ∃ front stopped, Reads limit part (cursor.allowing room) (.error .exhausted stopped) ∧
    Passes front (cursor.allowing room) stopped ∧ openings front + part.begun = room + 1 ∧
    ∀ last ∈ front.getLast?, last.kind = .leftParen

/-- The reading of a part begins a number of expressions. With room for them it comes to the same
outcome, and with less room it runs out. -/
structure Takes (limit : Option Int) (part : Part) (cursor : TokenCursor) (outcome : ParseOutcome)
    (read : List Token) (count : Nat) : Prop where
  passes : Passes read cursor outcome.cursor
  count_eq : count + outcome.unopened = part.begun + openings read
  enough : ∀ left, Reads limit part (cursor.allowing (count + left)) (outcome.allowing left)
  short : ∀ room < count, RunsOut limit part cursor room

section Steps

variable {limit : Option Int} {part inner : Part} {cursor middle : TokenCursor}
  {move : TokenCursor → TokenCursor} {outcome result : ParseOutcome} {expr : Expr}
  {read before after more rest : List Token} {room count others : Nat} {level : BinaryLevel}

/-- A reading that runs out later on has passed what was passed before, and has taken what was
taken before. -/
theorem RunsOut.later {taken : Nat} {inside : TokenCursor}
    (runsOut : RunsOut limit inner inside room) (enters : Passes before cursor inside)
    (begun : openings before + part.begun = inner.begun + taken)
    (last : (∀ last ∈ before.getLast?, last.kind = .leftParen) ∨ inner.begun = 0)
    (fails : ∀ stopped, Reads limit inner (inside.allowing room) (.error .exhausted stopped) →
      Reads limit part (cursor.allowing (taken + room)) (.error .exhausted stopped)) :
    RunsOut limit part cursor (taken + room) := by
  obtain ⟨front, stopped, reads, passes, sum, final⟩ := runsOut
  refine ⟨before ++ front, stopped, fails stopped reads, (enters.allowing _ room).trans passes,
    ?_, ?_⟩
  · rw [openings_append]
    omega
  · rw [List.getLast?_append]
    cases front with
    | nil =>
        -- nothing was passed inside, so that the part there begins an expression
        refine last.resolve_right fun none => ?_
        rw [none] at sum
        cases sum
    | cons first front => simpa [List.getLast?_cons] using final

namespace Takes

/-- A reading that begins no expression. -/
theorem of_none (passes : Passes read cursor outcome.cursor) (begun : part.begun = 0)
    (unopened : outcome.unopened = openings read)
    (reads : ∀ left, Reads limit part (cursor.allowing left) (outcome.allowing left)) :
    Takes limit part cursor outcome read 0 where
  passes := passes
  count_eq := by rw [begun, unopened]
  enough left := by
    rw [Nat.zero_add]
    exact reads left
  short room less := absurd less (Nat.not_lt_zero room)

/-- An expression is begun, and then the highest level is read. -/
theorem begins
    (takes : Takes limit (.rule (.binary .equality)) cursor.spent outcome read count) :
    Takes limit (.rule .expression) cursor outcome read (1 + count) where
  passes := (Passes.spent cursor).trans takes.passes
  count_eq := by
    have sum := takes.count_eq
    simp only [Part.begun] at sum ⊢
    omega
  enough left := by
    rw [Nat.add_assoc, Nat.add_comm 1]
    exact .expression (by simp [allowing]) (takes.enough left)
  short room less := by
    cases room with
    | zero => exact ⟨[], _, .noRoom rfl, .refl _, rfl, nofun⟩
    | succ room =>
        rw [Nat.add_comm room]
        refine (takes.short room (by omega)).later (.spent cursor) rfl (.inr rfl) fun _ reads => ?_
        rw [Nat.add_comm 1]
        exact .expression (by simp [allowing]) reads

/-- A part whose reading begins with a move and is then the reading of another part, perhaps with
more tokens passed at the end. -/
theorem within (moves : MovesFreely before move) (ahead : cursor.ahead = before ++ rest)
    (takes : Takes limit inner (move cursor) result read count)
    (leaves : Passes after result.cursor outcome.cursor) (plain : openings after = 0)
    (unopened : outcome.unopened = result.unopened)
    (begun : openings before + part.begun = inner.begun)
    (last : (∀ last ∈ before.getLast?, last.kind = .leftParen) ∨ inner.begun = 0)
    (fails : ∀ room stopped,
      Reads limit inner (move (cursor.allowing room)) (.error .exhausted stopped) →
      Reads limit part (cursor.allowing room) (.error .exhausted stopped))
    (goesOn : ∀ room left, Reads limit inner (move (cursor.allowing room)) (result.allowing left) →
      Reads limit part (cursor.allowing room) (outcome.allowing left)) :
    Takes limit part cursor outcome (before ++ read ++ after) count where
  passes := ((moves.passes ahead).trans takes.passes).trans leaves
  count_eq := by
    have sum := takes.count_eq
    rw [openings_append, openings_append, plain, unopened]
    omega
  enough left := goesOn _ left (moves.allowing _ _ ▸ takes.enough left)
  short room less := by
    rw [← Nat.zero_add room]
    refine (takes.short room less).later (moves.passes ahead) begun last fun stopped reads => ?_
    rw [Nat.zero_add]
    exact fails room stopped (moves.allowing room _ ▸ reads)

/-- An operand behind a sign. -/
theorem signed {operator : Token} (next : cursor.ahead = operator :: rest)
    (sign : operator.kind ∈ TokenKind.unaryOperators) (free : ¬ cursor.IsFull limit)
    (takes : Takes limit (.rule .unary) cursor.advance.deeper result read count)
    (leaves : Passes [] result.cursor outcome.cursor)
    (unopened : outcome.unopened = result.unopened)
    (goesOn : ∀ room left,
      Reads limit (.rule .unary) (cursor.allowing room).advance.deeper (result.allowing left) →
      Reads limit (.rule .unary) (cursor.allowing room) (outcome.allowing left)) :
    Takes limit (.rule .unary) cursor outcome ([operator] ++ read ++ []) count :=
  .within (.advance_deeper _) next takes leaves rfl unopened (by rw [openings_sign sign]; rfl)
    (.inr rfl) (fun _ _ inner => .signedOperandFails next sign free inner) goesOn

/-- An expression behind a parenthesis. -/
theorem grouped {opening : Token} (next : cursor.ahead = opening :: rest)
    (opens : opening.kind = .leftParen) (free : ¬ cursor.IsFull limit)
    (takes : Takes limit (.rule .expression) cursor.advance.deeper result read count)
    (leaves : Passes after result.cursor outcome.cursor) (plain : openings after = 0)
    (unopened : outcome.unopened = result.unopened)
    (goesOn : ∀ room left,
      Reads limit (.rule .expression) (cursor.allowing room).advance.deeper (result.allowing left) →
      Reads limit (.rule .primary) (cursor.allowing room) (outcome.allowing left)) :
    Takes limit (.rule .primary) cursor outcome ([opening] ++ read ++ after) count :=
  .within (.advance_deeper _) next takes leaves plain unopened (openings_singleton opens)
    (.inl (by simpa using opens)) (fun _ _ inner => .groupFails next opens free inner) goesOn

theorem count_eq_of_operand
    (takes : Takes limit (.rule level.operand) cursor (.ok expr middle) read count) :
    count = openings read := by
  have sum := takes.count_eq
  rwa [Part.begun_operand, Nat.zero_add] at sum

/-- A part whose reading begins with a move, goes on with an operand that is read completely, and
is then the reading of another part. -/
theorem followed (moves : MovesFreely before move) (ahead : cursor.ahead = before ++ rest)
    (plain : openings before = 0)
    (first : Takes limit (.rule level.operand) (move cursor) (.ok expr middle) read count)
    (second : Takes limit inner middle outcome more others)
    (begun : part.begun = 0) (begunInner : inner.begun = 0)
    (fails : ∀ room stopped,
      Reads limit (.rule level.operand) (move (cursor.allowing room)) (.error .exhausted stopped) →
      Reads limit part (cursor.allowing room) (.error .exhausted stopped))
    (goesOn : ∀ room left next,
      Reads limit (.rule level.operand) (move (cursor.allowing room))
        (.ok expr (middle.allowing left)) →
      Reads limit inner (middle.allowing left) next →
      Reads limit part (cursor.allowing room) next) :
    Takes limit part cursor outcome (before ++ read ++ more) (count + others) where
  passes := ((moves.passes ahead).trans first.passes).trans second.passes
  count_eq := by
    have one := first.count_eq_of_operand
    have two := second.count_eq
    rw [openings_append, openings_append, plain]
    omega
  enough left := by
    rw [Nat.add_assoc]
    exact goesOn _ _ _ (moves.allowing _ _ ▸ first.enough _) (second.enough left)
  short room less := by
    have one := first.count_eq_of_operand
    rcases Nat.lt_or_ge room count with early | late
    · rw [← Nat.zero_add room]
      refine (first.short room early).later (moves.passes ahead) ?_
        (.inr (Part.begun_operand level)) fun stopped reads => ?_
      · rw [plain, begun, Part.begun_operand]
      · rw [Nat.zero_add]
        exact fails room stopped (moves.allowing room _ ▸ reads)
    · obtain ⟨later, rfl⟩ := Nat.exists_eq_add_of_le late
      refine (second.short later (by omega)).later ((moves.passes ahead).trans first.passes) ?_
        (.inr begunInner)
        fun stopped reads => goesOn _ _ _ (moves.allowing _ _ ▸ first.enough later) reads
      rw [openings_append, plain]
      omega

end Takes

end Steps

namespace Reads

variable {limit : Option Int} {part : Part} {cursor : TokenCursor} {outcome : ParseOutcome}

/-- Every free reading begins some number of expressions. The induction is on the free reading,
whose parts all take what they take wherever there is room for it; the readings with too little
room are built on the way. -/
theorem takes (reads : Reads limit part cursor outcome) (unlimited : cursor.allowance = none) :
    ∃ read count, Takes limit part cursor outcome read count := by
  induction reads with
  | start _ ih =>
      obtain ⟨_, _, takes⟩ := ih unlimited
      exact ⟨_, _, .within .id rfl takes (.refl _) rfl rfl rfl (.inl (by simp))
        (fun _ _ inner => .start inner) fun _ _ inner => .start inner⟩
  | noRoom none =>
      rw [unlimited] at none
      cases none
  | expression _ _ ih =>
      obtain ⟨_, _, takes⟩ := ih (by simp [spent, unlimited])
      exact ⟨_, _, takes.begins⟩
  | @firstOperandFails level _ _ _ _ ih =>
      obtain ⟨_, _, takes⟩ := ih unlimited
      exact ⟨_, _, .within .id rfl takes (.refl _) rfl rfl (Part.begun_operand level).symm
        (.inr (Part.begun_operand level)) (fun _ _ inner => .firstOperandFails inner)
        fun _ _ inner => .firstOperandFails inner⟩
  | binary left _ ihLeft ihTail =>
      obtain ⟨read, passes⟩ := left.passes_of_ok
      obtain ⟨_, _, first⟩ := ihLeft unlimited
      obtain ⟨_, _, second⟩ := ihTail (passes.allowance unlimited)
      exact ⟨_, _, .followed .id rfl rfl first second rfl rfl
        (fun _ _ inner => .firstOperandFails inner) fun _ _ _ inner tail => .binary inner tail⟩
  | noOperator avoids =>
      exact ⟨_, _, .of_none (.refl _) rfl rfl fun _ => .noOperator avoids⟩
  | @rightOperandFails level _ _ _ _ _ _ next operator _ ih =>
      obtain ⟨_, _, takes⟩ := ih ((Passes.advance next).allowance unlimited)
      exact ⟨_, _, .within (.advance _) next takes (.refl _) rfl rfl
        (by rw [openings_operator operator, Part.begun_operand]; rfl)
        (.inr (Part.begun_operand level))
        (fun _ _ inner => .rightOperandFails next operator inner)
        fun _ _ inner => .rightOperandFails next operator inner⟩
  | operator next operator right _ ihRight ihTail =>
      have entered := (Passes.advance next).allowance unlimited
      obtain ⟨read, passes⟩ := right.passes_of_ok
      obtain ⟨_, _, first⟩ := ihRight entered
      obtain ⟨_, _, second⟩ := ihTail (passes.allowance entered)
      exact ⟨_, _, .followed (.advance _) next (openings_operator operator) first second rfl rfl
        (fun _ _ inner => .rightOperandFails next operator inner)
        fun _ _ _ inner tail => .operator next operator inner tail⟩
  | signTooDeep next sign full =>
      refine ⟨_, _, .of_none (.advance next) rfl rfl fun _ => ?_⟩
      rw [ParseOutcome.allowing, ← advance_allowing]
      exact .signTooDeep next sign full
  | signedOperandFails next sign free _ ih =>
      obtain ⟨_, _, takes⟩ := ih ((Passes.advance next).allowance unlimited)
      exact ⟨_, _, takes.signed next sign free (.refl _) rfl fun _ _ inner =>
        .signedOperandFails next sign free inner⟩
  | unary next sign free _ ih =>
      obtain ⟨_, _, takes⟩ := ih ((Passes.advance next).allowance unlimited)
      exact ⟨_, _, takes.signed next sign free (.shallower _) rfl fun room left inner =>
        @Reads.unary _ (allowing room _) (allowing left _) _ _ _ next sign free inner⟩
  | primary avoids _ ih =>
      obtain ⟨_, _, takes⟩ := ih unlimited
      exact ⟨_, _, .within .id rfl takes (.refl _) rfl rfl rfl (.inr rfl)
        (fun _ _ inner => .primary avoids inner) fun _ _ inner => .primary avoids inner⟩
  | valueWord next word =>
      refine ⟨_, _, .of_none (.advance next) rfl
        (openings_singleton_of_mem word (by decide)).symm fun _ => ?_⟩
      rw [ParseOutcome.allowing, ← advance_allowing]
      exact .valueWord next word
  | constant next carries value =>
      refine ⟨_, _, .of_none (.advance next) rfl (openings_constant carries).symm fun _ => ?_⟩
      rw [ParseOutcome.allowing, ← advance_allowing]
      exact .constant next carries value
  | noValue next carries value =>
      refine ⟨_, _, .of_none (.advance next) rfl (openings_constant carries).symm fun _ => ?_⟩
      rw [ParseOutcome.allowing, ← advance_allowing]
      exact .noValue next carries value
  | groupTooDeep next opens full =>
      refine ⟨_, _, .of_none (.advance next) rfl rfl fun _ => ?_⟩
      rw [ParseOutcome.allowing, ← advance_allowing]
      exact .groupTooDeep next opens full
  | groupFails next opens free _ ih =>
      obtain ⟨_, _, takes⟩ := ih ((Passes.advance next).allowance unlimited)
      exact ⟨_, _, takes.grouped next opens free (.refl _) rfl rfl fun _ _ inner =>
        .groupFails next opens free inner⟩
  | notClosed next opens free _ avoids ih =>
      obtain ⟨_, _, takes⟩ := ih ((Passes.advance next).allowance unlimited)
      exact ⟨_, _, takes.grouped next opens free (.shallower _) rfl rfl fun room left inner =>
        @Reads.notClosed _ (allowing room _) (allowing left _) _ _ _ next opens free inner avoids⟩
  | grouping next opens free _ closes kind ih =>
      obtain ⟨_, _, takes⟩ := ih ((Passes.advance next).allowance unlimited)
      refine ⟨_, _, takes.grouped next opens free ((Passes.shallower _).trans (.advance closes))
        (openings_singleton_of_ne (by simp [kind])) rfl fun room left inner => ?_⟩
      rw [ParseOutcome.allowing, ← advance_allowing]
      exact @Reads.grouping _ (allowing room _) (allowing left _) _ _ _ _ _ next opens free inner
        closes kind
  | noExpression avoids =>
      exact ⟨_, _, .of_none (.refl _) rfl rfl fun _ => .noExpression avoids⟩

end Reads

/-! ## Rows for which the room runs out -/

/-- The token of a row that comes right after an opening parenthesis, with the number of this
parenthesis among all of them. The first token of a row comes after none. -/
def ComesAfterOpening (tokens : List Token) (token : Token) : Nat → Prop
  | 0 => tokens.head? = some token
  | count + 1 => ∃ before opening after, tokens = before ++ opening :: token :: after ∧
      opening.kind = .leftParen ∧ openings before = count

/-- What is passed up to a parenthesis, or nothing, is followed by the token that comes after as
many parentheses as were passed. -/
theorem comesAfterOpening {front after : List Token} {token : Token}
    (final : ∀ last ∈ front.getLast?, last.kind = .leftParen) :
    ComesAfterOpening (front ++ token :: after) token (openings front) := by
  rcases List.eq_nil_or_concat front with rfl | ⟨before, opening, rfl⟩
  · rfl
  · rw [List.concat_eq_append] at final ⊢
    have opens : opening.kind = .leftParen := final opening (by simp)
    rw [openings_append, openings_singleton opens]
    exact ⟨before, opening, after, by simp, opens, rfl⟩

/-- The room that is left is not reported. -/
theorem ParseOutcome.report_allowing (left : Nat) (outcome : ParseOutcome) :
    (outcome.allowing left).report = outcome.report := by
  rcases outcome with _ | ⟨_ | _ | _, _⟩ <;> rfl

open ParseM

/-- The token ahead follows what has been passed since the beginning of a row. -/
theorem TokenCursor.IsStartOf.exists_eq_append_peek {tokens front : List Token}
    {start stopped : TokenCursor} (isStart : IsStartOf tokens start)
    (ahead : start.ahead = front ++ stopped.ahead) (stop : stopped.stop = start.stop) :
    ∃ after, tokens = front ++ stopped.peek :: after := by
  obtain ⟨after, whole⟩ := isStart.splits
  rw [whole, ahead, ← stop, List.append_assoc, peek]
  cases stopped.ahead with
  | nil => exact ⟨after, rfl⟩
  | cons token rest => exact ⟨rest ++ stopped.stop :: after, rfl⟩

/-- The reading of a row begins one expression, and one more for each parenthesis that it passes
and for which there is a level left. If there is room for so many expressions nothing changes,
and what is left is the room for the others. If there is less room, one problem is reported, and
its token is the one that comes after as many opening parentheses as there was room for. -/
theorem parseWithin_runs_out {tokens : List Token} (ends : EndsInput tokens) :
    ∃ start, ofTokens? tokens = some start ∧
      let ordinary : ParseOutcome := (readRule (some maxDepth) .start).run start
      ∃ calls, calls + ordinary.unopened = 1 + openings ordinary.cursor.passed ∧
        (∀ left, (readRule (some maxDepth) .start).run (start.allowing (calls + left)) =
          ordinary.allowing left) ∧
        (∀ room, calls ≤ room → parseWithin (some room) tokens = parse tokens) ∧
        ∀ room < calls, ∃ token, ComesAfterOpening tokens token room ∧
          parseWithin (some room) tokens = .ok (.error (.expressionTooDeep token)) ∧
          Diagnostic.ofSyntaxError (.expressionTooDeep token) =
            ⟨token.line, if token.kind = .eof then " at end" else " at '" ++ token.lexeme ++ "'",
              "Expression nested too deeply."⟩ := by
  obtain ⟨last, final, isEnd⟩ := ends
  obtain ⟨start, opened⟩ := exists_ofTokens? final isEnd
  have isStart := isStartOf_of_ofTokens? opened
  refine ⟨start, opened, ?_⟩
  intro ordinary
  have reads := (run_readRule_eq_iff isStart.ends).mp (rfl : _ = ordinary)
  obtain ⟨read, calls, takes⟩ := reads.takes isStart.unlimited
  have computed {room : Nat} {outcome : ParseOutcome}
      (runs : Reads (some maxDepth) (.rule .start) (start.allowing room) outcome) :
      (readRule (some maxDepth) .start).run (start.allowing room) = outcome :=
    (run_readRule_eq_iff (by exact isStart.ends)).mpr runs
  refine ⟨calls, ?_, fun left => computed (takes.enough left), fun room ample => ?_,
    fun room less => ?_⟩
  · have passed : ordinary.cursor.passed = read.reverse := by
      rw [takes.passes.passed, isStart.passed, List.append_nil]
    rw [passed, openings, List.countP_reverse]
    exact takes.count_eq
  · obtain ⟨left, rfl⟩ := Nat.exists_eq_add_of_le ample
    calc
      parseWithin (some (calls + left)) tokens = (ordinary.allowing left).report :=
        (parseWithin_eq_report opened _).trans (congrArg _ (computed (takes.enough left)))
      _ = ordinary.report := ordinary.report_allowing left
      _ = parse tokens := (parse_eq_report opened).symm
  · obtain ⟨front, stopped, runs, passes, sum, final⟩ := takes.short room less
    obtain ⟨after, whole⟩ := isStart.exists_eq_append_peek passes.ahead passes.stop
    have passed : openings front = room := Nat.succ.inj sum
    refine ⟨stopped.peek, ?_, ?_, rfl⟩
    · rw [whole, ← passed]
      exact comesAfterOpening final
    · exact (parseWithin_eq_report opened _).trans (congrArg _ (computed runs))

/-- There is room for the first of two groups side by side, and none for what is in the second. -/
theorem parseWithin_runs_out_second_group :
    let tokens : List Token :=
      [⟨.leftParen, "(", none, 1⟩, ⟨.kwNil, "nil", none, 1⟩, ⟨.rightParen, ")", none, 1⟩,
        ⟨.equalEqual, "==", none, 1⟩, ⟨.leftParen, "(", none, 2⟩, ⟨.kwTrue, "true", none, 2⟩,
        ⟨.rightParen, ")", none, 2⟩, ⟨.eof, "", none, 2⟩]
    let token : Token := ⟨.kwTrue, "true", none, 2⟩
    EndsInput tokens ∧ parseWithin (some 3) tokens = parse tokens ∧
      parseWithin (some 2) tokens = .ok (.error (.expressionTooDeep token)) ∧
      ComesAfterOpening tokens token 2 := by
  intro tokens token
  have ends : EndsInput tokens := ⟨_, rfl, rfl⟩
  have begun : ofTokens? tokens =
      some ⟨[], tokens.take 7, ⟨.eof, "", none, 2⟩, ⟨.eof, "", none, 2⟩, 0, none⟩ := rfl
  obtain ⟨start, opened, calls, sum, -, same, short⟩ := parseWithin_runs_out ends
  rw [begun] at opened
  cases opened
  obtain rfl : calls = 3 := sum
  obtain ⟨found, comes, reported, -⟩ := short 2 (by decide)
  have computed : parseWithin (some 2) tokens = .ok (.error (.expressionTooDeep token)) := rfl
  cases computed.symm.trans reported
  exact ⟨ends, same 3 (Nat.le_refl _), computed, comes⟩

end LoxFront
