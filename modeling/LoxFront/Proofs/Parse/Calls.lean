/-
# Any row of calls

A caller may make the calls on a cursor in any order, and go on after a failure. Each call only
passes tokens that are ahead, and none of these ends the input, so the cursor always is a place
in its row and never goes back. A level is only opened within the limit, by a call as well as
inside a reading that fails. Calls that look at tokens, and those that do not find what they are
to pass or to open, leave the cursor as it is.
-/

import LoxFront.Proofs.Parse.Boundaries
import LoxFront.Proofs.Parse.Limit

namespace LoxFront

open TokenCursor

namespace TokenCursor

variable {tokens : List Token} {start cursor next : TokenCursor} {read : List Token}

theorem exists_passes_advance (cursor : TokenCursor) :
    ∃ read, Passes read cursor cursor.advance := by
  cases ahead : cursor.ahead with
  | nil => exact ⟨[], by simpa [advance, ahead] using Passes.refl cursor⟩
  | cons token rest => exact ⟨[token], .advance ahead⟩

/-- A cursor has been reached from the beginning of a row by passing tokens. -/
def IsIn (tokens : List Token) (cursor : TokenCursor) : Prop :=
  ∃ start read, ofTokens? tokens = some start ∧ Passes read start cursor

namespace IsIn

theorem of_ofTokens? (opened : ofTokens? tokens = some start) : IsIn tokens start :=
  ⟨start, [], opened, .refl _⟩

theorem of_passes (isIn : IsIn tokens cursor) (passes : Passes read cursor next) :
    IsIn tokens next := by
  obtain ⟨start, before, opened, reached⟩ := isIn
  exact ⟨start, before ++ read, opened, reached.trans passes⟩

theorem place (isIn : IsIn tokens cursor) : IsPlaceIn tokens cursor := by
  obtain ⟨start, read, opened, passes⟩ := isIn
  exact (isStartOf_of_ofTokens? opened).isPlaceIn.of_passes passes

theorem unlimited (isIn : IsIn tokens cursor) : cursor.allowance = none := by
  obtain ⟨start, read, opened, passes⟩ := isIn
  exact passes.allowance (isStartOf_of_ofTokens? opened).unlimited

/-- The last token of the row is kept, and ends the input. -/
theorem last (isIn : IsIn tokens cursor) :
    tokens.getLast? = some cursor.last ∧ cursor.last.kind = .eof := by
  obtain ⟨start, read, opened, passes⟩ := isIn
  rw [passes.last]
  unfold ofTokens? at opened
  split at opened
  · next final =>
    split at opened
    · next isEnd =>
      cases opened
      exact ⟨final, isEnd⟩
    · cases opened
  · cases opened

/-- The tokens ahead are those up to the first one that ends the input. -/
theorem position_add_length (isIn : IsIn tokens cursor) :
    cursor.position + cursor.ahead.length = firstEnd tokens := by
  obtain ⟨start, read, opened, passes⟩ := isIn
  have isStart := isStartOf_of_ofTokens? opened
  have beginning : start.position = 0 := congrArg List.length isStart.passed
  rw [← isStart.length_ahead, passes.ahead, List.length_append, position_eq_of_passes passes,
    beginning, Nat.zero_add]

end IsIn

end TokenCursor

namespace ParseM

variable {tokens : List Token} {cursor : TokenCursor}

theorem run_perform_enter (cursor : TokenCursor) :
    (perform .enter).run cursor =
      if maxDepth ≤ cursor.depth then
        .error (.problem (.expressionTooDeep cursor.peek)) cursor
      else .ok .nothing cursor.deeper := by
  rw [perform, EStateM.run_bind, EStateM.run_get]
  dsimp only
  rw [EStateM.run_bind]
  by_cases full : maxDepth ≤ cursor.depth
  · rw [run_enter_of_full (by simpa [IsFull] using full), if_pos full]
  · rw [run_enter_of_not_full (by simpa [IsFull] using full), if_neg full]
    rfl

theorem run_perform_accept (kinds : List TokenKind) (cursor : TokenCursor) :
    (perform (.accept kinds)).run cursor =
      if kinds.any cursor.check then .ok (.flag true) cursor.advance
      else .ok (.flag false) cursor := by
  rw [perform, EStateM.run_bind, run_accept]
  by_cases found : kinds.any cursor.check = true
  · rw [if_pos found, if_pos found]
    rfl
  · rw [if_neg found, if_neg found]
    rfl

theorem run_perform_consume (kind : TokenKind) (message : String) (cursor : TokenCursor) :
    (perform (.consume kind message)).run cursor =
      if cursor.check kind then .ok (.token cursor.advance.previous) cursor.advance
      else .error (.problem (.expectedToken cursor.peek kind message)) cursor := by
  rw [perform, EStateM.run_bind, run_consume]
  by_cases found : cursor.check kind = true
  · rw [if_pos found, if_pos found]
    rfl
  · rw [if_neg found, if_neg found]

/-- A call that fails to pass or open what it is to, or only looks at tokens. -/
def LeavesAlone : ParserCall → EStateM.Result ParseFailure TokenCursor ParserReply → Prop
  | .peek, _ | .previous, _ | .isAtEnd, _ | .check _, _ => True
  | .accept _, .ok (.flag false) _ | .consume _ _, .error _ _ | .enter, .error _ _ => True
  | _, _ => False

theorem after_of_leavesAlone {call : ParserCall}
    (alone : LeavesAlone call ((perform call).run cursor)) :
    after (perform call) cursor = cursor := by
  cases call with
  | peek | previous | isAtEnd | check => rfl
  | accept kinds =>
      rw [run_perform_accept] at alone
      rw [after, run_perform_accept]
      by_cases found : kinds.any cursor.check = true
      · rw [if_pos found] at alone
        exact alone.elim
      · rw [if_neg found]
  | consume kind message =>
      rw [run_perform_consume] at alone
      rw [after, run_perform_consume]
      by_cases found : cursor.check kind = true
      · rw [if_pos found] at alone
        exact alone.elim
      · rw [if_neg found]
  | enter =>
      rw [run_perform_enter] at alone
      rw [after, run_perform_enter]
      by_cases full : maxDepth ≤ cursor.depth
      · rw [if_pos full]
      · rw [if_neg full] at alone
        exact alone.elim
  | _ => exact alone.elim

/-- What a call can do to the cursor. -/
inductive Step (cursor : TokenCursor) : TokenCursor → Prop where
  | stay : Step cursor cursor
  | advance : Step cursor cursor.advance
  | enter : cursor.depth < maxDepth → Step cursor cursor.deeper
  | leave : Step cursor cursor.shallower
  | synchronize : Step cursor cursor.synchronize
  | read {wanted : Rule} {outcome : ParseOutcome} :
    Reads (some maxDepth) (.rule wanted) cursor outcome → Step cursor outcome.cursor

theorem step_after (ends : cursor.stop.kind = .eof) (call : ParserCall) :
    Step cursor (after (perform call) cursor) := by
  cases call with
  | read wanted =>
      rw [after_read]
      exact .read ((run_readRule_eq_iff ends).mp rfl)
  | synchronize => exact .synchronize
  | peek | previous | isAtEnd | check => exact .stay
  | advance => exact .advance
  | leave => exact .leave
  | enter =>
      rw [after, run_perform_enter]
      by_cases full : maxDepth ≤ cursor.depth
      · rw [if_pos full]
        exact .stay
      · rw [if_neg full]
        exact .enter (Int.not_le.mp full)
  | accept kinds =>
      rw [after, run_perform_accept]
      by_cases found : kinds.any cursor.check = true
      · rw [if_pos found]
        exact .advance
      · rw [if_neg found]
        exact .stay
  | consume kind message =>
      rw [after, run_perform_consume]
      by_cases found : cursor.check kind = true
      · rw [if_pos found]
        exact .advance
      · rw [if_neg found]
        exact .stay

namespace Step

variable {next : TokenCursor}

/-- A call passes tokens, if it moves the cursor at all. -/
theorem exists_passes (step : Step cursor next) : ∃ read, Passes read cursor next := by
  cases step with
  | stay => exact ⟨[], .refl _⟩
  | advance => exact exists_passes_advance cursor
  | enter => exact ⟨[], .deeper _⟩
  | leave => exact ⟨[], .shallower _⟩
  | synchronize =>
      obtain ⟨read, passes, -⟩ := exists_passes_synchronize cursor
      exact ⟨read, passes⟩
  | read reads => exact reads.passes

/-- A call opens no level over the limit. -/
theorem depth_le (step : Step cursor next) (fits : cursor.depth ≤ maxDepth) :
    next.depth ≤ maxDepth := by
  cases step with
  | stay => exact fits
  | advance => rwa [depth_advance]
  | enter room => exact room
  | leave =>
      rw [depth_shallower]
      omega
  | synchronize => rwa [depth_synchronize]
  | read reads => exact reads.depth_le (by simpa using fits) maxDepth rfl

end Step

/-- What a caller finds after any row of calls. -/
structure IsReached (tokens : List Token) (cursor : TokenCursor) : Prop where
  isIn : IsIn tokens cursor
  fits : cursor.depth ≤ maxDepth

namespace IsReached

theorem of_ofTokens? {start : TokenCursor} (opened : ofTokens? tokens = some start) :
    IsReached tokens start where
  isIn := .of_ofTokens? opened
  fits := by
    rw [(isStartOf_of_ofTokens? opened).depth]
    decide

theorem step {next : TokenCursor} (reached : IsReached tokens cursor) (step : Step cursor next) :
    IsReached tokens next := by
  obtain ⟨read, passes⟩ := step.exists_passes
  exact ⟨reached.isIn.of_passes passes, step.depth_le reached.fits⟩

theorem afterAll (reached : IsReached tokens cursor) (calls : List ParserCall) :
    IsReached tokens (afterAll calls cursor) := by
  induction calls generalizing cursor with
  | nil => exact reached
  | cons call calls ih => exact ih (reached.step (step_after reached.isIn.place.ends call))

end IsReached

section EndOfInput

variable (isIn : IsIn tokens cursor)

include isIn

/-- The end of the input is never found, wherever it is asked for. -/
theorem not_check_eof : cursor.check .eof = false := by
  cases ahead : cursor.ahead with
  | nil => simp [check, isAtEnd, ahead]
  | cons token rest =>
      have other := isIn.place.ahead_ne_eof token (by simp [ahead])
      simp [check, isAtEnd, peek, ahead, other]

theorem run_perform_check_eof :
    (perform (.check .eof)).run cursor = .ok (.flag false) cursor := by
  rw [← not_check_eof isIn]
  rfl

/-- It makes no difference whether the end of the input is among the kinds to be passed. -/
theorem run_perform_accept_filter (kinds : List TokenKind) :
    (perform (.accept kinds)).run cursor =
      (perform (.accept (kinds.filter (· != .eof)))).run cursor := by
  have same : (kinds.filter (· != .eof)).any cursor.check = kinds.any cursor.check := by
    rw [List.any_filter]
    congr 1
    funext kind
    by_cases isEnd : kind = .eof
    · rw [isEnd, not_check_eof isIn, Bool.and_false]
    · rw [bne_iff_ne.mpr isEnd, Bool.true_and]
  rw [run_perform_accept, run_perform_accept, same]

theorem run_perform_consume_eof (message : String) :
    (perform (.consume .eof message)).run cursor =
      .error (.problem (.expectedToken cursor.peek .eof message)) cursor := by
  rw [run_perform_consume, not_check_eof isIn]
  rfl

end EndOfInput

/-- The token at which a level is opened makes no difference to the cursor. -/
theorem after_enter (token : Token) (cursor : TokenCursor) :
    after (enter (some maxDepth) token) cursor = after (perform .enter) cursor := by
  rw [after, after, run_perform_enter, run_enter]
  by_cases full : maxDepth ≤ cursor.depth
  · rw [if_pos full, if_pos (by simpa using full)]
  · rw [if_neg full, if_neg (by simpa using full)]
    rfl

end ParseM

end LoxFront
