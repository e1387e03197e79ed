/-
# Going on after an error

A caller who goes on after an error moves the cursor to the next boundary of statements and
reads again from there. The levels that were open when the reading failed are not closed by
this. They stay in the depth, and a later reading has so many levels fewer to open.

That is all that distinguishes it from a reading of what is left of the row from a cursor of
its own. It does what that reading does within a limit that is lower by the levels left open.
So the two agree if no level was left open, or if the levels that are opened later are few
enough. Otherwise the later reading stops at the first level too many, where the other one
goes on. That the other one does not stop at the same token for its own limit is seen from the
frontier: the tokens up to a level too many fix the depth there.
-/

import Mathlib.Algebra.GroupWithZero.Nat
import LoxFront.Proofs.Parse.Calls
import LoxFront.Proofs.Parse.Elsewhere
import LoxFront.Proofs.Parse.FirstError

namespace LoxFront

open TokenCursor TokenKind

/-- At a place of a row, the same tokens are ahead as at the beginning of what is left of it. -/
theorem TokenCursor.IsPlaceIn.ahead_eq_of_isStartOf {tokens : List Token}
    {cursor fresh : TokenCursor} (place : IsPlaceIn tokens cursor)
    (isStart : IsStartOf (tokens.drop cursor.position) fresh) :
    fresh.ahead = cursor.ahead ∧ fresh.stop = cursor.stop := by
  have own : IsStartOf (tokens.drop cursor.position)
      { cursor with passed := [], depth := 0, allowance := none } :=
    ⟨place.exists_drop_eq, place.ends, place.ahead_ne_eof, rfl, rfl, rfl⟩
  obtain ⟨after, left⟩ := place.exists_drop_eq
  obtain ⟨other, whole⟩ := isStart.splits
  have length := isStart.length_ahead.trans own.length_ahead.symm
  obtain ⟨ahead, rest⟩ := List.append_inj (whole.symm.trans left) length
  exact ⟨ahead, (List.cons.inj rest).1⟩

/-- A reading from a cursor of its own that stops at a level too many stops at the depth of the
limit, which the tokens up to there fix. -/
theorem Reads.exists_frontier_of_tooDeep {bound : Int} {cursor stopped : TokenCursor}
    {token : Token} (ends : cursor.stop.kind = .eof) (depth : cursor.depth = 0)
    (fits : 0 ≤ bound)
    (reads : Reads (some bound) (.rule .start) cursor
      (.error (.problem (.expressionTooDeep token)) stopped)) :
    ∃ (read : List Token) (there : Frontier), read <+: cursor.ahead ∧
      stopped.position = cursor.position + read.length + 1 ∧
      Frontier.run none .start (read.map Token.kind) = some there ∧
      (there.depth : Int) = bound := by
  have low : ∀ limit ∈ some bound, cursor.depth ≤ limit := by
    rintro _ ⟨⟩
    rwa [depth]
  have stands : StandsAt (some bound) 0 [] cursor := ⟨ends, low, depth⟩
  obtain ⟨read, there, last, passes, steps, depthLast, blames, passed⟩ :=
    reads.stopsAtFrontier stands rfl
  obtain ⟨rfl, rest, ahead⟩ := passed token rfl
  refine ⟨read, there, ⟨_, passes.ahead.symm⟩, ?_, Frontier.run_none_of_run steps, ?_⟩
  · rw [position_advance ahead, position_eq_of_passes passes]
  · have atMost : last.advance.depth ≤ bound := reads.depth_le low bound rfl
    rw [depth_advance, depthLast] at atMost
    cases blames with
    | tooDeep opens full =>
        have atLeast := of_decide_eq_true full
        exact Int.le_antisymm atMost atLeast

/-- Two readings that begin together and stop at the same level too many are within the same
limit. -/
theorem Reads.eq_of_tooDeep {bound other : Int} {cursor first second : TokenCursor}
    {token last : Token} (ends : cursor.stop.kind = .eof) (depth : cursor.depth = 0)
    (fits : 0 ≤ bound) (fitsOther : 0 ≤ other)
    (reads : Reads (some bound) (.rule .start) cursor
      (.error (.problem (.expressionTooDeep token)) first))
    (readsOther : Reads (some other) (.rule .start) cursor
      (.error (.problem (.expressionTooDeep last)) second))
    (same : first.position = second.position) : bound = other := by
  obtain ⟨read, there, front, position, steps, rfl⟩ :=
    reads.exists_frontier_of_tooDeep ends depth fits
  obtain ⟨more, beyond, frontMore, positionMore, stepsMore, rfl⟩ :=
    readsOther.exists_frontier_of_tooDeep ends depth fitsOther
  have equallyMany : read.length = more.length := by omega
  obtain rfl : read = more :=
    (List.prefix_of_prefix_length_le front frontMore (Nat.le_of_eq equallyMany)).eq_of_length
      equallyMany
  rw [steps, Option.some.injEq] at stepsMore
  rw [stepsMore]

namespace ParseM

/-- Read an expression, and move on to the next boundary of statements if this fails. -/
def resume (cursor : TokenCursor) : TokenCursor :=
  match (readRule (some maxDepth) .start).run cursor with
  | .ok _ next => next
  | .error _ stopped => stopped.synchronize

/-- The cursor after some rounds. -/
def resumed (start : TokenCursor) : Nat → TokenCursor
  | 0 => start
  | rounds + 1 => resume (resumed start rounds)

/-- The number of levels that the reading of an expression leaves open. -/
def abandoned (cursor : TokenCursor) : Nat :=
  (LevelChange.openLevels (RecordM.readRule (some maxDepth) .start cursor).2).length

/-- A round adds the levels that its reading leaves open to the depth. -/
theorem depth_resume (cursor : TokenCursor) :
    (resume cursor).depth = cursor.depth + abandoned cursor := by
  obtain ⟨same, account⟩ :=
    (Accounts.isCompatible (some maxDepth)).readRule Rule.start cursor
  rw [resume, abandoned, ← same]
  cases found : (RecordM.readRule (some maxDepth) .start cursor).1 with
  | ok expr next =>
      obtain ⟨closed, depth⟩ := account.of_eq_ok found
      simpa [closed] using depth
  | error failure stopped =>
      rw [← (account.of_eq_error found).1]
      exact depth_synchronize stopped

namespace IsReached

variable {tokens : List Token} {cursor start fresh : TokenCursor}

theorem readable (reached : IsReached tokens cursor)
    (literals : ∀ token ∈ tokens, token.kind.carriesLiteral = true → token.literal ≠ none) :
    Readable cursor where
  unlimited := reached.isIn.unlimited
  literals := fun token member => literals token (by
    obtain ⟨after, whole⟩ := reached.isIn.place.splits
    simp [whole, member])

theorem resume (reached : IsReached tokens cursor) : IsReached tokens (resume cursor) := by
  have ends := reached.isIn.place.ends
  rw [ParseM.resume]
  cases found : (readRule (some maxDepth) .start).run cursor with
  | ok expr next => exact reached.step (.read ((run_readRule_eq_iff ends).mp found))
  | error failure stopped =>
      exact (reached.step (.read ((run_readRule_eq_iff ends).mp found))).step .synchronize

/-- From the beginning, the depth after some rounds is the number of all levels left open. -/
theorem resumed (reached : IsReached tokens start) (depth : start.depth = 0) (rounds : Nat) :
    IsReached tokens (resumed start rounds) ∧
      (ParseM.resumed start rounds).depth =
        ((List.range rounds).map fun round => abandoned (ParseM.resumed start round)).sum := by
  induction rounds with
  | zero => exact ⟨reached, depth⟩
  | succ rounds ih =>
      obtain ⟨again, counts⟩ := ih
      refine ⟨again.resume, ?_⟩
      rw [ParseM.resumed, depth_resume, counts, List.range_succ, List.map_append, List.sum_append]
      simp

/-- What is left of a row is read as from a cursor of its own, within a limit that is lower by
the depth. -/
theorem run_eq_lowered (reached : IsReached tokens cursor)
    (opened : ofTokens? (tokens.drop cursor.position) = some fresh) :
    let again : ParseOutcome := (readRule (some maxDepth) .start).run cursor
    let lowered : ParseOutcome := (readRule (some (maxDepth - cursor.depth)) .start).run fresh
    again.result = lowered.result ∧
      again.cursor.position = cursor.position + lowered.cursor.position ∧
      again.cursor.depth = cursor.depth + lowered.cursor.depth := by
  intro again lowered
  have isStart := isStartOf_of_ofTokens? opened
  obtain ⟨sameAhead, sameStop⟩ := reached.isIn.place.ahead_eq_of_isStartOf isStart
  have reads := (run_readRule_eq_iff isStart.ends).mp (rfl : _ = lowered)
  obtain ⟨read, passes, elsewhere⟩ := reads.recurs isStart.unlimited cursor.depth
  obtain ⟨next, readsAgain, passesNext, depth⟩ := elsewhere cursor
    ⟨⟨_, sameAhead ▸ passes.ahead, rfl⟩, by rw [isStart.depth, Int.zero_add],
      reached.isIn.unlimited⟩
  have same : again = lowered.endingAt next := by
    refine (run_readRule_eq_iff reached.isIn.place.ends).mpr ?_
    have limit : (some (maxDepth - cursor.depth)).map (· + cursor.depth) = some maxDepth := by
      simp
    exact limit ▸ readsAgain
  have sameNext : next.peek = lowered.cursor.peek := by
    rw [peek, peek, passesNext.ahead_eq (sameAhead ▸ passes.ahead), passesNext.stop, ← sameStop,
      passes.stop]
  have beginning : fresh.position = 0 := congrArg List.length isStart.passed
  rw [same, ParseOutcome.cursor_endingAt, position_eq_of_passes passesNext,
    position_eq_of_passes passes, beginning, Nat.zero_add, depth, Int.add_comm]
  exact ⟨reads.result_endingAt isStart.unlimited sameNext, rfl, rfl⟩

/-- What is left of a row is read as from a cursor of its own, to the same place, exactly if no
level is open or if those that are opened later are within the limit together with the open
ones. -/
theorem reads_as_fresh_iff (reached : IsReached tokens cursor) (nonneg : 0 ≤ cursor.depth)
    (opened : ofTokens? (tokens.drop cursor.position) = some fresh) :
    let again : ParseOutcome := (readRule (some maxDepth) .start).run cursor
    let anew : ParseOutcome := (readRule (some maxDepth) .start).run fresh
    (again.result = anew.result ∧
        again.cursor.position = cursor.position + anew.cursor.position) ↔
      cursor.depth = 0 ∨ ∀ change ∈ (RecordM.readRule none .start fresh).2,
        cursor.depth + change.cursor.depth ≤ maxDepth := by
  intro again anew
  have isStart := isStartOf_of_ofTokens? opened
  have fits := reached.fits
  obtain ⟨result, position, -⟩ := reached.run_eq_lowered opened
  have isHeld (bound : Int) (room : 0 ≤ bound) :=
    (Follows.isCompatible bound).readRule Rule.start fresh (isStart.depth ▸ room)
  rw [show again.result = _ from result, show again.cursor.position = _ from position]
  constructor
  · rintro ⟨sameResult, samePosition⟩
    by_cases none : cursor.depth = 0
    · exact .inl none
    · refine .inr fun change member => Int.not_lt.mp fun deep => ?_
      obtain ⟨before, token, stage, after, -, -, -, stops⟩ :=
        (isHeld (maxDepth - cursor.depth) (by omega)).exists_opened ⟨change, member, by omega⟩
      rw [stops] at sameResult samePosition
      have readsAnew := (run_readRule_eq_iff isStart.ends).mp (rfl : _ = anew)
      generalize anew = outcome at sameResult samePosition readsAnew
      cases outcome with
      | ok expr next => cases sameResult
      | error failure stopped =>
          cases sameResult
          have equal := Reads.eq_of_tooDeep isStart.ends isStart.depth (by omega) (by decide)
            ((run_readRule_eq_iff isStart.ends).mp stops) readsAnew
            (Nat.add_left_cancel samePosition)
          omega
  · intro enough
    have same : (readRule (some (maxDepth - cursor.depth)) .start).run fresh = anew := by
      rcases enough with none | low
      · rw [none, Int.sub_zero]
      · have lowered := (isHeld (maxDepth - cursor.depth) (by omega)).eq_of_low
          fun change member => by
            have within := low change member
            omega
        have free := (isHeld maxDepth (by decide)).eq_of_low fun change member => by
          have within := low change member
          omega
        exact lowered.trans free.symm
    rw [same]
    exact ⟨rfl, rfl⟩

end IsReached

/-- After any number of rounds, each of which reads an expression and moves on to the next
boundary if this fails, the depth is the number of levels that the failed readings have left
open. What is left of the row is read as from a cursor of its own within a limit that is lower
by so much. This is the reading within the full limit exactly if no level was left open, or if
all levels opened from there on are within the limit together with these. -/
theorem resumed_reads_as_fresh_iff {tokens : List Token} (ends : EndsInput tokens)
    (literals : ∀ token ∈ tokens, token.kind.carriesLiteral = true → token.literal ≠ none)
    (rounds : Nat) :
    ∃ start fresh, ofTokens? tokens = some start ∧
      ofTokens? (tokens.drop (resumed start rounds).position) = some fresh ∧
      let later := resumed start rounds
      let again : ParseOutcome := (readRule (some maxDepth) .start).run later
      let anew : ParseOutcome := (readRule (some maxDepth) .start).run fresh
      let lowered : ParseOutcome := (readRule (some (maxDepth - later.depth)) .start).run fresh
      later.depth = ((List.range rounds).map fun round => abandoned (resumed start round)).sum ∧
      later.depth ≤ maxDepth ∧
      (∀ failure, again.result = .error failure → ∃ error, failure = .problem error) ∧
      (again.result = lowered.result ∧
        again.cursor.position = later.position + lowered.cursor.position ∧
        again.cursor.depth = later.depth + lowered.cursor.depth) ∧
      ((again.result = anew.result ∧
          again.cursor.position = later.position + anew.cursor.position) ↔
        later.depth = 0 ∨ ∀ change ∈ (RecordM.readRule none .start fresh).2,
          later.depth + change.cursor.depth ≤ maxDepth) := by
  obtain ⟨last, final, isEnd⟩ := ends
  obtain ⟨start, opened⟩ := exists_ofTokens? final isEnd
  have isStart := isStartOf_of_ofTokens? opened
  obtain ⟨reached, counts⟩ :=
    IsReached.resumed (.of_ofTokens? opened) isStart.depth rounds
  have inside : (resumed start rounds).position < tokens.length :=
    (List.getElem?_eq_some_iff.mp reached.isIn.place.getElem?_position).1
  have finalLeft : (tokens.drop (resumed start rounds).position).getLast? = some last := by
    rw [List.getLast?_drop, if_neg (Nat.not_le_of_lt inside), final]
  obtain ⟨fresh, openedFresh⟩ := exists_ofTokens? finalLeft isEnd
  exact ⟨start, fresh, opened, openedFresh, counts, reached.fits,
    fun _ => Reads.exists_problem_of_result ((run_readRule_eq_iff reached.isIn.place.ends).mp rfl)
      (reached.readable literals),
    reached.run_eq_lowered openedFresh,
    reached.reads_as_fresh_iff (counts ▸ Int.natCast_nonneg _) openedFresh⟩

/-- One level is left open, and there is room for the next one. -/
theorem resumed_reads_as_fresh_after_group :
    let tokens : List Token :=
      [⟨.leftParen, "(", none, 1⟩, ⟨.semicolon, ";", none, 1⟩, ⟨.minus, "-", none, 2⟩,
        ⟨.kwNil, "nil", none, 2⟩, ⟨.eof, "", none, 2⟩]
    EndsInput tokens ∧
      (∀ token ∈ tokens, token.kind.carriesLiteral = true → token.literal ≠ none) ∧
      ∃ start fresh, ofTokens? tokens = some start ∧
        ofTokens? (tokens.drop (resumed start 1).position) = some fresh ∧
        (resumed start 1).depth = 1 ∧
        ParseOutcome.result ((readRule (some maxDepth) .start).run (resumed start 1)) =
          ParseOutcome.result ((readRule (some maxDepth) .start).run fresh) := by
  intro tokens
  have ends : EndsInput tokens := ⟨_, rfl, rfl⟩
  have literals : ∀ token ∈ tokens, token.kind.carriesLiteral = true → token.literal ≠ none := by
    decide
  obtain ⟨start, fresh, opened, openedFresh, -, -, -, -, same⟩ :=
    resumed_reads_as_fresh_iff ends literals 1
  cases opened
  cases openedFresh
  exact ⟨ends, literals, _, _, rfl, rfl, rfl, (same.mpr (.inr (by decide))).1⟩

/-- Signs up to the limit are left open by the first reading, and the next one fails at its own
first sign. What is left is a tree for a cursor of its own. -/
theorem resumed_stops_at_first_sign :
    let sign : Token := ⟨.minus, "-", none, 1⟩
    let word : Token := ⟨.kwNil, "nil", none, 1⟩
    let tokens : List Token :=
      List.replicate 64 sign ++ [⟨.semicolon, ";", none, 1⟩, sign, word, ⟨.eof, "", none, 1⟩]
    EndsInput tokens ∧
      (∀ token ∈ tokens, token.kind.carriesLiteral = true → token.literal ≠ none) ∧
      ∃ start fresh, ofTokens? tokens = some start ∧
        ofTokens? (tokens.drop (resumed start 1).position) = some fresh ∧
        (resumed start 1).depth = 64 ∧
        ParseOutcome.result ((readRule (some maxDepth) .start).run (resumed start 1)) =
          .error (.problem (.expressionTooDeep sign)) ∧
        ParseOutcome.result ((readRule (some maxDepth) .start).run fresh) =
          .ok (.unary sign (.literal (some (.identifier "nil")))) := by
  intro sign word tokens
  let stop : Token := ⟨.eof, "", none, 1⟩
  let start : TokenCursor := { ahead := tokens.take 67, stop, last := stop }
  let fresh : TokenCursor := { ahead := [sign, word], stop, last := stop }
  have opened : ofTokens? tokens = some start := by decide +kernel
  have openedFresh : ofTokens? (tokens.drop (resumed start 1).position) = some fresh := by
    decide +kernel
  have depth : (resumed start 1).depth = 64 := by decide +kernel
  refine ⟨⟨stop, rfl, rfl⟩, by decide +kernel, start, fresh, opened, openedFresh, depth, ?_, rfl⟩
  have isStart := isStartOf_of_ofTokens? opened
  obtain ⟨reached, -⟩ :=
    IsReached.resumed (.of_ofTokens? opened) isStart.depth 1
  -- nothing is left of the limit
  have lowered := (reached.run_eq_lowered openedFresh).1
  rw [depth] at lowered
  exact lowered

end ParseM

end LoxFront
