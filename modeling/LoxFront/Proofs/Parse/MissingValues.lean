/-
# Constants without a value

A token that was put together by hand may be a string or a number and carry no value. The
reading of such a row is compared with that of a row in which the values are supplied. What a
reading passes decides what it does, so as long as it passes none of these tokens the two
readings are the same, whichever of the two is known. A reading that passes one of them stops
right after it. So the first of them is where the two part, if the supplied reading passes it
at all, and what the supplied reading comes to later plays no part.
-/

import LoxFront.Proofs.Parse.Elsewhere
import LoxFront.Proofs.Parse.Lookahead
import LoxFront.Proofs.Parse.Whole

namespace LoxFront

open TokenCursor

namespace Token

/-- Whether a token is to carry a value and does not. -/
def lacksValue (token : Token) : Bool :=
  token.kind.carriesLiteral && token.literal.isNone

/-- The token with a value supplied, if it lacks one. -/
def supplied (value : Literal) (token : Token) : Token :=
  if token.lacksValue then { token with literal := some value } else token

variable {token : Token} {value : Literal}

theorem lacksValue_iff :
    token.lacksValue = true ↔ token.kind.carriesLiteral = true ∧ token.literal = none := by
  rw [lacksValue, Bool.and_eq_true, Option.isNone_iff_eq_none]

theorem not_lacksValue {kinds : List TokenKind} (member : token.kind ∈ kinds)
    (plain : ∀ kind ∈ kinds, kind.carriesLiteral = false) : token.lacksValue = false := by
  rw [lacksValue, plain _ member, Bool.false_and]

theorem kind_supplied (value : Literal) (token : Token) :
    (token.supplied value).kind = token.kind := by
  unfold supplied
  split <;> rfl

theorem supplied_of_not_lacksValue (complete : token.lacksValue = false) :
    token.supplied value = token := by
  rw [supplied, complete]
  rfl

theorem lacksValue_supplied (value : Literal) (token : Token) :
    (token.supplied value).lacksValue = false := by
  unfold supplied
  split
  · simp [lacksValue]
  · next complete => simpa using complete

end Token

/-- The row with values supplied to the tokens that lack them, each by its position. -/
def supply (values : Nat → Literal) (tokens : List Token) : List Token :=
  tokens.mapIdx fun index token => token.supplied (values index)

section Supply

variable {values : Nat → Literal} {tokens read rest : List Token}

theorem supply_cons (token : Token) :
    supply values (token :: tokens) =
      token.supplied (values 0) :: supply (fun index => values (index + 1)) tokens :=
  List.mapIdx_cons

/-- Where nothing is missing, nothing is supplied. -/
theorem supply_eq_self (complete : ∀ token ∈ tokens, token.lacksValue = false) :
    supply values tokens = tokens := by
  induction tokens generalizing values with
  | nil => rfl
  | cons token tokens ih =>
      rw [List.forall_mem_cons] at complete
      rw [supply_cons, Token.supplied_of_not_lacksValue complete.1, ih complete.2]

theorem not_lacksValue_of_mem_supply {token : Token} (member : token ∈ supply values tokens) :
    token.lacksValue = false := by
  obtain ⟨index, inside, rfl⟩ := List.mem_mapIdx.mp member
  exact Token.lacksValue_supplied _ _

theorem literal_ne_none_of_mem_supply (token : Token) (member : token ∈ supply values tokens)
    (carries : token.kind.carriesLiteral = true) : token.literal ≠ none := by
  intro none
  have complete := not_lacksValue_of_mem_supply member
  rw [Token.lacksValue_iff.mpr ⟨carries, none⟩] at complete
  cases complete

/-- What is found in a supplied row is supplied to a part of the row. -/
theorem exists_of_supply_eq_append (split : supply values tokens = read ++ rest) :
    ∃ own others later, tokens = own ++ others ∧ supply values own = read ∧
      supply later others = rest := by
  obtain ⟨own, others, whole, front, back⟩ := List.mapIdx_eq_append_iff.mp split
  exact ⟨own, others, _, whole, front, back⟩

theorem sameNext_supply : SameNext (supply values tokens) tokens := by
  cases tokens with
  | nil => rfl
  | cons token tokens => rw [supply_cons, SameNext, List.head?_cons, List.head?_cons,
      Option.map_some, Option.map_some, Token.kind_supplied]

theorem takeWhile_supply :
    (supply values tokens).takeWhile (·.kind != .eof) =
      supply values (tokens.takeWhile (·.kind != .eof)) := by
  induction tokens generalizing values with
  | nil => rfl
  | cons token tokens ih =>
      rw [supply_cons, List.takeWhile_cons, List.takeWhile_cons, Token.kind_supplied, ih]
      split
      · rw [supply_cons]
      · rfl

theorem endsInput_supply (ends : EndsInput tokens) : EndsInput (supply values tokens) := by
  obtain ⟨last, final, isEnd⟩ := ends
  refine ⟨last.supplied (values (tokens.length - 1)), ?_, by rw [Token.kind_supplied, isEnd]⟩
  rw [supply, List.getLast?_mapIdx, final]
  rfl

end Supply

theorem TokenCursor.ahead_of_ofTokens? {tokens : List Token} {start : TokenCursor}
    (opened : ofTokens? tokens = some start) :
    start.ahead = tokens.takeWhile (·.kind != .eof) := by
  unfold ofTokens? at opened
  split at opened
  · split at opened
    · cases opened
      rfl
    · cases opened
  · cases opened

/-- A reading either passes no token that lacks its value, and then it does not stop for want
of one, or it stops right after the first such token. -/
inductive StopsAtMissing (cursor : TokenCursor) : ParseOutcome → Prop where
  | complete {outcome : ParseOutcome} {read : List Token} :
    Passes read cursor outcome.cursor → (∀ token ∈ read, token.lacksValue = false) →
    StopsAtMissing cursor outcome
  | missing {stopped : TokenCursor} {before : List Token} {token : Token} :
    Passes (before ++ [token]) cursor stopped →
    (∀ earlier ∈ before, earlier.lacksValue = false) → token.lacksValue = true →
    StopsAtMissing cursor (.error (.fault (.missingLiteral token)) stopped)

namespace StopsAtMissing

variable {cursor middle next : TokenCursor} {outcome : ParseOutcome} {expr : Expr}
  {read rest : List Token} {token : Token}

theorem exists_of_ok (stops : StopsAtMissing cursor (.ok expr next)) :
    ∃ read, Passes read cursor next ∧ ∀ token ∈ read, token.lacksValue = false := by
  cases stops with
  | complete passes complete => exact ⟨_, passes, complete⟩

/-- What lacks no value may come before. -/
theorem after (stops : StopsAtMissing middle outcome) (passes : Passes read cursor middle)
    (complete : ∀ token ∈ read, token.lacksValue = false) : StopsAtMissing cursor outcome := by
  cases stops with
  | complete passesMore completeMore =>
      exact .complete (passes.trans passesMore)
        (List.forall_mem_append.mpr ⟨complete, completeMore⟩)
  | @missing _ before token passesMore completeMore lacks =>
      have whole : Passes ((read ++ before) ++ [token]) cursor _ :=
        (List.append_assoc read before [token]) ▸ passes.trans passesMore
      exact .missing whole (List.forall_mem_append.mpr ⟨complete, completeMore⟩) lacks

theorem of_next (ahead : cursor.ahead = token :: rest) (complete : token.lacksValue = false)
    (stopped : outcome.cursor = cursor.advance) : StopsAtMissing cursor outcome :=
  .complete (stopped ▸ Passes.advance ahead) (List.forall_mem_singleton.mpr complete)

/-- One token that lacks no value is passed first. -/
theorem after_next (stops : StopsAtMissing cursor.advance outcome)
    (ahead : cursor.ahead = token :: rest) (complete : token.lacksValue = false) :
    StopsAtMissing cursor outcome :=
  stops.after (.advance ahead) (List.forall_mem_singleton.mpr complete)

/-- What ends where a level is closed again. -/
theorem of_shallower (passes : Passes read cursor next)
    (complete : ∀ token ∈ read, token.lacksValue = false)
    (stopped : outcome.cursor = next.shallower) : StopsAtMissing cursor outcome := by
  have closed := passes.trans (.shallower next)
  rw [List.append_nil, ← stopped] at closed
  exact .complete closed complete

theorem of_deeper (stops : StopsAtMissing cursor.deeper outcome) : StopsAtMissing cursor outcome :=
  stops.after (.deeper _) (List.forall_mem_nil _)

end StopsAtMissing

namespace Reads

variable {limit : Option Int} {part : Part} {cursor : TokenCursor} {outcome : ParseOutcome}

/-- A reading goes on to the first token that lacks its value and no further. -/
theorem stopsAtMissing (reads : Reads limit part cursor outcome) :
    StopsAtMissing cursor outcome := by
  have plainOperators (level : BinaryLevel) : ∀ kind ∈ level.operators,
      kind.carriesLiteral = false := by
    cases level <;> decide
  have plainSigns : ∀ kind ∈ TokenKind.unaryOperators, kind.carriesLiteral = false := by decide
  have plainWords : ∀ kind ∈ TokenKind.valueWords, kind.carriesLiteral = false := by decide
  have plainParen {token : Token} (kind : token.kind ∈ [TokenKind.leftParen, .rightParen]) :
      token.lacksValue = false := Token.not_lacksValue kind (by decide)
  induction reads with
  | start _ ih | firstOperandFails _ ih | primary _ _ ih => exact ih
  | noRoom | noOperator | noExpression => exact .complete (.refl _) (List.forall_mem_nil _)
  | expression _ _ ih => exact ih.after (.spent _) (List.forall_mem_nil _)
  | binary _ _ ihLeft ihTail =>
      obtain ⟨read, passes, complete⟩ := ihLeft.exists_of_ok
      exact ihTail.after passes complete
  | rightOperandFails ahead operator _ ih =>
      exact ih.after_next ahead (Token.not_lacksValue operator (plainOperators _))
  | operator ahead operator _ _ ihRight ihTail =>
      obtain ⟨read, passes, complete⟩ := ihRight.exists_of_ok
      exact (ihTail.after passes complete).after_next ahead
        (Token.not_lacksValue operator (plainOperators _))
  | signTooDeep ahead sign =>
      exact .of_next ahead (Token.not_lacksValue sign plainSigns) rfl
  | signedOperandFails ahead sign _ _ ih =>
      exact ih.of_deeper.after_next ahead (Token.not_lacksValue sign plainSigns)
  | unary ahead sign _ _ ih =>
      obtain ⟨read, passes, complete⟩ := ih.exists_of_ok
      exact (StopsAtMissing.of_shallower passes complete rfl).of_deeper.after_next ahead
        (Token.not_lacksValue sign plainSigns)
  | valueWord ahead word =>
      exact .of_next ahead (Token.not_lacksValue word plainWords) rfl
  | constant ahead _ value => exact .of_next ahead (by simp [Token.lacksValue, value]) rfl
  | noValue ahead carries value =>
      have passes : Passes ([] ++ [_]) _ _ := .advance ahead
      exact .missing passes (List.forall_mem_nil _) (Token.lacksValue_iff.mpr ⟨carries, value⟩)
  | groupTooDeep ahead opens => exact .of_next ahead (plainParen (by simp [opens])) rfl
  | groupFails ahead opens _ _ ih =>
      exact ih.of_deeper.after_next ahead (plainParen (by simp [opens]))
  | notClosed ahead opens _ _ _ ih =>
      obtain ⟨read, passes, complete⟩ := ih.exists_of_ok
      exact (StopsAtMissing.of_shallower passes complete rfl).of_deeper.after_next ahead
        (plainParen (by simp [opens]))
  | @grouping _ middle _ _ _ _ inner ahead opens _ _ closes kind ih =>
      obtain ⟨read, passes, complete⟩ := ih.exists_of_ok
      have closing : StopsAtMissing middle.shallower
          (.ok (.grouping inner) middle.shallower.advance) :=
        .of_next closes (plainParen (by simp [kind])) rfl
      have inside := (closing.after (.shallower _) (List.forall_mem_nil _)).after passes complete
      exact inside.of_deeper.after_next ahead (plainParen (by simp [opens]))

end Reads

/-- Two outcomes in two rows are the same tree, or the same complaint, each about the token of
its own row at the place where the reading stopped. -/
def Corresponds (first second : List Token) (one other : ParseOutcome) : Prop :=
  (∃ expr, one.result = .ok expr ∧ other.result = .ok expr) ∨
    ∃ (complaint : Complaint) (token counterpart : Token),
      one.result = .error (complaint.about token) ∧
      other.result = .error (complaint.about counterpart) ∧
      first[complaint.place one.cursor.position]? = some token ∧
      second[complaint.place other.cursor.position]? = some counterpart

/-- What a reading comes to corresponds to what it comes to in another row. -/
theorem Reads.corresponds {limit : Option Int} {part : Part} {cursor next : TokenCursor}
    {outcome : ParseOutcome} {first second : List Token}
    (reads : Reads limit part cursor outcome) (unlimited : cursor.allowance = none)
    (place : IsPlaceIn second outcome.cursor) (placeNext : IsPlaceIn first next)
    (passed : next.passed = outcome.cursor.passed) :
    Corresponds first second (outcome.endingAt next) outcome := by
  cases outcome with
  | ok expr stopped => exact .inl ⟨expr, rfl, rfl⟩
  | error failure stopped =>
      obtain ⟨complaint, token, rfl, isAt⟩ := reads.exists_complaint unlimited
      obtain ⟨other, same, isAtNext⟩ :=
        Complaint.exists_facing isAt fun last member => (congrArg List.head? passed).trans member
      exact .inr ⟨complaint, other, token, congrArg Except.error same, rfl,
        Complaint.getElem?_place isAtNext placeNext, Complaint.getElem?_place isAt place⟩

/-- A tree or a problem is reported as one, also where the reading stops at another cursor. -/
theorem ParseOutcome.exists_report_endingAt {outcome : ParseOutcome}
    (readable : ∀ failure, outcome.result = .error failure → ∃ error, failure = .problem error)
    (next : TokenCursor) : ∃ result, (outcome.endingAt next).report = .ok result := by
  cases outcome with
  | ok expr stopped => exact ⟨.ok expr, rfl⟩
  | error failure stopped =>
      obtain ⟨error, rfl⟩ := readable failure rfl
      cases error <;> exact ⟨.error _, rfl⟩

section TwoRows

variable {tokens others read : List Token} {start filled : TokenCursor} {values : Nat → Literal}
  {plain whole : ParseOutcome} {limit : Option Int} {part : Part}

theorem ahead_supply (opened : ofTokens? tokens = some start)
    (openedFilled : ofTokens? (supply values tokens) = some filled) :
    filled.ahead = supply values start.ahead := by
  rw [ahead_of_ofTokens? opened, ahead_of_ofTokens? openedFilled, takeWhile_supply]

/-- At the beginning of a row, what is passed is the beginning of the row. -/
theorem TokenCursor.IsStartOf.take_position (isStart : IsStartOf tokens start) {next : TokenCursor}
    (passes : Passes read start next) : tokens.take next.position = read := by
  obtain ⟨after, whole⟩ := isStart.splits
  rw [position_eq_of_passes passes, position, isStart.passed, List.length_nil, Nat.zero_add, whole,
    passes.ahead, List.append_assoc, List.take_left]

/-- What is passed in the supplied row without coming to a supplied token is ahead in the row
itself. -/
theorem exists_ahead_of_supplied (isStart : IsStartOf tokens start)
    (isStartFilled : IsStartOf (supply values tokens) filled)
    (ahead : filled.ahead = supply values start.ahead) {next : TokenCursor}
    (passes : Passes read filled next)
    (complete : ∀ token ∈ tokens.take next.position, token.lacksValue = false) :
    ∃ others, start.ahead = read ++ others ∧ SameNext others next.ahead := by
  obtain ⟨own, others, later, split, rfl, same⟩ :=
    exists_of_supply_eq_append (ahead.symm.trans passes.ahead)
  have taken : tokens.take next.position = own := by
    obtain ⟨after, whole⟩ := isStart.splits
    rw [position_eq_of_passes passes, position, isStartFilled.passed, List.length_nil,
      Nat.zero_add, supply, List.length_mapIdx, whole, split, List.append_assoc, List.take_left]
  rw [taken] at complete
  exact ⟨others, by rw [supply_eq_self complete, split], same ▸ sameNext_supply.symm⟩

/-- What is passed in the row without coming to a token that lacks its value is ahead in the
supplied row. -/
theorem exists_ahead_of_complete (ahead : filled.ahead = supply values start.ahead)
    {next : TokenCursor} (passes : Passes read start next)
    (complete : ∀ token ∈ read, token.lacksValue = false) :
    ∃ others, filled.ahead = read ++ others ∧ SameNext others next.ahead := by
  rw [ahead, passes.ahead, supply, List.mapIdx_append]
  refine ⟨_, congrArg (· ++ _) (supply_eq_self complete), sameNext_supply⟩

/-- A reading is the same in two rows if it passes the same tokens and stops before one of the
same kind in both. -/
theorem Reads.exists_beside {there : TokenCursor} (reads : Reads limit part start whole)
    (isStart : IsStartOf tokens start) (isStartThere : IsStartOf others there)
    (ahead : ∀ read, Passes read start whole.cursor →
      ∃ rest, there.ahead = read ++ rest ∧ SameNext rest whole.cursor.ahead) :
    ∃ next, Reads limit part there (whole.endingAt next) ∧ IsPlaceIn others next ∧
      next.passed = whole.cursor.passed ∧ next.depth = whole.cursor.depth := by
  obtain ⟨read, passes, again⟩ := reads.recurs isStart.unlimited 0
  obtain ⟨next, readsThere, passesThere, depthNext⟩ := again there
    ⟨ahead read passes, by rw [isStart.depth, isStartThere.depth, Int.add_zero],
      isStartThere.unlimited⟩
  refine ⟨next, ?_, isStartThere.isPlaceIn.of_passes passesThere, ?_, ?_⟩
  · have same : limit.map (· + 0) = limit := by simp
    exact same ▸ readsThere
  · rw [passesThere.passed, passes.passed, isStart.passed, isStartThere.passed]
  · rw [depthNext, Int.add_zero]

/-- What the supplied row is read to without coming to a supplied token, the row itself is. -/
theorem Reads.exists_plain (reads : Reads limit part filled whole)
    (isStart : IsStartOf tokens start) (isStartFilled : IsStartOf (supply values tokens) filled)
    (ahead : filled.ahead = supply values start.ahead)
    (complete : ∀ token ∈ tokens.take whole.cursor.position, token.lacksValue = false) :
    ∃ next, Reads limit part start (whole.endingAt next) ∧ IsPlaceIn tokens next ∧
      next.passed = whole.cursor.passed ∧ next.depth = whole.cursor.depth :=
  reads.exists_beside isStartFilled isStart fun _ passes =>
    exists_ahead_of_supplied isStart isStartFilled ahead passes complete

/-- A reading of the row that comes to no token that lacks its value is one of the supplied row
too, and passes as much there. -/
theorem Reads.exists_supplied (reads : Reads limit part start plain)
    (isStart : IsStartOf tokens start) (isStartFilled : IsStartOf (supply values tokens) filled)
    (ahead : filled.ahead = supply values start.ahead)
    (complete : ∀ token ∈ tokens.take plain.cursor.position, token.lacksValue = false) :
    ∃ next, Reads limit part filled (plain.endingAt next) ∧
      next.position = plain.cursor.position := by
  obtain ⟨next, again, -, passed, -⟩ := reads.exists_beside isStart isStartFilled
    fun read passes => exists_ahead_of_complete ahead passes
      (isStart.take_position passes ▸ complete)
  exact ⟨next, again, congrArg List.length passed⟩

end TwoRows

open ParseM in
/-- A row is read as it is with values supplied to the tokens that lack one, as long as the
supplied reading passes none of these tokens: to the same place and depth, and to the same tree
or the same complaint. If it passes one of them, the plain reading stops right after the first
one of the row for want of its value, whatever the supplied reading comes to afterwards. -/
theorem parse_stops_at_missing_value {tokens : List Token} (ends : EndsInput tokens)
    (values : Nat → Literal) :
    ∃ start filled, ofTokens? tokens = some start ∧
      ofTokens? (supply values tokens) = some filled ∧
      let plain : ParseOutcome := (readRule (some maxDepth) .start).run start
      let whole : ParseOutcome := (readRule (some maxDepth) .start).run filled
      (∀ failure, whole.result = .error failure → ∃ error, failure = .problem error) ∧
      ((∀ token ∈ tokens.take whole.cursor.position, token.lacksValue = false) →
        plain.cursor.position = whole.cursor.position ∧
        plain.cursor.depth = whole.cursor.depth ∧
        Corresponds tokens (supply values tokens) plain whole ∧
        ∃ result, parse tokens = .ok result) ∧
      ((∃ token ∈ tokens.take whole.cursor.position, token.lacksValue = true) →
        ∃ before token after, tokens = before ++ token :: after ∧
          (∀ earlier ∈ before, earlier.lacksValue = false) ∧ token.lacksValue = true ∧
          plain.result = .error (.fault (.missingLiteral token)) ∧
          plain.cursor.position = before.length + 1 ∧
          parse tokens = .error (.missingLiteral token) ∧
          (TokenFault.missingLiteral token).message =
            token.kind.name ++ " token '" ++ token.lexeme ++ "' has no literal") := by
  obtain ⟨lastFilled, finalFilled, isEndFilled⟩ : EndsInput (supply values tokens) :=
    endsInput_supply ends
  obtain ⟨last, final, isEnd⟩ := ends
  obtain ⟨start, opened⟩ := exists_ofTokens? final isEnd
  obtain ⟨filled, openedFilled⟩ := exists_ofTokens? finalFilled isEndFilled
  refine ⟨start, filled, opened, openedFilled, ?_⟩
  intro plain whole
  have isStart := isStartOf_of_ofTokens? opened
  have isStartFilled := isStartOf_of_ofTokens? openedFilled
  have ahead := ahead_supply opened openedFilled
  have report : parse tokens = plain.report := parse_eq_report opened
  have readsPlain := (run_readRule_eq_iff isStart.ends).mp (rfl : _ = plain)
  have readsWhole := (run_readRule_eq_iff isStartFilled.ends).mp (rfl : _ = whole)
  have noFault (failure : ParseFailure) (failed : whole.result = .error failure) :
      ∃ error, failure = .problem error :=
    readsWhole.exists_problem_of_result (isStartFilled.readable literal_ne_none_of_mem_supply)
      failed
  refine ⟨noFault, fun complete => ?_, fun ⟨other, member, lacks⟩ => ?_⟩
  · obtain ⟨next, reads, place, passed, depth⟩ :=
      readsWhole.exists_plain isStart isStartFilled ahead complete
    have same : plain = whole.endingAt next := (run_readRule_eq_iff isStart.ends).mpr reads
    obtain ⟨read, passes⟩ := readsWhole.passes
    have placeWhole := isStartFilled.isPlaceIn.of_passes passes
    rw [report, same, ParseOutcome.cursor_endingAt]
    exact ⟨congrArg List.length passed, depth,
      readsWhole.corresponds isStartFilled.unlimited placeWhole place passed,
      whole.exists_report_endingAt noFault next⟩
  · have stops := readsPlain.stopsAtMissing
    generalize plain = outcome at readsPlain report stops ⊢
    cases stops with
    | complete passes complete =>
        -- then the supplied reading would have passed the same tokens and no others
        rw [← isStart.take_position passes] at complete
        obtain ⟨next, reads, position⟩ :=
          readsPlain.exists_supplied isStart isStartFilled ahead complete
        have same : whole = outcome.endingAt next :=
          (run_readRule_eq_iff isStartFilled.ends).mpr reads
        rw [same, ParseOutcome.cursor_endingAt, position] at member
        rw [complete other member] at lacks
        cases lacks
    | @missing stopped before token passes complete lacksToken =>
        obtain ⟨after, split⟩ := isStart.splits
        rw [passes.ahead, List.append_assoc, List.append_assoc] at split
        refine ⟨before, token, _, split, complete, lacksToken, rfl, ?_, report, rfl⟩
        rw [ParseOutcome.cursor, position_eq_of_passes passes, position, isStart.passed]
        simp

/-- A sum whose first operand is a string without its value, and whose second operand is missing. -/
theorem parse_stops_at_missing_value_before_problem :
    let text : Token := ⟨.string, "\"a\"", none, 1⟩
    let closing : Token := ⟨.rightParen, ")", none, 1⟩
    let tokens : List Token := [text, ⟨.plus, "+", none, 1⟩, closing, ⟨.eof, "", none, 1⟩]
    let values : Nat → Literal := fun _ => .string "a"
    EndsInput tokens ∧ parse (supply values tokens) = .ok (.error (.expectedExpression closing)) ∧
      parse tokens = .error (.missingLiteral text) := by
  intro text closing tokens values
  have ends : EndsInput tokens := ⟨_, rfl, rfl⟩
  obtain ⟨start, filled, -, opened, -, -, stops⟩ := parse_stops_at_missing_value ends values
  cases opened
  obtain ⟨before, token, after, split, complete, lacks, -, -, fault, -⟩ :=
    stops ⟨text, by decide, rfl⟩
  refine ⟨ends, rfl, ?_⟩
  cases before with
  | nil =>
      obtain ⟨rfl, -⟩ := List.cons.inj split
      exact fault
  | cons first before =>
      obtain ⟨rfl, -⟩ := List.cons.inj split
      exact absurd (complete text List.mem_cons_self) (by decide)

end LoxFront
