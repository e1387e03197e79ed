/-
# Calls by index

A cursor keeps the tokens on its two sides and can look at no others. Here the same calls are
made on a row that is looked up by index. A lookup outside the row is a failure of its own, and
an index below zero counts from the end, which is how the token before the first one is found.
Nothing guards the lookups but the question whether the next token ends the input.

The two ways to make a call are compared step by step. At a cursor in the row they answer the
same or fail in the same way, and they stop at the same place, so no lookup ever fails. The
rounds of a loop and the rules open at once are counted as they are for the cursor, by the
tokens that are left before the first one that ends the input.
-/

import LoxFront.Proofs.Parse.Calls

namespace LoxFront

open TokenCursor

/-- An index into a row, and the number of groups and prefixed operators that are open. -/
structure RowIndex where
  index : Nat
  depth : Int
  deriving DecidableEq

/-- Why a reading by index stops without a tree. -/
inductive RowFailure where
  /-- There is no token at an index. -/
  | outOfRange (index : Int)
  /-- The reading fails as one by cursor does. -/
  | reading (failure : ParseFailure)

/-- A reading of a row by index. -/
abbrev RowM := EStateM RowFailure RowIndex

namespace RowM

section Calls

variable (tokens : List Token)

/-- The token at an index. An index below zero counts from the end. -/
def lookup? (index : Int) : Option Token :=
  if 0 ≤ index then tokens[index.toNat]?
  else if -index ≤ tokens.length then tokens[tokens.length - (-index).toNat]?
  else none

/-- Look up a token that has to be there. -/
def tokenAt (index : Int) : RowM Token :=
  match lookup? tokens index with
  | some token => pure token
  | none => throw (.outOfRange index)

/-- Look at the next token. -/
def peek : RowM Token := do
  tokenAt tokens (← get).index

/-- Look at the token before the index. -/
def previous : RowM Token := do
  tokenAt tokens ((← get).index - 1)

/-- Whether the next token ends the input. -/
def isAtEnd : RowM Bool :=
  return (← peek tokens).kind == .eof

/-- Whether the next token is of a kind. -/
def check (kind : TokenKind) : RowM Bool := do
  if ← isAtEnd tokens then return false
  else return (← peek tokens).kind == kind

/-- Pass the next token unless it ends the input, and give the one before the index. -/
def advance : RowM Token := do
  if ← isAtEnd tokens then previous tokens
  else
    modify fun row => { row with index := row.index + 1 }
    previous tokens

/-- Pass the next token if it is of one of some kinds. -/
def accept : List TokenKind → RowM Bool
  | [] => return false
  | kind :: kinds => do
    if ← check tokens kind then
      let _ ← advance tokens
      return true
    else accept kinds

/-- Stop as a reading by cursor does. -/
def fail {α : Type} (failure : ParseFailure) : RowM α :=
  throw (.reading failure)

/-- Pass the next token, which has to be of a kind. -/
def consume (kind : TokenKind) (message : String) : RowM Token := do
  if ← check tokens kind then advance tokens
  else fail (.problem (.expectedToken (← peek tokens) kind message))

/-- Open a group or an operand at a token, within a limit if there is one. -/
def enter (limit : Option Int) (token : Token) : RowM Unit := do
  if limit.any (· ≤ (← get).depth) then fail (.problem (.expressionTooDeep token))
  else modify fun row => { row with depth := row.depth + 1 }

/-- Close a group or an operand. -/
def leave : RowM Unit :=
  modify fun row => { row with depth := row.depth - 1 }

/-- The number of tokens left before the first one that ends the input. -/
def left : RowM Nat :=
  return firstEnd tokens - (← get).index

/-- Go on from a left operand with operators and right operands as long as they follow. -/
def chain (operators : List TokenKind) (operand : RowM Expr) : Nat → Expr → RowM Expr
  | 0, tree => pure tree
  | count + 1, tree => do
    if ← accept tokens operators then
      let operator ← previous tokens
      let right ← operand
      chain operators operand count (.binary tree operator right)
    else pure tree

/-- Read a constant or a group, given how an expression inside a group is read. -/
def readPrimary (limit : Option Int) (expression : RowM Expr) : RowM Expr := do
  if ← accept tokens TokenKind.valueWords then
    return .literal (some (.identifier (← previous tokens).lexeme))
  else if ← accept tokens [.number, .string] then
    match (← previous tokens).value with
    | .ok value => return .literal (some value)
    | .error fault => fail (.fault fault)
  else if ← accept tokens [.leftParen] then
    enter limit (← previous tokens)
    let inner ← expression
    leave
    let _ ← consume tokens .rightParen "Expect ')' after expression."
    return .grouping inner
  else fail (.problem (.expectedExpression (← peek tokens)))

/-- Read what a rule describes, with at most the given number of rules open. -/
def descend (limit : Option Int) : Nat → Rule → RowM Expr
  | 0, _ => fail .exhausted
  | frames + 1, .start => descend limit frames .expression
  | frames + 1, .expression => descend limit frames (.binary .equality)
  | frames + 1, .binary level => do
    let tree ← descend limit frames level.operand
    let count ← left tokens
    chain tokens level.operators (descend limit frames level.operand) count tree
  | frames + 1, .unary => do
    if ← accept tokens TokenKind.unaryOperators then
      let operator ← previous tokens
      enter limit operator
      let operand ← descend limit frames .unary
      leave
      return .unary operator operand
    else descend limit frames .primary
  | frames + 1, .primary => readPrimary tokens limit (descend limit frames .expression)

/-- Read what a rule describes. -/
def readRule (limit : Option Int) (rule : Rule) : RowM Expr := do
  let count ← left tokens
  descend tokens limit (7 * count + 8) rule

/-- Pass tokens up to the end of a statement or the beginning of one. -/
def skip : Nat → RowM Unit
  | 0 => pure ()
  | count + 1 => do
    if ← isAtEnd tokens then return ()
    else if (← previous tokens).kind == .semicolon then return ()
    else if beginsStatement (← peek tokens) then return ()
    else
      let _ ← advance tokens
      skip count

/-- Pass a token, and then all others up to the next boundary of statements. -/
def synchronize : RowM Unit := do
  let _ ← advance tokens
  let count ← left tokens
  skip tokens count

/-- Perform a call. -/
def perform : ParserCall → RowM ParserReply
  | .read rule => return .tree (← readRule tokens (some ParseM.maxDepth) rule)
  | .synchronize => do
    synchronize tokens
    return .nothing
  | .peek => return .token (← peek tokens)
  | .previous => return .token (← previous tokens)
  | .advance => return .token (← advance tokens)
  | .isAtEnd => return .flag (← isAtEnd tokens)
  | .leave => do
    leave
    return .nothing
  | .enter => do
    enter (some ParseM.maxDepth) (← peek tokens)
    return .nothing
  | .accept kinds => return .flag (← accept tokens kinds)
  | .check kind => return .flag (← check tokens kind)
  | .consume kind message => return .token (← consume tokens kind message)

/-- The index and depth after a row of calls, whether they answer or fail. -/
def afterAll (calls : List ParserCall) (row : RowIndex) : RowIndex :=
  calls.foldl (fun row call =>
    match (perform tokens call).run row with
    | .ok _ next => next
    | .error _ stopped => stopped) row

end Calls

end RowM

/-- The index and depth of a cursor. -/
def TokenCursor.mark (cursor : TokenCursor) : RowIndex :=
  ⟨cursor.position, cursor.depth⟩

/-- A reading by index comes to what a reading by cursor comes to, in the row. -/
inductive SameResult {α : Type} (tokens : List Token) :
    EStateM.Result RowFailure RowIndex α → EStateM.Result ParseFailure TokenCursor α → Prop where
  | ok {value : α} {next : TokenCursor} :
    IsIn tokens next → SameResult tokens (.ok value next.mark) (.ok value next)
  | error {failure : ParseFailure} {stopped : TokenCursor} :
    IsIn tokens stopped →
    SameResult tokens (.error (.reading failure) stopped.mark) (.error failure stopped)

/-- At every cursor in a row, a reading by index comes to what one by cursor comes to. -/
def Mirrors {α : Type} (tokens : List Token) (indexed : RowM α) (reading : ParseM α) : Prop :=
  ∀ cursor, IsIn tokens cursor →
    SameResult tokens (indexed.run cursor.mark) (reading.run cursor)

namespace RowM

variable {tokens : List Token} {cursor : TokenCursor}

/-! ## Looking at tokens -/

theorem run_tokenAt {index : Int} {token : Token} (found : lookup? tokens index = some token)
    (row : RowIndex) : (tokenAt tokens index).run row = .ok token row := by
  rw [tokenAt, found]
  rfl

theorem run_peek (isIn : IsIn tokens cursor) :
    (peek tokens).run cursor.mark = .ok cursor.peek cursor.mark := by
  have found : lookup? tokens cursor.position = some cursor.peek := by
    rw [lookup?, if_pos (Int.natCast_nonneg _), Int.toNat_natCast]
    exact isIn.place.getElem?_position
  exact run_tokenAt found cursor.mark

/-- At the beginning the last token of the row is looked up. -/
theorem run_previous (isIn : IsIn tokens cursor) :
    (previous tokens).run cursor.mark = .ok cursor.previous cursor.mark := by
  have found : lookup? tokens ((cursor.position : Int) - 1) = some cursor.previous := by
    cases passed : cursor.passed with
    | nil =>
        have position : cursor.position = 0 := congrArg List.length passed
        have final := isIn.last.1
        have nonempty : tokens ≠ [] := by
          rintro rfl
          cases final
        have one : 1 ≤ tokens.length := List.length_pos_iff.mpr nonempty
        rw [lookup?, position, if_neg (by decide), if_pos (by omega), TokenCursor.previous, passed,
          List.headD_nil, ← final, List.getLast?_eq_getElem?]
        rfl
    | cons token more =>
        have position : (cursor.position : Int) - 1 = (more.length : Int) := by
          rw [position, passed, List.length_cons]
          omega
        obtain ⟨after, whole⟩ := isIn.place.splits
        rw [lookup?, position, if_pos (Int.natCast_nonneg _), Int.toNat_natCast,
          TokenCursor.previous, passed, List.headD_cons, whole, passed, List.reverse_cons,
          List.append_assoc, List.getElem?_append_right (by simp)]
        simp
  exact run_tokenAt found cursor.mark

theorem run_isAtEnd (isIn : IsIn tokens cursor) :
    (isAtEnd tokens).run cursor.mark = .ok cursor.isAtEnd cursor.mark := by
  rw [isAtEnd, EStateM.run_bind, run_peek isIn]
  have same : (cursor.peek.kind == .eof) = cursor.isAtEnd := by
    cases ahead : cursor.ahead with
    | nil => simp [TokenCursor.peek, TokenCursor.isAtEnd, ahead, isIn.place.ends]
    | cons token rest =>
        have other := isIn.place.ahead_ne_eof token (by simp [ahead])
        simp [TokenCursor.peek, TokenCursor.isAtEnd, ahead, other]
  rw [← same]
  rfl

theorem run_check (isIn : IsIn tokens cursor) (kind : TokenKind) :
    (check tokens kind).run cursor.mark = .ok (cursor.check kind) cursor.mark := by
  rw [check, EStateM.run_bind, run_isAtEnd isIn, TokenCursor.check]
  dsimp only
  cases cursor.isAtEnd with
  | true => rfl
  | false =>
      rw [if_neg Bool.false_ne_true, EStateM.run_bind, run_peek isIn]
      rfl

/-! ## Moving on -/

theorem run_advance (isIn : IsIn tokens cursor) :
    (advance tokens).run cursor.mark = .ok cursor.advance.previous cursor.advance.mark := by
  rw [advance, EStateM.run_bind, run_isAtEnd isIn, TokenCursor.isAtEnd]
  dsimp only
  cases ahead : cursor.ahead with
  | nil =>
      have stays : cursor.advance = cursor := by rw [TokenCursor.advance, ahead]
      rw [stays]
      exact run_previous isIn
  | cons token rest =>
      have moved : cursor.advance.mark = ⟨cursor.mark.index + 1, cursor.mark.depth⟩ := by
        rw [mark, position_advance ahead, depth_advance]
        rfl
      rw [List.isEmpty_cons, if_neg Bool.false_ne_true, EStateM.run_bind, ← run_previous
        (isIn.of_passes (.advance ahead)), moved]
      rfl

theorem run_accept (isIn : IsIn tokens cursor) (kinds : List TokenKind) :
    (accept tokens kinds).run cursor.mark =
      if kinds.any cursor.check then .ok true cursor.advance.mark else .ok false cursor.mark := by
  induction kinds with
  | nil => rfl
  | cons kind kinds ih =>
      rw [accept, EStateM.run_bind, run_check isIn, List.any_cons]
      dsimp only
      cases cursor.check kind with
      | true =>
          rw [if_pos rfl, EStateM.run_bind, run_advance isIn]
          rfl
      | false =>
          rw [if_neg Bool.false_ne_true, ih, Bool.false_or]

theorem run_accept_of_mem (isIn : IsIn tokens cursor) {kinds : List TokenKind} {token : Token}
    {rest : List Token} (ahead : cursor.ahead = token :: rest) (kind : token.kind ∈ kinds) :
    (accept tokens kinds).run cursor.mark = .ok true cursor.advance.mark :=
  (run_accept isIn kinds).trans (if_pos (any_check_eq_true ahead kind))

theorem run_accept_of_avoids (isIn : IsIn tokens cursor) {kinds : List TokenKind}
    (avoids : cursor.Avoids kinds) :
    (accept tokens kinds).run cursor.mark = .ok false cursor.mark := by
  rw [run_accept isIn, any_check_eq_false avoids]
  rfl

/-- After a token has been passed, it is the one before the index. -/
theorem run_previous_advance (isIn : IsIn tokens cursor) {token : Token} {rest : List Token}
    (ahead : cursor.ahead = token :: rest) :
    (previous tokens).run cursor.advance.mark = .ok token cursor.advance.mark := by
  have passes := Passes.advance ahead
  rw [run_previous (isIn.of_passes passes), TokenCursor.previous, passes.passed]
  rfl

/-- The tokens left are those ahead of the cursor. -/
theorem run_left (isIn : IsIn tokens cursor) :
    (left tokens).run cursor.mark = .ok cursor.ahead.length cursor.mark := by
  have count : firstEnd tokens - cursor.position = cursor.ahead.length := by
    have whole := isIn.position_add_length
    omega
  rw [← count]
  rfl

section Branch

variable {α : Type} {kinds : List TokenKind} {token : Token} {rest : List Token}

theorem run_ifAccept_of_mem (isIn : IsIn tokens cursor) (ahead : cursor.ahead = token :: rest)
    (kind : token.kind ∈ kinds) (found : Token → RowM α) (other : RowM α) :
    (do
      if ← accept tokens kinds then
        let token ← previous tokens
        found token
      else other : RowM α).run cursor.mark = (found token).run cursor.advance.mark := by
  rw [EStateM.run_bind, run_accept_of_mem isIn ahead kind]
  dsimp only
  rw [if_pos rfl, EStateM.run_bind, run_previous_advance isIn ahead]

theorem run_ifAccept_of_avoids (isIn : IsIn tokens cursor) (avoids : cursor.Avoids kinds)
    (found : Token → RowM α) (other : RowM α) :
    (do
      if ← accept tokens kinds then
        let token ← previous tokens
        found token
      else other : RowM α).run cursor.mark = other.run cursor.mark := by
  rw [EStateM.run_bind, run_accept_of_avoids isIn avoids]
  rfl

end Branch

end RowM

namespace Mirrors

open RowM

variable {α β : Type} {tokens : List Token} {cursor : TokenCursor} {indexed : RowM α}
  {reading : ParseM α}

theorem pure (value : α) : Mirrors tokens (pure value) (pure value) :=
  fun _ isIn => .ok isIn

theorem fail (failure : ParseFailure) :
    Mirrors tokens (fail failure : RowM α) (throw failure) :=
  fun _ isIn => .error isIn

theorem bind {more : α → RowM β} {later : α → ParseM β} (first : Mirrors tokens indexed reading)
    (rest : ∀ value, Mirrors tokens (more value) (later value)) :
    Mirrors tokens (indexed >>= more) (reading >>= later) := by
  intro cursor isIn
  have one := first cursor isIn
  rw [EStateM.run_bind, EStateM.run_bind]
  generalize indexed.run cursor.mark = result at one
  generalize reading.run cursor = outcome at one
  cases one with
  | ok isInNext => exact rest _ _ isInNext
  | error isInStopped => exact .error isInStopped

theorem advance : Mirrors tokens (advance tokens) ParseM.advance := by
  intro cursor isIn
  obtain ⟨read, passes⟩ := exists_passes_advance cursor
  rw [run_advance isIn, ParseM.run_advance]
  exact .ok (isIn.of_passes passes)

theorem consume (kind : TokenKind) (message : String) :
    Mirrors tokens (consume tokens kind message) (ParseM.consume kind message) := by
  intro cursor isIn
  rw [RowM.consume, EStateM.run_bind, run_check isIn, ParseM.run_consume]
  dsimp only
  by_cases found : cursor.check kind = true
  · rw [if_pos found, if_pos found, run_advance isIn]
    obtain ⟨read, passes⟩ := exists_passes_advance cursor
    exact .ok (isIn.of_passes passes)
  · rw [if_neg found, if_neg found, EStateM.run_bind, run_peek isIn]
    exact .error isIn

theorem enter (limit : Option Int) (token : Token) :
    Mirrors tokens (enter limit token) (ParseM.enter limit token) := by
  intro cursor isIn
  rw [RowM.enter, EStateM.run_bind, EStateM.run_get, ParseM.run_enter]
  dsimp only [mark]
  by_cases full : limit.any (· ≤ cursor.depth) = true
  · rw [if_pos full, if_pos full]
    exact .error isIn
  · rw [if_neg full, if_neg full]
    exact .ok (isIn.of_passes (.deeper cursor))

theorem leave : Mirrors tokens leave ParseM.leave :=
  fun cursor isIn => .ok (isIn.of_passes (.shallower cursor))

/-- A token that is passed if it is of the right kinds, and what is done in either case. -/
theorem ifAccept {kinds : List TokenKind} {found : Token → RowM α}
    {foundReading : Token → ParseM α}
    (hit : ∀ token, Mirrors tokens (found token) (foundReading token))
    (miss : Mirrors tokens indexed reading) :
    Mirrors tokens
      (do
        if ← accept tokens kinds then
          let token ← previous tokens
          found token
        else indexed)
      (do
        match ← ParseM.accept kinds with
        | none => reading
        | some token => foundReading token) := by
  intro cursor isIn
  rcases avoids_or_next kinds cursor with avoids | ⟨token, rest, ahead, kind⟩
  · rw [run_ifAccept_of_avoids isIn avoids, EStateM.run_bind,
      ParseM.run_accept_of_avoids avoids]
    exact miss cursor isIn
  · rw [run_ifAccept_of_mem isIn ahead kind, EStateM.run_bind,
      ParseM.run_accept_of_mem ahead kind]
    exact hit token _ (isIn.of_passes (.advance ahead))

/-- The tokens left are counted alike. -/
theorem withLeft {more : Nat → RowM α} {later : Nat → ParseM α}
    (same : ∀ count, Mirrors tokens (more count) (later count)) :
    Mirrors tokens (do more (← left tokens)) (do later (← get).ahead.length) := by
  intro cursor isIn
  rw [EStateM.run_bind, EStateM.run_bind, EStateM.run_get, run_left isIn]
  exact same _ cursor isIn

/-! ## The descent -/

section Descent

variable {limit : Option Int} {operand expression : RowM Expr}
  {operandReading expressionReading : ParseM Expr}

theorem chain (operators : List TokenKind) (same : Mirrors tokens operand operandReading)
    (count : Nat) (tree : Expr) :
    Mirrors tokens (chain tokens operators operand count tree)
      (ParseM.chain operators operandReading count tree) := by
  induction count generalizing tree with
  | zero => exact .pure tree
  | succ count ih => exact ifAccept (fun token => same.bind fun right => ih _) (.pure tree)

/-- A group is read alike if the expression in it is. -/
theorem group (same : Mirrors tokens expression expressionReading) (token : Token) :
    Mirrors tokens
      (do
        RowM.enter limit token
        let inner ← expression
        RowM.leave
        let _ ← RowM.consume tokens .rightParen "Expect ')' after expression."
        return Expr.grouping inner)
      (do
        ParseM.enter limit token
        let inner ← expressionReading
        ParseM.leave
        let _ ← ParseM.consume .rightParen "Expect ')' after expression."
        return Expr.grouping inner) :=
  (enter limit token).bind fun _ => same.bind fun _ => leave.bind fun _ =>
    (consume _ _).bind fun _ => .pure _

/-- A primary expression is read by the kind of its first token, which is asked for in turn. -/
theorem readPrimary (same : Mirrors tokens expression expressionReading) :
    Mirrors tokens (readPrimary tokens limit expression)
      (ParseM.readPrimary limit expressionReading) := by
  have carries_iff (kind : TokenKind) :
      kind ∈ [TokenKind.number, .string] ↔ kind.carriesLiteral = true := by
    cases kind <;> decide
  intro cursor isIn
  rw [RowM.readPrimary]
  rcases avoids_or_next TokenKind.valueWords cursor with noWord | ⟨token, rest, ahead, word⟩
  case inr =>
    rw [run_ifAccept_of_mem isIn ahead word, ParseM.run_readPrimary, peek_eq ahead, if_pos word]
    exact .ok (isIn.of_passes (.advance ahead))
  rw [run_ifAccept_of_avoids isIn noWord]
  rcases avoids_or_next [.number, .string] cursor with noLiteral | ⟨token, rest, ahead, kind⟩
  case inr =>
    have carries := (carries_iff _).mp kind
    rw [run_ifAccept_of_mem isIn ahead kind, ParseM.run_readPrimary, peek_eq ahead,
      if_neg (TokenKind.not_mem_valueWords_of_carriesLiteral carries), if_pos carries, Token.value]
    cases token.literal with
    | none => exact .error (isIn.of_passes (.advance ahead))
    | some value => exact .ok (isIn.of_passes (.advance ahead))
  rw [run_ifAccept_of_avoids isIn noLiteral]
  rcases avoids_or_next [.leftParen] cursor with noGroup | ⟨token, rest, ahead, kind⟩
  case inr =>
    obtain opens := List.mem_singleton.mp kind
    rw [run_ifAccept_of_mem isIn ahead kind, ParseM.run_readPrimary, peek_eq ahead, opens,
      if_neg (by decide), if_neg (by decide), if_pos rfl]
    exact group same token _ (isIn.of_passes (.advance ahead))
  have avoids : cursor.Avoids TokenKind.primaryStarts := fun token next kind => by
    rcases TokenKind.mem_primaryStarts_iff.mp kind with word | carries | opens
    · exact noWord token next word
    · exact noLiteral token next ((carries_iff _).mpr carries)
    · exact noGroup token next (List.mem_singleton.mpr opens)
  rw [run_ifAccept_of_avoids isIn noGroup, EStateM.run_bind, run_peek isIn,
    ParseM.run_readPrimary_of_avoids isIn.place.ends avoids]
  exact .error isIn

theorem descend (frames : Nat) (wanted : Rule) :
    Mirrors tokens (descend tokens limit frames wanted) (ParseM.descend limit frames wanted) := by
  induction frames generalizing wanted with
  | zero => exact .fail .exhausted
  | succ frames ih =>
      cases wanted with
      | start => exact ih .expression
      | expression =>
          intro cursor isIn
          rw [ParseM.descend, EStateM.run_bind, ParseM.run_spend, isIn.unlimited, if_neg (by simp)]
          exact ih (.binary .equality) cursor.spent (isIn.of_passes (.spent cursor))
      | binary level =>
          exact (ih level.operand).bind fun tree =>
            withLeft fun count => chain level.operators (ih level.operand) count tree
      | unary =>
          exact ifAccept (fun operator => (enter limit operator).bind fun _ =>
            (ih .unary).bind fun operand => leave.bind fun _ => .pure _) (ih .primary)
      | primary => exact readPrimary (ih .expression)

theorem readRule (limit : Option Int) (wanted : Rule) :
    Mirrors tokens (readRule tokens limit wanted) (ParseM.readRule limit wanted) :=
  withLeft fun count => descend (7 * count + 8) wanted

end Descent

end Mirrors

/-! ## Boundaries -/

namespace RowM

variable {tokens : List Token} {cursor : TokenCursor}

/-- What the loop asks is whether the cursor is at a boundary. -/
theorem atBoundary_iff (isIn : IsIn tokens cursor) :
    cursor.AtBoundary ↔ cursor.isAtEnd = true ∨ cursor.previous.kind = .semicolon ∨
      beginsStatement cursor.peek = true := by
  have behind : (∃ token ∈ cursor.passed.head?, token.kind = .semicolon) ↔
      cursor.previous.kind = .semicolon := by
    rw [TokenCursor.previous]
    cases cursor.passed with
    | nil => simp [isIn.last.2]
    | cons token rest => simp
  rw [AtBoundary, behind, TokenCursor.isAtEnd, TokenCursor.peek]
  cases cursor.ahead with
  | nil => simp
  | cons token rest => simp

theorem run_skip_of_atBoundary (isIn : IsIn tokens cursor) (boundary : cursor.AtBoundary)
    (count : Nat) : (skip tokens count).run cursor.mark = .ok () cursor.mark := by
  cases count with
  | zero => rfl
  | succ count =>
      rw [skip, EStateM.run_bind, run_isAtEnd isIn]
      dsimp only
      by_cases ended : cursor.isAtEnd = true
      · rw [if_pos ended]
        rfl
      rw [if_neg ended, EStateM.run_bind, run_previous isIn]
      dsimp only
      by_cases behind : cursor.previous.kind = .semicolon
      · rw [if_pos (by simpa using behind)]
        rfl
      have ahead := ((atBoundary_iff isIn).mp boundary).resolve_left ended |>.resolve_left behind
      rw [if_neg (by simpa using behind), EStateM.run_bind, run_peek isIn]
      dsimp only
      rw [if_pos ahead]
      rfl

theorem run_skip_of_not_atBoundary (isIn : IsIn tokens cursor) (inside : ¬ cursor.AtBoundary)
    (count : Nat) :
    (skip tokens (count + 1)).run cursor.mark = (skip tokens count).run cursor.advance.mark := by
  rw [atBoundary_iff isIn, not_or, not_or] at inside
  obtain ⟨goesOn, behind, ahead⟩ := inside
  rw [skip, EStateM.run_bind, run_isAtEnd isIn]
  dsimp only
  rw [if_neg goesOn, EStateM.run_bind, run_previous isIn]
  dsimp only
  rw [if_neg (by simpa using behind), EStateM.run_bind, run_peek isIn]
  dsimp only
  rw [if_neg ahead, EStateM.run_bind, run_advance isIn]

/-- The loop stops at the first boundary if it may go round often enough. -/
theorem run_skip (isIn : IsIn tokens cursor) {distance : Nat}
    (found : (cursor.pass distance).AtBoundary)
    (first : ∀ fewer < distance, ¬ (cursor.pass fewer).AtBoundary) {count : Nat}
    (enough : distance ≤ count) :
    (skip tokens count).run cursor.mark = .ok () (cursor.pass distance).mark := by
  induction distance generalizing cursor count with
  | zero => exact run_skip_of_atBoundary isIn found count
  | succ distance ih =>
      obtain ⟨count, rfl⟩ := Nat.exists_eq_add_of_le' (Nat.le_trans (Nat.le_add_left 1 _) enough)
      obtain ⟨read, passes⟩ := exists_passes_advance cursor
      rw [run_skip_of_not_atBoundary isIn (first 0 (Nat.succ_pos _)), pass_succ]
      refine ih (isIn.of_passes passes) (pass_succ distance cursor ▸ found) (fun fewer less => ?_)
        (Nat.le_of_succ_le_succ enough)
      rw [← pass_succ]
      exact first (fewer + 1) (Nat.succ_lt_succ less)

end RowM

namespace Mirrors

open RowM

variable {tokens : List Token}

theorem synchronize : Mirrors tokens (synchronize tokens) (modify TokenCursor.synchronize) := by
  intro cursor isIn
  obtain ⟨read, passes⟩ := exists_passes_advance cursor
  obtain ⟨skipped, passesOn, -⟩ := ParseM.exists_passes_synchronize cursor
  have isInNext := isIn.of_passes passes
  have result : (RowM.synchronize tokens).run cursor.mark = .ok () cursor.synchronize.mark := by
    rw [RowM.synchronize, EStateM.run_bind, run_advance isIn]
    dsimp only
    rw [EStateM.run_bind, run_left isInNext]
    by_cases ended : cursor.ahead = []
    · have stays : cursor.advance = cursor := by rw [TokenCursor.advance, ended]
      rw [stays, synchronize_of_nil ended, ended]
      rfl
    · obtain ⟨count, positive, inside, same, found, first⟩ := exists_synchronize_eq ended
      obtain ⟨distance, rfl⟩ := Nat.exists_eq_add_one_of_ne_zero (Nat.ne_of_gt positive)
      have shorter : distance ≤ cursor.advance.ahead.length := by
        rw [advance_eq_pass, ahead_pass, List.length_drop]
        omega
      rw [pass_succ] at same found
      rw [same]
      refine run_skip isInNext found (fun fewer less => ?_) shorter
      rw [← pass_succ]
      exact first (fewer + 1) (Nat.succ_pos _) (Nat.succ_lt_succ less)
  rw [result]
  exact .ok (isIn.of_passes passesOn)

/-! ## Calls -/

/-- A call that only looks. -/
theorem look {α : Type} {indexed : RowM α} {value : TokenCursor → α} (reply : α → ParserReply)
    (looks : ∀ cursor, IsIn tokens cursor →
      indexed.run cursor.mark = .ok (value cursor) cursor.mark) :
    Mirrors tokens (do return reply (← indexed)) (do return reply (value (← get))) := by
  intro cursor isIn
  rw [EStateM.run_bind, looks cursor isIn]
  exact .ok isIn

/-- Every call by index comes to what it comes to by cursor. -/
theorem perform (call : ParserCall) :
    Mirrors tokens (perform tokens call) (ParseM.perform call) := by
  cases call with
  | read wanted => exact (readRule _ wanted).bind fun tree => .pure _
  | synchronize => exact synchronize.bind fun _ => .pure _
  | peek => exact look .token fun _ => run_peek
  | previous => exact look .token fun _ => run_previous
  | advance => exact advance.bind fun token => .pure _
  | isAtEnd => exact look .flag fun _ => run_isAtEnd
  | leave => exact leave.bind fun _ => .pure _
  | enter =>
      intro cursor isIn
      rw [RowM.perform, EStateM.run_bind, run_peek isIn]
      exact ((enter _ cursor.peek).bind fun _ => .pure ParserReply.nothing) cursor isIn
  | accept kinds =>
      intro cursor isIn
      rw [RowM.perform, EStateM.run_bind, run_accept isIn, ParseM.run_perform_accept]
      by_cases found : kinds.any cursor.check = true
      · obtain ⟨read, passes⟩ := exists_passes_advance cursor
        rw [if_pos found, if_pos found]
        exact .ok (isIn.of_passes passes)
      · rw [if_neg found, if_neg found]
        exact .ok isIn
  | check kind => exact look .flag fun _ isIn => run_check isIn kind
  | consume kind message => exact (consume kind message).bind fun token => .pure _

end Mirrors

namespace RowM

open ParseM

variable {tokens : List Token} {cursor : TokenCursor}

/-- A row of calls by index ends where it ends by cursor. -/
theorem afterAll_mark (isIn : IsIn tokens cursor) (calls : List ParserCall) :
    afterAll tokens calls cursor.mark = (ParseM.afterAll calls cursor).mark := by
  induction calls generalizing cursor with
  | nil => rfl
  | cons call calls ih =>
      obtain ⟨read, passes⟩ := (step_after isIn.place.ends call).exists_passes
      rw [ParseM.afterAll, List.foldl_cons, ← ParseM.afterAll, ← ih (isIn.of_passes passes),
        afterAll, List.foldl_cons, ← afterAll]
      congr 1
      have same := Mirrors.perform call cursor isIn
      rw [ParseM.after]
      generalize (perform tokens call).run cursor.mark = result at same ⊢
      generalize (ParseM.perform call).run cursor = outcome at same ⊢
      cases same <;> rfl

end RowM

open ParseM in
/-- After any row of calls, failed ones included, the next call by index does what it does by
cursor, and looks up no token outside the row. The position has not passed the first token that
ends the input and the depth is within the limit. The call does not go back, and if it only
looks, or fails to pass or open what it is to, it changes nothing. The end of the input is
neither found nor passed. -/
theorem calls_stay_in_row {tokens : List Token} (ends : EndsInput tokens)
    (calls : List ParserCall) (call : ParserCall) :
    ∃ start, ofTokens? tokens = some start ∧
      let cursor := afterAll calls start
      let next := after (perform call) cursor
      let row := RowM.afterAll tokens calls ⟨0, 0⟩
      (row = cursor.mark ∧
        SameResult tokens ((RowM.perform tokens call).run row) ((perform call).run cursor) ∧
        ∀ index stopped, (RowM.perform tokens call).run row ≠ .error (.outOfRange index) stopped) ∧
      (cursor.position ≤ firstEnd tokens ∧ cursor.depth ≤ maxDepth ∧
        cursor.position ≤ next.position) ∧
      (LeavesAlone call ((perform call).run cursor) → next = cursor) ∧
      (∀ token, after (enter (some maxDepth) token) cursor = after (perform .enter) cursor) ∧
      (perform (.check .eof)).run cursor = .ok (.flag false) cursor ∧
      (∀ kinds, (perform (.accept kinds)).run cursor =
        (perform (.accept (kinds.filter (· != .eof)))).run cursor) ∧
      ∀ message, (perform (.consume .eof message)).run cursor =
        .error (.problem (.expectedToken cursor.peek .eof message)) cursor := by
  obtain ⟨last, final, isEnd⟩ := ends
  obtain ⟨start, opened⟩ := exists_ofTokens? final isEnd
  have beginning : start.mark = ⟨0, 0⟩ := by
    have isStart := isStartOf_of_ofTokens? opened
    rw [mark, position, isStart.passed, isStart.depth]
    rfl
  obtain ⟨isIn, fits⟩ := (IsReached.of_ofTokens? opened).afterAll calls
  have whole := isIn.position_add_length
  obtain ⟨read, passes⟩ := (step_after isIn.place.ends call).exists_passes
  have same := Mirrors.perform call _ isIn
  refine ⟨start, opened, ?_⟩
  rw [← beginning, RowM.afterAll_mark (.of_ofTokens? opened)]
  refine ⟨⟨rfl, same, fun index stopped outside => ?_⟩, ⟨by omega, fits, ?_⟩,
    after_of_leavesAlone, fun token => after_enter token _, run_perform_check_eof isIn,
    run_perform_accept_filter isIn, run_perform_consume_eof isIn⟩
  · rw [outside] at same
    cases same
  · rw [position_eq_of_passes passes]
    exact Nat.le_add_right _ _

/-- A failed reading, a level closed by hand and a look back, before the first of two tokens that
end the input. -/
theorem calls_stay_in_row_after_failure :
    let tokens : List Token :=
      [⟨.minus, "-", none, 1⟩, ⟨.eof, "", none, 1⟩, ⟨.kwNil, "nil", none, 2⟩, ⟨.eof, "", none, 2⟩]
    let calls : List ParserCall := [.previous, .read .start, .leave, .synchronize, .leave]
    EndsInput tokens ∧ RowM.afterAll tokens calls ⟨0, 0⟩ = ⟨1, -1⟩ ∧
      ∀ index stopped,
        (RowM.perform tokens .advance).run ⟨1, -1⟩ ≠ .error (.outOfRange index) stopped := by
  intro tokens calls
  have ends : EndsInput tokens := ⟨_, rfl, rfl⟩
  have row : RowM.afterAll tokens calls ⟨0, 0⟩ = ⟨1, -1⟩ := rfl
  obtain ⟨start, -, ⟨-, -, inside⟩, -⟩ := calls_stay_in_row ends calls .advance
  rw [row] at inside
  exact ⟨ends, row, inside⟩

end LoxFront
